import DbBridge.Config.Validate
import DbBridge.Lib.Runs

/-!
# `config.Manager.Reload`

A reload reads the file, parses and validates it, and stores the pointer; nothing
orders these steps among reloads that run at the same time. yaml.v3 and the
environment are parameters. A call remembers how often the file had been
rewritten when it read it.
-/

namespace DbBridge.Settings

/-- `hasContent` is `doc.Kind != 0`. -/
structure Yaml where
  Doc : Type
  unmarshal : List UInt8 → Except String Doc
  hasContent : Doc → Bool
  expandEnv : Doc → Except String Doc
  decode : Doc → Except String Config

def labelled {α : Type} (label : String) (result : Except String α) : Except String α :=
  result.mapError fun err => label ++ ": " ++ err

/-- The part of `Reload` between the read and the store. -/
def Yaml.parse (yaml : Yaml) (data : List UInt8) : Except String Config := do
  let doc ← labelled "failed to unmarshal yaml" (yaml.unmarshal data)
  let cfg ←
    if yaml.hasContent doc then do
      let expanded ← labelled "failed to expand config" (yaml.expandEnv doc)
      labelled "failed to unmarshal yaml" (yaml.decode expanded)
    else .ok {}
  labelled "config validation failed" (validate cfg)

/-- Where a call of `Reload` is; `seen` counts the rewrites of the file before it was
read. -/
inductive Reload where
  | called
  | read (seen : Nat) (data : List UInt8)
  | parsed (seen : Nat) (cfg : Config)
  | returned (seen : Nat) (err : Option String)
  deriving DecidableEq, Repr

/-- The configuration file, the manager's pointer and the calls of `Reload`, in the
order in which they were made. -/
structure Host where
  file : List UInt8
  rewrites : Nat := 0
  ptr : Config
  calls : List Reload := []
  deriving DecidableEq, Repr

inductive HostAction where
  | rewrite (data : List UInt8)
  | call
  | read (index : Nat) (failure : Option String)
  | parse (index : Nat)
  | store (index : Nat)

namespace Host

variable (yaml : Yaml)

def get (h : Host) : Config := h.ptr

def move (h : Host) (index : Nat) (next : Reload) : Host :=
  { h with calls := h.calls.set index next }

def step (h : Host) : HostAction → Option Host
  | .rewrite data => some { h with file := data, rewrites := h.rewrites + 1 }
  | .call => some { h with calls := h.calls ++ [.called] }
  | .read index failure =>
    match h.calls[index]? with
    | some .called =>
      match failure with
      | some err =>
        some (h.move index
          (.returned h.rewrites (some ("failed to read config file: " ++ err))))
      | none => some (h.move index (.read h.rewrites h.file))
    | _ => none
  | .parse index =>
    match h.calls[index]? with
    | some (.read seen data) =>
      match yaml.parse data with
      | .error err => some (h.move index (.returned seen (some err)))
      | .ok cfg => some (h.move index (.parsed seen cfg))
    | _ => none
  | .store index =>
    match h.calls[index]? with
    | some (.parsed seen cfg) =>
      some { h.move index (.returned seen none) with ptr := cfg }
    | _ => none

end Host

/-! ## Who stores last -/

/-- A call that returned nil after reading a file rewritten more than `seen` times. -/
def Reload.newerThan (seen : Nat) : Reload → Bool
  | .returned other none => seen < other
  | _ => false

variable {call : Reload} {index : Nat}

namespace Host

def storing (h : Host) : HostAction → Option Nat
  | .store index =>
    match h.calls[index]? with
    | some (.parsed seen _) => some seen
    | _ => none
  | _ => none

/-- A reload stores only while no reload of newer file content has returned nil. -/
def InOrder (h : Host) (action : HostAction) : Prop :=
  ∀ seen ∈ h.storing action, ∀ call ∈ h.calls, ¬ call.newerThan seen

instance (h : Host) (action : HostAction) : Decidable (h.InOrder action) :=
  inferInstanceAs (Decidable (∀ seen ∈ h.storing action, ∀ call ∈ h.calls, ¬ call.newerThan seen))

def Knows (yaml : Yaml) (h : Host) : Reload → Prop
  | .called => True
  | .read seen data => seen ≤ h.rewrites ∧ (seen = h.rewrites → data = h.file)
  | .parsed seen cfg =>
    seen ≤ h.rewrites ∧ (seen = h.rewrites → yaml.parse h.file = .ok cfg)
  | .returned seen err =>
    seen ≤ h.rewrites ∧
      (seen = h.rewrites → err = none → yaml.parse h.file = .ok h.ptr)

def Consistent (yaml : Yaml) (h : Host) : Prop := ∀ call ∈ h.calls, h.Knows yaml call

variable {yaml : Yaml} {h : Host}

theorem Knows.of_rewrite (knows : h.Knows yaml call) (data : List UInt8) :
    ({ h with file := data, rewrites := h.rewrites + 1 } : Host).Knows yaml call := by
  have older : ∀ {seen : Nat}, seen = h.rewrites + 1 → ¬ seen ≤ h.rewrites := by omega
  cases call with
  | called => trivial
  | read | parsed | returned =>
    exact ⟨Nat.le_succ_of_le knows.1, fun now => absurd knows.1 (older now)⟩

theorem Consistent.move (consistent : h.Consistent yaml) {next : Reload}
    (knows : h.Knows yaml next) : (h.move index next).Consistent yaml := by
  intro call member
  rcases List.mem_or_eq_of_mem_set member with old | new
  · exact consistent call old
  · exact new ▸ knows

theorem Consistent.knows (consistent : h.Consistent yaml) (at' : h.calls[index]? = some call) :
    h.Knows yaml call :=
  consistent call (List.mem_of_getElem? at')

theorem Consistent.store (consistent : h.Consistent yaml) {seen : Nat} {cfg : Config}
    (parsed : h.calls[index]? = some (.parsed seen cfg))
    (inOrder : ∀ call ∈ h.calls, ¬ call.newerThan seen) :
    ({ h.move index (.returned seen none) with ptr := cfg } : Host).Consistent yaml := by
  obtain ⟨bound, fresh⟩ := consistent.knows parsed
  intro call member
  rcases List.mem_or_eq_of_mem_set member with old | new
  · have knows := consistent call old
    cases call with
    | called => trivial
    | read | parsed => exact knows
    | returned other =>
      refine ⟨knows.1, fun now nil => ?_⟩
      subst nil
      have notNewer : ¬ seen < other := by simpa [Reload.newerThan] using inOrder _ old
      have now : other = h.rewrites := now
      exact fresh (by omega)
  · subst new
    exact ⟨bound, fun now _ => fresh now⟩

theorem step_consistent {after : Host} {action : HostAction} (consistent : h.Consistent yaml)
    (inOrder : h.InOrder action) (taken : h.step yaml action = some after) :
    after.Consistent yaml := by
  cases action with
  | rewrite data =>
    cases taken
    exact fun call member => (consistent call member).of_rewrite data
  | call =>
    cases taken
    intro call member
    rcases List.mem_append.mp member with old | new
    · exact consistent call old
    · cases List.mem_singleton.mp new
      trivial
  | read _ failure =>
    simp only [step] at taken
    split at taken
    · cases failure with
      | some =>
        cases taken
        exact consistent.move ⟨Nat.le_refl _, fun _ nil => nomatch nil⟩
      | none =>
        cases taken
        exact consistent.move ⟨Nat.le_refl _, fun _ => rfl⟩
    · contradiction
  | parse index =>
    simp only [step] at taken
    split at taken
    · rename_i seen data reading
      obtain ⟨bound, same⟩ := consistent.knows reading
      cases outcome : yaml.parse data with
      | error =>
        rw [outcome] at taken
        cases taken
        exact consistent.move ⟨bound, fun _ nil => nomatch nil⟩
      | ok =>
        rw [outcome] at taken
        cases taken
        exact consistent.move ⟨bound, fun now => same now ▸ outcome⟩
    · contradiction
  | store index =>
    simp only [step] at taken
    split at taken <;> cases taken
    rename_i seen cfg parsed
    exact consistent.store parsed (inOrder seen (by simp [storing, parsed]))

/-- Along a run in which reloads store in order: once a reload that read the file
after its last rewrite has returned nil, `Get` returns the configuration of that
content, also while others are under way. -/
theorem reload_installs_last_content {first h : Host} (noCalls : first.calls = [])
    (run : Runs.Reaches (step yaml) InOrder first h)
    (returned : .returned h.rewrites none ∈ h.calls) : yaml.parse h.file = .ok h.get := by
  have consistent : h.Consistent yaml :=
    run.invariant (Consistent yaml) (by simp [Consistent, noCalls])
      fun before action after => step_consistent
  exact (consistent _ returned).2 rfl rfl

/-! ## Two reloads and one rewrite -/

def instanceFile : Yaml where
  Doc := String
  unmarshal data := .ok (String.ofList (data.map fun byte => Char.ofNat byte.toNat))
  hasContent doc := doc ≠ ""
  expandEnv doc := .ok doc
  decode doc := .ok { inst := { id := doc, metaStore := "memory" } }

def named (id : String) : Config :=
  withDefaults { inst := { id, metaStore := "memory" } }

def started : Host := { file := [97], ptr := named "a" }

/-- One reload overtakes another between the read of the old and of the new file, and
the older of the two stores at the given place of the schedule. -/
def overtaking (stores : List HostAction) : List HostAction :=
  [.call, .read 0 none, .rewrite [98], .call, .read 1 none, .parse 1, .parse 0] ++ stores

theorem later_read_stores_last :
    ∃ h, Runs.Reaches (step instanceFile) InOrder started h ∧
      .returned h.rewrites none ∈ h.calls ∧ h.file = [98] ∧
      instanceFile.parse h.file = .ok h.get := by
  obtain ⟨h, run, returned, file⟩ : ∃ h, Runs.Reaches (step instanceFile) InOrder started h ∧
      .returned h.rewrites none ∈ h.calls ∧ h.file = [98] :=
    Runs.exists_reaches (overtaking [.store 0, .store 1]) (by decide +kernel)
  exact ⟨h, run, returned, file, reload_installs_last_content rfl run returned⟩

/-- The reload that read the older file stores last. -/
theorem older_reload_wins :
    ∃ h, Runs.Reaches (step instanceFile) Runs.Always started h ∧
      .returned h.rewrites none ∈ h.calls ∧
      (∀ call ∈ h.calls, ∃ seen err, call = .returned seen err) ∧
      h.file = [98] ∧ instanceFile.parse [98] = .ok (named "b") ∧ h.get = named "a" := by
  have ran : Runs.execute (step instanceFile) Runs.Always (overtaking [.store 1, .store 0])
      started = some
        { file := [98], rewrites := 1, ptr := named "a",
          calls := [.returned 0 none, .returned 1 none] } := by
    decide +kernel
  exact ⟨_, Runs.reaches_of_execute _ _ _ ran, by simp, by simp, rfl, rfl, rfl⟩

end Host

end DbBridge.Settings
