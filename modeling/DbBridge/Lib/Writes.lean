import Mathlib.Data.List.Basic

/-!
# Programs that write to one output

A `Writes` program hands bytes to a writer, is told how many were taken and which
error there was, and goes on from the answer. `Ensures` is its rule of pre- and
postconditions: one condition on the result when the writer took everything, with
the bytes it took, and one when it ever answered with an error. `Matches` relates two
programs that make the same calls. `Buffer` is a buffered writer in front of another one,
whose error sticks.
-/

inductive Writes (ε ρ : Type) where
  | done (result : ρ)
  | write (bytes : List UInt8) (next : Nat → Option ε → Writes ε ρ)

namespace Writes

variable {ε ρ σ : Type} {post : ρ → Prop} {program : Writes ε ρ} {rest : ρ → Writes ε σ}
  {sent : List UInt8} {broken : ρ → Prop}

def bind : Writes ε ρ → (ρ → Writes ε σ) → Writes ε σ
  | .done result, f => f result
  | .write bytes next, f => .write bytes fun n err => (next n err).bind f

instance : Monad (Writes ε) where
  pure := Writes.done
  bind := Writes.bind

def call (bytes : List UInt8) : Writes ε (Nat × Option ε) :=
  .write bytes fun n err => .done (n, err)

def run (answer : σ → List UInt8 → (Nat × Option ε) × σ) : Writes ε ρ → σ → ρ × σ
  | .done result, state => (result, state)
  | .write bytes next, state =>
    let reply := answer state bytes
    (next reply.1.1 reply.1.2).run answer reply.2

/-- What a run hands to the writer, one entry a call. -/
def offered (answer : σ → List UInt8 → (Nat × Option ε) × σ) :
    Writes ε ρ → σ → List (List UInt8)
  | .done _, _ => []
  | .write bytes next, state =>
    let reply := answer state bytes
    bytes :: (next reply.1.1 reply.1.2).offered answer reply.2

variable {τ : Type}

theorem offered_bind (answer : τ → List UInt8 → (Nat × Option ε) × τ) (program : Writes ε ρ)
    (rest : ρ → Writes ε σ) (state : τ) :
    (program >>= rest).offered answer state =
      program.offered answer state ++
        (rest (program.run answer state).1).offered answer (program.run answer state).2 := by
  induction program generalizing state with
  | done => rfl
  | write bytes _ ih => exact congrArg (bytes :: ·) (ih _ _ (answer state bytes).2)

/-! ## Rules -/

def Always (post : ρ → Prop) : Writes ε ρ → Prop
  | .done result => post result
  | .write _ next => ∀ n err, (next n err).Always post

/-- From `sent` bytes on: a writer that takes everything leads to `post`, with all
the bytes sent, and after a failed call the result is in `broken`. -/
def Ensures (post : List UInt8 → ρ → Prop) (broken : ρ → Prop) :
    List UInt8 → Writes ε ρ → Prop
  | sent, .done result => post sent result
  | sent, .write bytes next =>
    (next bytes.length none).Ensures post broken (sent ++ bytes) ∧
      ∀ n err, (next n (some err)).Always broken

theorem Always.bind {after : σ → Prop} (first : program.Always post)
    (second : ∀ result, post result → (rest result).Always after) :
    (program >>= rest).Always after := by
  induction program with
  | done result => exact second result first
  | write _ _ ih => exact fun n err => ih n err (first n err)

theorem Always.mono {weaker : ρ → Prop} (holds : program.Always post)
    (implies : ∀ result, post result → weaker result) : program.Always weaker := by
  induction program with
  | done result => exact implies result holds
  | write _ _ ih => exact fun n err => ih n err (holds n err)

theorem Always.trivial (program : Writes ε ρ) : program.Always fun _ => True := by
  induction program with
  | done => exact True.intro
  | write _ _ ih => exact fun n err => ih n err

theorem Always.ensures (holds : program.Always post) :
    program.Ensures (fun _ => post) post sent := by
  induction program generalizing sent with
  | done => exact holds
  | write _ _ ih => exact ⟨ih _ _ (holds _ _), fun n err => holds n (some err)⟩

theorem Ensures.bind {post : List UInt8 → ρ → Prop} {after : List UInt8 → σ → Prop}
    {ruined : σ → Prop} (first : program.Ensures post broken sent)
    (good : ∀ sent result, post sent result → (rest result).Ensures after ruined sent)
    (bad : ∀ result, broken result → (rest result).Always ruined) :
    (program >>= rest).Ensures after ruined sent := by
  induction program generalizing sent with
  | done result => exact good sent result first
  | write _ _ ih => exact ⟨ih _ _ first.1, fun n err => (first.2 n err).bind bad⟩

theorem Ensures.mono {post weaker : List UInt8 → ρ → Prop} {ruined : ρ → Prop}
    (holds : program.Ensures post broken sent)
    (implies : ∀ sent result, post sent result → weaker sent result)
    (implies' : ∀ result, broken result → ruined result) : program.Ensures weaker ruined sent := by
  induction program generalizing sent with
  | done result => exact implies sent result holds
  | write _ _ ih => exact ⟨ih _ _ holds.1, fun n err => (holds.2 n err).mono implies'⟩

theorem call_ensures (bytes sent : List UInt8) :
    (call bytes : Writes ε (Nat × Option ε)).Ensures
      (fun after reply => after = sent ++ bytes ∧ reply = (bytes.length, none))
      (fun reply => reply.2 ≠ none) sent :=
  ⟨⟨rfl, rfl⟩, fun _ _ => by simp [Always]⟩

variable {answer : σ → List UInt8 → (Nat × Option ε) × σ}

theorem run_of_always {state : σ} (holds : program.Always post) :
    post (program.run answer state).1 := by
  induction program generalizing state with
  | done => exact holds
  | write _ _ ih => exact ih _ _ (holds _ _)

/-- A writer that reports every short write, with an account `taken` of the bytes it
took: a run either breaks or ends with everything taken. -/
theorem run_of_ensures {taken : List UInt8 → σ → Prop}
    (honest : ∀ sent state bytes, taken sent state → (answer state bytes).1.2 = none → (answer state
      bytes).1.1 = bytes.length ∧ taken (sent ++ bytes) (answer state bytes).2)
    {post : List UInt8 → ρ → Prop} {state : σ} (holds : program.Ensures post broken sent)
    (start : taken sent state) :
    broken (program.run answer state).1 ∨
      ∃ after, post after (program.run answer state).1 ∧
        taken after (program.run answer state).2 := by
  induction program generalizing sent state with
  | done => exact .inr ⟨sent, holds, start⟩
  | write bytes _ ih =>
    simp only [run]
    cases failed : (answer state bytes).1.2 with
    | none =>
      obtain ⟨full, account⟩ := honest sent state bytes start failed
      rw [full]
      exact ih _ _ holds.1 account
    | some err =>
      exact .inl (run_of_always (holds.2 _ err))

/-! ## Programs that make the same calls -/

/-- The programs make the same calls, whatever the answers are, and end with related
results. -/
def Matches (related : ρ → σ → Prop) : Writes ε ρ → Writes ε σ → Prop
  | .done result, .done result' => related result result'
  | .write bytes next, .write bytes' next' =>
    bytes = bytes' ∧ ∀ n err, (next n err).Matches related (next' n err)
  | _, _ => False

theorem Matches.refl (program : Writes ε ρ) : program.Matches (· = ·) program := by
  induction program with
  | done => exact rfl
  | write _ _ ih => exact ⟨rfl, fun n err => ih n err⟩

theorem Matches.bind {ρ' σ' : Type} {related : ρ → ρ' → Prop} {after : σ → σ' → Prop}
    {program' : Writes ε ρ'} {rest' : ρ' → Writes ε σ'} (first : program.Matches related program')
    (second : ∀ result result', related result result' → (rest result).Matches after (rest'
      result')) : (program >>= rest).Matches after (program' >>= rest') := by
  induction program generalizing program' with
  | done result =>
    cases program' with
    | done result' => exact second result result' first
    | write => exact first.elim
  | write _ _ ih =>
    cases program' with
    | done => exact first.elim
    | write => exact ⟨first.1, fun n err => ih n err (first.2 n err)⟩

variable {related : ρ → σ → Prop} {program' : Writes ε σ}

theorem Matches.mono {weaker : ρ → σ → Prop} (same : program.Matches related program')
    (implies : ∀ result result', related result result' → weaker result result') :
    program.Matches weaker program' := by
  induction program generalizing program' with
  | done result =>
    cases program' with
    | done result' => exact implies result result' same
    | write => exact same.elim
  | write _ _ ih =>
    cases program' with
    | done => exact same.elim
    | write => exact ⟨same.1, fun n err => ih n err (same.2 n err)⟩

theorem Matches.after {ρ' σ' : Type} {after : ρ' → σ' → Prop} (program : Writes ε ρ)
    {rest : ρ → Writes ε ρ'} {rest' : ρ → Writes ε σ'}
    (second : ∀ result, (rest result).Matches after (rest' result)) :
    (program >>= rest).Matches after (program >>= rest') :=
  (Matches.refl program).bind fun result _ same => same ▸ second result

theorem Matches.run (same : program.Matches related program')
    (answer : τ → List UInt8 → (Nat × Option ε) × τ) (state : τ) :
    related (program.run answer state).1 (program'.run answer state).1 ∧
      (program.run answer state).2 = (program'.run answer state).2 := by
  induction program generalizing program' state with
  | done =>
    cases program' with
    | done => exact ⟨same, rfl⟩
    | write => exact same.elim
  | write _ _ ih =>
    cases program' with
    | done => exact same.elim
    | write =>
      obtain ⟨rfl, further⟩ := same
      exact ih _ _ (further _ _) _

/-! ## A buffered writer -/

structure Buffer (ε : Type) where
  pending : List UInt8 := []
  err : Option ε := none

namespace Buffer

variable (size : Nat) (shortWrite : ε)

def flush (b : Buffer ε) : Writes ε (Buffer ε) :=
  match b.err, b.pending with
  | some _, _ => pure b
  | none, [] => pure b
  | none, pending => do
      let (n, err) ← call pending
      match err with
      | some err => pure { pending := pending.drop n, err := some err }
      | none =>
        if n < pending.length then pure { pending := pending.drop n, err := some shortWrite }
        else pure {}

def writeByte (b : Buffer ε) (byte : UInt8) : Writes ε (Buffer ε) :=
  match b.err with
  | some _ => pure b
  | none =>
    if b.pending.length < size then pure { b with pending := b.pending ++ [byte] }
    else do
      let b ← b.flush shortWrite
      match b.err with
      | some _ => pure b
      | none => pure { b with pending := b.pending ++ [byte] }

/-- A string cut into pieces that fill the buffer reaches the writer in the same
calls as its bytes one by one. -/
def writeBytes : Buffer ε → List UInt8 → Writes ε (Buffer ε)
  | b, [] => pure b
  | b, byte :: rest => do
      let b ← b.writeByte size shortWrite byte
      b.writeBytes rest

variable {size shortWrite} {b : Buffer ε}

theorem flush_ensures (clear : b.err = none) :
    (b.flush shortWrite).Ensures (fun after b' => b' = {} ∧ after = sent ++ b.pending)
      (fun b' => b'.err ≠ none) sent := by
  obtain ⟨pending, err⟩ := b
  cases clear
  cases pending with
  | nil => exact ⟨rfl, by simp⟩
  | cons byte rest =>
    refine (call_ensures (byte :: rest) sent).bind ?_ ?_
    · rintro after reply ⟨rfl, rfl⟩
      simp [Ensures, pure]
    · rintro ⟨n, err⟩ failed
      cases err with
      | none => exact absurd rfl failed
      | some => simp [Always, pure]

theorem writeByte_stuck (stuck : b.err ≠ none) (byte : UInt8) :
    b.writeByte size shortWrite byte = pure b := by
  unfold writeByte
  cases failed : b.err with
  | none => exact absurd failed stuck
  | some => rfl

/-- What has been sent and what is pending are the bytes written, in order. -/
theorem writeByte_ensures (clear : b.err = none) (byte : UInt8) :
    (b.writeByte size shortWrite byte).Ensures
      (fun after b' => b'.err = none ∧ after ++ b'.pending = sent ++ b.pending ++ [byte])
      (fun b' => b'.err ≠ none) sent := by
  unfold writeByte
  rw [clear]
  dsimp only
  split
  · exact ⟨rfl, by simp⟩
  · refine (flush_ensures clear).bind ?_ ?_
    · rintro after b' ⟨rfl, rfl⟩
      exact ⟨rfl, by simp⟩
    · intro b' stuck
      cases failed : b'.err with
      | none => exact absurd failed stuck
      | some => simp [Always, pure, failed]

theorem writeBytes_stuck (stuck : b.err ≠ none) (bytes : List UInt8) :
    b.writeBytes size shortWrite bytes = pure b := by
  induction bytes with
  | nil => rfl
  | cons _ _ ih =>
    rw [writeBytes, writeByte_stuck stuck]
    exact ih

theorem writeBytes_ensures (clear : b.err = none) (bytes : List UInt8) :
    (b.writeBytes size shortWrite bytes).Ensures
      (fun after b' => b'.err = none ∧ after ++ b'.pending = sent ++ b.pending ++ bytes)
      (fun b' => b'.err ≠ none) sent := by
  induction bytes generalizing b sent with
  | nil => exact ⟨clear, by simp⟩
  | cons byte _ ih =>
    refine (writeByte_ensures clear byte).bind ?_ ?_
    · rintro after b' ⟨clear', account⟩
      refine (ih clear').mono ?_ fun _ stuck => stuck
      rintro last b'' ⟨clear'', account'⟩
      exact ⟨clear'', by rw [account', account]; simp⟩
    · intro b' stuck
      rw [writeBytes_stuck stuck]
      exact stuck

end Buffer

end Writes
