import Mathlib.Data.Finset.Card
import Mathlib.Data.List.AList

/-!
# A key-value server with expiring keys

The part of Redis that clients build stores from, over an arbitrary type of string
values. A key holds a string, which may have an instant at which it disappears, or a
set; no command here gives a set an expiry. What has expired is not there for any
command. A command is atomic, and so is the transaction that `exec` runs, unless the
key a client watches has changed.

A client is a `Program`: requests, with what it does on each answer. `Program.run`
executes one alone; interleavings are built from `Request.run`.
-/

namespace Keyspace

variable {α ρ σ : Type}

inductive Entry (α : Type) where
  | text (value : α) (expiry : Option Int)
  | set (members : Finset String)
  deriving DecidableEq

def Entry.alive (now : Int) : Entry α → Bool
  | text _ (some expiry) => now < expiry
  | _ => true

/-- The keys, and how often each was changed. -/
structure Server (α : Type) where
  entries : AList (fun _ : String => Entry α) := ∅
  changes : String → Nat := fun _ => 0

namespace Server

def find (server : Server α) (now : Int) (key : String) : Option (Entry α) :=
  (server.entries.lookup key).filter (·.alive now)

def put (server : Server α) (key : String) (entry : Entry α) : Server α where
  entries := server.entries.insert key entry
  changes := Function.update server.changes key (server.changes key + 1)

def remove (server : Server α) (key : String) : Server α where
  entries := server.entries.erase key
  changes := Function.update server.changes key (server.changes key + 1)

end Server

/-! ## Commands -/

/-- `WRONGTYPE`, the error of a command on a key of the other type. -/
inductive WrongType where
  | wrongType
  deriving DecidableEq

inductive Read where
  | get (key : String)
  | sCard (key : String)
  | sMembers (key : String)
  | hasKey (key : String)
  | ttl (key : String)
  | scan (start : String)
  deriving DecidableEq

/-- `ttl` answers the time a key has left, if there is a key and if it expires at all;
`scan` answers the keys that start as given. -/
abbrev Read.Reply (α : Type) : Read → Type
  | .get _ => Except WrongType (Option α)
  | .sCard _ => Except WrongType Nat
  | .sMembers _ => Except WrongType (Finset String)
  | .hasKey _ => Bool
  | .ttl _ => Option (Option Int)
  | .scan _ => List String

def Server.setAt (server : Server α) (now : Int) (key : String) :
    Except WrongType (Finset String) :=
  match server.find now key with
  | none => .ok ∅
  | some (.set members) => .ok members
  | some (.text _ _) => .error .wrongType

def Read.run (now : Int) (server : Server α) : (read : Read) → read.Reply α
  | .get key =>
    match server.find now key with
    | none => .ok none
    | some (.text value _) => .ok (some value)
    | some (.set _) => .error .wrongType
  | .sCard key => (server.setAt now key).map Finset.card
  | .sMembers key => server.setAt now key
  | .hasKey key => (server.find now key).isSome
  | .ttl key => (server.find now key).map fun
      | .text _ expiry => expiry.map (· - now)
      | .set _ => none
  | .scan start => server.entries.keys.filter fun key =>
    start.toList.isPrefixOf key.toList && (server.find now key).isSome

inductive Expire where
  | never
  | keep
  | after (ttl : Int)
  deriving DecidableEq

inductive Write (α : Type) where
  | set (key : String) (value : α) (expire : Expire)
  | del (key : String)
  | sAdd (key member : String)
  | sRem (key member : String)
  deriving DecidableEq

def Write.key : Write α → String
  | .set key _ _ | .del key | .sAdd key _ | .sRem key _ => key

def Server.expiryAfter (server : Server α) (now : Int) (key : String) : Expire → Option Int
  | .never => none
  | .keep =>
    match server.find now key with
    | some (.text _ expiry) => expiry
    | _ => none
  | .after ttl => some (now + ttl)

/-- A write, and whether it failed. A set that becomes empty is removed. -/
def Write.run (now : Int) (server : Server α) : Write α → Bool × Server α
  | .set key value expire =>
    (false, server.put key (.text value (server.expiryAfter now key expire)))
  | .del key => (false, if (server.find now key).isSome then server.remove key else server)
  | .sAdd key member =>
    match server.find now key with
    | none => (false, server.put key (.set {member}))
    | some (.set members) =>
      (false, if member ∈ members then server
        else server.put key (.set (insert member members)))
    | some (.text _ _) => (true, server)
  | .sRem key member =>
    match server.find now key with
    | none => (false, server)
    | some (.set members) =>
      (false, if member ∉ members then server
        else if members.erase member = ∅ then server.remove key
        else server.put key (.set (members.erase member)))
    | some (.text _ _) => (true, server)

/-- Writes one after the other, and whether one failed; the others are executed. -/
def runAll (now : Int) : Server α → List (Write α) → Bool × Server α
  | server, [] => (false, server)
  | server, write :: rest =>
    let (failed, after) := write.run now server
    let (later, last) := runAll now after rest
    (failed || later, last)

/-! ## Clients -/

structure Token where
  changes : Nat
  present : Bool
  deriving DecidableEq

/-- `delIfEqual` and `expireIfEqual` are scripts: a comparison with the value and, if it
holds, a `DEL` or a `PEXPIRE`. -/
inductive Request (α : Type) where
  | read (command : Read)
  | write (command : Write α)
  | setNX (key : String) (value : α) (ttl : Option Int)
  | delIfEqual (key : String) (value : α)
  | expireIfEqual (key : String) (value : α) (ttl : Int)
  | watch (key : String)
  | exec (key : String) (seen : Token) (writes : List (Write α))

/-- A write and a script answer whether they failed, a transaction `none` if it was
aborted. -/
abbrev Request.Answer : Request α → Type
  | .read command => command.Reply α
  | .write _ => Bool
  | .setNX _ _ _ => Bool
  | .delIfEqual _ _ => Bool
  | .expireIfEqual _ _ _ => Bool
  | .watch _ => Token
  | .exec _ _ _ => Option Bool

/-- A watched key that was changed, or was there and has expired, aborts a transaction. -/
def Server.unchanged (server : Server α) (now : Int) (key : String) (seen : Token) : Bool :=
  server.changes key = seen.changes && (!seen.present || (server.find now key).isSome)

def Request.run [DecidableEq α] (now : Int) (server : Server α) :
    (request : Request α) → request.Answer × Server α
  | .read command => (command.run now server, server)
  | .write command => command.run now server
  | .setNX key value ttl =>
    if (server.find now key).isSome then (false, server)
    else (true, server.put key (.text value (ttl.map (now + ·))))
  | .delIfEqual key value =>
    match server.find now key with
    | none => (false, server)
    | some (.text held _) => (false, if held = value then server.remove key else server)
    | some (.set _) => (true, server)
  | .expireIfEqual key value ttl =>
    match server.find now key with
    | none => (false, server)
    | some (.text held _) =>
      (false, if held = value then server.put key (.text value (some (now + ttl)))
        else server)
    | some (.set _) => (true, server)
  | .watch key => (⟨server.changes key, (server.find now key).isSome⟩, server)
  | .exec key seen writes =>
    if server.unchanged now key seen then
      let (failed, after) := runAll now server writes
      (some failed, after)
    else (none, server)

inductive Program (α ρ : Type) where
  | done (result : ρ)
  | call (request : Request α) (next : request.Answer → Program α ρ)

namespace Program

def run [DecidableEq α] (now : Int) : Program α ρ → Server α → ρ × Server α
  | done result, server => (result, server)
  | call request next, server =>
    let (answer, after) := request.run now server
    (next answer).run now after

def bind : Program α ρ → (ρ → Program α σ) → Program α σ
  | done result, next => next result
  | call request answered, next => call request fun answer => (answered answer).bind next

def map (f : ρ → σ) (program : Program α ρ) : Program α σ :=
  program.bind fun result => done (f result)

def read (command : Read) (next : command.Reply α → Program α ρ) : Program α ρ :=
  call (.read command) next

/-- A pipeline: each write is a command of its own; the client goes on when all are
answered, with whether one failed. -/
def pipeline : List (Write α) → Bool → (Bool → Program α ρ) → Program α ρ
  | [], failed, next => next failed
  | command :: rest, failed, next =>
    call (.write command) fun answer => pipeline rest (failed || answer) next

end Program

/-! ## What a key holds after a change -/

variable {entry : Entry α}

theorem Entry.alive_of_le {now later : Int} (le : now ≤ later) (alive : entry.alive later = true) :
    entry.alive now = true := by
  unfold Entry.alive at alive ⊢
  split at alive
  · simp only [decide_eq_true_eq] at alive ⊢
    omega
  · rfl

variable {other : Server α} {value : α}

namespace Server

variable (server : Server α)

theorem find_put_self (now : Int) (key : String) (entry : Entry α) :
    (server.put key entry).find now key = if entry.alive now then some entry else none := by
  simp [find, put, Option.filter]

theorem find_put_of_ne {key other : String} (ne : other ≠ key) (now : Int) (entry : Entry α) :
    (server.put key entry).find now other = server.find now other := by
  simp [find, put, AList.lookup_insert_ne ne]

@[simp] theorem find_remove_self (now : Int) (key : String) :
    (server.remove key).find now key = none := by
  simp [find, remove]

theorem find_remove_of_ne {key other : String} (ne : other ≠ key) (now : Int) :
    (server.remove key).find now other = server.find now other := by
  simp [find, remove, AList.lookup_erase_ne ne]

variable {key : String}

theorem alive_of_find {now : Int} (found : server.find now key = some entry) :
    entry.alive now = true := by
  simp only [find, Option.filter_eq_some_iff] at found
  exact found.2

variable {now later : Int}

theorem find_of_le (le : now ≤ later) (key : String) :
    server.find later key = (server.find now key).filter (·.alive later) := by
  unfold find
  cases server.entries.lookup key with
  | none => rfl
  | some entry =>
    by_cases alive : entry.alive later = true
    · simp [Option.filter, alive, Entry.alive_of_le le alive]
    · by_cases before : entry.alive now = true <;> simp [Option.filter, alive, before]

def members (now : Int) (key : String) : Finset String :=
  match server.find now key with
  | some (.set members) => members
  | _ => ∅

def isText (now : Int) (key : String) : Bool :=
  match server.find now key with
  | some (.text _ _) => true
  | _ => false

theorem setAt_of_isText {now : Int} (set : server.isText now key = false) :
    server.setAt now key = .ok (server.members now key) := by
  unfold isText at set
  unfold setAt members
  cases found : server.find now key with
  | none => rfl
  | some entry => cases entry <;> simp_all

theorem setAt_eq_ok {now : Int} {held : Finset String} (answer : server.setAt now key = .ok held) :
    server.isText now key = false ∧ server.members now key = held := by
  unfold setAt at answer
  unfold isText members
  cases found : server.find now key with
  | none => simp_all
  | some entry => cases entry <;> simp_all

theorem get_eq_some_iff {now : Int} : (Read.get key).run now server = .ok (some value) ↔
      ∃ expiry, server.find now key = some (.text value expiry) := by
  simp only [Read.run]
  split
  · rename_i none
    simp [none]
  · rename_i held expiry found
    simp [found]
  · rename_i members found
    simp [found]

section
variable (same : other.find later key = server.find now key)
include same

theorem members_congr : other.members later key = server.members now key := by
  simp only [members, same]

theorem isText_congr : other.isText later key = server.isText now key := by
  simp only [isText, same]

end

theorem members_of_le (le : now ≤ later) (key : String) :
    server.members later key = server.members now key := by
  unfold members
  rw [server.find_of_le le]
  cases server.find now key with
  | none => rfl
  | some entry =>
    cases entry with
    | text value expiry =>
      by_cases alive : (Entry.text value expiry).alive later = true <;>
        simp [Option.filter, alive]
    | set => simp [Option.filter, Entry.alive]

theorem isText_of_le (le : now ≤ later) (set : server.isText now key = false) :
    server.isText later key = false := by
  unfold isText at set ⊢
  rw [server.find_of_le le]
  cases found : server.find now key with
  | none => rfl
  | some entry =>
    cases entry with
    | text => simp [found] at set
    | set => simp [Option.filter, Entry.alive]

end Server

namespace Write

theorem run_find_of_ne (write : Write α) (now : Int) (server : Server α) {key : String}
    (ne : key ≠ write.key) (later : Int) :
    (write.run now server).2.find later key = server.find later key := by
  cases write with
  | set => exact server.find_put_of_ne ne later _
  | del =>
    simp only [run]
    split
    · exact server.find_remove_of_ne ne later
    · rfl
  | sAdd =>
    simp only [run]
    (repeat' split) <;> first | rfl | exact server.find_put_of_ne ne later _
  | sRem =>
    simp only [run]
    (repeat' split) <;>
      first | rfl | exact server.find_put_of_ne ne later _ | exact server.find_remove_of_ne ne later

section
variable (now : Int) (server : Server α)
include now server

theorem set_find {key : String} {expire : Expire} (later : ∀ ttl, expire = .after ttl → 0 < ttl) :
    ((Write.set key value expire).run now server).2.find now key =
      some (.text value (server.expiryAfter now key expire)) := by
  simp only [run, Server.find_put_self]
  rw [if_pos]
  cases expire with
  | never => rfl
  | after ttl =>
    have positive := later ttl rfl
    simp only [Server.expiryAfter, Entry.alive, decide_eq_true_eq]
    omega
  | keep =>
    simp only [Server.expiryAfter]
    split
    · rename_i held expiry found
      have alive := server.alive_of_find found
      cases expiry with
      | none => rfl
      | some => exact alive
    · rfl

@[simp] theorem del_find (key : String) :
    ((Write.del key : Write α).run now server).2.find now key = none := by
  simp only [run]
  split
  · exact server.find_remove_self now key
  · rename_i absent
    simpa using absent

theorem sAdd_cases (key member : String) : (server.isText now key = true ∧
        (Write.sAdd key member : Write α).run now server = (true, server)) ∨
      ∃ after, (Write.sAdd key member : Write α).run now server = (false, after) ∧
        server.isText now key = false ∧
        after.find now key = some (.set (insert member (server.members now key))) := by
  unfold Server.isText Server.members
  cases found : server.find now key with
  | none => simp [run, found, Server.find_put_self, Entry.alive]
  | some entry =>
    cases entry with
    | text => simp [run, found]
    | set members =>
      by_cases present : member ∈ members <;>
        simp [run, found, present, Server.find_put_self, Entry.alive]

theorem sRem_cases (key member : String) : (server.isText now key = true ∧
        (Write.sRem key member : Write α).run now server = (true, server)) ∨
      ∃ after, (Write.sRem key member : Write α).run now server = (false, after) ∧
        server.isText now key = false ∧ after.isText now key = false ∧
        after.members now key = (server.members now key).erase member := by
  unfold Server.isText Server.members
  cases found : server.find now key with
  | none => simp [run, found]
  | some entry =>
    cases entry with
    | text => simp [run, found]
    | set members =>
      by_cases present : member ∈ members
      · by_cases last : members.erase member = ∅ <;>
          simp [run, found, present, last, Server.find_put_self, Entry.alive]
      · simp [run, found, present]

theorem sAdd_members {key : String} (member : String) (set : server.isText now key = false) :
    ((Write.sAdd key member : Write α).run now server).2.members now key =
      insert member (server.members now key) := by
  rcases sAdd_cases now server key member with ⟨text, _⟩ | ⟨_, ran, _, found⟩
  · rw [set] at text
    contradiction
  · simp [ran, Server.members, found]

section
variable (key member : String)
include key member

theorem sRem_members :
    ((Write.sRem key member : Write α).run now server).2.members now key =
      (server.members now key).erase member := by
  rcases sRem_cases now server key member with ⟨text, ran⟩ | ⟨_, ran, _, _, left⟩
  · have none : server.members now key = ∅ := by
      unfold Server.isText at text
      unfold Server.members
      split at text <;> simp_all
    simp [ran, none]
  · rw [ran, left]

theorem sAdd_isText :
    ((Write.sAdd key member : Write α).run now server).2.isText now key =
      server.isText now key := by
  rcases sAdd_cases now server key member with ⟨_, ran⟩ | ⟨_, ran, set, found⟩
  · rw [ran]
  · rw [set, ran]
    simp [Server.isText, found]

theorem sRem_isText :
    ((Write.sRem key member : Write α).run now server).2.isText now key =
      server.isText now key := by
  rcases sRem_cases now server key member with ⟨_, ran⟩ | ⟨_, ran, set, still, _⟩
  · rw [ran]
  · rw [ran, set, still]

theorem sAdd_failed :
    ((Write.sAdd key member : Write α).run now server).1 = server.isText now key := by
  unfold Server.isText
  simp only [run]
  (repeat' split) <;> simp_all

theorem sRem_failed :
    ((Write.sRem key member : Write α).run now server).1 = server.isText now key := by
  unfold Server.isText
  simp only [run]
  (repeat' split) <;> simp_all

end

end

theorem run_congr (write : Write α) {now : Int} {server : Server α}
    (same : other.find now write.key = server.find now write.key) :
    (write.run now other).1 = (write.run now server).1 ∧
      (write.run now other).2.find now write.key = (write.run now server).2.find now write.key := by
  cases write with
  | set key _ expire =>
    have expiry : other.expiryAfter now key expire = server.expiryAfter now key expire := by
      cases expire <;> simp only [Server.expiryAfter]
      rw [show other.find now key = server.find now key from same]
    simp only [run, Write.key, Server.find_put_self, expiry, and_self]
  | del key => exact ⟨rfl, by simp only [Write.key, del_find]⟩
  | sAdd key member =>
    simp only [Write.key] at same ⊢
    cases found : server.find now key with
    | none => simp [run, same, found, Server.find_put_self]
    | some entry =>
      cases entry with
      | text => simp [run, same, found]
      | set members =>
        by_cases present : member ∈ members <;>
          simp [run, same, found, present, Server.find_put_self]
  | sRem key member =>
    simp only [Write.key] at same ⊢
    cases found : server.find now key with
    | none => simp [run, same, found]
    | some entry =>
      cases entry with
      | text => simp [run, same, found]
      | set members =>
        by_cases present : member ∈ members
        · by_cases last : members.erase member = ∅ <;>
            simp [run, same, found, present, last, Server.find_put_self]
        · simp [run, same, found, present]

end Write

/-! ## Several writes -/

theorem runAll_find_of_notMem (now later : Int) (server : Server α) (writes : List (Write α))
    {key : String} (absent : key ∉ writes.map Write.key) :
    (runAll now server writes).2.find later key = server.find later key := by
  induction writes generalizing server with
  | nil => rfl
  | cons first _ ih =>
    simp only [List.map_cons, List.mem_cons, not_or] at absent
    simp only [runAll]
    rw [ih _ absent.2, first.run_find_of_ne now server absent.1]

/-- Writes to different keys do not see each other: each leaves its key as if it had been
the only one. -/
theorem runAll_find_of_mem {now : Int} {server : Server α} {writes : List (Write α)}
    (distinct : (writes.map Write.key).Nodup) {write : Write α} (member : write ∈ writes) :
    (runAll now server writes).2.find now write.key =
      (write.run now server).2.find now write.key := by
  induction writes generalizing server with
  | nil => contradiction
  | cons first rest ih =>
    simp only [List.map_cons, List.nodup_cons] at distinct
    simp only [runAll]
    rcases List.mem_cons.mp member with rfl | later
    · exact runAll_find_of_notMem now now _ rest distinct.1
    · have ne : write.key ≠ first.key :=
        fun same => distinct.1 (same ▸ List.mem_map_of_mem later)
      rw [ih distinct.2 later]
      exact (write.run_congr (first.run_find_of_ne now server ne now)).2

theorem runAll_failed_iff {now : Int} {server : Server α} {writes : List (Write α)}
    (distinct : (writes.map Write.key).Nodup) :
    (runAll now server writes).1 = true ↔ ∃ write ∈ writes, (write.run now server).1 = true := by
  induction writes generalizing server with
  | nil => simp [runAll]
  | cons first rest ih =>
    simp only [List.map_cons, List.nodup_cons] at distinct
    have others : ∀ write ∈ rest, (write.run now (first.run now server).2).1 =
        (write.run now server).1 := by
      intro write member
      have ne : write.key ≠ first.key :=
        fun same => distinct.1 (same ▸ List.mem_map_of_mem member)
      exact (write.run_congr (first.run_find_of_ne now server ne now)).1
    simp only [runAll, Bool.or_eq_true, ih distinct.2, List.exists_mem_cons_iff]
    refine or_congr_right (exists_congr fun write => and_congr_right fun member => ?_)
    rw [others write member]

theorem Program.pipeline_run [DecidableEq α] (now : Int) (server : Server α)
    (writes : List (Write α)) (failed : Bool) (next : Bool → Program α ρ) :
    (Program.pipeline writes failed next).run now server =
      (next (failed || (runAll now server writes).1)).run now (runAll now server writes).2 := by
  induction writes generalizing server failed with
  | nil => simp [Program.pipeline, runAll]
  | cons _ _ ih =>
    simp only [Program.pipeline, Program.run, Request.run, runAll]
    rw [ih, Bool.or_assoc]

theorem Program.bind_run [DecidableEq α] (now : Int) (server : Server α)
    (program : Program α ρ) (next : ρ → Program α σ) :
    (program.bind next).run now server =
      (next (program.run now server).1).run now (program.run now server).2 := by
  induction program generalizing server with
  | done => rfl
  | call _ _ ih =>
    simp only [Program.bind, Program.run]
    exact ih _ _

@[simp] theorem Program.map_run [DecidableEq α] (now : Int) (server : Server α)
    (program : Program α ρ) (f : ρ → σ) :
    (program.map f).run now server = (f (program.run now server).1, (program.run now server).2) :=
  Program.bind_run now server program _

end Keyspace
