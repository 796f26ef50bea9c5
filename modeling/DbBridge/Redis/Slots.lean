import DbBridge.Redis.Clients

/-!
# Records and the sets of in-flight queries

`CountInFlight` and `ListByInstance` read a set that the record operations maintain by
hand. Of a query only two bits matter for it: whether its record is stored and not
terminal, and whether the set of its owner names it. They are settled if they agree. The
commands of a write settle them, whatever they were, and so do those of a deletion.
-/

namespace DbBridge.State.Redis

open Domain Keyspace

/-! ## The two bits of a query -/

structure Slot where
  active : Bool
  member : Bool
  deriving DecidableEq

def Slot.Settled (slot : Slot) : Prop := slot.active = slot.member

instance (slot : Slot) : Decidable slot.Settled := inferInstanceAs (Decidable (_ = _))

def isActive (now : Time) (server : Server Data) (id : String) : Bool :=
  match server.find now (queryKey id) with
  | some (.text (.record record) _) => !record.state.isTerminal
  | _ => false

def slotAt (owner : String → String) (now : Time) (server : Server Data) (id : String) : Slot where
  active := isActive now server id
  member := decide (id ∈ server.members now (instanceQueriesKey (owner id)))

def Slot.after (owner : String → String) (id : String) (slot : Slot) : Write Data → Slot
  | .set key (.record record) _ =>
    if key = queryKey id then { slot with active := !record.state.isTerminal } else slot
  | .set _ (.text _) _ => slot
  | .del key => if key = queryKey id then { slot with active := false } else slot
  | .sAdd key member =>
    if key = instanceQueriesKey (owner id) ∧ member = id then { slot with member := true }
    else slot
  | .sRem key member =>
    if key = instanceQueriesKey (owner id) ∧ member = id then { slot with member := false }
    else slot

def Settles (owner : String → String) (id : String) (slot : Slot) (writes : List (Write Data)) :
    Prop :=
  (writes.foldl (Slot.after owner id) slot).Settled

def Regular : Write Data → Prop
  | .set _ (.record _) expire => ∀ ttl, expire = .after ttl → 0 < ttl
  | .set _ (.text _) _ => False
  | .del key => kind key ≠ kind (instanceQueriesKey "")
  | .sRem key _ => kind key = kind (instanceQueriesKey "")
  | .sAdd _ _ => True

def Concerns (owner : String → String) (id : String) (write : Write Data) : Prop :=
  ∀ other, other ≠ id → ∀ slot : Slot, slot.after owner other write = slot

variable {id : String}

section
variable {owner : String → String}

theorem writeQuery_regular (record : QueryRecord) : ∀ write ∈ writeQuery record, Regular write := by
  intro write listed
  rcases (mem_writeQuery_iff record write).mp listed with rfl | ⟨_, rfl⟩ | rfl | ⟨_, rfl⟩
  · exact fun ttl after => setExpire_positive after
  · trivial
  · unfold indexWrite
    split
    · simp [Regular]
    · trivial
  · simp [Regular]

theorem writeQuery_concerns (record : QueryRecord) :
    ∀ write ∈ writeQuery record, Concerns owner record.id write := by
  intro write listed other ne slot
  rcases (mem_writeQuery_iff record write).mp listed with rfl | ⟨_, rfl⟩ | rfl | ⟨_, rfl⟩
  · simp [recordWrite, Slot.after, ne.symm]
  · have apart : databasesSeenKey ≠ instanceQueriesKey (owner other) := ne_of_kind (by simp)
    simp [Slot.after, apart]
  · unfold indexWrite
    split <;> simp [Slot.after, ne.symm]
  · have apart : leaseKey record.id ≠ queryKey other := ne_of_kind (by simp)
    simp [Slot.after, apart]

theorem writeQuery_settles {record : QueryRecord}
    (own : record.ownerInstanceID = owner record.id) (slot : Slot) :
    Settles owner record.id slot (writeQuery record) := by
  have seen : databasesSeenKey ≠ instanceQueriesKey (owner record.id) := ne_of_kind (by simp)
  have lease : leaseKey record.id ≠ queryKey record.id := ne_of_kind (by simp)
  unfold Settles writeQuery Slot.Settled
  by_cases named : record.databaseID = "" <;> cases terminal : record.state.isTerminal <;>
    simp [named, terminal, Slot.after, own, seen, lease]

theorem deletion_regular (id : String) (read : Except StoreError QueryRecord) :
    ∀ write ∈ deletion id read, Regular write := by
  intro write listed
  rcases (mem_deletion_iff id read write).mp listed with rfl | rfl | ⟨_, _, rfl⟩ <;>
    simp [Regular]

theorem deletion_concerns (id : String) (read : Except StoreError QueryRecord) :
    ∀ write ∈ deletion id read, Concerns owner id write := by
  intro write listed other ne slot
  have lease : leaseKey id ≠ queryKey other := ne_of_kind (by simp)
  rcases (mem_deletion_iff id read write).mp listed with rfl | rfl | ⟨_, _, rfl⟩ <;>
    simp [Slot.after, ne.symm, lease]

theorem deletion_settles {read : Except StoreError QueryRecord} {slot : Slot}
    (owned : ∀ record, read = .ok record → record.ownerInstanceID = owner id)
    (missing : (∀ record, read ≠ .ok record) → slot.member = false) :
    Settles owner id slot (deletion id read) := by
  have lease : leaseKey id ≠ queryKey id := ne_of_kind (by simp)
  cases read with
  | error =>
    have absent := missing (by simp)
    simp [Settles, deletion, Slot.after, Slot.Settled, lease, absent]
  | ok record =>
    have own := owned record rfl
    simp [Settles, deletion, Slot.after, Slot.Settled, lease, own]

end

/-! ## The bits follow the commands -/

structure Tidy (owner : String → String) (now : Time) (server : Server Data) : Prop
    extends Homed owner now server where
  set : ∀ i, server.isText now (instanceQueriesKey i) = false

theorem isActive_congr {now : Time} {server after : Server Data}
    (same : after.find now (queryKey id) = server.find now (queryKey id)) :
    isActive now after id = isActive now server id := by
  simp only [isActive, same]

variable {owner : String → String}

theorem isActive_write {write : Write Data} (placed : Placed owner write)
    (regular : Regular write) (now : Time) (server : Server Data) (id : String) :
    isActive now (write.run now server).2 id =
      ((slotAt owner now server id).after owner id write).active := by
  by_cases same : queryKey id = write.key
  · cases write with
    | set key value =>
      have query : queryKey id = key := same
      subst query
      cases value with
      | record => simp [isActive, Write.set_find now server regular, Slot.after]
      | text => exact regular.elim
    | del key =>
      have query : queryKey id = key := same
      subst query
      simp [isActive, Write.del_find, Slot.after]
    | sAdd =>
      rcases placed with seen | index
      · exact absurd (same.trans seen) (ne_of_kind (by simp))
      · exact absurd (same.trans index) (ne_of_kind (by simp))
    | sRem key =>
      have query : queryKey id = key := same
      simp [Regular, ← query] at regular
  · have kept : isActive now (write.run now server).2 id = isActive now server id :=
      isActive_congr (write.run_find_of_ne now server same now)
    rw [kept]
    cases write with
    | set key value =>
      have other : key ≠ queryKey id := fun query => same query.symm
      cases value <;> simp [Slot.after, slotAt, other]
    | del key =>
      have other : key ≠ queryKey id := fun query => same query.symm
      simp [Slot.after, slotAt, other]
    | sAdd | sRem =>
      simp only [Slot.after]
      split <;> rfl

namespace Tidy

variable {now : Time} {server : Server Data}

theorem empty : Tidy owner now {} := ⟨Homed.empty, fun _ => rfl⟩

section
variable (tidy : Tidy owner now server)
include tidy

theorem of_le {later : Time} (le : now ≤ later) : Tidy owner later server :=
  ⟨tidy.toHomed.of_le le, fun i => server.isText_of_le le (tidy.set i)⟩

theorem write {write : Write Data} (placed : Placed owner write) (regular : Regular write) :
    Tidy owner now (write.run now server).2 where
  toHomed := tidy.toHomed.write placed
  set := by
    intro i
    by_cases same : instanceQueriesKey i = write.key
    · cases write with
      | set _ value =>
        cases value with
        | record record =>
          have query : instanceQueriesKey i = queryKey record.id := same.trans placed.1
          exact absurd query (ne_of_kind (by simp))
        | text => exact regular.elim
      | del key =>
        have index : instanceQueriesKey i = key := same
        simp [Regular, ← index] at regular
      | sAdd key =>
        have index : instanceQueriesKey i = key := same
        subst index
        rw [Write.sAdd_isText]
        exact tidy.set i
      | sRem key =>
        have index : instanceQueriesKey i = key := same
        subst index
        rw [Write.sRem_isText]
        exact tidy.set i
    · rw [Server.isText_congr server (write.run_find_of_ne now server same now)]
      exact tidy.set i

theorem member_write {write : Write Data} (placed : Placed owner write) (regular : Regular write)
    (id : String) :
    decide (id ∈ (write.run now server).2.members now (instanceQueriesKey (owner id))) =
      ((slotAt owner now server id).after owner id write).member := by
  by_cases same : instanceQueriesKey (owner id) = write.key
  · cases write with
    | set _ value =>
      cases value with
      | record => exact absurd (same.trans placed.1) (ne_of_kind (by simp))
      | text => exact regular.elim
    | del key =>
      have index : instanceQueriesKey (owner id) = key := same
      simp [Regular, ← index] at regular
    | sAdd key member =>
      have index : instanceQueriesKey (owner id) = key := same
      subst index
      rw [Write.sAdd_members now server member (tidy.set _)]
      by_cases this : member = id
      · simp [Slot.after, this]
      · simp [Slot.after, this, slotAt, Ne.symm this]
    | sRem key member =>
      have index : instanceQueriesKey (owner id) = key := same
      subst index
      rw [Write.sRem_members]
      by_cases this : member = id
      · simp [Slot.after, this]
      · simp [Slot.after, this, slotAt, Ne.symm this]
  · rw [Server.members_congr server (write.run_find_of_ne now server same now)]
    cases write with
    | set _ value =>
      cases value with
      | record =>
        simp only [Slot.after]
        split <;> rfl
      | text => rfl
    | del =>
      simp only [Slot.after]
      split <;> rfl
    | sAdd key | sRem key =>
      have other : key ≠ instanceQueriesKey (owner id) := fun index => same index.symm
      simp [Slot.after, slotAt, other]

theorem slotAt_write {write : Write Data} (placed : Placed owner write) (regular : Regular write)
    (id : String) : slotAt owner now (write.run now server).2 id =
      (slotAt owner now server id).after owner id write := by
  have active := isActive_write placed regular now server id
  have member := tidy.member_write placed regular id
  exact congrArg₂ Slot.mk active member

theorem writes {writes : List (Write Data)} (placed : ∀ write ∈ writes, Placed owner write)
    (regular : ∀ write ∈ writes, Regular write) : Tidy owner now (runAll now server writes).2 ∧
      ∀ id, slotAt owner now (runAll now server writes).2 id =
        writes.foldl (Slot.after owner id) (slotAt owner now server id) := by
  induction writes generalizing server with
  | nil => exact ⟨tidy, fun _ => rfl⟩
  | cons _ _ ih =>
    rw [List.forall_mem_cons] at placed regular
    obtain ⟨later, slots⟩ := ih (tidy.write placed.1 regular.1) placed.2 regular.2
    refine ⟨later, fun id => (slots id).trans ?_⟩
    rw [tidy.slotAt_write placed.1 regular.1]
    rfl

end

end Tidy

theorem foldl_after_of_concerns {other : String} (ne : other ≠ id) {writes : List (Write Data)}
    (concerns : ∀ write ∈ writes, Concerns owner id write) (slot : Slot) :
    writes.foldl (Slot.after owner other) slot = slot := by
  induction writes with
  | nil => rfl
  | cons _ _ ih =>
    rw [List.forall_mem_cons] at concerns
    rw [List.foldl_cons, concerns.1 other ne slot]
    exact ih concerns.2

end DbBridge.State.Redis
