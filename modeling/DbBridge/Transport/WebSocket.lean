import DbBridge.Lib.Runs
import DbBridge.State.Memory

/-!
# Subscriptions of one WebSocket connection

`ServeHTTP`'s message loop and one goroutine per subscription share `conn.subs`, which maps a query
ID to a cancel function. A subscription is named by the serial number of the `watch` that opened
it, and stands for its cancel function.
-/

namespace DbBridge.WebSocket

open State Function Runs

def maxSubscriptionsPerConn : Nat := 32

/-- The goroutine of a subscription: `WatchQuery` has not returned, it is in `pump`, it
left `pump` and is about to run the deferred `unsubscribe`, it is about to call the
cancel function found there, it is gone. -/
inductive Pump where
  | unborn
  | pumping
  | leaving
  | canceling (entry : Option Nat)
  | gone
  deriving DecidableEq, Repr

/-- `excused` records that a reason of its own to end has occurred. -/
structure Subscription where
  queryID : String
  canceled : Bool := false
  pump : Pump := .unborn
  excused : Bool := false

/-- The message loop: at `Read`, in `WatchQuery` for a subscription, inside
`unsubscribe` before and after its critical section, in `closeAll`. -/
inductive Loop where
  | reading
  | watching (sub : Nat)
  | unsubscribing (queryID : String)
  | canceling (entry : Option Nat)
  | closing (entries : List Nat)
  deriving DecidableEq, Repr

def unopened : Subscription := { queryID := "", excused := true }

/-- `finished` says that the client went away or the loop was left. -/
structure Conn where
  subs : Table Nat := ∅
  opened : Nat → Subscription := fun _ => unopened
  next : Nat := 0
  loop : Loop := .reading
  finished : Bool := false

inductive ConnAction where
  | watch (queryID : String)
  | watchQuery (found : Bool)
  | unwatch (queryID : String)
  | remove
  | cancel
  | disconnect
  | closeAll
  | closeNext
  | channelClosed (sub : Nat)
  | writeFailed (sub : Nat)
  | ctxDone (sub : Nat)
  | pumpRemove (sub : Nat)
  | pumpCancel (sub : Nat)

namespace Conn

variable (c : Conn)

def edit (sub : Nat) (f : Subscription → Subscription) : Conn :=
  { c with opened := Function.update c.opened sub (f (c.opened sub)) }

def cancelEntry : Option Nat → Conn
  | none => c
  | some sub => c.edit sub fun s => { s with canceled := true }

def opens (queryID : String) : Bool :=
  queryID ≠ "" && (c.subs.lookup queryID).isNone &&
    c.subs.entries.length < maxSubscriptionsPerConn

/-- The critical section of `subscribe`. -/
def insert (queryID : String) : Conn :=
  { c with
    subs := c.subs.insert queryID c.next
    opened := Function.update c.opened c.next { queryID }
    next := c.next + 1
    loop := .watching c.next }

/-- An `unwatch` is a reason for every subscription of that ID to end. -/
def excuseAll (queryID : String) : Conn :=
  { c with opened := fun sub =>
      if (c.opened sub).queryID = queryID then { c.opened sub with excused := true }
      else c.opened sub }

def erase (queryID : String) : Conn := { c with subs := c.subs.erase queryID }

def step : ConnAction → Option Conn
  | .watch queryID =>
    if c.loop = .reading then
      if c.opens queryID then some (c.insert queryID) else some c
    else none
  | .watchQuery found =>
    match c.loop with
    | .watching sub =>
      if found then
        some { c.edit sub fun s => { s with pump := .pumping } with loop := .reading }
      else
        some { c.edit sub fun s => { s with excused := true } with
          loop := .unsubscribing (c.opened sub).queryID }
    | _ => none
  | .unwatch queryID =>
    if c.loop = .reading then
      some { c.excuseAll queryID with loop := .unsubscribing queryID }
    else none
  | .remove =>
    match c.loop with
    | .unsubscribing queryID =>
      some { c.erase queryID with loop := .canceling (c.subs.lookup queryID) }
    | _ => none
  | .cancel =>
    match c.loop with
    | .canceling entry => some { c.cancelEntry entry with loop := .reading }
    | _ => none
  | .disconnect => some { c with finished := true }
  | .closeAll =>
    if c.loop = .reading then
      some { c with
        subs := ∅
        loop := .closing (c.subs.entries.map Sigma.snd)
        finished := true }
    else none
  | .closeNext =>
    match c.loop with
    | .closing (sub :: rest) => some { c.cancelEntry (some sub) with loop := .closing rest }
    | _ => none
  | .channelClosed sub | .writeFailed sub =>
    if (c.opened sub).pump = .pumping then
      some (c.edit sub fun s => { s with pump := .leaving, excused := true })
    else none
  | .ctxDone sub =>
    if (c.opened sub).pump = .pumping ∧ ((c.opened sub).canceled ∨ c.finished) then
      some (c.edit sub fun s => { s with pump := .leaving })
    else none
  | .pumpRemove sub =>
    if (c.opened sub).pump = .leaving then
      let queryID := (c.opened sub).queryID
      some ((c.erase queryID).edit sub fun s =>
        { s with pump := .canceling (c.subs.lookup queryID) })
    else none
  | .pumpCancel sub =>
    match (c.opened sub).pump with
    | .canceling entry => some ((c.cancelEntry entry).edit sub fun s => { s with pump := .gone })
    | _ => none

/-! ## The condition and the invariant -/

/-- A goroutine of the query ID has yet to run its deferred `unsubscribe`. -/
def Pending (queryID : String) (sub : Nat) : Prop :=
  (c.opened sub).queryID = queryID ∧
    ((c.opened sub).pump = .pumping ∨ (c.opened sub).pump = .leaving)

instance (queryID : String) (sub : Nat) : Decidable (c.Pending queryID sub) :=
  inferInstanceAs (Decidable (_ ∧ _))

def opening : ConnAction → Option String
  | .watch queryID => if c.opens queryID then some queryID else none
  | _ => none

/-- A `watch` that opens a subscription comes after the deferred `unsubscribe` of every
earlier subscription of its ID. -/
def Settled (action : ConnAction) : Prop :=
  ∀ queryID ∈ c.opening action, ∀ sub < c.next, ¬ c.Pending queryID sub

instance (action : ConnAction) : Decidable (c.Settled action) :=
  inferInstanceAs (Decidable (∀ queryID ∈ c.opening action, ∀ sub < c.next, ¬ c.Pending queryID sub))

def Ends (sub : Nat) : Prop := (c.opened sub).excused = true ∨ c.finished = true

def Live (sub : Nat) : Prop :=
  c.subs.lookup (c.opened sub).queryID = some sub ∧ (c.opened sub).canceled = false

def Alone (sub : Nat) : Prop :=
  ∀ other, c.subs.lookup (c.opened sub).queryID = some other → other = sub

def LoopFits : Loop → Prop
  | .reading => True
  | .watching sub => sub < c.next ∧ c.Alone sub
  | .unsubscribing queryID => ∀ sub, (c.opened sub).queryID = queryID → c.Ends sub
  | .canceling entry => ∀ sub ∈ entry, sub < c.next ∧ c.Ends sub
  | .closing entries => c.finished = true ∧ ∀ sub ∈ entries, sub < c.next

def PumpFits (sub : Nat) : Pump → Prop
  | .unborn => True
  | .pumping => c.Alone sub
  | .leaving => c.Ends sub ∧ c.Alone sub
  | .canceling entry => ∀ other ∈ entry, other < c.next ∧ c.Ends other
  | .gone => True

structure Sound : Prop where
  fresh : ∀ sub, c.next ≤ sub → c.opened sub = unopened
  listed : ∀ queryID sub, c.subs.lookup queryID = some sub →
    sub < c.next ∧ (c.opened sub).queryID = queryID
  live : ∀ sub, ¬ c.Ends sub → c.Live sub
  loop : c.LoopFits c.loop
  pumps : ∀ sub, c.PumpFits sub (c.opened sub).pump

variable {c} {sub : Nat} {f : Subscription → Subscription} {c' : Conn} {queryID : String}

theorem Ends.edit {other : Nat} (ends : c.Ends other)
    (excuses : (c.opened sub).excused → (f (c.opened sub)).excused) :
    (c.edit sub f).Ends other := by
  refine ends.imp_left fun excused => ?_
  by_cases same : other = sub
  · subst same
    simpa [Conn.edit] using excuses excused
  · simpa [Conn.edit, update_of_ne same] using excused

theorem PumpFits.mono {pump : Pump} (fits : c.PumpFits sub pump)
    (ids : (c'.opened sub).queryID = (c.opened sub).queryID)
    (lookups : pump = .pumping ∨ pump = .leaving → ∀ other, c'.subs.lookup (c.opened sub).queryID =
      some other → c.subs.lookup (c.opened sub).queryID = some other) (next : c.next ≤ c'.next)
    (ends : ∀ other, other = sub ∨ other < c.next → c.Ends other → c'.Ends other) :
    c'.PumpFits sub pump := by
  cases pump with
  | pumping =>
    exact fun other found => fits other (lookups (.inl rfl) other (ids ▸ found))
  | leaving =>
    exact ⟨ends sub (.inl rfl) fits.1, fun other found =>
      fits.2 other (lookups (.inr rfl) other (ids ▸ found))⟩
  | canceling =>
    intro other member
    obtain ⟨older, may⟩ := fits other member
    exact ⟨Nat.lt_of_lt_of_le older next, ends other (.inr older) may⟩
  | unborn | gone => trivial

theorem LoopFits.mono {loop : Loop} (fits : c.LoopFits loop)
    (ids : ∀ sub, (c'.opened sub).queryID = (c.opened sub).queryID)
    (lookups : ∀ queryID other, c'.subs.lookup queryID = some other → c.subs.lookup queryID = some
      other) (next : c'.next = c.next) (ends : ∀ sub, c.Ends sub → c'.Ends sub)
    (finished : c.finished → c'.finished) : c'.LoopFits loop := by
  cases loop with
  | reading => trivial
  | watching sub =>
    exact ⟨next ▸ fits.1, fun other found => fits.2 other (lookups _ other (ids sub ▸ found))⟩
  | unsubscribing => exact fun sub same => ends sub (fits sub (ids sub ▸ same))
  | canceling entry =>
    exact fun sub member => ⟨next ▸ (fits sub member).1, ends sub (fits sub member).2⟩
  | closing entries => exact ⟨finished fits.1, fun sub member => next ▸ fits.2 sub member⟩

theorem Sound.of_sameSubs (sound : c.Sound) (subs : c'.subs = c.subs) (next : c'.next = c.next)
    (ids : ∀ sub, (c'.opened sub).queryID = (c.opened sub).queryID)
    (fresh : ∀ sub, c.next ≤ sub → c'.opened sub = unopened)
    (ends : ∀ sub, c.Ends sub → c'.Ends sub)
    (canceled : ∀ sub, (c'.opened sub).canceled = (c.opened sub).canceled ∨ c'.Ends sub)
    (loop : c'.LoopFits c'.loop)
    (pumps : ∀ sub, (c'.opened sub).pump = (c.opened sub).pump ∨ c'.PumpFits sub (c'.opened
      sub).pump) : c'.Sound where
  fresh sub later := fresh sub (next ▸ later)
  listed queryID sub found := by
    rw [subs] at found
    rw [next, ids]
    exact sound.listed queryID sub found
  live sub stays := by
    have before := sound.live sub fun ends' => stays (ends sub ends')
    have same := (canceled sub).resolve_right stays
    exact ⟨by rw [subs, ids]; exact before.1, same.trans before.2⟩
  loop := loop
  pumps sub := by
    rcases pumps sub with same | fits
    · rw [same]
      exact (sound.pumps sub).mono (ids sub) (fun _ _ found => subs ▸ found)
        (Nat.le_of_eq next.symm) fun other _ => ends other
    · exact fits

theorem Sound.erase (sound : c.Sound) (may : ∀ sub, c.subs.lookup queryID = some sub → c.Ends sub) :
    (c.erase queryID).Sound where
  fresh := sound.fresh
  listed other sub found := sound.listed other sub (Tables.lookup_of_erase found)
  live sub stays := by
    have before := sound.live sub stays
    have other : (c.opened sub).queryID ≠ queryID := by
      intro same
      exact stays (may sub (same ▸ before.1))
    exact ⟨(AList.lookup_erase_ne other).trans before.1, before.2⟩
  loop := sound.loop.mono (fun _ => rfl)
    (fun _ other found => Tables.lookup_of_erase found) rfl
    (fun _ ends => ends) id
  pumps sub := (sound.pumps sub).mono rfl
    (fun _ other found => Tables.lookup_of_erase found)
    (Nat.le_refl _) fun _ _ ends => ends

theorem Sound.insert (sound : c.Sound) (opens : c.opens queryID)
    (settled : ∀ sub < c.next, ¬ c.Pending queryID sub) : (c.insert queryID).Sound := by
  have free : c.subs.lookup queryID = none := by
    simp only [Conn.opens, Bool.and_eq_true, Option.isNone_iff_eq_none] at opens
    exact opens.1.2
  have old : ∀ {sub}, sub ≠ c.next → (c.insert queryID).opened sub = c.opened sub :=
    fun other => update_of_ne other _ _
  have new : (c.insert queryID).opened c.next = { queryID } := update_self _ _ _
  have kept : ∀ {sub}, sub ≠ c.next → c.Ends sub → (c.insert queryID).Ends sub :=
    fun other ends => ends.imp_left fun excused => by rwa [old other]
  refine ⟨?_, ?_, ?_, ⟨Nat.lt_succ_self _, ?_⟩, ?_⟩
  · intro sub later
    rw [old (Nat.ne_of_gt later)]
    exact sound.fresh sub (Nat.le_of_succ_le later)
  · intro other sub found
    by_cases same : other = queryID
    · subst same
      have : c.next = sub := by simpa [Conn.insert] using found
      subst this
      exact ⟨Nat.lt_succ_self _, by rw [new]⟩
    · have before := sound.listed other sub
        (by simpa [Conn.insert, AList.lookup_insert_ne same] using found)
      exact ⟨Nat.lt_succ_of_lt before.1, by rw [old (Nat.ne_of_lt before.1)]; exact before.2⟩
  · intro sub stays
    by_cases same : sub = c.next
    · subst same
      exact ⟨by rw [new]; simp [Conn.insert], by rw [new]⟩
    · have before := sound.live sub fun ends => stays (kept same ends)
      have other : (c.opened sub).queryID ≠ queryID := by
        intro equal
        rw [← equal, before.1] at free
        contradiction
      refine ⟨?_, by rw [old same]; exact before.2⟩
      rw [old same]
      exact (AList.lookup_insert_ne other).trans before.1
  · intro other found
    rw [new] at found
    simpa [Conn.insert, eq_comm] using found
  · intro sub
    by_cases same : sub = c.next
    · subst same
      rw [new]
      trivial
    · rw [old same]
      have ends : ∀ other, other = sub ∨ other < c.next → c.Ends other →
          (c.insert queryID).Ends other := by
        rintro other (rfl | older) may
        · exact kept same may
        · exact kept (Nat.ne_of_lt older) may
      refine (sound.pumps sub).mono (by rw [old same]) ?_ (Nat.le_succ _) ends
      intro waiting other found
      have elsewhere : (c.opened sub).queryID ≠ queryID := by
        intro equal
        refine settled sub (Nat.lt_of_not_le fun later => ?_) ⟨equal, waiting⟩
        rw [sound.fresh sub later] at waiting
        exact waiting.elim nofun nofun
      rwa [Conn.insert, AList.lookup_insert_ne elsewhere] at found

theorem edit_opened_of_ne {other : Nat} (f : Subscription → Subscription) (ne : other ≠ sub) :
    (c.edit sub f).opened other = c.opened other :=
  update_of_ne ne _ _

theorem edit_opened_self (sub : Nat) (f : Subscription → Subscription) :
    (c.edit sub f).opened sub = f (c.opened sub) :=
  update_self _ _ _

section
variable (sound : c.Sound)
include sound

theorem Sound.setLoop {loop : Loop} (fits : c.LoopFits loop) :
    ({ c with loop := loop } : Conn).Sound :=
  ⟨sound.fresh, sound.listed, sound.live, fits.mono (fun _ => rfl) (fun _ _ found => found) rfl
    (fun _ ends => ends) id, sound.pumps⟩

theorem Sound.edit (bound : sub < c.next) (id : (f (c.opened sub)).queryID = (c.opened sub).queryID)
    (excuses : (c.opened sub).excused → (f (c.opened sub)).excused)
    (canceled : (f (c.opened sub)).canceled = (c.opened sub).canceled ∨ (c.edit sub f).Ends sub)
    (pump : (f (c.opened sub)).pump = (c.opened sub).pump ∨
      (c.edit sub f).PumpFits sub (f (c.opened sub)).pump) : (c.edit sub f).Sound := by
  have ids : ∀ other, ((c.edit sub f).opened other).queryID = (c.opened other).queryID := by
    intro other
    by_cases same : other = sub
    · subst same
      rw [edit_opened_self, id]
    · rw [edit_opened_of_ne f same]
  have ends : ∀ other, c.Ends other → (c.edit sub f).Ends other := fun other may =>
    may.edit excuses
  have loop : (c.edit sub f).LoopFits c.loop :=
    sound.loop.mono ids (fun _ _ found => found) rfl ends fun finished => finished
  refine sound.of_sameSubs rfl rfl ids ?_ ends ?_ loop ?_
  · intro other later
    rw [edit_opened_of_ne f (by omega)]
    exact sound.fresh other later
  · intro other
    by_cases same : other = sub
    · subst same
      rwa [edit_opened_self]
    · rw [edit_opened_of_ne f same]
      exact .inl rfl
  · intro other
    by_cases same : other = sub
    · subst same
      rwa [edit_opened_self]
    · rw [edit_opened_of_ne f same]
      exact .inl rfl

theorem Sound.cancelEntry {entry : Option Nat} (may : ∀ sub ∈ entry, sub < c.next ∧ c.Ends sub) :
    (c.cancelEntry entry).Sound := by
  cases entry with
  | none => exact sound
  | some sub =>
    obtain ⟨bound, ends⟩ := may sub rfl
    change (c.edit sub fun s => { s with canceled := true }).Sound
    exact sound.edit bound rfl id (.inr (ends.edit id)) (.inl rfl)

theorem Sound.bound (born : (c.opened sub).pump ≠ .unborn) : sub < c.next := by
  refine Nat.lt_of_not_le fun later => born ?_
  rw [sound.fresh sub later]
  rfl

theorem Sound.leave (pumping : (c.opened sub).pump = .pumping)
    (id : (f (c.opened sub)).queryID = (c.opened sub).queryID)
    (excuses : (c.opened sub).excused → (f (c.opened sub)).excused)
    (canceled : (f (c.opened sub)).canceled = (c.opened sub).canceled)
    (leaving : (f (c.opened sub)).pump = .leaving) (ends : (c.edit sub f).Ends sub) :
    (c.edit sub f).Sound := by
  have alone : c.Alone sub := by
    have fits := sound.pumps sub
    rwa [pumping] at fits
  refine sound.edit (sound.bound (by simp [pumping])) id excuses (.inl canceled) (.inr ?_)
  rw [leaving]
  refine ⟨ends, fun other found => alone other ?_⟩
  rwa [edit_opened_self, id] at found

theorem Sound.excuseAll (queryID : String) : (c.excuseAll queryID).Sound := by
  have ids : ∀ sub, ((c.excuseAll queryID).opened sub).queryID = (c.opened sub).queryID := by
    intro sub
    simp only [Conn.excuseAll]
    split <;> rfl
  have ends : ∀ sub, c.Ends sub → (c.excuseAll queryID).Ends sub := by
    intro sub
    refine Or.imp_left fun excused => ?_
    simp only [Conn.excuseAll]
    split
    · rfl
    · exact excused
  refine sound.of_sameSubs rfl rfl ids ?_ ends ?_
    (sound.loop.mono ids (fun _ _ found => found) rfl ends fun finished => finished) ?_
  · intro sub later
    simp only [Conn.excuseAll, sound.fresh sub later]
    split <;> rfl
  · intro sub
    simp only [Conn.excuseAll]
    split <;> exact .inl rfl
  · intro sub
    simp only [Conn.excuseAll]
    split <;> exact .inl rfl

end

theorem excuseAll_ends (same : ((c.excuseAll queryID).opened sub).queryID = queryID) :
    (c.excuseAll queryID).Ends sub := by
  refine .inl ?_
  simp only [Conn.excuseAll] at same ⊢
  split
  · rfl
  · rename_i other
    exact absurd (by rwa [if_neg other] at same) other

theorem Sound.closeAll (sound : c.Sound) :
    ({ c with subs := ∅, loop := .closing (c.subs.entries.map Sigma.snd), finished := true } :
      Conn).Sound where
  fresh := sound.fresh
  listed queryID sub found := by simp at found
  live sub stays := absurd (.inr rfl) stays
  loop := by
    refine ⟨rfl, fun sub member => ?_⟩
    obtain ⟨entry, present, rfl⟩ := List.mem_map.mp member
    exact (sound.listed entry.1 entry.2 (AList.mem_lookup_iff.mpr present)).1
  pumps sub := by
    have fits := sound.pumps sub
    cases pump : (c.opened sub).pump with
    | pumping => exact fun other found => by simp at found
    | leaving => exact ⟨.inr rfl, fun other found => by simp at found⟩
    | canceling =>
      rw [pump] at fits
      exact fun other member => ⟨(fits other member).1, .inr rfl⟩
    | unborn | gone => trivial

theorem initial_sound : ({} : Conn).Sound where
  fresh _ _ := rfl
  listed _ _ found := by simp at found
  live sub stays := absurd (.inl rfl) stays
  loop := trivial
  pumps _ := trivial

theorem step_sound {after : Conn} {action : ConnAction} (sound : c.Sound)
    (settled : c.Settled action) (taken : c.step action = some after) : after.Sound := by
  cases action
  all_goals simp only [step] at taken
  case watch queryID =>
    split at taken
    · split at taken
      · rename_i opens
        cases taken
        exact sound.insert opens (settled queryID (by simp [opening, opens]))
      · cases taken
        exact sound
    · contradiction
  case watchQuery found =>
    split at taken
    · rename_i sub watching
      obtain ⟨bound, alone⟩ : sub < c.next ∧ c.Alone sub := by
        have fits := sound.loop
        rwa [watching] at fits
      cases found with
      | true =>
        cases taken
        refine (sound.edit bound rfl id (.inl rfl) (.inr ?_)).setLoop trivial
        intro other present
        rw [edit_opened_self] at present
        exact alone other present
      | false =>
        cases taken
        refine (sound.edit bound rfl (fun _ => rfl) (.inl rfl) (.inl rfl)).setLoop ?_
        intro other same
        by_cases this : other = sub
        · subst this
          exact .inl (by rw [edit_opened_self])
        · rw [edit_opened_of_ne _ this] at same
          -- Any other subscription of the ID that stays would have this entry.
          refine Ends.edit (by_contra fun stays => this ?_) fun _ => rfl
          exact alone other (same ▸ (sound.live other stays).1)
    · contradiction
  case unwatch queryID =>
    split at taken <;> cases taken
    exact (sound.excuseAll queryID).setLoop fun sub same => excuseAll_ends same
  case remove =>
    split at taken
    · rename_i queryID unsubscribing
      have fits : ∀ sub, (c.opened sub).queryID = queryID → c.Ends sub := by
        have fits := sound.loop
        rwa [unsubscribing] at fits
      have may : ∀ sub, c.subs.lookup queryID = some sub → sub < c.next ∧ c.Ends sub :=
        fun sub found => ⟨(sound.listed _ _ found).1, fits sub (sound.listed _ _ found).2⟩
      cases taken
      exact (sound.erase fun sub found => (may sub found).2).setLoop may
    · contradiction
  case cancel =>
    split at taken
    · rename_i entry canceling
      have fits : ∀ sub ∈ entry, sub < c.next ∧ c.Ends sub := by
        have fits := sound.loop
        rwa [canceling] at fits
      cases taken
      exact (sound.cancelEntry fits).setLoop trivial
    · contradiction
  case disconnect =>
    cases taken
    have ends : ∀ sub, c.Ends sub → ({ c with finished := true } : Conn).Ends sub :=
      fun _ _ => .inr rfl
    exact sound.of_sameSubs rfl rfl (fun _ => rfl) sound.fresh ends (fun _ => .inl rfl)
      (sound.loop.mono (fun _ => rfl) (fun _ _ found => found) rfl ends fun _ => rfl)
      fun _ => .inl rfl
  case closeAll =>
    split at taken <;> cases taken
    exact sound.closeAll
  case closeNext =>
    split at taken
    · rename_i sub rest closing
      obtain ⟨finished, bounds⟩ : c.finished = true ∧ ∀ other ∈ sub :: rest, other < c.next := by
        have fits := sound.loop
        rwa [closing] at fits
      have may : ∀ other ∈ some sub, other < c.next ∧ c.Ends other := by
        rintro other ⟨⟩
        exact ⟨bounds sub (List.mem_cons_self ..), .inr finished⟩
      cases taken
      exact (sound.cancelEntry may).setLoop
        ⟨finished, fun other member => bounds other (List.mem_cons_of_mem _ member)⟩
    · contradiction
  case channelClosed sub | writeFailed sub =>
    split at taken <;> cases taken
    rename_i pumping
    refine sound.leave pumping rfl (fun _ => rfl) rfl rfl (.inl ?_)
    rw [edit_opened_self]
  case ctxDone sub =>
    split at taken <;> cases taken
    rename_i done
    have ends : c.Ends sub := by
      refine done.2.elim (fun canceled => by_contra fun stays => ?_) .inr
      rw [(sound.live sub stays).2] at canceled
      contradiction
    exact sound.leave done.1 rfl id rfl rfl (ends.edit id)
  case pumpRemove sub =>
    split at taken
    · rename_i leaving
      obtain ⟨ends, alone⟩ : c.Ends sub ∧ c.Alone sub := by
        have fits := sound.pumps sub
        rwa [leaving] at fits
      have bound := sound.bound (leaving ▸ nofun : (c.opened sub).pump ≠ .unborn)
      cases taken
      refine (sound.erase fun other found => alone other found ▸ ends).edit bound rfl id
        (.inl rfl) (.inr ?_)
      intro other found
      cases alone other found
      exact ⟨bound, Ends.edit ends id⟩
    · contradiction
  case pumpCancel sub =>
    split at taken
    · rename_i entry canceling
      have fits : ∀ other ∈ entry, other < c.next ∧ c.Ends other := by
        have fits := sound.pumps sub
        rwa [canceling] at fits
      have bound := sound.bound (canceling ▸ nofun : (c.opened sub).pump ≠ .unborn)
      cases taken
      have canceled := sound.cancelEntry fits
      refine canceled.edit ?_ rfl id (.inl rfl) (.inr trivial)
      cases entry <;> exact bound
    · contradiction

/-- A subscription stays in `conn.subs`, with its context intact, until it is
unwatched, its channel is closed, a write of its own fails, or the connection ends. A
serial number that was not given out counts as excused. -/
theorem subscription_ends_for_own_reasons {c : Conn} (run : Reaches step Settled {} c)
    (sub : Nat) (unexcused : (c.opened sub).excused = false) (connected : c.finished = false) :
    c.subs.lookup (c.opened sub).queryID = some sub ∧ (c.opened sub).canceled = false := by
  have sound : c.Sound :=
    run.invariant Sound initial_sound fun before action after => step_sound
  exact sound.live sub (by simp [Ends, unexcused, connected])

/-! ## Watch, unwatch, watch -/

/-- The client watches `q`, unwatches it and watches it again; `between` is what the
goroutine of the first subscription does before the second `watch`, `after` what it
does later. -/
def rewatching (between after : List ConnAction) : List ConnAction :=
  [.watch "q", .watchQuery true, .unwatch "q", .remove, .cancel] ++ between ++
    [.watch "q", .watchQuery true] ++ after

def firstLeaves : List ConnAction := [.ctxDone 0, .pumpRemove 0, .pumpCancel 0]

theorem watch_after_settling_stays :
    ∃ c, Reaches step Settled {} c ∧ (c.opened 1).excused = false ∧ c.finished = false ∧
      c.subs.lookup (c.opened 1).queryID = some 1 ∧ (c.opened 1).canceled = false := by
  obtain ⟨c, run, excused, finished⟩ : ∃ c, Reaches step Settled {} c ∧
      (c.opened 1).excused = false ∧ c.finished = false :=
    exists_reaches (rewatching firstLeaves []) (by decide +kernel)
  exact ⟨c, run, excused, finished, subscription_ends_for_own_reasons run 1 excused finished⟩

/-- The deferred `unsubscribe` of the first subscription ends the second. -/
theorem first_goroutine_ends_second_subscription :
    ∃ c, Reaches step Always {} c ∧ (c.opened 1).excused = false ∧
      c.finished = false ∧ c.subs.lookup "q" = none ∧ (c.opened 1).canceled = true :=
  exists_reaches (rewatching [] firstLeaves) (by decide +kernel)

end Conn

end DbBridge.WebSocket
