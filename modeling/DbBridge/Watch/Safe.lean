import DbBridge.Watch.Hub

/-!
# Channels that are used safely

In a safe hub nothing has panicked, a channel is open exactly while it is registered, and
no query has an empty set of subscriptions. Every critical section of `watchersMu` keeps a
hub safe, and in a safe hub a delivery reaches every subscription that has room.
-/

namespace DbBridge.Watch

open List

variable {ch : Nat} {after : Hub} {ev : QueryEvent}

namespace Hub

structure Safe (hub : Hub) (owner : Nat → Option String) : Prop where
  calm : hub.panicked = false
  owned : ∀ queryID ch, ch ∈ hub.subs queryID → owner ch = some queryID
  opened : ∀ queryID ch, ch ∈ hub.subs queryID → (hub.channels ch).closed = false
  closed : ∀ queryID ch, owner ch = some queryID → ch ∉ hub.subs queryID →
    (hub.channels ch).closed = true
  fresh : ∀ ch, owner ch = none → hub.channels ch = {}
  distinct : ∀ queryID, (hub.subs queryID).Nodup
  inhabited : ∀ queryID, hub.watchers.lookup queryID ≠ some []

variable {hub : Hub} {owner : Nat → Option String}

theorem Safe.empty : Safe {} fun _ => none where
  calm := rfl
  owned := by simp [subs]
  opened := by simp [subs]
  closed := by simp
  fresh := fun _ _ => rfl
  distinct := by simp [subs]
  inhabited := by simp

theorem send_of_open (opened : (hub.channels ch).closed = false) :
    hub.send ch ev = if (hub.channels ch).buffer.length < watcherBuffer then
      hub.setChannel ch
        { hub.channels ch with buffer := (hub.channels ch).buffer ++ [ev] }
      else hub := by
  simp [send, opened]

theorem send_watchers (hub : Hub) (ch : Nat) (ev : QueryEvent) :
    (hub.send ch ev).watchers = hub.watchers := by
  unfold send
  dsimp only
  split
  · rfl
  · split <;> rfl

theorem send_channels_of_ne (hub : Hub) {other : Nat} (ne : other ≠ ch) (ev : QueryEvent) :
    (hub.send ch ev).channels other = hub.channels other := by
  unfold send
  dsimp only
  split
  · rfl
  · split
    · simp [setChannel, ne]
    · rfl

theorem send_buffer_of_open (opened : (hub.channels ch).closed = false) (other : Nat) :
    ((hub.send ch ev).channels other).buffer =
      if other = ch ∧ (hub.channels other).buffer.length < watcherBuffer then
        (hub.channels other).buffer ++ [ev]
      else (hub.channels other).buffer := by
  by_cases same : other = ch
  · subst same
    rw [send_of_open opened]
    by_cases room : (hub.channels other).buffer.length < watcherBuffer
    · simp [room, setChannel]
    · simp [room]
  · rw [send_channels_of_ne hub same]
    simp [same]

theorem Safe.send (safe : hub.Safe owner) (registered : owner ch ≠ none)
    (opened : (hub.channels ch).closed = false) : (hub.send ch ev).Safe owner where
  calm := by
    rw [send_of_open opened]
    split
    · exact safe.calm
    · exact safe.calm
  owned := by simpa using safe.owned
  opened := by simpa using safe.opened
  closed := by simpa using safe.closed
  fresh := by
    intro other unregistered
    have ne : other ≠ ch := by
      intro same
      exact registered (same ▸ unregistered)
    rw [send_channels_of_ne hub ne]
    exact safe.fresh other unregistered
  distinct := by simpa using safe.distinct
  inhabited := by
    rw [send_watchers]
    exact safe.inhabited

theorem remove_lookup_ne_nil (inhabited : ∀ queryID, hub.watchers.lookup queryID ≠ some [])
    (queryID other : String) : (hub.remove queryID ch).watchers.lookup other ≠ some [] := by
  unfold remove
  dsimp only
  split
  · by_cases same : other = queryID
    · subst same
      simp
    · rw [AList.lookup_erase_ne same]
      exact inhabited other
  · rename_i left
    by_cases same : other = queryID
    · subst same
      rw [AList.lookup_insert]
      simpa using left
    · rw [AList.lookup_insert_ne same]
      exact inhabited other

theorem close_of_open (opened : (hub.channels ch).closed = false) :
    hub.close ch = hub.setChannel ch { hub.channels ch with closed := true } := by
  simp [close, opened]

theorem Safe.dropWatcherLocked (safe : hub.Safe owner) (queryID : String) :
    (hub.dropWatcherLocked queryID ch).Safe owner := by
  by_cases member : ch ∈ hub.subs queryID
  · have opened := safe.opened queryID ch member
    have shape : hub.dropWatcherLocked queryID ch =
        (hub.remove queryID ch).setChannel ch { hub.channels ch with closed := true } := by
      simp only [Hub.dropWatcherLocked, member, if_true]
      exact close_of_open opened
    have own := safe.owned queryID ch member
    -- no other query has the channel
    have elsewhere : ∀ other, ch ∈ (hub.dropWatcherLocked queryID ch).subs other → False := by
      intro other listed
      obtain ⟨listed, ne⟩ := mem_dropWatcherLocked_subs.mp listed
      have same := safe.owned other ch listed
      rw [own] at same
      exact ne ⟨(Option.some.inj same).symm, rfl⟩
    have smaller : ∀ other listed, listed ∈ (hub.dropWatcherLocked queryID ch).subs other →
        listed ∈ hub.subs other := fun _ _ found => (mem_dropWatcherLocked_subs.mp found).1
    refine ⟨?_, ?_, ?_, ?_, ?_, ?_, ?_⟩
    · rw [shape]
      exact safe.calm
    · intro other listed found
      exact safe.owned other listed (smaller other listed found)
    · intro other listed found
      rw [dropWatcherLocked_closed]
      have ne : listed ≠ ch := by
        intro same
        exact elsewhere other (same ▸ found)
      simp [ne, safe.opened other listed (smaller other listed found)]
    · intro other listed own' absent
      rw [dropWatcherLocked_closed]
      by_cases same : listed = ch
      · simp [same, member]
      · have before : listed ∉ hub.subs other := fun found =>
          absent (mem_dropWatcherLocked_subs.mpr ⟨found, fun dropped => same dropped.2⟩)
        simp [safe.closed other listed own' before]
    · intro other unregistered
      have ne : other ≠ ch := by
        intro same
        rw [same, own] at unregistered
        contradiction
      rw [shape]
      simpa [setChannel, remove, ne] using safe.fresh other unregistered
    · intro other
      rw [dropWatcherLocked_subs]
      split
      · exact (safe.distinct queryID).filter _
      · exact safe.distinct other
    · intro other
      rw [shape]
      exact remove_lookup_ne_nil safe.inhabited queryID other
  · have unchanged : hub.dropWatcherLocked queryID ch = hub := by
      simp [Hub.dropWatcherLocked, member]
    rw [unchanged]
    exact safe

theorem Safe.deliverTo (safe : hub.Safe owner) (member : ch ∈ hub.subs ev.queryID) :
    (Hub.deliverTo ev hub ch).Safe owner := by
  have sent : (hub.send ch ev).Safe owner := by
    apply safe.send
    · rw [safe.owned ev.queryID ch member]
      simp
    · exact safe.opened ev.queryID ch member
  unfold Hub.deliverTo
  split
  · exact sent.dropWatcherLocked ev.queryID
  · exact sent

theorem deliverTo_buffer (opened : (hub.channels ch).closed = false) (other : Nat) :
    ((deliverTo ev hub ch).channels other).buffer =
      if other = ch ∧ (hub.channels other).buffer.length < watcherBuffer then
        (hub.channels other).buffer ++ [ev]
      else (hub.channels other).buffer := by
  rw [← send_buffer_of_open opened]
  unfold deliverTo
  split
  · exact dropWatcherLocked_buffer _ _ _ _
  · rfl

theorem Safe.deliverTo_foldl (chs : List Nat) (safe : hub.Safe owner) (distinct : chs.Nodup)
    (members : ∀ ch ∈ chs, ch ∈ hub.subs ev.queryID) :
    (chs.foldl (Hub.deliverTo ev) hub).Safe owner ∧
      ∀ other, ((chs.foldl (Hub.deliverTo ev) hub).channels other).buffer =
        if other ∈ chs ∧ (hub.channels other).buffer.length < watcherBuffer then
          (hub.channels other).buffer ++ [ev]
        else (hub.channels other).buffer := by
  induction chs generalizing hub with
  | nil => exact ⟨safe, by simp⟩
  | cons ch rest ih =>
    rw [nodup_cons] at distinct
    have member := members ch mem_cons_self
    have opened := safe.opened ev.queryID ch member
    -- the channels still to come stay registered
    have later : ∀ next ∈ rest, next ∈ (Hub.deliverTo ev hub ch).subs ev.queryID := by
      intro next listed
      have before := members next (mem_cons_of_mem ch listed)
      have ne : next ≠ ch := by
        intro same
        exact distinct.1 (same ▸ listed)
      rw [deliverTo_subs]
      split
      · exact mem_filter.mpr ⟨before, by simpa using ne⟩
      · exact before
    obtain ⟨kept, buffers⟩ := ih (safe.deliverTo member) distinct.2 later
    refine ⟨kept, ?_⟩
    intro other
    rw [foldl_cons, buffers other, deliverTo_buffer opened]
    by_cases same : other = ch
    · subst same
      simp [distinct.1]
    · simp [same]

section
variable (safe : hub.Safe owner)
include safe

theorem Safe.deliverEvent (ev : QueryEvent) : (hub.deliverEvent ev).Safe owner :=
  (Safe.deliverTo_foldl (hub.subs ev.queryID) safe (safe.distinct ev.queryID)
    fun _ listed => listed).1

section
variable (unregistered : owner ch = none)
include unregistered

theorem Safe.add (queryID : String) :
    (hub.add queryID ch).Safe (Function.update owner ch (some queryID)) := by
  have absent : ∀ other, ch ∉ hub.subs other := by
    intro other listed
    have own := safe.owned other ch listed
    rw [unregistered] at own
    contradiction
  refine ⟨safe.calm, ?_, ?_, ?_, ?_, ?_, ?_⟩
  · intro other listed found
    rw [add_subs] at found
    by_cases same : listed = ch
    · subst same
      split at found
      · rename_i equal
        simp [equal]
      · exact absurd found (absent other)
    · rw [Function.update_of_ne same]
      apply safe.owned
      split at found
      · exact (mem_cons.mp found).resolve_left same
      · exact found
  · intro other listed found
    show (hub.channels listed).closed = false
    by_cases same : listed = ch
    · subst same
      rw [safe.fresh listed unregistered]
    · rw [add_subs] at found
      apply safe.opened other
      split at found
      · exact (mem_cons.mp found).resolve_left same
      · exact found
  · intro other listed own missing
    show (hub.channels listed).closed = true
    rw [add_subs] at missing
    rcases Tables.update_some_cases own with ⟨rfl, rfl⟩ | ⟨_, own⟩
    · simp at missing
    · apply safe.closed other listed own
      intro found
      apply missing
      split
      · exact mem_cons_of_mem ch found
      · exact found
  · intro other free
    have ne : other ≠ ch := by
      intro same
      subst same
      simp at free
    rw [Function.update_of_ne ne] at free
    exact safe.fresh other free
  · intro other
    rw [add_subs]
    split
    · exact nodup_cons.mpr ⟨absent other, safe.distinct other⟩
    · exact safe.distinct other
  · intro other
    unfold Hub.add
    dsimp only
    by_cases same : other = queryID
    · subst same
      simp
    · rw [AList.lookup_insert_ne same]
      exact safe.inhabited other

theorem Safe.register (current : QueryEvent) :
    (hub.register ch current).Safe (Function.update owner ch (some current.queryID)) := by
  have sent : ((hub.add current.queryID ch).send ch current).Safe
      (Function.update owner ch (some current.queryID)) := by
    apply (safe.add unregistered current.queryID).send
    · simp
    · show (hub.channels ch).closed = false
      rw [safe.fresh ch unregistered]
  unfold Hub.register
  dsimp only
  split
  · exact sent.dropWatcherLocked current.queryID
  · exact sent

theorem Safe.register_buffer (current : QueryEvent) (other : Nat) :
    ((hub.register ch current).channels other).buffer =
      if other = ch then [current] else (hub.channels other).buffer := by
  have new : hub.channels ch = {} := safe.fresh ch unregistered
  have opened : ((hub.add current.queryID ch).channels ch).closed = false := by
    show (hub.channels ch).closed = false
    rw [new]
  have pushed : ((hub.register ch current).channels other).buffer =
      (((hub.add current.queryID ch).send ch current).channels other).buffer := by
    unfold Hub.register
    dsimp only
    split
    · exact dropWatcherLocked_buffer _ _ _ _
    · rfl
  rw [pushed, send_buffer_of_open opened]
  show (if other = ch ∧ (hub.channels other).buffer.length < watcherBuffer then
    (hub.channels other).buffer ++ [current] else (hub.channels other).buffer) = _
  by_cases same : other = ch
  · subst same
    simp [new, watcherBuffer]
  · simp [same]

end

end

theorem mem_buffer_of_receive (taken : hub.receive ch = some (ev, after)) :
    ev ∈ (hub.channels ch).buffer := by
  obtain ⟨_, held, _⟩ := receive_eq_some taken
  rw [held]
  exact mem_cons_self

theorem Safe.receive (safe : hub.Safe owner) (taken : hub.receive ch = some (ev, after)) :
    after.Safe owner := by
  obtain ⟨_, held, rfl⟩ := receive_eq_some taken
  refine ⟨safe.calm, safe.owned, ?_, ?_, ?_, safe.distinct, safe.inhabited⟩
  · intro queryID other listed
    rw [setChannel_closed]
    exact safe.opened queryID other listed
  · intro queryID other own absent
    rw [setChannel_closed]
    exact safe.closed queryID other own absent
  · intro other unregistered
    have ne : other ≠ ch := by
      intro same
      rw [← same, safe.fresh other unregistered] at held
      contradiction
    simpa [setChannel, ne] using safe.fresh other unregistered

end Hub

end DbBridge.Watch
