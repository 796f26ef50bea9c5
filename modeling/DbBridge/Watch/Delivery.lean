import DbBridge.Watch.Relay

/-!
# What the channels of one instance hold

The events that have gone into a channel, whether its consumer took them or not, and the
condition under which another one keeps them in order. A subscription ends with a terminal
event, so order is about `RUNNING` and a `PENDING` that comes after it.
-/

namespace DbBridge.Watch

open Domain Function List

/-- The same state, or one that steps of `CanTransitionTo` lead to. -/
def Leads : QueryState → QueryState → Prop :=
  Relation.ReflTransGen fun s t => s.canTransitionTo t = true

theorem leads_of_forward {s t : QueryState} (active : s.isTerminal = false)
    (forward : ¬ (s = .running ∧ t = .pending)) : Leads s t := by
  have step : ∀ {a b : QueryState}, a.canTransitionTo b = true → Leads a b :=
    fun legal => Relation.ReflTransGen.single legal
  have ends : ∀ {a : QueryState}, Leads .running a → Leads s a := by
    intro a further
    rcases (QueryState.isTerminal_eq_false_iff s).mp active with rfl | rfl
    · exact (step rfl).trans further
    · exact further
  cases t with
  | pending =>
    rcases (QueryState.isTerminal_eq_false_iff s).mp active with rfl | rfl
    · exact .refl
    · exact absurd ⟨rfl, rfl⟩ forward
  | running => exact ends .refl
  | succeeded | failed | canceled => exact ends (step rfl)
  | expired => exact ends ((step (b := .succeeded) rfl).trans (step rfl))

theorem ne_pending_of_leads {s t : QueryState} (leads : Leads s t) (launched : s ≠ .pending) :
    t ≠ .pending := by
  induction leads with
  | refl => exact launched
  | @tail a b _ legal ih =>
    intro back
    subst back
    revert legal ih
    cases a <;> decide

/-! ## The subscriptions of one instance -/

namespace Post

def log (post : Post) (ch : Nat) : List QueryEvent :=
  post.received ch ++ (post.hub.channels ch).buffer

/-- The channels of an instance, where `clear` says of a query that no `PENDING` is to come
any more. -/
structure Orderly (post : Post) (clear : String → Prop) : Prop where
  member : ∀ queryID, ∀ ch ∈ post.hub.subs queryID,
    post.calls ch = some { queryID, phase := .returned }
  own : ∀ ch, ∀ ev ∈ post.log ch,
    post.calls ch = some { queryID := ev.queryID, phase := .returned }
  ended : ∀ ch, ∀ ev ∈ post.log ch, ev.state.isTerminal = true →
    ∀ queryID, ch ∉ post.hub.subs queryID
  ordered : ∀ ch, (post.log ch).Pairwise fun a b => Leads a.state b.state
  ahead : ∀ queryID, ∀ ch ∈ post.hub.subs queryID, ∀ ev ∈ post.log ch,
    ev.state = .running → clear queryID

variable {post : Post} {clear : String → Prop} {ev : QueryEvent}

section
variable (orderly : post.Orderly clear)
include orderly

theorem Orderly.mono {clear' : String → Prop}
    (kept : ∀ queryID, ∀ ch ∈ post.hub.subs queryID, ∀ ev ∈ post.log ch, ev.state = .running →
      clear queryID → clear' queryID) : post.Orderly clear' :=
  ⟨orderly.member, orderly.own, orderly.ended, orderly.ordered,
    fun queryID ch listed ev logged running =>
      kept queryID ch listed ev logged running (orderly.ahead queryID ch listed ev logged running)⟩

theorem Orderly.queryID_eq {queryID : String} {ch : Nat} (listed : ch ∈ post.hub.subs queryID)
    (logged : ev ∈ post.log ch) : ev.queryID = queryID := by
  have same := (orderly.own ch ev logged).symm.trans (orderly.member queryID ch listed)
  cases same
  rfl

theorem Orderly.fewer {hub : Hub} {received : Nat → List QueryEvent}
    (subs : ∀ queryID, ∀ ch ∈ hub.subs queryID, ch ∈ post.hub.subs queryID)
    (logs : ∀ ch, received ch ++ (hub.channels ch).buffer = post.log ch) :
    ({ post with hub, received } : Post).Orderly clear := by
  have log : ∀ ch, ({ post with hub, received } : Post).log ch = post.log ch := logs
  constructor
  case member => exact fun queryID ch listed => orderly.member queryID ch (subs queryID ch listed)
  case own => exact fun ch ev logged => orderly.own ch ev (log ch ▸ logged)
  case ended =>
    exact fun ch ev logged terminal queryID listed =>
      orderly.ended ch ev (log ch ▸ logged) terminal queryID (subs queryID ch listed)
  case ordered => exact fun ch => (log ch).symm ▸ orderly.ordered ch
  case ahead =>
    exact fun queryID ch listed ev logged =>
      orderly.ahead queryID ch (subs queryID ch listed) ev (log ch ▸ logged)

theorem Orderly.deliver
    (forward : ev.state = .pending →
      ∀ ch ∈ post.hub.subs ev.queryID, ∀ seen ∈ post.log ch, seen.state ≠ .running)
    (passed : ev.state = .running → clear ev.queryID) :
    ({ post with hub := post.hub.deliverEvent ev } : Post).Orderly clear := by
  have log : ∀ ch, ∃ copies, ({ post with hub := post.hub.deliverEvent ev } : Post).log ch =
      post.log ch ++ replicate copies ev ∧
        (copies ≠ 0 → ch ∈ post.hub.subs ev.queryID) := by
    intro ch
    obtain ⟨copies, buffer, among⟩ := Hub.deliverEvent_buffer post.hub ev ch
    exact ⟨copies, by simp only [Post.log, buffer, append_assoc], among⟩
  have logged_or : ∀ ch, ∀ seen ∈ ({ post with hub := post.hub.deliverEvent ev } : Post).log ch,
      seen ∈ post.log ch ∨ seen = ev ∧ ch ∈ post.hub.subs ev.queryID := by
    intro ch seen logged
    obtain ⟨copies, appended, among⟩ := log ch
    rw [appended, mem_append, mem_replicate] at logged
    exact logged.imp_right fun new => ⟨new.2, among new.1⟩
  constructor
  case member =>
    exact fun queryID ch listed => orderly.member queryID ch (Hub.mem_deliverEvent_subs.mp listed).1
  case own =>
    intro ch seen logged
    rcases logged_or ch seen logged with before | ⟨rfl, listed⟩
    · exact orderly.own ch seen before
    · exact orderly.member _ ch listed
  case ended =>
    intro ch seen logged terminal queryID listed
    obtain ⟨before, spared⟩ := Hub.mem_deliverEvent_subs.mp listed
    rcases logged_or ch seen logged with old | ⟨rfl, reached⟩
    · exact orderly.ended ch seen old terminal queryID before
    · have same := (orderly.member queryID ch before).symm.trans (orderly.member _ ch reached)
      cases same
      exact spared ⟨terminal, rfl⟩
  case ordered =>
    intro ch
    obtain ⟨copies, appended, among⟩ := log ch
    rw [appended, pairwise_append]
    refine ⟨orderly.ordered ch, pairwise_replicate.mpr (.inr .refl), ?_⟩
    intro seen old new copied
    obtain ⟨some, rfl⟩ := mem_replicate.mp copied
    have listed := among some
    have active : seen.state.isTerminal = false := Bool.eq_false_iff.mpr fun terminal =>
      orderly.ended ch seen old terminal _ listed
    exact leads_of_forward active fun back => forward back.2 ch listed seen old back.1
  case ahead =>
    intro queryID ch listed seen logged running
    obtain ⟨before, _⟩ := Hub.mem_deliverEvent_subs.mp listed
    rcases logged_or ch seen logged with old | ⟨rfl, reached⟩
    · exact orderly.ahead queryID ch before seen old running
    · have same := (orderly.member queryID ch before).symm.trans (orderly.member _ ch reached)
      cases same
      exact passed running

end

section
variable {call : Nat} (orderly : post.Orderly clear)
  (before : ∀ queryID, post.calls call ≠ some { queryID, phase := .returned })
include orderly before

theorem Orderly.unregistered : post.log call = [] ∧ ∀ queryID, call ∉ post.hub.subs queryID :=
  ⟨eq_nil_iff_forall_not_mem.mpr fun ev logged => before _ (orderly.own call ev logged),
    fun queryID listed => before queryID (orderly.member queryID call listed)⟩

theorem Orderly.setCall {w : WatchCall} :
    ({ post with calls := update post.calls call (some w) } : Post).Orderly clear := by
  have same : ∀ ch queryID, post.calls ch = some { queryID, phase := .returned } →
      update post.calls call (some w) ch = some { queryID, phase := .returned } := by
    intro ch queryID registered
    rw [update_of_ne]
    · exact registered
    · rintro rfl
      exact before queryID registered
  exact ⟨fun queryID ch listed => same ch queryID (orderly.member queryID ch listed),
    fun ch ev logged => same ch _ (orderly.own ch ev logged), orderly.ended, orderly.ordered,
    orderly.ahead⟩

theorem Orderly.register {current : QueryEvent}
    (settled : current.state = .running → clear current.queryID) : ({ post with
        hub := post.hub.register call current
        calls := update post.calls call
          (some { queryID := current.queryID, phase := .returned }) } : Post).Orderly clear := by
  obtain ⟨empty, absent⟩ := orderly.unregistered before
  have subs : ∀ queryID, ∀ ch ∈ (post.hub.register call current).subs queryID,
      ch ≠ call ∧ ch ∈ post.hub.subs queryID ∨
        ch = call ∧ queryID = current.queryID ∧ current.state.isTerminal = false := by
    intro queryID ch listed
    refine (Hub.mem_register_subs.mp listed).imp_left fun ⟨old, _⟩ => ⟨?_, old⟩
    rintro rfl
    exact absent queryID old
  have log : ∀ ch, post.received ch ++ ((post.hub.register call current).channels ch).buffer =
      post.log ch ∨ ch = call ∧ post.received ch ++
        ((post.hub.register call current).channels ch).buffer = [current] := by
    intro ch
    rcases Hub.register_buffer post.hub call current ch with kept | ⟨rfl, pushed⟩
    · exact .inl (by rw [kept, Post.log])
    · refine .inr ⟨rfl, ?_⟩
      rw [pushed, ← append_assoc, ← Post.log, empty, nil_append]
  have other : ∀ ch, ∀ ev ∈ post.log ch, ch ≠ call := by
    rintro ch ev logged rfl
    rw [empty] at logged
    exact not_mem_nil logged
  have logged_or : ∀ ch, ∀ ev ∈ post.received ch ++
      ((post.hub.register call current).channels ch).buffer,
      ev ∈ post.log ch ∧ ch ≠ call ∨ ch = call ∧ ev = current := by
    intro ch ev logged
    rcases log ch with kept | ⟨rfl, one⟩
    · rw [kept] at logged
      exact .inl ⟨logged, other ch ev logged⟩
    · exact .inr ⟨rfl, mem_singleton.mp (one ▸ logged)⟩
  constructor
  case member =>
    intro queryID ch listed
    dsimp only at listed ⊢
    rcases subs queryID ch listed with ⟨ne, before⟩ | ⟨rfl, rfl, _⟩
    · rw [update_of_ne ne]
      exact orderly.member queryID ch before
    · rw [update_self]
  case own =>
    intro ch ev logged
    dsimp only
    rcases logged_or ch ev logged with ⟨old, ne⟩ | ⟨rfl, rfl⟩
    · rw [update_of_ne ne]
      exact orderly.own ch ev old
    · rw [update_self]
  case ended =>
    intro ch ev logged terminal queryID listed
    rcases logged_or ch ev logged with ⟨old, ne⟩ | ⟨rfl, rfl⟩
    · rcases subs queryID ch listed with ⟨_, before⟩ | ⟨same, _⟩
      · exact orderly.ended ch ev old terminal queryID before
      · exact ne same
    · rcases subs queryID ch listed with ⟨ne, _⟩ | ⟨_, _, active⟩
      · exact ne rfl
      · simp [terminal] at active
  case ordered =>
    intro ch
    rcases log ch with kept | ⟨_, one⟩
    · rw [Post.log, kept]
      exact orderly.ordered ch
    · rw [Post.log, one]
      exact pairwise_singleton _ _
  case ahead =>
    intro queryID ch listed ev logged running
    rcases logged_or ch ev logged with ⟨old, ne⟩ | ⟨rfl, rfl⟩
    · rcases subs queryID ch listed with ⟨_, before⟩ | ⟨same, _⟩
      · exact orderly.ahead queryID ch before ev old running
      · exact absurd same ne
    · rcases subs queryID ch listed with ⟨ne, _⟩ | ⟨_, rfl, _⟩
      · exact absurd rfl ne
      · exact settled running

end

end Post

end DbBridge.Watch
