import Mathlib.Data.List.Basic

/-!
# Readers and copy loops

A reader answers a call with room for some bytes by a chunk, with a flag that the end
was reached, and a new state. `copy` calls a reader until that flag; `Delivers` is its
rule. `Source` reads from a byte string as an arbitrary reader may: in short pieces,
with empty answers in between, with the end reported along with the last bytes or only
afterwards. Its `plan` has the first answers.
-/

namespace Readers

open List

variable {σ : Type}

structure Chunk where
  bytes : List UInt8
  eof : Bool

/-- The loop of a copy; `none` stands for one that is still going on. -/
def copy (read : σ → Option (Chunk × σ)) : Nat → σ → Option (List UInt8 × σ)
  | 0, _ => none
  | fuel + 1, state => do
      let (chunk, state) ← read state
      if chunk.eof then some (chunk.bytes, state)
      else do
        let (rest, state) ← copy read fuel state
        some (chunk.bytes ++ rest, state)

/-- Calls with buffers of the given sizes, up to the end; the flag says whether it came. -/
def readThrough (read : Nat → σ → Option (Chunk × σ)) : List Nat → σ → Option (List UInt8 × Bool)
  | [], _ => some ([], false)
  | len :: sizes, state => do
      let (chunk, state) ← read len state
      if chunk.eof then some (chunk.bytes, true)
      else do
        let (rest, ended) ← readThrough read sizes state
        some (chunk.bytes ++ rest, ended)

/-- One call from a state with `coming` still to be read: it hands out the next part,
and comes closer to the end or reports it. -/
def Serves (read : σ → Option (Chunk × σ)) (coming : σ → List UInt8 → Prop)
    (measure : σ → Nat) (ended : σ → Prop) : Prop :=
  ∀ state bytes, coming state bytes →
    ∃ chunk next, read state = some (chunk, next) ∧
      (chunk.eof = true ∧ chunk.bytes = bytes ∧ ended next ∧ measure next ≤ measure state ∨
        chunk.eof = false ∧ ∃ rest, bytes = chunk.bytes ++ rest ∧ coming next rest ∧
          measure next < measure state)

theorem copy_of_serves {read : σ → Option (Chunk × σ)} {coming : σ → List UInt8 → Prop}
    {measure : σ → Nat} {ended : σ → Prop} (serves : Serves read coming measure ended)
    (fuel : Nat) (state : σ) (bytes : List UInt8) (enough : measure state < fuel)
    (start : coming state bytes) :
    ∃ last, copy read fuel state = some (bytes, last) ∧ ended last ∧
      measure last ≤ measure state := by
  induction fuel generalizing state bytes with
  | zero => omega
  | succ fuel ih =>
    obtain ⟨_, next, answered, ⟨eof, whole, done, smaller⟩ |
      ⟨more, rest, split, further, smaller⟩⟩ := serves state bytes start
    · exact ⟨next, by simp [copy, answered, eof, whole], done, smaller⟩
    · obtain ⟨last, copied, done, _⟩ := ih next rest (by omega) further
      exact ⟨last, by simp [copy, answered, more, copied, split], done, by omega⟩

/-! ## Reading from a byte string -/

/-- `plan` has, for each of the next calls, how many bytes it hands out at most and
whether it reports the end as soon as it is reached. -/
structure Source where
  rest : List UInt8
  plan : List (Nat × Bool) := []

namespace Source

def measure (src : Source) : Nat := src.plan.length + src.rest.length

def read (src : Source) (room : Nat) : Chunk × Source :=
  match src.plan with
  | [] => ({ bytes := src.rest.take room, eof := src.rest.isEmpty },
      { src with rest := src.rest.drop room })
  | (most, early) :: plan =>
    let rest := src.rest.drop (min most room)
    ({ bytes := src.rest.take (min most room), eof := early && rest.isEmpty },
      { rest := rest, plan := plan })

/-- A call hands out the next bytes. It may report the end only when nothing is left,
and otherwise comes closer to it if there is room. -/
theorem read_spec (src : Source) (room : Nat) :
    ∃ chunk next, src.read room = (chunk, next) ∧ src.rest = chunk.bytes ++ next.rest ∧
      chunk.bytes.length ≤ room ∧ next.measure ≤ src.measure ∧
      (chunk.eof = true ∧ next.rest = [] ∨
        chunk.eof = false ∧ (0 < room → next.measure < src.measure)) := by
  obtain ⟨rest, plan⟩ := src
  cases plan with
  | nil =>
    refine ⟨_, _, rfl, (take_append_drop room rest).symm, length_take_le .., ?_, ?_⟩
    · simp [measure]
    · cases rest with
      | nil => exact .inl ⟨rfl, drop_nil⟩
      | cons =>
        refine .inr ⟨rfl, fun positive => ?_⟩
        simp only [measure, length_drop, length_cons]
        omega
  | cons answer =>
    refine ⟨_, _, rfl, (take_append_drop _ rest).symm, ?_, ?_, ?_⟩
    · have := length_take_le (min answer.1 room) rest
      simp only
      omega
    · simp only [measure, length_drop, length_cons]
      omega
    · cases eof : answer.2 && (rest.drop (min answer.1 room)).isEmpty with
      | true =>
        rw [Bool.and_eq_true, List.isEmpty_iff] at eof
        exact .inl ⟨rfl, eof.2⟩
      | false =>
        refine .inr ⟨rfl, fun _ => ?_⟩
        simp only [measure, length_drop, length_cons]
        omega

def readAll (size : Nat) (src : Source) : Option (List UInt8 × Source) :=
  copy (fun src => some (src.read size)) (src.measure + 1) src

theorem readAll_eq {size : Nat} (positive : 0 < size) (src : Source) :
    ∃ last, src.readAll size = some (src.rest, last) := by
  have serves : Serves (fun src : Source => some (src.read size))
      (fun src bytes => src.rest = bytes) measure fun _ => True := by
    rintro src bytes rfl
    obtain ⟨chunk, next, answered, split, -, smaller, ended⟩ := src.read_spec size
    refine ⟨chunk, next, congrArg some answered, ended.imp ?_ ?_⟩
    · rintro ⟨eof, nothing⟩
      rw [nothing, append_nil] at split
      exact ⟨eof, split.symm, trivial, smaller⟩
    · rintro ⟨more, progress⟩
      exact ⟨more, next.rest, split, rfl, progress positive⟩
  obtain ⟨last, copied, -⟩ := copy_of_serves serves _ src _ (Nat.lt_succ_self _) rfl
  exact ⟨last, copied⟩

/-- A reader limited to as many bytes as the second component says. -/
def readLimited (size : Nat) (state : Source × Nat) : Option (Chunk × (Source × Nat)) :=
  if state.2 = 0 then some ({ bytes := [], eof := true }, state)
  else
    let (chunk, src) := state.1.read (min size state.2)
    some (chunk, src, state.2 - chunk.bytes.length)

def readN (size count : Nat) (src : Source) : Option (List UInt8 × Source) := do
  let (bytes, state) ← copy (readLimited size) (src.measure + 1) (src, count)
  some (bytes, state.1)

theorem readN_eq {size : Nat} (positive : 0 < size) (count : Nat) (src : Source) :
    ∃ last, src.readN size count = some (src.rest.take count, last) ∧
      last.rest = src.rest.drop count ∧ last.measure ≤ src.measure := by
  have serves : Serves (readLimited size)
      (fun state bytes => state.1.rest.take state.2 = bytes ∧
        state.1.rest.drop state.2 = src.rest.drop count)
      (fun state => state.1.measure) fun state => state.1.rest = src.rest.drop count := by
    rintro ⟨now, left⟩ bytes ⟨rfl, same⟩
    by_cases nothing : left = 0
    · subst nothing
      exact ⟨_, _, if_pos rfl, .inl ⟨rfl, rfl, same, Nat.le_refl _⟩⟩
    · obtain ⟨chunk, next, answered, split, _, smaller, ended⟩ :=
        now.read_spec (min size left)
      have fits : chunk.bytes.length ≤ left := by omega
      have taken : now.rest.take left =
          chunk.bytes ++ next.rest.take (left - chunk.bytes.length) := by
        rw [split, take_append, take_of_length_le fits]
      have dropped : now.rest.drop left = next.rest.drop (left - chunk.bytes.length) := by
        rw [split, drop_append, drop_of_length_le fits, nil_append]
      have call : readLimited size (now, left) =
          some (chunk, next, left - chunk.bytes.length) := by
        simp [readLimited, nothing, answered]
      refine ⟨chunk, _, call, ended.imp ?_ ?_⟩
      · rintro ⟨eof, empty⟩
        rw [empty, take_nil, append_nil] at taken
        rw [dropped, empty, drop_nil] at same
        exact ⟨eof, taken.symm, empty.trans same, smaller⟩
      · rintro ⟨more, progress⟩
        exact ⟨more, _, taken, ⟨rfl, dropped.symm.trans same⟩, progress (by omega)⟩
  obtain ⟨last, copied, ended, smaller⟩ :=
    copy_of_serves serves _ (src, count) _ (Nat.lt_succ_self _) ⟨rfl, rfl⟩
  exact ⟨last.1, by simp [readN, copied], ended, smaller⟩

end Source

end Readers
