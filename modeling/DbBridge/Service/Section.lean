import DbBridge.Lib.Readers
import DbBridge.Service.Queries

/-!
# `sectionReadCloser`

The reader that `DownloadResult` wraps around a store's reader: it skips `offset`
bytes on the first call and ends after `limit` bytes, where a limit that is not
positive is no limit. The store's reader is a `Readers.Source` over the stored bytes.
-/

namespace DbBridge.Service

open Domain Readers List

structure SectionReadCloser where
  r : Source
  offset : Int
  limit : Int
  read : Int := 0

namespace SectionReadCloser

def discardBuffer : Nat := 8192

/-- `io.CopyN(io.Discard, src.r, src.offset)`, with the flag that it returned an error,
which is `io.EOF`. -/
def skip (src : SectionReadCloser) : Option (SectionReadCloser × Bool) :=
  if src.offset > 0 then do
    let (discarded, r) ← src.r.readN discardBuffer src.offset.toNat
    some ({ src with r := r, offset := wrap64 (src.offset - discarded.length) },
      decide ((discarded.length : Int) < src.offset))
  else some (src, false)

/-- `Read` into a buffer of `len` bytes, once the offset is skipped. -/
def readOn (len : Nat) (src : SectionReadCloser) : Chunk × SectionReadCloser :=
  let remaining := wrap64 (src.limit - src.read)
  let toRead := if src.limit > 0 ∧ (len : Int) > remaining then remaining.toNat else len
  let (chunk, r) := src.r.read toRead
  let after := { src with r := r, read := wrap64 (src.read + chunk.bytes.length) }
  if after.limit > 0 ∧ after.read ≥ after.limit then ({ chunk with eof := true }, after)
  else (chunk, after)

def readInto (len : Nat) (src : SectionReadCloser) : Option (Chunk × SectionReadCloser) := do
  let (src, failed) ← src.skip
  if failed = true ∨ src.limit > 0 ∧ src.read ≥ src.limit then
    some ({ bytes := [], eof := true }, src)
  else some (src.readOn len)

end SectionReadCloser

/-- `io.Copy` of a result's body through a buffer of `size` bytes. -/
def Body.copy (size : Nat) : Body Source → Option (List UInt8)
  | .whole reader => (reader.readAll size).map Prod.fst
  | .window reader offset limit =>
    (Readers.copy (SectionReadCloser.readInto size) (reader.measure + 1)
      { r := reader, offset := offset, limit := limit }).map Prod.fst

/-! ## What a section hands out -/

namespace SectionReadCloser

def window (bytes : List UInt8) (offset limit : Int) : List UInt8 :=
  if limit > 0 then (bytes.drop offset.toNat).take limit.toNat else bytes.drop offset.toNat

structure Coming (src : SectionReadCloser) (bytes : List UInt8) : Prop where
  offset : 0 ≤ src.offset
  limit : src.limit < 2 ^ 63
  room : src.limit > 0 → 0 ≤ src.read ∧ src.read < src.limit
  bytes : bytes = if src.limit > 0
    then (src.r.rest.drop src.offset.toNat).take (src.limit - src.read).toNat
    else src.r.rest.drop src.offset.toNat

variable {src : SectionReadCloser} {bytes : List UInt8}

theorem Coming.skip (coming : src.Coming bytes) :
    ∃ after failed, src.skip = some (after, failed) ∧ after.r.measure ≤ src.r.measure ∧
      (failed = true ∧ bytes = [] ∨
        failed = false ∧ after.offset = 0 ∧ after.Coming bytes) := by
  have low := coming.offset
  by_cases ahead : src.offset > 0
  · obtain ⟨last, copied, left, smaller⟩ :=
      src.r.readN_eq (show 0 < discardBuffer by decide) src.offset.toNat
    have length : (src.r.rest.take src.offset.toNat).length =
        min src.offset.toNat src.r.rest.length := length_take
    have skips : src.skip = some
        ({ src with
            r := last
            offset := wrap64 (src.offset - (src.r.rest.take src.offset.toNat).length) },
          decide (((src.r.rest.take src.offset.toNat).length : Int) < src.offset)) := by
      simp only [SectionReadCloser.skip, if_pos ahead, copied]
      rfl
    refine ⟨_, _, skips, smaller, ?_⟩
    by_cases short : src.r.rest.length < src.offset.toNat
    · refine .inl ⟨decide_eq_true (by omega), ?_⟩
      have nothing : src.r.rest.drop src.offset.toNat = [] := drop_of_length_le (by omega)
      rw [coming.bytes, nothing]
      simp
    · have reached : wrap64 (src.offset - (src.r.rest.take src.offset.toNat).length) = 0 := by
        rw [wrap64_of_range (by omega) (by omega)]
        omega
      refine .inr ⟨decide_eq_false (by omega), reached, ?_⟩
      exact {
        offset := Int.le_of_eq reached.symm
        limit := coming.limit
        room := coming.room
        bytes := by
          simp only [reached, left]
          exact coming.bytes }
  · exact ⟨src, false, if_neg ahead, Nat.le_refl _, .inr ⟨rfl, by omega, coming⟩⟩

theorem Coming.toRead (coming : src.Coming bytes) (len : Nat) :
    ∃ toRead : Nat, (0 < len → 0 < toRead) ∧ (src.limit > 0 → (toRead : Int) ≤ src.limit - src.read) ∧
      (if src.limit > 0 ∧ (len : Int) > wrap64 (src.limit - src.read)
        then (wrap64 (src.limit - src.read)).toNat else len) = toRead := by
  have high := coming.limit
  by_cases limited : src.limit > 0
  · obtain ⟨_, room⟩ := coming.room limited
    rw [wrap64_of_range (by omega) (by omega)]
    by_cases longer : (len : Int) > src.limit - src.read
    · exact ⟨(src.limit - src.read).toNat, by omega, fun _ => by omega,
        if_pos ⟨limited, longer⟩⟩
    · exact ⟨len, id, fun _ => by omega, if_neg fun both => longer both.2⟩
  · exact ⟨len, id, fun yes => absurd yes limited, if_neg fun both => limited both.1⟩

theorem Coming.readOn (len : Nat) (coming : src.Coming bytes) (skipped : src.offset = 0) :
    ∃ chunk next, src.readOn len = (chunk, next) ∧ next.r.measure ≤ src.r.measure ∧
      (chunk.eof = true ∧ chunk.bytes = bytes ∨
        chunk.eof = false ∧ ∃ rest, bytes = chunk.bytes ++ rest ∧ next.Coming rest ∧
          (0 < len → next.r.measure < src.r.measure)) := by
  obtain ⟨toRead, some', within, size⟩ := coming.toRead len
  obtain ⟨chunk, left, answered, split, _, smaller, ended⟩ := src.r.read_spec toRead
  have bytesEq := coming.bytes
  simp only [skipped, Int.toNat_zero, drop_zero] at bytesEq
  simp only [SectionReadCloser.readOn, size, answered]
  by_cases limited : src.limit > 0
  · have within := within limited
    have high := coming.limit
    have low := (coming.room limited).1
    have count : wrap64 (src.read + chunk.bytes.length) = src.read + chunk.bytes.length :=
      wrap64_of_range (by omega) (by omega)
    rw [count]
    rw [if_pos limited, split, take_append,
      take_of_length_le (by omega)] at bytesEq
    by_cases reached : src.read + chunk.bytes.length ≥ src.limit
    · -- The limit is reached, whatever the reader said.
      have none : (src.limit - src.read).toNat - chunk.bytes.length = 0 := by omega
      rw [none, take_zero, append_nil] at bytesEq
      exact ⟨_, _, if_pos ⟨limited, reached⟩, smaller, .inl ⟨rfl, bytesEq.symm⟩⟩
    · refine ⟨chunk, _, if_neg fun both => reached both.2, smaller, ended.imp ?_ ?_⟩
      · rintro ⟨eof, nothing⟩
        rw [nothing, take_nil, append_nil] at bytesEq
        exact ⟨eof, bytesEq.symm⟩
      · rintro ⟨more, progress⟩
        refine ⟨more, _, bytesEq, ?_, fun positive => progress (some' positive)⟩
        exact {
          offset := coming.offset
          limit := coming.limit
          room := fun _ => by simp only; omega
          bytes := by
            have left : (src.limit - (src.read + chunk.bytes.length)).toNat =
                (src.limit - src.read).toNat - chunk.bytes.length := by omega
            simp [limited, skipped, left] }
  · rw [if_neg limited, split] at bytesEq
    refine ⟨chunk, _, if_neg fun both => limited both.1, smaller, ended.imp ?_ ?_⟩
    · rintro ⟨eof, nothing⟩
      rw [nothing, append_nil] at bytesEq
      exact ⟨eof, bytesEq.symm⟩
    · rintro ⟨more, progress⟩
      refine ⟨more, _, bytesEq, ?_, fun positive => progress (some' positive)⟩
      exact {
        offset := coming.offset
        limit := coming.limit
        room := fun yes => absurd yes limited
        bytes := by simp [limited, skipped] }

/-- A call hands out the next part of what is coming, and reports the end with the last one. -/
theorem Coming.readInto (len : Nat) (coming : src.Coming bytes) :
    ∃ chunk next, src.readInto len = some (chunk, next) ∧ next.r.measure ≤ src.r.measure ∧
      (chunk.eof = true ∧ chunk.bytes = bytes ∨
        chunk.eof = false ∧ ∃ rest, bytes = chunk.bytes ++ rest ∧ next.Coming rest ∧
          (0 < len → next.r.measure < src.r.measure)) := by
  obtain ⟨after, _, skips, smaller, ⟨rfl, rfl⟩ | ⟨rfl, skipped, coming'⟩⟩ := coming.skip
  · have ended : src.readInto len = some ({ bytes := [], eof := true }, after) := by
      simp [SectionReadCloser.readInto, skips]
    exact ⟨_, after, ended, smaller, .inl ⟨rfl, rfl⟩⟩
  · have unfinished : ¬ (after.limit > 0 ∧ after.read ≥ after.limit) := by
      rintro ⟨limited, _⟩
      have := coming'.room limited
      omega
    obtain ⟨chunk, next, answered, less, outcome⟩ := coming'.readOn len skipped
    refine ⟨chunk, next, by simp [SectionReadCloser.readInto, skips, unfinished, answered],
      Nat.le_trans less smaller, outcome.imp_right ?_⟩
    rintro ⟨more, rest, split, further, progress⟩
    exact ⟨more, rest, split, further, fun positive =>
      Nat.lt_of_lt_of_le (progress positive) smaller⟩

theorem readInto_serves {len : Nat} (positive : 0 < len) :
    Serves (readInto len) Coming (fun src => src.r.measure) fun _ => True := by
  intro src bytes coming
  obtain ⟨chunk, next, answered, less, ⟨eof, whole⟩ | ⟨more, rest, split, further, progress⟩⟩ :=
    coming.readInto len
  · exact ⟨chunk, next, answered, .inl ⟨eof, whole, trivial, less⟩⟩
  · exact ⟨chunk, next, answered, .inr ⟨more, rest, split, further, progress positive⟩⟩

theorem Coming.readThrough (sizes : List Nat) (coming : src.Coming bytes) :
    ∃ got ended, Readers.readThrough SectionReadCloser.readInto sizes src = some (got, ended) ∧
      got <+: bytes ∧ (ended = true → got = bytes) ∧
      (src.r.measure < sizes.countP (0 < ·) → ended = true) := by
  induction sizes generalizing src bytes with
  | nil => exact ⟨[], false, rfl, nil_prefix, nofun, nofun⟩
  | cons len _ ih =>
    obtain ⟨chunk, _, answered, _, ⟨eof, rfl⟩ | ⟨more, _, rfl, further, progress⟩⟩ :=
      coming.readInto len
    · exact ⟨chunk.bytes, true, by simp [Readers.readThrough, answered, eof], prefix_rfl,
        fun _ => rfl, fun _ => rfl⟩
    · obtain ⟨got, ended, reads, begins, whole, enough⟩ := ih further
      refine ⟨chunk.bytes ++ got, ended, by simp [Readers.readThrough, answered, more, reads],
        (prefix_append_right_inj _).mpr begins, fun done => by rw [whole done],
        fun many => enough ?_⟩
      -- a call without room need not come closer to the end, and is not counted
      rw [countP_cons] at many
      by_cases positive : 0 < len
      · have nearer := progress positive
        simp only [positive, decide_true, if_true] at many
        omega
      · simp only [positive, decide_false, Bool.false_eq_true, if_false] at many
        omega

theorem Coming.initial (reader : Source) {offset limit : Int} (low : 0 ≤ offset)
    (small : limit < 2 ^ 63) :
    Coming { r := reader, offset := offset, limit := limit } (window reader.rest offset limit) :=
  { offset := low, limit := small, room := fun limited => ⟨le_rfl, limited⟩
    bytes := by simp [window] }

/-- Through buffers of any sizes a section hands out its window, however the store's reader cuts
the bytes, and ends once more non-empty buffers came than the reader can answer. Offset and
limit are the `int64` values that are not negative. -/
theorem readThrough_window (reader : Source) (offset limit : Fin (2 ^ 63)) (sizes : List Nat) :
    ∃ got ended, Readers.readThrough readInto sizes
        { r := reader, offset := (offset : Nat), limit := (limit : Nat) } = some (got, ended) ∧
      got <+: window reader.rest (offset : Nat) (limit : Nat) ∧
      (ended = true → got = window reader.rest (offset : Nat) (limit : Nat)) ∧
      (reader.measure < sizes.countP (0 < ·) → ended = true) :=
  (Coming.initial reader (by omega) (by omega)).readThrough sizes

end SectionReadCloser

namespace Body

/-- A body sends the bytes of its window, however the store's reader cuts them. -/
theorem copy_window {size : Nat} (positive : 0 < size) (reader : Source) {offset limit : Int}
    (low : 0 ≤ offset) (small : limit < 2 ^ 63) :
    Body.copy size (.window reader offset limit) =
      some (SectionReadCloser.window reader.rest offset limit) := by
  have coming := SectionReadCloser.Coming.initial reader low small
  obtain ⟨_, copied, -⟩ := copy_of_serves (SectionReadCloser.readInto_serves positive)
    (reader.measure + 1) _ _ (Nat.lt_succ_self _) coming
  simp [Body.copy, copied]

theorem copy_whole {size : Nat} (positive : 0 < size) (reader : Source) :
    Body.copy size (.whole reader) = some reader.rest := by
  obtain ⟨_, copied⟩ := reader.readAll_eq positive
  simp [Body.copy, copied]

end Body

end DbBridge.Service
