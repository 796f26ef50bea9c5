import DbBridge.Service.Section
import DbBridge.Transport.Rest

/-!
# Range downloads

What a client reads after a `206`: the `Content-Range` that `handleDownloadResult`
computes from the header and `SizeBytes`, and the bytes that the section reader made
from the same header hands to `io.Copy`.
-/

namespace DbBridge.Rest

open Domain Authn Service Readers

/-! ## What a header asks for -/

theorem parseInt_range {s : String} {value : Int} (parsed : parseInt s = some value) :
    value < 2 ^ 63 := by
  simp only [parseInt] at parsed
  split at parsed
  all_goals
    simp only [Option.ite_none_left_eq_some] at parsed
    obtain ⟨_, -, ranged⟩ := Option.bind_eq_some_iff.mp parsed.2
    simp only [Option.ite_none_right_eq_some, Option.some.injEq] at ranged
    exact ranged.2 ▸ ranged.1.2

variable {header : String} {start last : Int}

theorem parseByteRange_range (parsed : parseByteRange header = some (start, last)) :
    0 ≤ start ∧ (last = -1 ∨ start ≤ last ∧ last < 2 ^ 63) := by
  obtain ⟨_, -, parsed⟩ := Option.bind_eq_some_iff.mp parsed
  obtain ⟨_, -, parsed⟩ := Option.bind_eq_some_iff.mp parsed
  obtain ⟨_, -, parsed⟩ := Option.bind_eq_some_iff.mp parsed
  simp only [Option.ite_none_left_eq_some] at parsed
  obtain ⟨low, parsed⟩ := parsed
  split at parsed
  · cases parsed
    exact ⟨Int.not_lt.mp low, .inl rfl⟩
  · obtain ⟨_, second, parsed⟩ := Option.bind_eq_some_iff.mp parsed
    simp only [Option.ite_none_left_eq_some, Option.some.injEq, Prod.mk.injEq] at parsed
    obtain ⟨ordered, rfl, rfl⟩ := parsed
    exact ⟨Int.not_lt.mp low, .inr ⟨Int.not_lt.mp ordered, parseInt_range second⟩⟩

theorem header_ne_empty {range : Int × Int} (parsed : parseByteRange header = some range) :
    header ≠ "" := by
  rintro rfl
  simp [parseByteRange, List.dropPrefix?] at parsed

/-! ## What a download opens -/

variable {ref : ResultRef} {reader : Source}

section
variable (node : Node) (content : Content) (storage : Storage Source) (caller : Option Identity)
  (id : String)

structure Opens (ref : ResultRef) (reader : Source) : Prop where
  record : ∃ record, authorized node content caller id = .ok record ∧
    record.state = .succeeded ∧ record.result = some ref
  reader : openResult storage ref = .ok reader

/-- The reader of a stored result has `SizeBytes` bytes, which is an `int64`. -/
def Sized (storage : Storage Source) : Prop :=
  ∀ ref reader, openResult storage ref = .ok reader →
    (reader.rest.length : Int) = ref.sizeBytes ∧ ref.sizeBytes < 2 ^ 63

def bodyOf (reader : Source) (offset limit : Int) : Body Source :=
  if offset > 0 ∨ limit > 0 then .window reader offset limit else .whole reader

variable {node content storage caller id}

theorem downloadResult_of_opens (opens : Opens node content storage caller id ref reader)
    (offset limit : Int) :
    downloadResult node content storage caller id offset limit =
      .ok (bodyOf reader offset limit, ref) := by
  obtain ⟨⟨_, found, succeeded, result⟩, opened⟩ := opens
  simp only [downloadResult, found, bodyOf, bind, Except.bind, succeeded, result, opened,
    ne_eq, not_true_eq_false, if_false]
  split <;> rfl

theorem opens_of_downloadResult {body : Body Source} {offset limit : Int}
    (downloaded : downloadResult node content storage caller id offset limit = .ok (body, ref)) :
    ∃ reader, Opens node content storage caller id ref reader ∧
      body = bodyOf reader offset limit := by
  simp only [downloadResult, bind, Except.bind] at downloaded
  cases found : authorized node content caller id with
  | error => simp [found] at downloaded
  | ok record =>
    simp only [found] at downloaded
    split at downloaded
    · contradiction
    · rename_i succeeded
      cases result : record.result with
      | none => simp [result] at downloaded
      | some ref' =>
        simp only [result] at downloaded
        cases opened : openResult storage ref' with
        | error => simp [opened] at downloaded
        | ok reader =>
          simp only [opened] at downloaded
          refine ⟨reader, ?_⟩
          split at downloaded
          all_goals
            rename_i given
            cases downloaded
            refine ⟨⟨⟨record, found, not_not.mp succeeded, result⟩, opened⟩, ?_⟩
            simp [bodyOf, given]

end

/-! ## The advertised range -/

/-- The last byte of the answer: the end asked for, if there is one, within the result. -/
def lastByte (last total : Int) : Int := if last < 0 ∨ last ≥ total then total - 1 else last

theorem lastByte_range {total : Int} (range : last = -1 ∨ start ≤ last) (inside : start < total) :
    start ≤ lastByte last total ∧ lastByte last total < total := by
  unfold lastByte
  split <;> omega

theorem bodyOf_range {size : Nat} (positive : 0 < size) (low : 0 ≤ start)
    (range : last = -1 ∨ start ≤ last ∧ last < 2 ^ 63) (inside : start < reader.rest.length)
    (fits : (reader.rest.length : Int) < 2 ^ 63) :
    (bodyOf reader start (if last ≥ 0 then wrap64 (last - start + 1) else 0)).copy size =
      some ((reader.rest.drop start.toNat).take
        (lastByte last reader.rest.length - start + 1).toNat) := by
  -- Up to the end of the result, no limit and any limit behind it are the same.
  have toEnd : ∀ count : Nat, (reader.rest.length : Int) ≤ start + count →
      (reader.rest.drop start.toNat).take count = reader.rest.drop start.toNat := by
    intro count enough
    exact List.take_of_length_le (by rw [List.length_drop]; omega)
  have unlimited : ∀ limit ≤ 0, lastByte last reader.rest.length = reader.rest.length - 1 →
      (bodyOf reader start limit).copy size =
        some ((reader.rest.drop start.toNat).take
          (lastByte last reader.rest.length - start + 1).toNat) := by
    intro limit none whole
    rw [whole, toEnd _ (by omega)]
    by_cases ahead : start > 0
    · rw [bodyOf, if_pos (.inl ahead), Body.copy_window positive reader low (by omega),
        SectionReadCloser.window, if_neg (by omega)]
    · have zero : start = 0 := by omega
      rw [bodyOf, if_neg (by omega), Body.copy_whole positive, zero]
      rfl
  rcases range with rfl | ⟨_, _⟩
  · exact unlimited _ (by simp) (by simp [lastByte])
  · rw [if_pos (by omega : last ≥ 0)]
    by_cases wraps : last - start + 1 = 2 ^ 63
    · -- Only `bytes=0-9223372036854775807` overflows, and it asks for everything.
      have wrapped : wrap64 (last - start + 1) ≤ 0 := by rw [wraps]; decide
      exact unlimited _ wrapped (by rw [lastByte, if_pos (by omega)])
    · rw [wrap64_of_range (by omega) (by omega), bodyOf, if_pos (by omega),
        Body.copy_window positive reader low (by omega), SectionReadCloser.window,
        if_pos (by omega)]
      unfold lastByte
      split
      · rw [toEnd _ (by omega), toEnd _ (by omega)]
      · rfl

section
variable {node : Node} {content : Content} {storage : Storage Source} {caller : Option Identity}
  {id : String}

theorem handleDownloadResult_of_range (named : id ≠ "")
    (parsed : parseByteRange header = some (start, last))
    (opens : Opens node content storage caller id ref reader) (offset limit : String) :
    handleDownloadResult node content storage caller id header offset limit =
      sendResult (some (start, last))
        (bodyOf reader start (if last ≥ 0 then wrap64 (last - start + 1) else 0), ref) := by
  simp only [handleDownloadResult, if_neg named, if_pos (header_ne_empty parsed), parsed,
    downloadResult_of_opens opens]
  rfl

theorem writeError_status_ne (err : CallError) :
    (writeError err : Response Source).status ≠ 206 := by
  simp only [writeError, writeStatus, classify]
  cases err.cause <;> simp

theorem range_of_206 {offset limit : String}
    (answered : (handleDownloadResult node content storage caller id header offset
      limit).status = 206) :
    id ≠ "" ∧ ∃ start last ref reader, parseByteRange header = some (start, last) ∧
      Opens node content storage caller id ref reader := by
  simp only [handleDownloadResult] at answered
  split at answered
  · exact absurd answered (writeError_status_ne _)
  · rename_i named
    refine ⟨named, ?_⟩
    split at answered
    · cases parsed : parseByteRange header with
      | none => simp [parsed, writeStatus] at answered
      | some range =>
        obtain ⟨start, last⟩ := range
        simp only [parsed] at answered
        cases downloaded : downloadResult node content storage caller id start
            (if last ≥ 0 then wrap64 (last - start + 1) else 0) with
        | error err =>
          rw [downloaded] at answered
          exact absurd answered (writeError_status_ne err)
        | ok result =>
          obtain ⟨reader, opens, -⟩ := opens_of_downloadResult downloaded
          exact ⟨start, last, result.2, reader, rfl, opens⟩
    · -- Without the header the answer is an error or the whole body with 200.
      split at answered
      · exact absurd answered (writeError_status_ne _)
      · exact absurd answered (writeError_status_ne _)
      · rename_i first count _ _
        cases downloaded : downloadResult node content storage caller id first count with
        | error err =>
          rw [downloaded] at answered
          exact absurd answered (writeError_status_ne err)
        | ok =>
          rw [downloaded] at answered
          simp [Observation.answer, sendResult] at answered

/-- The response announces the bytes from `start` to the last byte of the range in
`stored`, and sends them. -/
structure Exact (response : Response Source) (size : Nat) (start last total : Int)
    (stored : List UInt8) : Prop where
  contentRange : response.contentRange = some ("bytes " ++ toString start ++ "-" ++
    toString (lastByte last total) ++ "/" ++ toString total)
  low : 0 ≤ start
  ordered : start ≤ lastByte last total
  inside : lastByte last total < total
  body : ∃ kind body, response.body = .bytes kind body ∧
    body.copy size = some ((stored.drop start.toNat).take
      (lastByte last total - start + 1).toNat)

theorem sendResult_exact {size : Nat} (positive : 0 < size) (low : 0 ≤ start)
    (range : last = -1 ∨ start ≤ last ∧ last < 2 ^ 63)
    (whole : (reader.rest.length : Int) = ref.sizeBytes) (fits : ref.sizeBytes < 2 ^ 63)
    (inside : start < ref.sizeBytes) :
    Exact (sendResult (some (start, last))
      (bodyOf reader start (if last ≥ 0 then wrap64 (last - start + 1) else 0), ref))
      size start last ref.sizeBytes reader.rest := by
  have stop : (if last < 0 ∨ last ≥ ref.sizeBytes then wrap64 (ref.sizeBytes - 1) else last) =
      lastByte last ref.sizeBytes := by
    rw [wrap64_of_range (by omega) (by omega), lastByte]
  have bounds := lastByte_range (range.imp_right And.left) inside
  have within : start < reader.rest.length := by omega
  have copied := bodyOf_range positive low range within (by omega)
  simp only [sendResult]
  rw [if_neg (by omega)]
  exact {
    contentRange := by rw [stop]
    low := low
    ordered := bounds.1
    inside := bounds.2
    body := ⟨_, _, rfl, by rw [copied, whole]⟩ }

/-- A `206` advertises the range asked for, within the result, and its body is exactly
those bytes; a range that starts behind the result is answered `416`. -/
theorem range_download_is_exact (sized : Sized storage) {size : Nat} (positive : 0 < size)
    (offset limit : String) :
    ((handleDownloadResult node content storage caller id header offset limit).status = 206 →
      ∃ start last ref reader, parseByteRange header = some (start, last) ∧
        Opens node content storage caller id ref reader ∧
        Exact (handleDownloadResult node content storage caller id header offset limit) size
          start last ref.sizeBytes reader.rest) ∧
      ∀ start last ref reader, id ≠ "" → parseByteRange header = some (start, last) →
        Opens node content storage caller id ref reader → ref.sizeBytes ≤ start →
        (handleDownloadResult node content storage caller id header offset limit).status = 416 := by
  have behind : ∀ start last ref reader, id ≠ "" → parseByteRange header = some (start, last) →
      Opens node content storage caller id ref reader → ref.sizeBytes ≤ start →
      (handleDownloadResult node content storage caller id header offset limit).status =
        416 := by
    intro start last ref reader named parsed opens past
    have size := (sized ref reader opens.reader).1
    rw [handleDownloadResult_of_range named parsed opens]
    simp only [sendResult]
    rw [if_pos (by omega)]
    rfl
  refine ⟨fun answered => ?_, behind⟩
  obtain ⟨named, start, last, ref, reader, parsed, opens⟩ := range_of_206 answered
  have inside : start < ref.sizeBytes := by
    refine Int.not_le.mp fun past => ?_
    rw [behind start last ref reader named parsed opens past] at answered
    contradiction
  obtain ⟨low, range⟩ := parseByteRange_range parsed
  obtain ⟨whole, fits⟩ := sized ref reader opens.reader
  refine ⟨start, last, ref, reader, parsed, opens, ?_⟩
  rw [handleDownloadResult_of_range named parsed opens]
  exact sendResult_exact positive low range whole fits inside

end

/-! ## A download in pieces -/

def finishedQuery : QueryRecord where
  __ := QueryRecord.sample .succeeded
  result := some { backend := "fs", locator := "q.csv", format := "csv", sizeBytes := 5 }

def finishedContent : Content := fun id => if id = "q" then some finishedQuery else none

def pieces : Storage Source := fun _ => some fun ref =>
  if ref.sizeBytes = 5 then
    .ok { rest := [10, 11, 12, 13, 14], plan := [(2, false), (0, false), (1, true)] }
  else .error (.other "no such object")

theorem pieces_sized : Sized pieces := by
  intro ref reader opened
  simp only [openResult, pieces, Except.mapError] at opened
  split at opened
  · contradiction
  · rename_i found
    split at found <;> cases found
    cases opened
    rename_i five
    rw [five]
    decide

/-- The three bytes asked for arrive, across the short reads. -/
theorem middle_of_result_is_sent :
    (handleDownloadResult { instanceID := "a", authRequired := false } finishedContent pieces
        none "q" "bytes=1-3" "" "").status = 206 ∧
      ∃ start last ref reader, parseByteRange "bytes=1-3" = some (start, last) ∧
        Opens { instanceID := "a", authRequired := false } finishedContent pieces none "q" ref
          reader ∧
        Exact (handleDownloadResult { instanceID := "a", authRequired := false }
          finishedContent pieces none "q" "bytes=1-3" "" "") 2 start last ref.sizeBytes
          reader.rest := by
  have answered : (handleDownloadResult { instanceID := "a", authRequired := false }
      finishedContent pieces none "q" "bytes=1-3" "" "").status = 206 := by decide +kernel
  exact ⟨answered, (range_download_is_exact pieces_sized (by decide) "" "").1 answered⟩

end DbBridge.Rest
