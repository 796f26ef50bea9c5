import DbBridge.Lib.Lines
import DbBridge.Storage.Jsonl

/-!
# The ClickHouse result store

The goroutine behind `Writer` inserts what is written line by line, 500 to a transaction;
`Reader` puts the lines together by their chunk IDs. The answers to the database calls and the
errors of `bufio.Scanner` are parameters.
-/

namespace DbBridge.Storage.ClickHouse

open Domain Lines List

/-- What `Scan` returns until it returns false, and `Err`: without an error, all lines. -/
structure Scanner (text : Bytes) where
  tokens : List Bytes
  err : Option GoError
  whole : err = none → tokens = lines [] text

/-- A scanner that meets no error. -/
def Scanner.full (text : Bytes) : Scanner text := ⟨lines [] text, none, fun _ => rfl⟩

structure Row where
  chunkID : UInt32
  data : Bytes

/-- `calls` counts the calls made; `table` has the rows that are committed. -/
structure Insert where
  calls : Nat := 0
  chunkID : UInt32 := 0
  tx : List Row := []
  table : List Row := []

/-- An error comes with what had been done. -/
abbrev Result := Except (GoError × Insert) Insert

section
variable (fails : Nat → Option GoError)

def call (s : Insert) : Result :=
  let next := { s with calls := s.calls + 1 }
  match fails s.calls with
  | some err => .error (err, next)
  | none => .ok next

/-- `Begin` and `Prepare`. -/
def begin (s : Insert) : Result := call fails s >>= call fails

def commit (s : Insert) : Result := do
  let s ← call fails s
  pure { s with table := s.table ++ s.tx, tx := [] }

def insertLine (s : Insert) (line : Bytes) : Result := do
  let s ← call fails s
  let s := { s with tx := s.tx ++ [⟨s.chunkID, line⟩], chunkID := s.chunkID + 1 }
  if s.chunkID % 500 = 0 then commit fails s >>= begin fails else pure s

/-- The goroutine, with the error it leaves for `Close`. -/
def insert {text : Bytes} (scanner : Scanner text) : Result := do
  let s ← begin fails {}
  let s ← scanner.tokens.foldlM (insertLine fails) s
  match scanner.err with
  | some err => .error (err, s)
  | none => commit fails s

/-- What `Close` returns, and what the goroutine leaves behind. -/
def close {text : Bytes} (scanner : Scanner text) : Option GoError × Insert :=
  match insert fails scanner with
  | .ok s => (none, s)
  | .error (err, s) => (some err, s)

/-! ## What has been inserted -/

def numbered (tokens : List Bytes) : List Row :=
  tokens.mapIdx fun i line => ⟨UInt32.ofNat i, line⟩

structure Inserted (tokens : List Bytes) (s : Insert) : Prop where
  rows : s.table ++ s.tx = numbered tokens
  next : s.chunkID = UInt32.ofNat tokens.length
  clean : ∀ n < s.calls, fails n = none

/-- An error is that of a call that was made. -/
def Outcome (post : Insert → Prop) : Result → Prop
  | .ok s => post s
  | .error (_, s) => ∃ n < s.calls, fails n ≠ none

end

variable {fails : Nat → Option GoError} {tokens : List Bytes} {s : Insert}

theorem Outcome.bind {post more : Insert → Prop} {first : Result} {rest : Insert → Result}
    (outcome : Outcome fails post first) (next : ∀ s, post s → Outcome fails more (rest s)) :
    Outcome fails more (first >>= rest) := by
  cases first with
  | error => exact outcome
  | ok s => exact next s outcome

section
variable (inserted : Inserted fails tokens s)
include inserted

theorem call_outcome : Outcome fails (Inserted fails tokens) (call fails s) := by
  unfold call
  split
  · rename_i failed
    exact ⟨s.calls, Nat.lt_succ_self _, by simp [failed]⟩
  · rename_i answered
    refine ⟨inserted.rows, inserted.next, fun n made => ?_⟩
    rcases Nat.lt_succ_iff_lt_or_eq.mp made with earlier | rfl
    · exact inserted.clean n earlier
    · exact answered

theorem begin_outcome : Outcome fails (Inserted fails tokens) (begin fails s) :=
  (call_outcome inserted).bind fun _ => call_outcome

theorem commit_outcome :
    Outcome fails (fun t => Inserted fails tokens t ∧ t.table = numbered tokens) (commit fails s) :=
  (call_outcome inserted).bind fun _ inserted =>
    ⟨⟨by simpa using inserted.rows, inserted.next, inserted.clean⟩, inserted.rows⟩

theorem insertLine_outcome (line : Bytes) :
    Outcome fails (Inserted fails (tokens ++ [line])) (insertLine fails s line) := by
  refine (call_outcome inserted).bind fun s inserted => ?_
  have added : Inserted fails (tokens ++ [line])
      { s with tx := s.tx ++ [⟨s.chunkID, line⟩], chunkID := s.chunkID + 1 } := by
    refine ⟨?_, ?_, inserted.clean⟩
    · simp only [← append_assoc, inserted.rows, inserted.next]
      simp [numbered, mapIdx_append]
    · simp [inserted.next, UInt32.ofNat_add]
  dsimp only
  split
  · exact (commit_outcome added).bind fun _ committed => begin_outcome committed.1
  · exact added

theorem foldlM_outcome (more : List Bytes) :
    Outcome fails (Inserted fails (tokens ++ more)) (more.foldlM (insertLine fails) s) := by
  induction more generalizing tokens s with
  | nil =>
    rw [append_nil]
    exact inserted
  | cons line more ih =>
    rw [foldlM_cons, append_cons]
    exact (insertLine_outcome inserted line).bind fun _ inserted => ih inserted

end

variable {text : Bytes}

theorem close_cases (scanner : Scanner text) :
    ((close fails scanner).1 = none ∧ (∀ n < (close fails scanner).2.calls, fails n = none) ∧
      scanner.err = none ∧ (close fails scanner).2.table = numbered (lines [] text)) ∨
    (close fails scanner).1 ≠ none ∧
      ((∃ n < (close fails scanner).2.calls, fails n ≠ none) ∨ scanner.err ≠ none) := by
  have begun : Inserted fails [] {} := ⟨rfl, rfl, nofun⟩
  have all := (begin_outcome begun).bind fun _ inserted => foldlM_outcome inserted scanner.tokens
  unfold close insert
  rw [nil_append] at all
  rw [← bind_assoc]
  generalize begin fails {} >>= scanner.tokens.foldlM (insertLine fails) = first at all ⊢
  cases first with
  | error => exact .inr ⟨nofun, .inl all⟩
  | ok s =>
    cases stopped : scanner.err with
    | some => exact .inr ⟨nofun, .inr nofun⟩
    | none =>
      have outcome := commit_outcome all
      cases committed : commit fails s with
      | error =>
        simp only [bind, Except.bind, committed] at outcome ⊢
        exact .inr ⟨nofun, .inl outcome⟩
      | ok =>
        simp only [bind, Except.bind, committed] at outcome ⊢
        exact .inl ⟨trivial, outcome.1.clean, trivial, scanner.whole stopped ▸ outcome.2⟩

/-! ## Reading -/

/-- An order in which `ORDER BY chunk_id` may return the rows. -/
def Ordered (table rows : List Row) : Prop :=
  rows.Perm table ∧ rows.Pairwise fun a b => a.chunkID ≤ b.chunkID

def readerBytes (rows : List Row) : Bytes := rows.flatMap fun row => row.data ++ [lf]

theorem ordered_numbered (few : tokens.length ≤ 2 ^ 32) {rows : List Row}
    (ordered : Ordered (numbered tokens) rows) : rows = numbered tokens := by
  have id : ∀ i < tokens.length, (UInt32.ofNat i).toNat = i := fun i inside =>
    UInt32.toNat_ofNat_of_lt' (Nat.lt_of_lt_of_le inside few)
  have sorted : (numbered tokens).Pairwise fun a b => a.chunkID ≤ b.chunkID := by
    rw [pairwise_iff_getElem]
    intro i j hi hj less
    simp only [numbered, length_mapIdx, getElem_mapIdx] at hi hj ⊢
    rw [UInt32.le_iff_toNat_le, id i hi, id j hj]
    exact Nat.le_of_lt less
  refine ordered.1.eq_of_pairwise (fun a b aIn bIn le ge => ?_) ordered.2 sorted
  obtain ⟨i, hi, rfl⟩ := mem_mapIdx.mp (ordered.1.subset aIn)
  obtain ⟨j, hj, rfl⟩ := mem_mapIdx.mp bIn
  have same := congrArg UInt32.toNat (UInt32.le_antisymm le ge)
  simp only [id i hi, id j hj] at same
  subst same
  rfl

theorem readerBytes_eq (few : tokens.length ≤ 2 ^ 32) {rows : List Row}
    (ordered : Ordered (numbered tokens) rows) : readerBytes rows = joined tokens := by
  have data : (numbered tokens).map (·.data) = tokens :=
    ext_getElem (by simp [numbered]) (by simp [numbered])
  rw [ordered_numbered few ordered, joined, ← data, flatMap_map, data]
  rfl

/-- Whatever fails, `Close` returns nil exactly when no call that was made and no `Scan` did. Then
the table has the lines that were written, each once and numbered in their order, and `Reader`
returns up to 2^32 lines in this order: what was written, exactly if its lines end with `\n`. -/
theorem clean_close_commits (fails : Nat → Option GoError) (text : Bytes) (scanner : Scanner text) :
    ((close fails scanner).1 = none ↔
      (∀ n < (close fails scanner).2.calls, fails n = none) ∧ scanner.err = none) ∧
    ((close fails scanner).1 = none →
      (close fails scanner).2.table = numbered (lines [] text) ∧
      ((lines [] text).length ≤ 2 ^ 32 → ∀ rows, Ordered (close fails scanner).2.table rows →
        readerBytes rows = joined (lines [] text) ∧ (readerBytes rows = text ↔ Exact text))) := by
  rcases close_cases scanner with ⟨closed, clean, clear, table⟩ | ⟨failed, cause⟩
  · refine ⟨⟨fun _ => ⟨clean, clear⟩, fun _ => closed⟩, fun _ => ⟨table, fun few rows order => ?_⟩⟩
    rw [readerBytes_eq few (table ▸ order)]
    exact ⟨rfl, joined_lines_iff text⟩
  · refine ⟨⟨fun none => absurd none failed, fun fine => ?_⟩, fun none => absurd none failed⟩
    rcases cause with ⟨n, made, broken⟩ | broken
    · exact absurd (fine.1 n made) broken
    · exact absurd fine.2 broken

/-- A text that is written and scanned while no call fails. -/
def stored (text : Bytes) : Option GoError × Insert := close (fun _ => none) (Scanner.full text)

/-- Three lines, the second one empty. -/
theorem three_lines_committed :
    (stored [97, lf, lf, 98, lf]).1 = none ∧
      (stored [97, lf, lf, 98, lf]).2.table = numbered [[97], [], [98]] ∧
      ∀ rows, Ordered (stored [97, lf, lf, 98, lf]).2.table rows →
        readerBytes rows = [97, lf, lf, 98, lf] := by
  obtain ⟨clean, committed⟩ :=
    clean_close_commits (fun _ => none) [97, lf, lf, 98, lf] (Scanner.full _)
  have closed := clean.mpr ⟨fun _ _ => rfl, rfl⟩
  obtain ⟨table, reads⟩ := committed closed
  exact ⟨closed, table, fun rows order => (reads (by decide) rows order).1⟩

/-! ## The format it supports -/

section
variable {Value σ : Type} {codec : Codec Value}
  (escapes : ∀ table data, codec.marshal table = .ok data → lf ∉ data ∧ cr ∉ data)
include escapes

theorem parts_of_isLine {columns : List String} {calls : List Bytes}
    {written : List (List Value)} (each : Forall₂ (IsLine codec columns) calls written) :
    ∃ parts : List Bytes, calls = parts.map (· ++ [lf]) ∧
      ∀ part ∈ parts, lf ∉ part ∧ cr ∉ part := by
  induction each with
  | nil => exact ⟨[], rfl, nofun⟩
  | cons isLine _ ih =>
    obtain ⟨data, marshalled, rfl⟩ := isLine
    obtain ⟨parts, rfl, plain⟩ := ih
    exact ⟨data :: parts, rfl, forall_mem_cons.mpr ⟨escapes _ data marshalled, plain⟩⟩

/-- After a nil `Close`, up to 2^32 rows of jsonl from `EncodeStream` come back byte for byte,
where `Marshal` escapes the ends of lines. -/
theorem jsonl_round_trip (parquet : Parquet Value) (stream : RowStream Value)
    (answer : σ → Bytes → (Nat × Option GoError) × σ) (state : σ)
    {written : List Bytes} (fails : Nat → Option GoError) (scanner : Scanner written.flatten)
    (encoded : (encodeStream codec parquet "jsonl" stream).offered answer state = written)
    (few : written.length ≤ 2 ^ 32) (closed : (close fails scanner).1 = none) (rows : List Row)
    (ordered : Ordered (close fails scanner).2.table rows) :
    readerBytes rows = written.flatten := by
  obtain ⟨parts, same, plain⟩ : ∃ parts : List Bytes, written = parts.map (· ++ [lf]) ∧
      ∀ part ∈ parts, lf ∉ part ∧ cr ∉ part := by
    subst encoded
    cases named : stream.columns with
    | error =>
      refine ⟨[], ?_, nofun⟩
      simp [encodeStream, Reporting.encodeStream, named, Writes.offered, Reports.erase, pure]
    | ok columns =>
      rw [encodeStream_jsonl_offered codec parquet stream columns named]
      obtain ⟨_, _, _, each⟩ := eachRow_jsonl_offered codec columns answer stream.events 0 state
      exact parts_of_isLine escapes each
  have text : written.flatten = joined parts := by rw [same, joined, flatMap_def]
  have cut := lines_joined fun part known => (plain part known).1
  rcases close_cases scanner with ⟨_, _, _, table⟩ | ⟨failed, _⟩
  · rw [readerBytes_eq (by rw [text, cut]; simpa [same] using few) (table ▸ ordered),
      joined_lines_iff]
    exact ⟨parts, text, fun part known =>
      ⟨(plain part known).1, fun ends => (plain part known).2 (mem_of_getLast? ends)⟩⟩
  · exact absurd closed failed

end

theorem digit_escapes (table : State.Table (Fin 10)) (data : Bytes)
    (marshalled : Digit.codec.marshal table = .ok data) : lf ∉ data ∧ cr ∉ data := by
  have plain : ∀ value : Fin 10,
      lf ∉ [123, 34, 105, 100, 34, 58, 48 + value.val.toUInt8, 125] ∧
        cr ∉ [123, 34, 105, 100, 34, 58, 48 + value.val.toUInt8, 125] := by decide
  simp only [Digit.codec] at marshalled
  split at marshalled
  · cases marshalled
    exact plain _
  · contradiction

/-- Two rows, marshalled with the digits 7 and 2. -/
def twoRows : RowStream (Fin 10) :=
  { Digit.stream ["id"] [7] with
    events := [.row { scanned := .ok [7] }, .row { scanned := .ok [2] }] }

def twoLines : List Bytes :=
  [[123, 34, 105, 100, 34, 58, 55, 125, lf], [123, 34, 105, 100, 34, 58, 50, 125, lf]]

theorem two_rows_round_trip :
    (∀ table data, Digit.codec.marshal table = .ok data → lf ∉ data ∧ cr ∉ data) ∧
      (encodeStream Digit.codec Digit.parquet "jsonl" twoRows).offered Digit.accept () = twoLines ∧
      twoLines.length ≤ 2 ^ 32 ∧
      (stored twoLines.flatten).1 = none ∧
      ∀ rows, Ordered (stored twoLines.flatten).2.table rows →
        readerBytes rows = twoLines.flatten := by
  have encoded : (encodeStream Digit.codec Digit.parquet "jsonl" twoRows).offered Digit.accept () =
      twoLines := by decide +kernel
  have closed : (stored twoLines.flatten).1 = none := by decide +kernel
  have few : twoLines.length ≤ 2 ^ 32 := by decide
  exact ⟨digit_escapes, encoded, few, closed, jsonl_round_trip digit_escapes Digit.parquet twoRows
    Digit.accept () (fun _ => none) _ encoded few closed⟩

end DbBridge.Storage.ClickHouse
