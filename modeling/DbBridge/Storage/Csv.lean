import DbBridge.Lib.Csv
import DbBridge.Storage.Accounting
import DbBridge.Storage.ParquetSchema

/-!
# Reading csv output back

`toString` and what `encoding/csv` makes of the records that `EncodeStream` writes. The
writer leaves an empty field unquoted, so a record of one empty text is a blank line, and the
reader skips blank lines: a result of one column loses the rows that are NULL or empty.
Every other record is read back.
-/

namespace DbBridge.Storage

open Domain State List

/-- What the csv branch takes from the standard library: `float` is `FormatFloat`, `time` is
`Format(time.RFC3339Nano)`, `other` is a string or a byte slice as it is and `%v` of anything
else; `bytes` are those of a string and `startsWithSpace` is `unicode.IsSpace` of its first
rune. `text` and `marshal` belong to the jsonl branch. -/
structure Library (F X : Type) where
  float : F → String
  time : Int → String
  other : X → String
  bytes : String → List UInt8
  startsWithSpace : Csv.Field → Bool
  text : SqlValue F X → SqlValue F X
  marshal : Table (SqlValue F X) → Except GoError (List UInt8)

variable {columns : List String}

section
variable {F X : Type} (library : Library F X)

/-- The integers fall under `FormatInt`, `Itoa` and `%v`, which print them alike. -/
def SqlValue.toString : SqlValue F X → String
  | .null => ""
  | .bool value => if value then "true" else "false"
  | .int value => ToString.toString value
  | .uint value => ToString.toString value
  | .float value => library.float value
  | .time nanos => library.time nanos
  | .other value => library.other value

def Library.codec : Codec (SqlValue F X) where
  toString := SqlValue.toString library
  csvRecord fields := Csv.writeRecord library.startsWithSpace (fields.map library.bytes)
  text := library.text
  marshal := library.marshal

def rowTexts (values : List (SqlValue F X)) : List Csv.Field :=
  (values.map (SqlValue.toString library)).map library.bytes

def csvTexts (columns : List String) (rows : List (List (SqlValue F X))) : List (List Csv.Field) :=
  columns.map library.bytes :: rows.map (rowTexts library)

theorem csvOutput_eq_write (columns : List String) (rows : List (List (SqlValue F X))) :
    csvOutput library.codec columns rows =
      Csv.write library.startsWithSpace (csvTexts library columns rows) := by
  simp [csvOutput, Csv.write, csvTexts, Library.codec, rowTexts, flatMap_map]

/-- Reading `output` yields the header and then one record per row, with one field per column:
the text of its value, in which `\r\n` is `\n`. -/
def RecordPerRow (columns : List String) (rows : List (List (SqlValue F X)))
    (output : List UInt8) (rowCount : Int) : Prop :=
  ∃ records, Csv.readAll output = .ok records ∧ records.length = 1 + rowCount ∧
    records = (csvTexts library columns rows).map (List.map Csv.unixLines)

def NoBlankRecord (columns : List String) (rows : List (List (SqlValue F X))) : Prop :=
  ∀ record ∈ csvTexts library columns rows, record ≠ [[]]

instance (columns : List String) (rows : List (List (SqlValue F X))) :
    Decidable (NoBlankRecord library columns rows) :=
  inferInstanceAs (Decidable (∀ record ∈ csvTexts library columns rows, record ≠ [[]]))

variable {rows : List (List (SqlValue F X))}

/-- A result of several columns has no blank record. -/
theorem noBlankRecord_of_columns (several : columns.length ≠ 1)
    (fits : ∀ values ∈ rows, values.length = columns.length) :
    NoBlankRecord library columns rows := by
  intro record listed blank
  have single : record.length = 1 := congrArg length blank
  apply several
  rcases mem_cons.mp listed with rfl | isRow
  · simpa using single
  · obtain ⟨values, scanned, rfl⟩ := mem_map.mp isRow
    simpa [rowTexts, fits values scanned] using single

theorem recordPerRow_iff (named : columns ≠ [])
    (fits : ∀ values ∈ rows, values.length = columns.length) :
    RecordPerRow library columns rows (csvOutput library.codec columns rows) rows.length ↔
      NoBlankRecord library columns rows := by
  have widths : ∀ record ∈ csvTexts library columns rows, record.length = columns.length := by
    intro record listed
    rcases mem_cons.mp listed with rfl | isRow
    · exact length_map _
    · obtain ⟨values, scanned, rfl⟩ := mem_map.mp isRow
      simp [rowTexts, fits values scanned]
  have read := Csv.readAll_write library.startsWithSpace (length_pos_iff.mpr named) _ widths
  have total : (csvTexts library columns rows).length = 1 + rows.length := by
    simp [csvTexts, Nat.add_comm]
  unfold RecordPerRow NoBlankRecord
  rw [csvOutput_eq_write, read]
  constructor
  · rintro ⟨_, same, count, -⟩ record listed
    cases same
    -- A record that the filter drops would be missing from the count.
    have kept : ((csvTexts library columns rows).filter (· ≠ [[]])).length =
        (csvTexts library columns rows).length := by
      rw [length_map] at count
      omega
    have all := length_filter_eq_length_iff.mp kept record listed
    simpa using all
  · intro visible
    have whole : (csvTexts library columns rows).filter (· ≠ [[]]) = csvTexts library columns rows :=
      filter_eq_self.mpr fun record listed => by simpa using visible record listed
    refine ⟨_, rfl, ?_, by rw [whole]⟩
    rw [whole, length_map, total]
    rfl

end

section
variable {Value : Type} (codec : Codec Value) (parquet : Parquet Value)

theorem encodeStream_csv_ensures (stream : RowStream Value) (named : stream.columns = .ok columns) :
    (encodeStream codec parquet "csv" stream).Ensures
      (fun sent encoding => encoding.err = none →
        sent = csvOutput codec columns (scannedRows stream.events) ∧
          encoding.rows = ((scannedRows stream.events).length : Int))
      (fun encoding => encoding.err ≠ none) [] := by
  have switch : (Reporting.encodeAs codec parquet "csv" columns stream).erase =
      encodeCSV codec columns stream := Reports.erase_bind_say _ _ _
  have written := switch ▸ encodeCSV_writes codec columns stream []
  rw [encodeStream, Reporting.encodeStream, named, Reports.erase_bind]
  refine (counting_ensures written).bind ?_ ?_
  · rintro sent ⟨_, _⟩ ⟨⟨-, written⟩, -⟩ clear
    exact written clear
  · exact fun reply failed => failed

end

/-- What a store accepted of a csv result that was encoded without an error reads as one record
per row exactly when no record is a single empty text. -/
theorem csv_record_per_row_iff {F X : Type} (library : Library F X)
    (parquet : Parquet (SqlValue F X)) (stream : RowStream (SqlValue F X))
    (named : stream.columns = .ok columns) (some : columns ≠ []) (fits : Fits columns stream.events)
    (writer : ResultWriter) {encoding : Encoding (SqlValue F X)} {pipe : Pipe}
    (ran : (encodeStream library.codec parquet "csv" stream).run (multiWrite writer) {} =
      (encoding, pipe)) (succeeded : encoding.err = none) :
    RecordPerRow library columns (scannedRows stream.events) (accepted pipe.calls) encoding.rows ↔
      NoBlankRecord library columns (scannedRows stream.events) := by
  have empty : Pipe.Took [] {} := ⟨by simp, rfl, rfl⟩
  have ended := Writes.run_of_ensures (multiWrite_took writer)
    (encodeStream_csv_ensures library.codec parquet stream named) empty
  rw [ran] at ended
  rcases ended with failed | ⟨_, written, took⟩
  · exact absurd succeeded failed
  · obtain ⟨rfl, rows⟩ := written succeeded
    rw [took.2.1, rows]
    exact recordPerRow_iff library some fits

/-! ## A NULL in the only column -/

namespace Note

def library : Library Empty String where
  float := Empty.elim
  time _ := ""
  other value := value
  bytes text := text.toUTF8.data.toList
  startsWithSpace field := field.head? = some 32
  text value := value
  marshal _ := .ok []

def parquet : Parquet (SqlValue Empty String) := .silent _

def stream (columns : List String) (values : List (SqlValue Empty String)) :
    RowStream (SqlValue Empty String) where
  columns := .ok columns
  events := [.row { scanned := .ok values }]
  err _ := none

def store : ResultWriter where
  write _ bytes := (bytes.length, none)
  close _ := none

def outcome (stream : RowStream (SqlValue Empty String)) : Int × Option GoError × List UInt8 :=
  let (encoding, pipe) :=
    (encodeStream library.codec parquet "csv" stream).run (multiWrite store) {}
  (encoding.rows, encoding.err, accepted pipe.calls)

end Note

/-- A NULL beside a text with delimiters is read back. -/
theorem quoted_row_read_back :
    ∃ encoding pipe, (encodeStream Note.library.codec Note.parquet "csv"
        (Note.stream ["id", "note"] [.null, .other "a,\"b\""])).run (multiWrite Note.store) {} =
        (encoding, pipe) ∧ encoding.err = none ∧
      Fits ["id", "note"] (Note.stream ["id", "note"] [.null, .other "a,\"b\""]).events ∧
      NoBlankRecord Note.library ["id", "note"] [[.null, .other "a,\"b\""]] ∧
      RecordPerRow Note.library ["id", "note"] [[.null, .other "a,\"b\""]] (accepted pipe.calls)
        encoding.rows := by
  have fits : Fits ["id", "note"] (Note.stream ["id", "note"] [.null, .other "a,\"b\""]).events := by
    simp [Fits, Note.stream, scannedRows]
  have visible : NoBlankRecord Note.library ["id", "note"] [[.null, .other "a,\"b\""]] :=
    noBlankRecord_of_columns _ (by decide) fits
  have clear : ((encodeStream Note.library.codec Note.parquet "csv"
      (Note.stream ["id", "note"] [.null, .other "a,\"b\""])).run (multiWrite Note.store) {}).1.err =
      none := by decide +kernel
  exact ⟨_, _, rfl, clear, fits, visible,
    (csv_record_per_row_iff Note.library Note.parquet _ rfl (by decide) fits Note.store rfl
      clear).mpr visible⟩

/-- One column and one row, which is NULL: the output is the header and a blank line, and
reading it back yields the header alone. -/
theorem null_row_lost :
    Note.outcome (Note.stream ["note"] [.null]) = (1, none, [110, 111, 116, 101, 10, 10]) ∧
      Csv.readAll [110, 111, 116, 101, 10, 10] = .ok [[[110, 111, 116, 101]]] ∧
      ¬ RecordPerRow Note.library ["note"] [[.null]] [110, 111, 116, 101, 10, 10] 1 := by
  have read : Csv.readAll [110, 111, 116, 101, 10, 10] = .ok [[[110, 111, 116, 101]]] := by
    rfl
  refine ⟨by decide +kernel, read, ?_⟩
  rintro ⟨_, same, count, -⟩
  rw [read] at same
  cases same
  exact absurd count (by decide)

end DbBridge.Storage
