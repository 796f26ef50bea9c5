import DbBridge.Lib.Reports
import DbBridge.State.Memory

/-!
# `EncodeStream`

The three encoders as programs that write to one `io.Writer`. A row stream is the
list of what its `Next` calls answer, with the context's state and the outcome of
`Scan` at each row; a program that never ends has no such list and stores nothing.
`encoding/csv`, `encoding/json`, the conversion of values and parquet-go are
parameters. The programs of `Reporting` make the calls of `report` after each row and the
deferred `emit` at the end; nothing comes back from them, and the programs without that
prefix are these with the reports left out.
-/

namespace DbBridge.Storage

open Domain State

/-! ## Row streams -/

structure Fetched (Value : Type) where
  ctxErr : Option GoError := none
  scanned : Except GoError (List Value)

/-- The answers of `Next`; behind the last one it keeps answering false. -/
inductive Event (Value : Type) where
  | row (fetched : Fetched Value)
  | stop

def Event.isRow {Value : Type} : Event Value → Bool
  | .row _ => true
  | .stop => false

/-- A loop `for stream.Next()` goes on only behind a row that it has scanned. -/
@[elab_as_elim]
theorem Event.scan_induction {Value : Type} {motive : List (Event Value) → Prop}
    (nil : motive []) (stop : ∀ rest, motive (.stop :: rest))
    (canceled : ∀ err scanned rest, motive (.row ⟨some err, scanned⟩ :: rest))
    (failed : ∀ err rest, motive (.row ⟨none, .error err⟩ :: rest))
    (row : ∀ values rest, motive rest → motive (.row ⟨none, .ok values⟩ :: rest)) :
    ∀ events, motive events
  | [] => nil
  | .stop :: rest => stop rest
  | .row ⟨some err, scanned⟩ :: rest => canceled err scanned rest
  | .row ⟨none, .error err⟩ :: rest => failed err rest
  | .row ⟨none, .ok values⟩ :: rest =>
    row values rest (scan_induction nil stop canceled failed row rest)

/-- `err` is `Err`, given the answers still to come. -/
structure RowStream (Value : Type) where
  columns : Except GoError (List String)
  events : List (Event Value)
  err : List (Event Value) → Option GoError

/-- A loop `for stream.Next()`: the state of its body, the error it returned with and
the answers still to come. -/
structure Pass (τ Value : Type) where
  state : τ
  err : Option GoError := none
  left : List (Event Value)

/-- The loop, which reports its row count after each row. -/
def Reporting.eachRow {τ Value : Type}
    (writeRow : τ → List Value → Writes GoError (Option GoError × τ)) (count : τ → Int) :
    List (Event Value) → τ → Reports Int GoError (Pass τ Value)
  | [], state => pure { state, left := [] }
  | .stop :: rest, state => pure { state, left := rest }
  | .row fetched :: rest, state =>
    match fetched.ctxErr, fetched.scanned with
    | some err, _ => pure { state, err := some err, left := rest }
    | none, .error err =>
      pure { state, err := some (err.wrap "failed to scan row"), left := rest }
    | none, .ok values => do
        let (err, state) ← Reports.lift (writeRow state values)
        match err with
        | some err => pure { state, err := some err, left := rest }
        | none => do
            Reports.say false (count state)
            Reporting.eachRow writeRow count rest state

def eachRow {τ Value : Type} (writeRow : τ → List Value → Writes GoError (Option GoError × τ))
    (events : List (Event Value)) (state : τ) : Writes GoError (Pass τ Value) :=
  (Reporting.eachRow writeRow (fun _ => 0) events state).erase

/-- The rows a loop `for stream.Next()` scans when its body returns no error. -/
def scannedRows {Value : Type} : List (Event Value) → List (List Value)
  | [] => []
  | .stop :: _ => []
  | .row fetched :: rest =>
    match fetched.ctxErr, fetched.scanned with
    | none, .ok values => values :: scannedRows rest
    | _, _ => []

/-- `Scan` fills a slice of `len(columns)` values. -/
def Fits {Value : Type} (columns : List String) (events : List (Event Value)) : Prop :=
  ∀ values ∈ scannedRows events, values.length = columns.length

/-- What an encoder returns: `counted` is false where `EncodeStream` returns zeros
instead of its counts. -/
structure Outcome (Value : Type) where
  rows : Int := 0
  counted : Bool := true
  err : Option GoError := none
  left : List (Event Value)

def checkErr {Value : Type} (stream : RowStream Value) (rows : Int)
    (left : List (Event Value)) : Outcome Value :=
  { rows, left, err := (stream.err left).map (·.wrap "row stream error") }

/-! ## Maps by column name -/

theorem insertAll_perm {β : Type} (fields : List (Sigma fun _ : String => β)) (table : Table β)
    (distinct : (fields.keys ++ table.keys).Nodup) :
    (fields.foldl (fun table field => table.insert field.1 field.2) table).entries.Perm
      (fields ++ table.entries) := by
  induction fields generalizing table with
  | nil => exact List.Perm.refl _
  | cons field rest ih =>
    have new : field.1 ∉ table := by
      intro present
      simp only [List.keys_cons, List.cons_append, List.nodup_cons, List.mem_append] at distinct
      exact distinct.1 (.inr present)
    have entries : (table.insert field.1 field.2).entries = field :: table.entries :=
      AList.entries_insert_of_notMem new
    have further : (rest.keys ++ (table.insert field.1 field.2).keys).Nodup := by
      rw [AList.keys, entries]
      exact (List.perm_middle.nodup_iff).mpr distinct
    refine (ih _ further).trans ?_
    rw [entries]
    exact List.perm_middle

/-! ## csv and jsonl -/

def errShortWrite : GoError := { text := "short write" }

/-- The size of the `bufio.Writer` inside a `csv.Writer`. -/
def bufferSize : Nat := 4096

/-- `csvRecord` is the record that `csv.Writer.Write` emits, with its newline,
`marshal` is `json.Marshal` of a row, and `text` turns byte slices into strings. -/
structure Codec (Value : Type) where
  toString : Value → String
  csvRecord : List String → List UInt8
  text : Value → Value
  marshal : Table Value → Except GoError (List UInt8)

section
variable {Value : Type} (codec : Codec Value)

/-- `csv.Writer.Write`, which returns the buffer's error. -/
def csvWrite (b : Writes.Buffer GoError) (fields : List String) :
    Writes GoError (Writes.Buffer GoError) :=
  b.writeBytes bufferSize errShortWrite (codec.csvRecord fields)

def csvRow (state : Writes.Buffer GoError × Int) (values : List Value) :
    Writes GoError (Option GoError × Writes.Buffer GoError × Int) := do
  let b ← csvWrite codec state.1 (values.map codec.toString)
  match b.err with
  | some err => pure (some (err.wrap "failed to write csv row"), b, state.2)
  | none => pure (none, b, state.2 + 1)

def Reporting.encodeCSV (columns : List String) (stream : RowStream Value) :
    Reports Int GoError (Outcome Value) := do
  let header ← Reports.lift (csvWrite codec {} columns)
  match header.err with
  | some err =>
    pure { counted := false, err := some (err.wrap "failed to write csv header"),
           left := stream.events }
  | none => do
      let pass ← Reporting.eachRow (csvRow codec) Prod.snd stream.events (header, 0)
      match pass.err with
      | some err => pure { rows := pass.state.2, err := some err, left := pass.left }
      | none => do
          let b ← Reports.lift (pass.state.1.flush errShortWrite)
          match b.err with
          | some err =>
            pure { rows := pass.state.2, err := some (err.wrap "csv flush failed"),
                   left := pass.left }
          | none => pure (checkErr stream pass.state.2 pass.left)

def encodeCSV (columns : List String) (stream : RowStream Value) :
    Writes GoError (Outcome Value) :=
  (Reporting.encodeCSV codec columns stream).erase

/-- `rowMap`: a later column of the same name replaces an earlier one. -/
def rowMap (columns : List String) (values : List Value) : Table Value :=
  (columns.zip values).foldl (fun table entry => table.insert entry.1 (codec.text entry.2)) ∅

def newline : UInt8 := 10

def jsonlRow (columns : List String) (rows : Int) (values : List Value) :
    Writes GoError (Option GoError × Int) :=
  match codec.marshal (rowMap codec columns values) with
  | .error err => pure (some (err.wrap "failed to marshal row to json"), rows)
  | .ok data => do
      let (_, err) ← Writes.call (data ++ [newline])
      match err with
      | some err => pure (some (err.wrap "failed to write jsonl row"), rows)
      | none => pure (none, rows + 1)

def Reporting.encodeJSONL (columns : List String) (stream : RowStream Value) :
    Reports Int GoError (Outcome Value) := do
  let pass ← Reporting.eachRow (jsonlRow codec columns) id stream.events 0
  match pass.err with
  | some err => pure { rows := pass.state, err := some err, left := pass.left }
  | none => pure (checkErr stream pass.state pass.left)

def encodeJSONL (columns : List String) (stream : RowStream Value) :
    Writes GoError (Outcome Value) :=
  (Reporting.encodeJSONL codec columns stream).erase

end

/-! ## parquet -/

def parquetSchemaSample : Nat := 128

def parquetRowsPerRowGroup : Int := 50000

/-- parquet-go's writer, and the schema and the conversions built for it from the
sampled rows. -/
structure Parquet (Value : Type) where
  Schema : Type
  Row : Type
  Writer : Type
  schema : List String → List (List Value) → Except GoError Schema
  convert : Schema → List Value → Except GoError Row
  new : Schema → Writer
  writeRows : Writer → Row → Writes GoError (Option GoError × Writer)
  flush : Writer → Writes GoError (Option GoError × Writer)
  close : Writer → Writes GoError (Option GoError × Writer)

/-- A library that takes every row and writes nothing. -/
def Parquet.silent (Value : Type) : Parquet Value where
  Schema := Unit
  Row := Unit
  Writer := Unit
  schema _ _ := .ok ()
  convert _ _ := .ok ()
  new _ := ()
  writeRows _ _ := pure (none, ())
  flush _ := pure (none, ())
  close _ := pure (none, ())

structure Sampled (Value : Type) where
  rows : List (List Value)
  err : Option GoError := none
  left : List (Event Value)

/-- The sampling loop with room for that many rows; a full sample asks `Next` no
more. -/
def sampleRows {Value : Type} : Nat → List (Event Value) → List (List Value) → Sampled Value
  | 0, left, rows => { rows, left }
  | _ + 1, [], rows => { rows, left := [] }
  | _ + 1, .stop :: rest, rows => { rows, left := rest }
  | room + 1, .row fetched :: rest, rows =>
    match fetched.ctxErr, fetched.scanned with
    | some err, _ => { rows, err := some err, left := rest }
    | none, .error err => { rows, err := some (err.wrap "failed to scan row"), left := rest }
    | none, .ok values => sampleRows room rest (rows ++ [values])

section
variable {Value : Type} (parquet : Parquet Value)

/-- `writeRow`, over the writer and the row count. -/
def parquetRow (schema : parquet.Schema) (state : parquet.Writer × Int)
    (values : List Value) : Writes GoError (Option GoError × parquet.Writer × Int) :=
  match parquet.convert schema values with
  | .error err => pure (some err, state)
  | .ok row => do
      let (err, writer) ← parquet.writeRows state.1 row
      match err with
      | some err => pure (some (err.wrap "failed to write parquet row"), writer, state.2)
      | none =>
        let rows := state.2 + 1
        if rows % parquetRowsPerRowGroup = 0 then do
          let (err, writer) ← parquet.flush writer
          match err with
          | some err =>
            pure (some (err.wrap "failed to flush parquet row group"), writer, rows)
          | none => pure (none, writer, rows)
        else pure (none, writer, rows)

def Reporting.writeSample (schema : parquet.Schema) : List (List Value) → parquet.Writer × Int →
    Reports Int GoError (Option GoError × parquet.Writer × Int)
  | [], state => pure (none, state)
  | values :: rest, state => do
      let (err, state) ← Reports.lift (parquetRow parquet schema state values)
      match err with
      | some err => pure (some err, state)
      | none => do
          Reports.say false state.2
          Reporting.writeSample schema rest state

def writeSample (schema : parquet.Schema) (rows : List (List Value))
    (state : parquet.Writer × Int) : Writes GoError (Option GoError × parquet.Writer × Int) :=
  (Reporting.writeSample parquet schema rows state).erase

/-- An early return: the deferred `Close`, whose error is only logged. -/
def parquetFail (state : parquet.Writer × Int) (err : GoError) (left : List (Event Value)) :
    Writes GoError (Outcome Value) := do
  let _ ← parquet.close state.1
  pure { rows := state.2, err := some err, left }

def Reporting.encodeParquet (columns : List String) (stream : RowStream Value) :
    Reports Int GoError (Outcome Value) :=
  let sampled := sampleRows parquetSchemaSample stream.events []
  match sampled.err, stream.err sampled.left, parquet.schema columns sampled.rows with
  | some err, _, _ => pure { err := some err, left := sampled.left }
  | none, some err, _ =>
    pure { err := some (err.wrap "row stream error"), left := sampled.left }
  | none, none, .error err => pure { err := some err, left := sampled.left }
  | none, none, .ok schema => do
      let (err, state) ← Reporting.writeSample parquet schema sampled.rows (parquet.new schema, 0)
      match err with
      | some err => Reports.lift (parquetFail parquet state err sampled.left)
      | none => do
          let pass ← Reporting.eachRow (parquetRow parquet schema) Prod.snd sampled.left state
          match pass.err, stream.err pass.left with
          | some err, _ => Reports.lift (parquetFail parquet pass.state err pass.left)
          | none, some err =>
            Reports.lift (parquetFail parquet pass.state (err.wrap "row stream error") pass.left)
          | none, none => do
              let (err, _) ← Reports.lift (parquet.close pass.state.1)
              pure { rows := pass.state.2, left := pass.left,
                     err := err.map (·.wrap "failed to finalize parquet file") }

def encodeParquet (columns : List String) (stream : RowStream Value) :
    Writes GoError (Outcome Value) :=
  (Reporting.encodeParquet parquet columns stream).erase

end

/-! ## `CountingWriter` and `EncodeStream` -/

/-- A program that writes through a `CountingWriter`, and its `Count`, which every report gets
as it is at that moment. -/
def Reporting.counting {ρ : Type} :
    Int → Reports Int GoError ρ → Reports (Int × Int) GoError (ρ × Int)
  | count, .done result => .done (result, count)
  | count, .write bytes next =>
    .write bytes fun n err => Reporting.counting (count + n) (next n err)
  | count, .tell final rows next => .tell final (rows, count) (Reporting.counting count next)

structure Encoding (Value : Type) where
  rows : Int := 0
  bytes : Int := 0
  err : Option GoError := none
  left : List (Event Value)

section
variable {Value : Type} (codec : Codec Value) (parquet : Parquet Value)

def Reporting.encodeFormat (format : String) (columns : List String) (stream : RowStream Value) :
    Reports Int GoError (Outcome Value) :=
  if format = "csv" then Reporting.encodeCSV codec columns stream
  else if format = "parquet" then Reporting.encodeParquet parquet columns stream
  else if format = "jsonl" then Reporting.encodeJSONL codec columns stream
  else
    pure { counted := false, left := stream.events,
           err := some { text := "unsupported format \"" ++ format ++ "\"" } }

/-- The `switch`, and the deferred `emit` behind it. -/
def Reporting.encodeAs (format : String) (columns : List String) (stream : RowStream Value) :
    Reports Int GoError (Outcome Value) := do
  let outcome ← Reporting.encodeFormat codec parquet format columns stream
  Reports.say true outcome.rows
  pure outcome

def Reporting.encodeStream (format : String) (stream : RowStream Value) :
    Reports (Int × Int) GoError (Encoding Value) :=
  match stream.columns with
  | .error err => pure { err := some (err.wrap "failed to get columns"), left := stream.events }
  | .ok columns => do
      let (outcome, count) ←
        Reporting.counting 0 (Reporting.encodeAs codec parquet format columns stream)
      pure { rows := outcome.rows, bytes := if outcome.counted then count else 0,
             err := outcome.err, left := outcome.left }

def encodeStream (format : String) (stream : RowStream Value) :
    Writes GoError (Encoding Value) :=
  (Reporting.encodeStream codec parquet format stream).erase

end

/-! ## The reports left out -/

open Reports

section
variable {τ Value : Type} {writeRow : τ → List Value → Writes GoError (Option GoError × τ)}

theorem eachRow_row (values : List Value) (rest : List (Event Value)) (state : τ) :
    eachRow writeRow (.row ⟨none, .ok values⟩ :: rest) state = (do
      let (err, state) ← writeRow state values
      match err with
      | some err => pure { state, err := some err, left := rest }
      | none => eachRow writeRow rest state) := by
  simp only [eachRow, Reporting.eachRow, erase_bind, erase_lift]
  congr 1
  funext result
  cases result.1 <;> rfl

/-- What a loop reports does not matter to what it does. -/
theorem eachRow_erase (count : τ → Int) (events : List (Event Value)) (state : τ) :
    (Reporting.eachRow writeRow count events state).erase = eachRow writeRow events state := by
  induction events using Event.scan_induction generalizing state with
  | nil | stop | canceled | failed => rfl
  | row values rest ih =>
    simp only [eachRow_row, Reporting.eachRow, erase_bind, erase_lift]
    congr 1
    funext result
    cases result.1 with
    | some => rfl
    | none => exact ih result.2

theorem writeSample_cons (parquet : Parquet Value) (schema : parquet.Schema) (values : List Value)
    (rest : List (List Value)) (state : parquet.Writer × Int) :
    writeSample parquet schema (values :: rest) state = (do
      let (err, state) ← parquetRow parquet schema state values
      match err with
      | some err => pure (some err, state)
      | none => writeSample parquet schema rest state) := by
  simp only [writeSample, Reporting.writeSample, erase_bind, erase_lift]
  congr 1
  funext result
  cases result.1 <;> rfl

end

end DbBridge.Storage
