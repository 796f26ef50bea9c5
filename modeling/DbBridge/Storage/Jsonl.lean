import DbBridge.Storage.Encoder

/-!
# What a line of `jsonl` holds

`rowMap` is keyed by column name, while SQL lets two columns of a result share one.
A line is read back with a decoder that inverts `json.Marshal`; JSON is a parameter,
and the order in which it lists the fields of an object is not used.
-/

namespace DbBridge.Storage

open Domain List

/-! ## The object of a row -/

variable {columns : List String}

section
variable {Value : Type} (codec : Codec Value) {values : List Value}

def fieldsOf (columns : List String) (values : List Value) : List (Sigma fun _ : String => Value) :=
  (columns.zip values).map fun entry => ⟨entry.1, codec.text entry.2⟩

theorem keys_fieldsOf (fits : values.length = columns.length) :
    (fieldsOf codec columns values).keys = columns := by
  have names : (fieldsOf codec columns values).keys = (columns.zip values).map Prod.fst := by
    simp [fieldsOf, keys]
  rw [names, map_fst_zip (Nat.le_of_eq fits.symm)]

/-- With distinct column names the map has the row's fields, each once; otherwise it
has fewer. -/
theorem rowMap_entries_perm_iff (fits : values.length = columns.length) :
    (rowMap codec columns values).entries.Perm (fieldsOf codec columns values) ↔ columns.Nodup := by
  constructor
  · intro same
    have keys := (same.map Sigma.fst).nodup_iff.mp (rowMap codec columns values).nodupKeys
    exact keys_fieldsOf codec fits ▸ keys
  · intro distinct
    have folded : rowMap codec columns values =
        (fieldsOf codec columns values).foldl (fun table field => table.insert field.1 field.2) ∅ := by
      rw [rowMap, fieldsOf, foldl_map]
    have kept := insertAll_perm (fieldsOf codec columns values) ∅ (by
      rw [keys_fieldsOf codec fits]
      simpa using distinct)
    rw [folded]
    simpa using kept

end

/-! ## The lines of a run -/

section
variable {Value σ : Type} (codec : Codec Value)

def IsLine (columns : List String) (line : List UInt8) (values : List Value) : Prop :=
  ∃ data, codec.marshal (rowMap codec columns values) = .ok data ∧ line = data ++ [newline]

theorem jsonlRow_offered (columns : List String) (rows : Int) (values : List Value)
    (answer : σ → List UInt8 → (Nat × Option GoError) × σ) (state : σ) :
    (∃ line, IsLine codec columns line values ∧
        (jsonlRow codec columns rows values).offered answer state = [line]) ∨
      (jsonlRow codec columns rows values).offered answer state = [] ∧
        ((jsonlRow codec columns rows values).run answer state).1.1 ≠ none := by
  unfold jsonlRow
  cases marshalled : codec.marshal (rowMap codec columns values) with
  | error => exact .inr ⟨rfl, by simp [Writes.run, pure]⟩
  | ok data =>
    refine .inl ⟨data ++ [newline], ⟨data, marshalled, rfl⟩, ?_⟩
    simp only [Writes.offered_bind]
    cases failed : (answer state (data ++ [newline])).1.2 <;>
      simp [Writes.call, Writes.offered, Writes.run, failed, pure]

/-- The lines belong to the scanned rows in order, up to the row the loop stopped at. -/
theorem eachRow_jsonl_offered (columns : List String)
    (answer : σ → List UInt8 → (Nat × Option GoError) × σ) (events : List (Event Value))
    (rows : Int) (state : σ) :
    ∃ written unwritten, scannedRows events = written ++ unwritten ∧
      Forall₂ (IsLine codec columns)
        ((eachRow (jsonlRow codec columns) events rows).offered answer state) written := by
  induction events using Event.scan_induction generalizing rows state with
  | nil | stop | canceled | failed => exact ⟨[], [], rfl, .nil⟩
  | row values rest ih =>
    -- The loop goes on after a line only if its write did not fail.
    simp only [eachRow_row, scannedRows, Writes.offered_bind]
    obtain ⟨line, isLine, one⟩ | ⟨nothing, failed⟩ :=
      jsonlRow_offered codec columns rows values answer state
    · rw [one]
      cases ((jsonlRow codec columns rows values).run answer state).1.1 with
      | some => exact ⟨[values], scannedRows rest, rfl, .cons isLine .nil⟩
      | none =>
        obtain ⟨written, unwritten, split, lines⟩ := ih _ _
        exact ⟨values :: written, unwritten, by rw [split]; rfl, .cons isLine lines⟩
    · rw [nothing]
      cases ended : ((jsonlRow codec columns rows values).run answer state).1.1 with
      | none => exact absurd ended failed
      | some => exact ⟨[], values :: scannedRows rest, rfl, .nil⟩

theorem counting_offered {ρ : Type} (answer : σ → List UInt8 → (Nat × Option GoError) × σ)
    (program : Reports Int GoError ρ) (count : Int) (state : σ) :
    (Reporting.counting count program).erase.offered answer state =
      program.erase.offered answer state := by
  induction program generalizing count state with
  | done => rfl
  | write bytes _ ih => exact congrArg (bytes :: ·) (ih _ _ _ _)
  | tell _ _ _ ih => exact ih _ _

theorem encodeJSONL_offered (columns : List String) (stream : RowStream Value)
    (answer : σ → List UInt8 → (Nat × Option GoError) × σ) (state : σ) :
    (encodeJSONL codec columns stream).offered answer state =
      (eachRow (jsonlRow codec columns) stream.events 0).offered answer state := by
  rw [encodeJSONL, Reporting.encodeJSONL, Reports.erase_bind, eachRow_erase,
    Writes.offered_bind]
  cases ((eachRow (jsonlRow codec columns) stream.events 0).run answer state).1.err with
  | some | none => exact append_nil _

theorem encodeStream_jsonl_offered (parquet : Parquet Value) (stream : RowStream Value)
    (columns : List String) (named : stream.columns = .ok columns)
    (answer : σ → List UInt8 → (Nat × Option GoError) × σ) (state : σ) :
    (encodeStream codec parquet "jsonl" stream).offered answer state =
      (eachRow (jsonlRow codec columns) stream.events 0).offered answer state := by
  have switch : (Reporting.encodeAs codec parquet "jsonl" columns stream).erase =
      encodeJSONL codec columns stream := Reports.erase_bind_say _ _ _
  rw [encodeStream, Reporting.encodeStream, named]
  simp only [Reports.erase_bind, switch, Writes.offered_bind, counting_offered,
    encodeJSONL_offered]
  exact append_nil _

end

/-! ## Reading a line back -/

section
variable {Value J σ : Type} (codec : Codec Value) (json : Value → J)
  (decode : List UInt8 → Option (List (String × J)))

/-- A decoder reads from a line the fields of the map that was marshalled. -/
def Decodes : Prop :=
  ∀ table data, codec.marshal table = .ok data →
    ∃ fields, decode (data ++ [newline]) = some fields ∧
      fields.Perm (table.entries.map fun field => (field.1, json field.2))

/-- The line has one field per result column, with the value of that column. -/
def Keeps (columns : List String) (line : List UInt8) (values : List Value) : Prop :=
  ∃ fields, decode line = some fields ∧
    fields.Perm ((columns.zip values).map fun entry => (entry.1, json (codec.text entry.2)))

variable {codec json decode}

theorem IsLine.keeps_iff (decodes : Decodes codec json decode) {line : List UInt8}
    {values : List Value} (isLine : IsLine codec columns line values)
    (fits : values.length = columns.length) :
    Keeps codec json decode columns line values ↔ columns.Nodup := by
  obtain ⟨_, marshalled, rfl⟩ := isLine
  obtain ⟨fields, decoded, same⟩ := decodes _ _ marshalled
  have asFields : (columns.zip values).map (fun entry => (entry.1, json (codec.text entry.2))) =
      (fieldsOf codec columns values).map fun field => (field.1, json field.2) := by
    simp [fieldsOf]
  constructor
  · rintro ⟨_, decoded', kept⟩
    cases Option.some.inj (decoded.symm.trans decoded')
    -- The fields of a map have distinct names, so those of the columns do.
    have names := (kept.symm.trans same).map Prod.fst
    rw [asFields, map_map, map_map] at names
    have keys := names.nodup_iff.mpr (rowMap codec columns values).nodupKeys
    exact keys_fieldsOf codec fits ▸ keys
  · intro distinct
    refine ⟨fields, decoded, same.trans ?_⟩
    rw [asFields]
    exact ((rowMap_entries_perm_iff codec fits).mpr distinct).map _

/-- A line that `EncodeStream` writes keeps every column of its row exactly when the
column names are distinct. -/
theorem jsonl_line_keeps_columns_iff (decodes : Decodes codec json decode)
    (parquet : Parquet Value) (stream : RowStream Value) (columns : List String)
    (named : stream.columns = .ok columns) (fits : Fits columns stream.events)
    (answer : σ → List UInt8 → (Nat × Option GoError) × σ) (state : σ) :
    ∃ written unwritten, scannedRows stream.events = written ++ unwritten ∧
      Forall₂
        (fun line values => Keeps codec json decode columns line values ↔ columns.Nodup)
        ((encodeStream codec parquet "jsonl" stream).offered answer state) written := by
  obtain ⟨written, unwritten, split, lines⟩ :=
    eachRow_jsonl_offered codec columns answer stream.events 0 state
  refine ⟨written, unwritten, split, ?_⟩
  rw [encodeStream_jsonl_offered codec parquet stream columns named]
  have fit : ∀ values ∈ written, values.length = columns.length := fun values scanned =>
    fits values (split ▸ mem_append_left _ scanned)
  refine ((forall₂_and_left _ _).mpr ⟨fit, lines.flip⟩).flip.imp ?_
  rintro line values ⟨fits, isLine⟩
  exact IsLine.keeps_iff decodes isLine fits

end

/-! ## Two columns `id` -/

namespace Digit

/-- `json.Marshal` of an object whose only field is `id`, with a digit as its value. -/
def codec : Codec (Fin 10) where
  toString value := Nat.repr value
  csvRecord fields := fields.flatMap fun field => field.toUTF8.toList
  text value := value
  marshal table :=
    match table.lookup "id", table.keys with
    | some value, [_] => .ok [123, 34, 105, 100, 34, 58, 48 + value.val.toUInt8, 125]
    | _, _ => .error { text := "unsupported object" }

def json (value : Fin 10) : UInt8 := 48 + value.val.toUInt8

/-- `json.Unmarshal` of such a line, with digits as they are written. -/
def decode (bytes : List UInt8) : Option (List (String × UInt8)) :=
  bytes[6]?.map fun digit => [("id", digit)]

def parquet : Parquet (Fin 10) := .silent _

def stream (columns : List String) (values : List (Fin 10)) : RowStream (Fin 10) where
  columns := .ok columns
  events := [.row { scanned := .ok values }]
  err _ := none

def accept (_ : Unit) (bytes : List UInt8) : (Nat × Option GoError) × Unit :=
  ((bytes.length, none), ())

theorem decodes : Decodes codec json decode := by
  intro table data marshalled
  cases found : table.lookup "id" with
  | none => simp [codec, found] at marshalled
  | some value =>
    have entry : (⟨"id", value⟩ : Sigma fun _ : String => Fin 10) ∈ table.entries :=
      AList.mem_lookup_iff.mp found
    cases listed : table.entries with
    | nil => simp [listed] at entry
    | cons first others =>
      cases others with
      | cons => simp [codec, found, AList.keys, listed] at marshalled
      | nil =>
        have only : ⟨"id", value⟩ = first := mem_singleton.mp (listed ▸ entry)
        have bytes : data = [123, 34, 105, 100, 34, 58, 48 + value.val.toUInt8, 125] := by
          simpa [codec, found, AList.keys, listed] using marshalled.symm
        subst bytes only
        exact ⟨[("id", json value)], rfl, Perm.refl _⟩

end Digit

theorem one_column_kept :
    ["id"].Nodup ∧ Fits ["id"] (Digit.stream ["id"] [7]).events ∧
      ∃ written unwritten, scannedRows (Digit.stream ["id"] [7]).events = written ++ unwritten ∧
        Forall₂
          (fun line values =>
            Keeps Digit.codec Digit.json Digit.decode ["id"] line values ↔ ["id"].Nodup)
          ((encodeStream Digit.codec Digit.parquet "jsonl" (Digit.stream ["id"] [7])).offered
            Digit.accept ()) written := by
  have fits : Fits ["id"] (Digit.stream ["id"] [7]).events := by
    simp [Fits, Digit.stream, scannedRows]
  exact ⟨by decide, fits,
    jsonl_line_keeps_columns_iff Digit.decodes Digit.parquet _ ["id"] rfl fits Digit.accept ()⟩

/-- Of two columns with one name the first is lost. -/
theorem duplicate_column_lost :
    ∃ line, (encodeStream Digit.codec Digit.parquet "jsonl"
        (Digit.stream ["id", "id"] [1, 2])).offered Digit.accept () = [line] ∧
      Digit.decode line = some [("id", Digit.json 2)] ∧
      ¬ Keeps Digit.codec Digit.json Digit.decode ["id", "id"] line [1, 2] := by
  refine ⟨[123, 34, 105, 100, 34, 58, 50, 125, 10], by decide +kernel, by decide, ?_⟩
  rintro ⟨_, decoded, kept⟩
  cases Option.some.inj decoded
  exact absurd kept.length_eq (by decide)

end DbBridge.Storage
