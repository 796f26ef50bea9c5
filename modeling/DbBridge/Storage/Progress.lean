import DbBridge.Storage.Encoder

/-!
# `EncodeStream` with its progress callbacks

When a call of `report` or `emit` goes to the callbacks, and that the counts it is made with,
rows and bytes, never go down.
-/

namespace DbBridge.Storage.Reporting

open Domain Reports

def progressReportEvery : Int := 1000

def progressReportAfter : Duration := second

/-- Whether a report goes to the callbacks: an `emit` always does, `report` does at every
thousandth row and once a second has passed. -/
def due (final : Bool) (rows : Int) (sinceLast : Duration) : Bool :=
  final || !(rows % progressReportEvery ≠ 0 && sinceLast < progressReportAfter)

variable {ρ : Type}

/-! ## Counts that do not go down -/

section
variable {τ Value : Type} {codec : Codec Value} {parquet : Parquet Value} {low : Int}

theorem eachRow_rises {writeRow : τ → List Value → Writes GoError (Option GoError × τ)}
    {count : τ → Int} (grows : ∀ state values,
      (writeRow state values).Always fun result => count state ≤ count result.2)
    {events : List (Event Value)} {state : τ} (above : low ≤ count state) :
    (eachRow writeRow count events state).Rises
      (fun last pass => last ≤ count pass.state) low := by
  induction events using Event.scan_induction generalizing state low with
  | nil | stop | canceled | failed => exact above
  | row values rest ih =>
    refine rises_lift_bind (grows state values) ?_
    intro result larger
    obtain ⟨err, next⟩ := result
    have reached : low ≤ count next := above.trans larger
    cases err with
    | some => exact reached
    | none => exact ⟨reached, ih (Int.le_refl _)⟩

theorem csvRow_grows (state : Writes.Buffer GoError × Int) (values : List Value) :
    (csvRow codec state values).Always fun result => state.2 ≤ result.2.2 := by
  refine (Writes.Always.trivial _).bind ?_
  intro b _
  cases b.err with
  | some => exact Int.le_refl _
  | none => exact Int.le_add_one (Int.le_refl _)

variable (columns : List String)

theorem jsonlRow_grows (rows : Int) (values : List Value) :
    (jsonlRow codec columns rows values).Always fun result => rows ≤ result.2 := by
  unfold jsonlRow
  cases codec.marshal (rowMap codec columns values) with
  | error => exact Int.le_refl _
  | ok =>
    refine (Writes.Always.trivial _).bind ?_
    intro reply _
    obtain ⟨_, err⟩ := reply
    cases err with
    | some => exact Int.le_refl _
    | none => exact Int.le_add_one (Int.le_refl _)

variable (schema : parquet.Schema)

theorem parquetRow_grows (state : parquet.Writer × Int) (values : List Value) :
    (parquetRow parquet schema state values).Always fun result => state.2 ≤ result.2.2 := by
  unfold parquetRow
  cases parquet.convert schema values with
  | error => exact Int.le_refl _
  | ok =>
    refine (Writes.Always.trivial _).bind ?_
    intro written _
    obtain ⟨err, writer⟩ := written
    have more : state.2 ≤ state.2 + 1 := Int.le_add_one (Int.le_refl _)
    cases err with
    | some => exact Int.le_refl _
    | none =>
      dsimp only
      split
      · refine (Writes.Always.trivial _).bind ?_
        intro flushed _
        obtain ⟨err, writer⟩ := flushed
        cases err <;> exact more
      · exact more

variable {state : parquet.Writer × Int}

theorem parquetFail_rises (above : low ≤ state.2) (err : GoError) (left : List (Event Value)) :
    (lift (parquetFail parquet state err left)).Rises
      (fun last outcome => last ≤ outcome.rows) low := by
  have rows : (parquetFail parquet state err left).Always fun outcome =>
      outcome.rows = state.2 := (Writes.Always.trivial _).bind fun _ _ => rfl
  exact rises_lift rows fun outcome same => same ▸ above

theorem encodeCSV_rises (stream : RowStream Value) :
    (encodeCSV codec columns stream).Rises (fun last outcome => last ≤ outcome.rows) 0 := by
  refine rises_lift_bind (Writes.Always.trivial _) ?_
  intro header _
  cases header.err with
  | some => exact Int.le_refl 0
  | none =>
    refine (eachRow_rises csvRow_grows (Int.le_refl 0)).bind ?_
    intro low pass above
    cases pass.err with
    | some => exact above
    | none =>
      refine rises_lift_bind (Writes.Always.trivial _) ?_
      intro b _
      cases b.err <;> exact above

theorem encodeJSONL_rises (stream : RowStream Value) :
    (encodeJSONL codec columns stream).Rises (fun last outcome => last ≤ outcome.rows) 0 := by
  refine (eachRow_rises (jsonlRow_grows columns) (Int.le_refl 0)).bind ?_
  intro low pass above
  cases pass.err <;> exact above

theorem writeSample_rises (rows : List (List Value)) (above : low ≤ state.2) :
    (writeSample parquet schema rows state).Rises
      (fun last result => last ≤ result.2.2) low := by
  induction rows generalizing state low with
  | nil => exact above
  | cons values _ ih =>
    refine rises_lift_bind (parquetRow_grows schema state values) ?_
    intro result larger
    obtain ⟨err, next⟩ := result
    have reached : low ≤ next.2 := above.trans larger
    cases err with
    | some => exact reached
    | none => exact ⟨reached, ih (Int.le_refl _)⟩

theorem encodeParquet_rises (stream : RowStream Value) :
    (encodeParquet parquet columns stream).Rises
      (fun last outcome => last ≤ outcome.rows) 0 := by
  unfold encodeParquet
  dsimp only
  split
  · exact Int.le_refl 0
  · exact Int.le_refl 0
  · exact Int.le_refl 0
  · refine (writeSample_rises _ _ (Int.le_refl 0)).bind ?_
    intro low result above
    obtain ⟨err, _⟩ := result
    cases err with
    | some => exact parquetFail_rises above _ _
    | none =>
      refine (eachRow_rises (parquetRow_grows _) above).bind ?_
      intro low pass above
      split
      · exact parquetFail_rises above _ _
      · exact parquetFail_rises above _ _
      · exact rises_lift_bind (Writes.Always.trivial _) fun _ _ => above

/-- Through a `CountingWriter` the bytes do not go down either. -/
theorem counting_rises {post : Int → ρ → Prop} {program : Reports Int GoError ρ} {rows count : Int}
    (rises : program.Rises post rows) (above : low ≤ count) :
    (counting count program).Rises (fun _ _ => True) (rows, low) := by
  induction program generalizing rows low count with
  | done => trivial
  | write _ _ ih =>
    intro n err
    exact ih n err (rises n err) (by omega)
  | tell _ _ _ ih => exact ⟨⟨rises.1, above⟩, ih rises.2 (Int.le_refl _)⟩

variable (format : String)

theorem encodeFormat_rises (columns : List String) (stream : RowStream Value) :
    (encodeFormat codec parquet format columns stream).Rises
      (fun last outcome => last ≤ outcome.rows) 0 := by
  unfold encodeFormat
  split
  · exact encodeCSV_rises columns stream
  · split
    · exact encodeParquet_rises columns stream
    · split
      · exact encodeJSONL_rises columns stream
      · exact Int.le_refl 0

theorem encodeAs_rises (columns : List String) (stream : RowStream Value) :
    (encodeAs codec parquet format columns stream).Rises (fun _ _ => True) 0 :=
  (encodeFormat_rises format columns stream).bind fun _ _ above => ⟨above, trivial⟩

/-- Of two calls of a callback, the later one is made with no fewer rows and no fewer bytes. -/
theorem encodeStream_rises (stream : RowStream Value) :
    (encodeStream codec parquet format stream).Rises (fun _ _ => True) (0, 0) := by
  unfold encodeStream
  cases stream.columns with
  | error => trivial
  | ok columns =>
    exact (counting_rises (encodeAs_rises format columns stream) (Int.le_refl 0)).bind
      fun _ _ _ => trivial

end

end DbBridge.Storage.Reporting
