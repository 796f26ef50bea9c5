import DbBridge.Storage.ParquetSchema

/-!
# `encodeParquet` and its row buffer

`encodeParquet` fills one `parquet.Row` again and again. Here it is modelled with that
buffer and with the rows that `WriteRows` is given, over parquet-go's writer as a
parameter. It makes the same calls of `Write` as the encoder of `DbBridge.Storage.Encoder`
does with a fresh row each time, and every row it passes on is the row of the stream.
-/

namespace DbBridge.Storage

open Domain State Writes List
open Reports (erase_bind erase_lift)

/-! ## The row buffer -/

inductive Halt where
  | failed (err : GoError)
  | panicked

variable {n : Nat}

section
variable {F X : Type} (printing : Printing F X)

def blankRow (n : Nat) : List (Cell F) := List.replicate n ⟨.null, 0, 0⟩

def fill : List (String × ParquetColumn) → List (SqlValue F X) → List (Cell F) →
    Option Halt × List (Cell F)
  | _, [], row => (none, row)
  | [], _ :: _, row => (some .panicked, row)
  | (name, column) :: rest, value :: values, row =>
    match column.convert printing value with
    | .error err => (some (.failed (err.wrap ("column \"" ++ name ++ "\""))), row)
    | .ok cell =>
      if column.index < row.length then fill rest values (row.set column.index cell)
      else (some .panicked, row)

def indices (columns : List (String × ParquetColumn)) : List Nat := columns.map (·.2.index)

/-- At the position of every column stands the conversion of its value, which is NULL
exactly when the value is. -/
def Placed (columns : List (String × ParquetColumn)) (row : List (Cell F))
    (values : List (SqlValue F X)) : Prop :=
  List.Forall₂ (fun entry value => ∃ cell, entry.2.convert printing value = .ok cell ∧
    row[entry.2.index]? = some cell ∧ (cell.content = .null ↔ value = .null)) columns values

structure FillSpec (columns : List (String × ParquetColumn)) (values : List (SqlValue F X))
    (row : List (Cell F)) (result : Option Halt × List (Cell F)) : Prop where
  runs : result.1 ≠ some .panicked
  length : result.2.length = row.length
  placed : result.1 = none → Placed printing columns result.2 values
  others : ∀ k ∉ indices columns, result.2[k]? = row[k]?

variable {row : List (Cell F)}

section
variable {columns : List (String × ParquetColumn)} {values : List (SqlValue F X)}
  (fits : values.length = columns.length)
include fits

theorem fill_spec (distinct : (indices columns).Nodup)
    (inside : ∀ k ∈ indices columns, k < row.length) :
    FillSpec printing columns values row (fill printing columns values row) := by
  fun_induction fill printing columns values row with
  | case1 =>
    obtain rfl := eq_nil_of_length_eq_zero fits.symm
    exact ⟨nofun, rfl, fun _ => .nil, fun _ _ => rfl⟩
  | case2 => contradiction
  | case3 => exact ⟨by simp, rfl, nofun, fun _ _ => rfl⟩
  | case4 _ column _ _ _ _ cell converted within ih =>
    simp only [indices, map_cons, nodup_cons, forall_mem_cons] at distinct inside
    have spec := ih (Nat.succ.inj fits) distinct.2 fun k listed => by
      rw [length_set]
      exact inside.2 k listed
    -- the later columns have other positions, so this cell stays
    have kept := spec.others column.index distinct.1
    rw [List.getElem?_set_self within] at kept
    refine ⟨spec.runs, spec.length.trans length_set, fun done => ?_, fun k other => ?_⟩
    · exact .cons ⟨cell, converted, kept, column.convert_null_iff printing converted⟩
        (spec.placed done)
    · simp only [indices, map_cons, mem_cons, not_or] at other
      rw [spec.others k other.2, List.getElem?_set_ne (Ne.symm other.1)]
  | case5 _ column _ _ _ _ _ _ outside =>
    exact absurd (inside column.index mem_cons_self) outside

theorem fill_congr {row' : List (Cell F)} (length : row.length = row'.length)
    (agree : ∀ k ∉ indices columns, row[k]? = row'[k]?) :
    (fill printing columns values row).1 = (fill printing columns values row').1 ∧
      ((fill printing columns values row).1 = none →
        (fill printing columns values row).2 = (fill printing columns values row').2) := by
  induction columns generalizing values row row' with
  | nil =>
    obtain rfl := eq_nil_of_length_eq_zero fits
    exact ⟨rfl, fun _ => ext_getElem? fun k => agree k not_mem_nil⟩
  | cons entry rest ih =>
    obtain ⟨name, column⟩ := entry
    obtain ⟨value, values, rfl⟩ := exists_cons_of_length_eq_add_one fits
    simp only [fill]
    cases converted : column.convert printing value with
    | error => exact ⟨rfl, by simp⟩
    | ok cell =>
      dsimp only
      rw [← length]
      split
      · rename_i within
        refine ih (Nat.succ.inj fits) (by simp [length]) fun k other => ?_
        by_cases here : column.index = k
        · subst here
          rw [List.getElem?_set_self within, List.getElem?_set_self (length ▸ within)]
        · rw [List.getElem?_set_ne here, List.getElem?_set_ne here]
          exact agree k fun listed => (mem_cons.mp listed).elim (Ne.symm here) other
      · exact ⟨rfl, by simp⟩

end

variable {layout : Layout}

section
variable (sound : layout.Sound n)
include sound

theorem Layout.Sound.indices_nodup : (indices layout.columns).Nodup := by
  refine Nodup.of_map (fun k => (schemaFields layout.group)[k]?) ?_
  have named : (indices layout.columns).map (fun k => (schemaFields layout.group)[k]?) =
      (layout.columns.map Prod.fst).map some := by
    rw [indices, map_map, map_map]
    exact map_congr_left sound.positions
  rw [named]
  exact sound.names.map (Option.some_injective _)

theorem Layout.Sound.indices_lt : ∀ k ∈ indices layout.columns, k < n := by
  intro k listed
  obtain ⟨entry, found, rfl⟩ := mem_map.mp listed
  rw [← sound.fields]
  exact (List.getElem?_eq_some_iff.mp (sound.positions entry found)).1

theorem Layout.Sound.mem_indices {k : Nat} (bound : k < n) : k ∈ indices layout.columns := by
  have inside : indices layout.columns ⊆ range n := fun k listed =>
    mem_range.mpr (sound.indices_lt k listed)
  have all := (subperm_of_subset sound.indices_nodup inside).perm_of_length_le
    (by simp [indices, sound.length])
  exact all.mem_iff.mpr (mem_range.mpr bound)

end

end

/-! ## The encoder -/

/-- parquet-go's writer; `writeRows` is given a slice of one row. -/
structure RowWriter (F : Type) where
  Writer : Type
  new : Table ParquetKind → Writer
  writeRows : Writer → List (Cell F) → Writes GoError (Option GoError × Writer)
  flush : Writer → Writes GoError (Option GoError × Writer)
  close : Writer → Writes GoError (Option GoError × Writer)

namespace RowWriter
variable {F X : Type} (out : RowWriter F) (printing : Printing F X)

def errIndexOutOfRange : GoError := { text := "runtime error: index out of range" }

/-- The variables of `encodeParquet` behind `NewGenericWriter`. `passed` is the history of
the rows given to `WriteRows`; a panic leaves the function like an error, through the
deferred `Close`. -/
structure File where
  writer : out.Writer
  row : List (Cell F)
  rowCount : Int := 0
  passed : List (List (Cell F)) := []
  panicked : Bool := false

variable {out} in
def writeRow (layout : Layout) (file : File out) (src : List (SqlValue F X)) :
    Writes GoError (Option GoError × File out) :=
  match fill printing layout.columns src file.row with
  | (some .panicked, row) => pure (some errIndexOutOfRange, { file with row, panicked := true })
  | (some (.failed err), row) => pure (some err, { file with row })
  | (none, row) => do
      let (err, writer) ← out.writeRows file.writer row
      let file := { file with writer, row, passed := file.passed ++ [row] }
      match err with
      | some err => pure (some (err.wrap "failed to write parquet row"), file)
      | none =>
        let file := { file with rowCount := file.rowCount + 1 }
        if file.rowCount % parquetRowsPerRowGroup = 0 then do
          let (err, writer) ← out.flush file.writer
          let file := { file with writer }
          match err with
          | some err => pure (some (err.wrap "failed to flush parquet row group"), file)
          | none => pure (none, file)
        else pure (none, file)

variable {out} in
def replaySample (layout : Layout) : List (List (SqlValue F X)) → File out →
    Writes GoError (Option GoError × File out)
  | [], file => pure (none, file)
  | sampled :: rest, file => do
      let (err, file) ← writeRow printing layout file sampled
      match err with
      | some err => pure (some err, file)
      | none => replaySample layout rest file

structure Written (F X : Type) where
  outcome : Outcome (SqlValue F X)
  passed : List (List (Cell F)) := []
  panicked : Bool := false

variable {out} in
def closeEarly (file : File out) (err : GoError) (left : List (Event (SqlValue F X))) :
    Writes GoError (Written F X) := do
  let _ ← out.close file.writer
  pure { outcome := { rows := file.rowCount, err := some err, left },
         passed := file.passed, panicked := file.panicked }

def encodeParquet (columns : List String) (stream : RowStream (SqlValue F X)) :
    Writes GoError (Written F X) :=
  let sampled := sampleRows parquetSchemaSample stream.events []
  match sampled.err, stream.err sampled.left, layoutOf columns sampled.rows with
  | some err, _, _ => pure { outcome := { err := some err, left := sampled.left } }
  | none, some err, _ =>
    pure { outcome := { err := some (err.wrap "row stream error"), left := sampled.left } }
  | none, none, .error err => pure { outcome := { err := some err, left := sampled.left } }
  | none, none, .ok layout => do
      let file : File out := { writer := out.new layout.group, row := blankRow layout.columns.length }
      let (err, file) ← replaySample printing layout sampled.rows file
      match err with
      | some err => closeEarly file err sampled.left
      | none => do
          let pass ← eachRow (writeRow printing layout) sampled.left file
          match pass.err, stream.err pass.left with
          | some err, _ => closeEarly pass.state err pass.left
          | none, some err => closeEarly pass.state (err.wrap "row stream error") pass.left
          | none, none => do
              let (err, _) ← out.close pass.state.writer
              pure { outcome := { rows := pass.state.rowCount, left := pass.left,
                                  err := err.map (·.wrap "failed to finalize parquet file") },
                     passed := pass.state.passed, panicked := pass.state.panicked }

/-- The same with a new row for every row of the stream, as an instance of the encoder
that the accounting is about. -/
def parquet : Parquet (SqlValue F X) where
  Schema := Layout
  Row := List (Cell F)
  Writer := out.Writer
  schema := layoutOf
  convert layout values :=
    match fill printing layout.columns values (blankRow layout.columns.length) with
    | (some .panicked, _) => .error errIndexOutOfRange
    | (some (.failed err), _) => .error err
    | (none, row) => .ok row
  new layout := out.new layout.group
  writeRows := out.writeRows
  flush := out.flush
  close := out.close

end RowWriter

/-! ## Loops over the rows of a stream -/

def scannedRow {Value : Type} (values : List Value) : Fetched Value := { scanned := .ok values }

/-- `Next` returns true for these rows and false from then on, and `Scan` fills a slice of
that many values. -/
structure Delivers {Value : Type} (columns : Nat) (fetched : List (Fetched Value))
    (events : List (Event Value)) : Prop where
  rows : ∃ stops, events = fetched.map .row ++ List.replicate stops .stop
  fits : ∀ row ∈ fetched, ∀ values, row.scanned = .ok values → values.length = columns

/-- Two answers to a row: the same error, related states, and without an error the
relation `good` with the rows done. -/
structure Answers {τ τ' Value : Type} (good : List (List Value) → τ → τ' → Prop)
    (stopped : τ → τ' → Prop) (done : List (List Value)) (reply : Option GoError × τ)
    (reply' : Option GoError × τ') : Prop where
  err : reply.1 = reply'.1
  stopped : stopped reply.2 reply'.2
  good : reply.1 = none → good done reply.2 reply'.2

variable {room : Nat}

section
variable {τ τ' Value : Type} {columns : Nat} {fetched : List (Fetched Value)}
  {events : List (Event Value)}

theorem Delivers.cons {row : Fetched Value} (delivers : Delivers columns (row :: fetched) events) :
    ∃ rest, events = .row row :: rest ∧ Delivers columns fetched rest := by
  obtain ⟨⟨stops, rfl⟩, fits⟩ := delivers
  exact ⟨_, rfl, ⟨stops, rfl⟩, (forall_mem_cons.mp fits).2⟩

theorem sampleRows_delivers {rows : List (List Value)} (delivers : Delivers columns fetched events)
    (clear : (sampleRows room events rows).err = none) :
    ∃ taken rest, fetched = taken.map scannedRow ++ rest ∧
      (sampleRows room events rows).rows = rows ++ taken ∧
      (taken.length = room ∨ taken.length < room ∧ rest = []) ∧
      Delivers columns rest (sampleRows room events rows).left := by
  induction room generalizing fetched events rows with
  | zero => exact ⟨[], fetched, rfl, (append_nil rows).symm, .inl rfl, delivers⟩
  | succ room ih =>
    cases fetched with
    | nil =>
      obtain ⟨⟨stops, rfl⟩, fits⟩ := delivers
      refine ⟨[], [], rfl, ?_, .inr ⟨Nat.succ_pos room, rfl⟩, ?_⟩
      · cases stops <;> exact (append_nil rows).symm
      · cases stops with
        | zero => exact ⟨⟨0, rfl⟩, fits⟩
        | succ stops => exact ⟨⟨stops, rfl⟩, fits⟩
    | cons row =>
      obtain ⟨events, rfl, further⟩ := delivers.cons
      obtain ⟨ctxErr, scanned⟩ := row
      cases ctxErr with
      | some => simp [sampleRows] at clear
      | none =>
        cases scanned with
        | error => simp [sampleRows] at clear
        | ok values =>
          obtain ⟨taken, rest, rfl, sampled, full, left⟩ := ih further clear
          refine ⟨values :: taken, rest, rfl, ?_, ?_, left⟩
          · exact sampled.trans (append_assoc rows [values] taken)
          · simpa using full

variable {good : List (List Value) → τ → τ' → Prop} {stopped : τ → τ' → Prop}
  {writeRow : τ → List Value → Writes GoError (Option GoError × τ)}
  {writeRow' : τ' → List Value → Writes GoError (Option GoError × τ')}

theorem eachRow_matches
    (weaken : ∀ done state state', good done state state' → stopped state state')
    (body : ∀ done state state' values, values.length = columns → good done state state' →
      (writeRow state values).Matches (Answers good stopped (done ++ [values]))
        (writeRow' state' values)) (delivers : Delivers columns fetched events)
    {done : List (List Value)} {state : τ} {state' : τ'} (start : good done state state') :
    (eachRow writeRow events state).Matches
      (fun pass pass' => pass.err = pass'.err ∧ pass.left = pass'.left ∧
        stopped pass.state pass'.state ∧ (pass.err = none → ∃ rows,
          fetched = rows.map scannedRow ∧ good (done ++ rows) pass.state pass'.state))
      (eachRow writeRow' events state') := by
  induction fetched generalizing events done state state' with
  | nil =>
    obtain ⟨⟨stops, rfl⟩, fits⟩ := delivers
    have ended : good (done ++ []) state state' := (append_nil done).symm ▸ start
    cases stops <;>
      exact ⟨rfl, rfl, weaken _ _ _ start, fun _ => ⟨[], rfl, ended⟩⟩
  | cons row fetched ih =>
    have fits := delivers.fits row mem_cons_self
    obtain ⟨events, rfl, further⟩ := delivers.cons
    obtain ⟨ctxErr, scanned⟩ := row
    cases ctxErr with
    | some => exact ⟨rfl, rfl, weaken _ _ _ start, by simp⟩
    | none =>
      cases scanned with
      | error => exact ⟨rfl, rfl, weaken _ _ _ start, by simp⟩
      | ok values =>
        rw [eachRow_row, eachRow_row]
        refine (body done state state' values (fits values rfl) start).bind ?_
        rintro ⟨err, _⟩ ⟨err', _⟩ ⟨same, halted, next⟩
        obtain rfl : err = err' := same
        cases err with
        | some => exact ⟨rfl, rfl, halted, by simp⟩
        | none =>
          refine (ih further (next rfl)).mono ?_
          rintro pass pass' ⟨errs, lefts, halted, ended⟩
          refine ⟨errs, lefts, halted, fun clear => ?_⟩
          obtain ⟨rows, rfl, reached⟩ := ended clear
          exact ⟨values :: rows, rfl, by rwa [append_assoc] at reached⟩

end

/-! ## The buffer does not show -/

variable {columns : List String} {Value : Type}

namespace RowWriter
variable {F X : Type} {out : RowWriter F} {printing : Printing F X} {layout : Layout}

/-- The file is as far as the encoder that takes a new row each time, and did not panic. -/
structure Abreast (file : File out) (state : out.Writer × Int) : Prop where
  writer : file.writer = state.1
  count : file.rowCount = state.2
  sound : file.panicked = false

structure Follows (printing : Printing F X) (layout : Layout) (done : List (List (SqlValue F X)))
    (file : File out) (state : out.Writer × Int) : Prop extends Abreast file state where
  row : file.row.length = layout.columns.length
  passed : List.Forall₂ (Placed printing layout.columns) file.passed done

variable {values : List (SqlValue F X)}

theorem fill_buffer (printing : Printing F X) (sound : layout.Sound n) (fits : values.length = n)
    {row : List (Cell F)} (length : row.length = layout.columns.length) :
    ∃ halt filled, fill printing layout.columns values row = (halt, filled) ∧
      FillSpec printing layout.columns values row (halt, filled) ∧
      ∃ filled', fill printing layout.columns values (blankRow layout.columns.length) =
        (halt, filled') ∧ (halt = none → filled' = filled) := by
  have fits' : values.length = layout.columns.length := fits.trans sound.length.symm
  have spec := fill_spec printing fits' sound.indices_nodup
    (fun k listed => by rw [length, sound.length]; exact sound.indices_lt k listed)
  have blank : row.length = (blankRow layout.columns.length : List (Cell F)).length := by
    rw [length, blankRow, length_replicate]
  obtain ⟨halts, rows⟩ := fill_congr printing fits' blank (fun k outside => by
    have beyond : n ≤ k := Nat.le_of_not_lt fun within => outside (sound.mem_indices within)
    rw [List.getElem?_eq_none (by omega), List.getElem?_eq_none (by rw [← blank]; omega)])
  exact ⟨_, _, rfl, spec, (fill printing layout.columns values (blankRow _)).2,
    Prod.ext halts.symm rfl, fun clear => (rows clear).symm⟩

variable {state : out.Writer × Int} {file : File out} {done : List (List (SqlValue F X))}

theorem writeRow_matches (sound : layout.Sound n) (fits : values.length = n)
    (follows : Follows printing layout done file state) :
    (writeRow printing layout file values).Matches
      (Answers (Follows printing layout) Abreast (done ++ [values]))
      (parquetRow (out.parquet printing) layout state values) := by
  obtain ⟨halt, _, here, spec, _, there, same⟩ :=
    fill_buffer printing sound fits follows.row
  obtain ⟨writer, _⟩ := state
  obtain ⟨⟨rfl, rfl, running⟩, length, passed⟩ := follows
  simp only [writeRow, parquetRow, parquet, here, there]
  cases halt with
  | some halt =>
    cases halt with
    | panicked => exact absurd rfl spec.runs
    | failed => exact ⟨rfl, ⟨rfl, rfl, running⟩, by simp⟩
  | none =>
    cases same rfl
    have placed := rel_append passed (.cons (spec.placed rfl) .nil)
    have kept := spec.length.trans length
    refine Matches.after _ ?_
    rintro ⟨err, writer⟩
    cases err with
    | some => exact ⟨rfl, ⟨rfl, rfl, running⟩, by simp⟩
    | none =>
      dsimp only
      split
      · refine Matches.after _ ?_
        rintro ⟨err, writer⟩
        cases err with
        | some => exact ⟨rfl, ⟨rfl, rfl, running⟩, by simp⟩
        | none => exact ⟨rfl, ⟨rfl, rfl, running⟩, fun _ => ⟨⟨rfl, rfl, running⟩, kept, placed⟩⟩
      · exact ⟨rfl, ⟨rfl, rfl, running⟩, fun _ => ⟨⟨rfl, rfl, running⟩, kept, placed⟩⟩

variable {sample : List (List (SqlValue F X))}

theorem replaySample_matches (sound : layout.Sound n) (fits : ∀ values ∈ sample, values.length = n)
    (follows : Follows printing layout done file state) :
    (replaySample printing layout sample file).Matches
      (Answers (Follows printing layout) Abreast (done ++ sample))
      (writeSample (out.parquet printing) layout sample state) := by
  induction sample generalizing done file state with
  | nil =>
    rw [append_nil]
    exact ⟨rfl, follows.toAbreast, fun _ => follows⟩
  | cons values rest ih =>
    rw [forall_mem_cons] at fits
    rw [writeSample_cons (out.parquet printing) layout values rest state]
    refine (writeRow_matches sound fits.1 follows).bind ?_
    rintro ⟨err, _⟩ ⟨err', _⟩ ⟨same, halted, next⟩
    obtain rfl : err = err' := same
    cases err with
    | some => exact ⟨rfl, halted, by simp⟩
    | none =>
      have further := ih fits.2 (next rfl)
      rwa [append_assoc] at further

structure Faithful (printing : Printing F X) (columns : List String)
    (fetched : List (Fetched (SqlValue F X))) (written : Written F X)
    (outcome : Outcome (SqlValue F X)) : Prop where
  outcome : written.outcome = outcome
  runs : written.panicked = false
  rows : written.outcome.err = none → ∃ rows layout, fetched = rows.map scannedRow ∧
    layoutOf columns (rows.take parquetSchemaSample) = .ok layout ∧
    layout.Sound columns.length ∧
    List.Forall₂ (Placed printing layout.columns) written.passed rows

variable {fetched : List (Fetched (SqlValue F X))}

theorem closeEarly_matches (abreast : Abreast file state) (err : GoError)
    (left : List (Event (SqlValue F X))) :
    (closeEarly file err left).Matches (Faithful printing columns fetched)
      (parquetFail (out.parquet printing) state err left) := by
  obtain ⟨_, _⟩ := state
  obtain ⟨rfl, rfl, running⟩ := abreast
  exact Matches.after _ fun _ => ⟨rfl, running, by simp⟩

theorem take_sample {sample rest : List (List Value)}
    (full : sample.length = room ∨ sample.length < room ∧ rest.map scannedRow = []) :
    (sample ++ rest).take room = sample := by
  rcases full with rfl | ⟨short, none⟩
  · exact take_left
  · rw [map_eq_nil_iff.mp none, append_nil, take_of_length_le (Nat.le_of_lt short)]

theorem encodeParquet_matches (out : RowWriter F) (printing : Printing F X)
    {stream : RowStream (SqlValue F X)} (delivers : Delivers columns.length fetched stream.events) :
    (out.encodeParquet printing columns stream).Matches (Faithful printing columns fetched)
      (Storage.encodeParquet (out.parquet printing) columns stream) := by
  simp only [encodeParquet, Storage.encodeParquet, Reporting.encodeParquet]
  cases clear : (sampleRows parquetSchemaSample stream.events []).err with
  | some => exact ⟨rfl, rfl, by simp⟩
  | none =>
    obtain ⟨sample, _, rfl, sampled, full, left⟩ := sampleRows_delivers delivers clear
    cases stream.err (sampleRows parquetSchemaSample stream.events []).left with
    | some => exact ⟨rfl, rfl, by simp⟩
    | none =>
      obtain ⟨layout, found, sound⟩ :=
        layoutOf_sound columns (sampleRows parquetSchemaSample stream.events []).rows
      have schema : (out.parquet printing).schema columns
        (sampleRows parquetSchemaSample stream.events []).rows = .ok layout := found
      simp only [found, schema]
      rw [sampled] at found ⊢
      have fits : ∀ values ∈ sample, values.length = columns.length := fun values listed =>
        delivers.fits (scannedRow values)
          (mem_append_left _ (mem_map_of_mem listed)) values rfl
      have start : Follows printing layout []
          { writer := out.new layout.group, row := blankRow layout.columns.length }
          (out.new layout.group, 0) :=
        ⟨⟨rfl, rfl, rfl⟩, length_replicate, .nil⟩
      rw [erase_bind]
      refine (replaySample_matches sound fits start).bind ?_
      rintro ⟨err, file⟩ ⟨err', _⟩ ⟨same, halted, next⟩
      obtain rfl : err = err' := same
      cases err with
      | some err => exact erase_lift _ ▸ closeEarly_matches halted err _
      | none =>
        rw [erase_bind, eachRow_erase]
        refine (eachRow_matches (fun _ _ _ follows => follows.toAbreast)
          (fun _ _ _ _ fits follows => writeRow_matches sound fits follows) left
          (next rfl)).bind ?_
        rintro ⟨file, err, left⟩ ⟨⟨writer, _⟩, err', left'⟩ ⟨errs, lefts, halted, ended⟩
        obtain rfl : err = err' := errs
        obtain rfl : left = left' := lefts
        cases err with
        | some err => exact erase_lift _ ▸ closeEarly_matches halted err _
        | none =>
          cases stream.err left with
          | some => exact erase_lift _ ▸ closeEarly_matches halted _ _
          | none =>
            rw [erase_bind, erase_lift]
            obtain ⟨rfl, rfl, running⟩ := halted
            obtain ⟨rows, rfl, follows⟩ := ended rfl
            refine Matches.after _ fun _ => ⟨rfl, running, fun _ => ?_⟩
            refine ⟨sample ++ rows, layout, map_append.symm, ?_, sound,
              follows.passed⟩
            rw [take_sample full]
            exact found

variable {σ : Type}

/-- `encodeParquet` returns without a panic; if it returns no error, then the stream
consists of rows that were all scanned, `WriteRows` was given one row for each of them, in
order, and in that row the field named after a column holds the conversion of the column's
value, NULL exactly for NULL. -/
theorem parquet_rows_faithful (out : RowWriter F) (printing : Printing F X) (columns : List String)
    (stream : RowStream (SqlValue F X)) (fetched : List (Fetched (SqlValue F X)))
    (delivers : Delivers columns.length fetched stream.events)
    (answer : σ → List UInt8 → (Nat × Option GoError) × σ) (state : σ) :
    ((out.encodeParquet printing columns stream).run answer state).1.panicked = false ∧
      (((out.encodeParquet printing columns stream).run answer state).1.outcome.err = none →
        ∃ rows layout, fetched = rows.map scannedRow ∧
          layoutOf columns (rows.take parquetSchemaSample) = .ok layout ∧
          layout.Sound columns.length ∧
          Forall₂ (Placed printing layout.columns)
            ((out.encodeParquet printing columns stream).run answer state).1.passed rows) := by
  have faithful := ((encodeParquet_matches out printing delivers).run answer state).1
  exact ⟨faithful.runs, faithful.rows⟩

/-- The encoder without a buffer writes the same bytes and returns the same. -/
theorem encodeParquet_refines (out : RowWriter F) (printing : Printing F X) (columns : List String)
    (stream : RowStream (SqlValue F X)) (fetched : List (Fetched (SqlValue F X)))
    (delivers : Delivers columns.length fetched stream.events)
    (answer : σ → List UInt8 → (Nat × Option GoError) × σ) (state : σ) :
    ((out.encodeParquet printing columns stream).run answer state).1.outcome =
        ((Storage.encodeParquet (out.parquet printing) columns stream).run answer state).1 ∧
      ((out.encodeParquet printing columns stream).run answer state).2 =
        ((Storage.encodeParquet (out.parquet printing) columns stream).run answer state).2 := by
  obtain ⟨faithful, states⟩ := (encodeParquet_matches out printing delivers).run answer state
  exact ⟨faithful.outcome, states⟩

/-! ## What was sampled converts -/

/-- Every column converts its value of the row. -/
def Converts (printing : Printing F X) (columns : List (String × ParquetColumn))
    (values : List (SqlValue F X)) : Prop :=
  ∀ (i : Nat) entry value, columns[i]? = some entry → values[i]? = some value →
    ∃ cell, entry.2.convert printing value = .ok cell

theorem fill_converts {columns : List (String × ParquetColumn)}
    (converts : Converts printing columns values) (row : List (Cell F)) (err : GoError) :
    (fill printing columns values row).1 ≠ some (.failed err) := by
  fun_induction fill printing columns values row with
  | case1 => nofun
  | case3 name column _ value _ _ _ failed =>
    obtain ⟨_, converted⟩ := converts 0 (name, column) value rfl rfl
    rw [failed] at converted
    cases converted
  | case4 _ _ _ value _ _ _ _ _ ih =>
    exact ih fun i entry value here there => converts (i + 1) entry value here there
  | case2 | case5 => simp

theorem layoutOf_converts (made : layoutOf columns sample = .ok layout)
    (sampled : values ∈ sample) : Converts printing layout.columns values := by
  intro i entry value here there
  simp only [layoutOf] at made
  split at made
  · cases made
  · rename_i group cols built
    cases made
    exact entry.2.convert_sampled printing
      (buildParquetSchema_kind built (List.getElem?_zip_eq_some.mp here).2) sampled there

/-- An error of the parquet writer, as `writeRow` returns it. -/
def FromWriter (err : GoError) : Prop :=
  ∃ cause : GoError, err = cause.wrap "failed to write parquet row" ∨
    err = cause.wrap "failed to flush parquet row group"

/-- So many rows are passed on, unless the parquet writer has failed. -/
def PassedOr (count : Nat) (reply : Option GoError × File out) : Prop :=
  (reply.1 = none ∧ count ≤ reply.2.passed.length) ∨
    ∃ err, reply.1 = some err ∧ (FromWriter err ∨ reply.2.panicked = true)

variable {count : Nat}

theorem writeRow_sampled (converts : Converts printing layout.columns values)
    (start : count ≤ file.passed.length) :
    (writeRow printing layout file values).Always (PassedOr (count + 1)) := by
  unfold writeRow
  split
  · exact .inr ⟨_, rfl, .inr rfl⟩
  · rename_i err row failed
    exact absurd (congrArg Prod.fst failed) (fill_converts converts file.row err)
  · have passed : ∀ row : List (Cell F), count + 1 ≤ (file.passed ++ [row]).length := fun row => by
      simpa using start
    refine (Always.trivial _).bind ?_
    rintro ⟨err, writer⟩ -
    cases err with
    | some err => exact .inr ⟨_, rfl, .inl ⟨err, .inl rfl⟩⟩
    | none =>
      dsimp only
      split
      · refine (Always.trivial _).bind ?_
        rintro ⟨err, writer⟩ -
        cases err with
        | some err => exact .inr ⟨_, rfl, .inl ⟨err, .inr rfl⟩⟩
        | none => exact .inl ⟨rfl, passed _⟩
      · exact .inl ⟨rfl, passed _⟩

theorem replaySample_sampled
    (converts : ∀ values ∈ sample, Converts printing layout.columns values)
    (start : count ≤ file.passed.length) :
    (replaySample printing layout sample file).Always (PassedOr (count + sample.length)) := by
  induction sample generalizing file count with
  | nil => exact .inl ⟨rfl, start⟩
  | cons _ rest ih =>
    rw [forall_mem_cons] at converts
    refine (writeRow_sampled converts.1 start).bind ?_
    rintro ⟨err, _⟩ (⟨rfl, passed⟩ | ⟨err, rfl, cause⟩)
    · rw [length_cons, Nat.add_comm rest.length, ← Nat.add_assoc]
      exact ih converts.2 passed
    · exact .inr ⟨err, rfl, cause⟩

theorem eachRow_always {τ : Type} {inv : τ → Prop}
    {writeRow : τ → List Value → Writes GoError (Option GoError × τ)}
    (step : ∀ state values, inv state → (writeRow state values).Always fun reply => inv reply.2)
    (events : List (Event Value)) {state : τ} (start : inv state) :
    (eachRow writeRow events state).Always fun pass => inv pass.state := by
  induction events using Event.scan_induction generalizing state with
  | nil | stop | canceled | failed => exact start
  | row values rest ih =>
    rw [eachRow_row]
    refine (step state values start).bind ?_
    rintro ⟨err, after⟩ reached
    cases err with
    | some => exact reached
    | none => exact ih reached

theorem writeRow_passed (file : File out) (values : List (SqlValue F X))
    (start : count ≤ file.passed.length) :
    (writeRow printing layout file values).Always fun reply => count ≤ reply.2.passed.length := by
  have grown : ∀ row : List (Cell F), count ≤ (file.passed ++ [row]).length := fun row => by
    rw [length_append]
    omega
  unfold writeRow
  split
  · exact start
  · exact start
  · refine (Always.trivial _).bind ?_
    rintro ⟨err, writer⟩ -
    cases err with
    | some => exact grown _
    | none =>
      dsimp only
      split
      · refine (Always.trivial _).bind ?_
        rintro ⟨err, writer⟩ -
        cases err <;> exact grown _
      · exact grown _

/-- The kind of a column is the common kind of its sampled values, or text; it does not
depend on the order of the sample, and the column's converter takes every sampled value.
So a run of `encodeParquet` that stops before it has passed on its whole sample stops at an
error of the parquet writer, not at a conversion. -/
theorem inference_fits_sample (printing : Printing F X) (names : List String)
    (sample : List (List (SqlValue F X))) :
    (names.Nodup → ∃ group cols, buildParquetSchema names sample = .ok (group, cols)) ∧
      (∀ group cols, buildParquetSchema names sample = .ok (group, cols) →
        ∀ (i : Nat) col, cols[i]? = some col → col.kind = commonKind (kindsAt i sample) ∧
          ∀ row ∈ sample, ∀ value, row[i]? = some value →
            ∃ cell, col.convert printing value = .ok cell) ∧
      (∀ sample', sample.Perm sample' →
        buildParquetSchema names sample' = buildParquetSchema names sample) ∧
      ∀ (out : RowWriter F) (columns : List String) (stream : RowStream (SqlValue F X))
        (fetched : List (Fetched (SqlValue F X))),
        Delivers columns.length fetched stream.events →
        (sampleRows parquetSchemaSample stream.events []).err = none →
        stream.err (sampleRows parquetSchemaSample stream.events []).left = none →
        ∀ (σ : Type) (answer : σ → List UInt8 → (Nat × Option GoError) × σ) (state : σ),
          ((out.encodeParquet printing columns stream).run answer state).1.passed.length <
              (sampleRows parquetSchemaSample stream.events []).rows.length →
            ∃ err, ((out.encodeParquet printing columns stream).run answer state).1.outcome.err =
              some err ∧ FromWriter err := by
  refine ⟨fun distinct => buildParquetSchema_ok distinct sample,
    fun group cols built i col here => ?_, fun sample' same => ?_,
    fun out columns stream fetched delivers clear quiet σ answer state short => ?_⟩
  · have kind := buildParquetSchema_kind built here
    exact ⟨kind, fun row sampled value there => col.convert_sampled printing kind sampled there⟩
  · rw [buildParquetSchema, buildParquetSchema, inferKinds_perm names.length same]
  · have stops : (out.encodeParquet printing columns stream).Always fun written =>
        written.passed.length < (sampleRows parquetSchemaSample stream.events []).rows.length →
          ∃ err, written.outcome.err = some err ∧ (FromWriter err ∨ written.panicked = true) := by
      obtain ⟨_, found, -⟩ :=
        layoutOf_sound columns (sampleRows parquetSchemaSample stream.events []).rows
      simp only [encodeParquet, clear, quiet, found]
      refine (replaySample_sampled (fun values sampled => layoutOf_converts found sampled)
        (Nat.zero_le _)).bind ?_
      rintro ⟨err, file⟩ (⟨rfl, passed⟩ | ⟨err, rfl, cause⟩)
      · refine (eachRow_always (fun file values => writeRow_passed file values) _ passed).bind ?_
        rintro ⟨file, err, left⟩ reached
        have whole := Nat.not_lt.mpr (Nat.zero_add _ ▸ reached)
        cases err with
        | some => exact (Always.trivial _).bind fun _ _ short => absurd short whole
        | none =>
          cases stream.err left <;>
            exact (Always.trivial _).bind fun _ _ short => absurd short whole
      · exact (Always.trivial _).bind fun _ _ _ => ⟨err, rfl, cause⟩
    obtain ⟨err, failed, cause⟩ := run_of_always stops short
    have runs := ((encodeParquet_matches out printing delivers).run answer state).1.runs
    exact ⟨err, failed, cause.resolve_right (by simp [runs])⟩

end RowWriter

/-! ## Two columns in the other order -/

namespace RowWriter

namespace Small

def out : RowWriter Unit where
  Writer := Unit
  new _ := ()
  writeRows _ row := do
    let (_, err) ← Writes.call [row.length.toUInt8]
    pure (err, ())
  flush _ := pure (none, ())
  close _ := pure (none, ())

def printing : Printing Unit Unit := ⟨fun _ => "", fun _ => ""⟩

def rows : List (List (SqlValue Unit Unit)) := [[.int 1, .null], [.null, .bool true]]

def stream : RowStream (SqlValue Unit Unit) where
  columns := .ok ["b", "a"]
  events := (rows.map scannedRow).map .row
  err _ := none

def accept (_ : Unit) (bytes : List UInt8) : (Nat × Option GoError) × Unit :=
  ((bytes.length, none), ())

def refuse (_ : Unit) (_ : List UInt8) : (Nat × Option GoError) × Unit :=
  ((0, some { text := "disk full" }), ())

def refused : Written Unit Unit :=
  ((out.encodeParquet printing ["b", "a"] stream).run refuse ()).1

end Small

/-- The writer refuses the first of the two sampled rows, and that is the error. -/
theorem refused_sample_is_the_writers :
    ["b", "a"].Nodup ∧ (∃ group cols, buildParquetSchema ["b", "a"] Small.rows = .ok (group, cols)) ∧
      Delivers 2 (Small.rows.map scannedRow) Small.stream.events ∧
      (sampleRows parquetSchemaSample Small.stream.events []).err = none ∧
      Small.refused.passed.length <
        (sampleRows parquetSchemaSample Small.stream.events []).rows.length ∧
      ∃ err, Small.refused.outcome.err = some err ∧ FromWriter err := by
  have delivers : Delivers 2 (Small.rows.map scannedRow) Small.stream.events :=
    ⟨⟨0, (append_nil _).symm⟩, by simp [Small.rows, scannedRow]⟩
  have clear : (sampleRows parquetSchemaSample Small.stream.events []).err = none := by
    decide +kernel
  have short : Small.refused.passed.length <
      (sampleRows parquetSchemaSample Small.stream.events []).rows.length := by decide +kernel
  obtain ⟨built, _, _, stops⟩ := inference_fits_sample Small.printing ["b", "a"] Small.rows
  exact ⟨by decide, built (by decide), delivers, clear, short,
    stops Small.out ["b", "a"] Small.stream _ delivers clear rfl Unit Small.refuse () short⟩

theorem small_refines :
    ((Small.out.encodeParquet Small.printing ["b", "a"] Small.stream).run Small.accept
      ()).1.outcome = ((Storage.encodeParquet (Small.out.parquet Small.printing) ["b", "a"]
        Small.stream).run Small.accept ()).1 :=
  (encodeParquet_refines Small.out Small.printing ["b", "a"] Small.stream _
    ⟨⟨0, (append_nil _).symm⟩, by simp [Small.rows, scannedRow]⟩ Small.accept ()).1

theorem two_rows_written :
    Delivers 2 (Small.rows.map scannedRow) Small.stream.events ∧
      ((Small.out.encodeParquet Small.printing ["b", "a"] Small.stream).run Small.accept
        ()).1.outcome.err = none ∧
      ∃ rows layout, Small.rows.map scannedRow = rows.map scannedRow ∧
        layoutOf ["b", "a"] (rows.take parquetSchemaSample) = .ok layout ∧ layout.Sound 2 ∧
        Forall₂ (Placed Small.printing layout.columns)
          ((Small.out.encodeParquet Small.printing ["b", "a"] Small.stream).run Small.accept
            ()).1.passed rows := by
  have delivers : Delivers 2 (Small.rows.map scannedRow) Small.stream.events :=
    ⟨⟨0, (append_nil _).symm⟩, by simp [Small.rows, scannedRow]⟩
  have clear : ((Small.out.encodeParquet Small.printing ["b", "a"] Small.stream).run
      Small.accept ()).1.outcome.err = none := by
    decide +kernel
  exact ⟨delivers, clear, (parquet_rows_faithful Small.out Small.printing ["b", "a"]
    Small.stream _ delivers Small.accept ()).2 clear⟩

end RowWriter

end DbBridge.Storage
