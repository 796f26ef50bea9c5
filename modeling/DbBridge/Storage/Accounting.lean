import DbBridge.Storage.Encoder

/-!
# What a nil error of `EncodeStream` says

An encoder that returns no error has read its stream to the end with a nil `Err`,
has had every one of its writes accepted, and returns the counts of exactly those
rows and bytes. The writer below is `io.MultiWriter` over the result store's writer
and the hasher.
-/

namespace DbBridge.Storage

open Domain Writes List
open Reports (erase_bind erase_lift erase_bind_say)

section
variable {Value : Type}

/-- The stream was read up to `left`: the last `Next` answered false, and `rows` of
them answered true. -/
def ReadToEnd (events left : List (Event Value)) (rows : Int) : Prop :=
  ∃ consumed, events = consumed ++ left ∧ rows = consumed.countP Event.isRow ∧
    (left = [] ∨ consumed.getLast? = some .stop)

theorem ReadToEnd.prepend {rest left : List (Event Value)} {rows : Int}
    (read : ReadToEnd rest left rows) (earlier : List (Event Value)) :
    ReadToEnd (earlier ++ rest) left (earlier.countP Event.isRow + rows) := by
  obtain ⟨consumed, split, total, finished⟩ := read
  refine ⟨earlier ++ consumed, by rw [split, append_assoc], by simp [total], ?_⟩
  exact finished.imp_right fun ended => by simp [getLast?_append, ended]

/-- A nil error comes with the end of the stream, a nil `Err` and a true count. -/
def Outcome.Complete (stream : RowStream Value) (outcome : Outcome Value) : Prop :=
  outcome.err = none → ReadToEnd stream.events outcome.left outcome.rows ∧
    stream.err outcome.left = none ∧ outcome.counted = true

variable {τ : Type} {writeRow : τ → List Value → Writes GoError (Option GoError × τ)}

/-- The contract of a loop body over a usable state: it counts the row it writes, and
returns an error when a write failed. -/
def CountsRow (usable : τ → Prop) (count : τ → Int)
    (writeRow : τ → List Value → Writes GoError (Option GoError × τ)) : Prop :=
  ∀ state values sent, usable state →
    (writeRow state values).Ensures
      (fun _ reply => reply.1 = none → usable reply.2 ∧ count reply.2 = count state + 1)
      (fun reply => reply.1 ≠ none) sent

/-- The rule of a row loop. `inv` speaks of the rows written, the bytes sent and the state of
the body; a nil error says that the loop has scanned every row up to the end. -/
theorem eachRow_rule {inv : List (List Value) → List UInt8 → τ → Prop}
    (body : ∀ written sent state values, inv written sent state →
      (writeRow state values).Ensures
        (fun after reply => reply.1 = none → inv (written ++ [values]) after reply.2)
        (fun reply => reply.1 ≠ none) sent)
    (events : List (Event Value)) (written : List (List Value)) (sent : List UInt8) (state : τ)
    (start : inv written sent state) :
    (eachRow writeRow events state).Ensures
      (fun after pass => pass.err = none →
        inv (written ++ scannedRows events) after pass.state ∧
          ReadToEnd events pass.left (scannedRows events).length)
      (fun pass => pass.err ≠ none) sent := by
  have unmoved : inv (written ++ []) sent state := by simpa using start
  induction events using Event.scan_induction generalizing written sent state with
  | nil => exact fun _ => ⟨unmoved, [], rfl, rfl, .inl rfl⟩
  | stop => exact fun _ => ⟨unmoved, [.stop], rfl, rfl, .inr rfl⟩
  | canceled | failed => exact fun clear => absurd clear (by simp)
  | row values rest ih =>
    rw [eachRow_row]
    refine (body written sent state values start).bind ?_ ?_
    · rintro after ⟨err, next⟩ kept
      cases err with
      | some => exact fun clear => absurd clear (by simp)
      | none =>
        have kept := kept rfl
        refine (ih _ after next kept (by simpa using kept)).mono ?_ fun _ failed => failed
        intro last pass complete clear
        obtain ⟨whole, read⟩ := complete clear
        refine ⟨by simpa [scannedRows] using whole, ?_⟩
        have longer := read.prepend [.row ⟨none, .ok values⟩]
        rw [scannedRows, length_cons, Int.natCast_succ, Int.add_comm]
        exact longer
    · rintro ⟨err, next⟩ failed
      cases err with
      | none => exact absurd rfl failed
      | some => simp [Always, pure]

theorem eachRow_ensures {usable : τ → Prop} {count : τ → Int}
    (body : CountsRow usable count writeRow) (events : List (Event Value)) (state : τ)
    (sent : List UInt8) (fit : usable state) :
    (eachRow writeRow events state).Ensures
      (fun _ pass => pass.err = none → usable pass.state ∧
        ∃ rows, ReadToEnd events pass.left rows ∧ count pass.state = count state + rows)
      (fun pass => pass.err ≠ none) sent := by
  have counted : ∀ (written : List (List Value)) (sent : List UInt8) (next : τ) values,
      usable next ∧ count next = count state + written.length →
      (writeRow next values).Ensures
        (fun _ reply => reply.1 = none →
          usable reply.2 ∧ count reply.2 = count state + (written ++ [values]).length)
        (fun reply => reply.1 ≠ none) sent := by
    rintro written sent next values ⟨fit, total⟩
    refine (body next values sent fit).mono ?_ fun _ failed => failed
    intro after reply one clear
    obtain ⟨fit', sum⟩ := one clear
    refine ⟨fit', ?_⟩
    rw [sum, total, length_append, Int.natCast_add, Int.add_assoc]
    rfl
  have whole := eachRow_rule counted events [] sent state ⟨fit, by simp⟩
  refine whole.mono ?_ fun _ failed => failed
  intro after pass complete clear
  obtain ⟨⟨fit', total⟩, read⟩ := complete clear
  exact ⟨fit', _, read, total⟩

theorem checkErr_complete (stream : RowStream Value) {rows : Int} {left : List (Event Value)}
    (read : ReadToEnd stream.events left rows) : (checkErr stream rows left).Complete stream := by
  intro clear
  exact ⟨read, by simpa [checkErr] using clear, rfl⟩

end

section
variable {Value : Type} (codec : Codec Value)

def csvOutput (columns : List String) (rows : List (List Value)) : List UInt8 :=
  codec.csvRecord columns ++ rows.flatMap fun values => codec.csvRecord (values.map codec.toString)

def CsvWritten (start : List UInt8) (columns : List String) (written : List (List Value))
    (sent : List UInt8) (state : Writes.Buffer GoError × Int) : Prop :=
  state.1.err = none ∧ sent ++ state.1.pending = start ++ csvOutput codec columns written ∧
    state.2 = written.length

theorem csvRow_writes (start : List UInt8) (columns : List String) (written : List (List Value))
    (sent : List UInt8) (state : Buffer GoError × Int) (values : List Value)
    (account : CsvWritten codec start columns written sent state) :
    (csvRow codec state values).Ensures
      (fun after reply => reply.1 = none →
        CsvWritten codec start columns (written ++ [values]) after reply.2)
      (fun reply => reply.1 ≠ none) sent := by
  obtain ⟨clear, bytes, count⟩ := account
  refine (Buffer.writeBytes_ensures clear _).bind ?_ ?_
  · rintro after b' ⟨clear', further⟩
    rw [clear']
    refine fun _ => ⟨clear', ?_, by simp [count]⟩
    simp [further, bytes, csvOutput]
  · intro b' stuck
    cases failed : b'.err with
    | none => exact absurd failed stuck
    | some => simp [Always, pure]

variable (columns : List String)

/-- A nil error comes with the whole output. -/
theorem encodeCSV_writes (stream : RowStream Value) (start : List UInt8) :
    (encodeCSV codec columns stream).Ensures
      (fun after outcome => outcome.Complete stream ∧ (outcome.err = none →
        after = start ++ csvOutput codec columns (scannedRows stream.events) ∧
          outcome.rows = ((scannedRows stream.events).length : Int)))
      (fun outcome => outcome.err ≠ none) start := by
  rw [encodeCSV, Reporting.encodeCSV, erase_bind, erase_lift]
  refine (Buffer.writeBytes_ensures rfl _).bind ?_ ?_
  · rintro after header ⟨clear, written⟩
    rw [clear, erase_bind, eachRow_erase]
    have begun : CsvWritten codec start columns [] after (header, 0) :=
      ⟨clear, by simpa [csvOutput] using written, rfl⟩
    refine (eachRow_rule (csvRow_writes codec start columns) stream.events [] after _ begun).bind
      ?_ ?_
    · intro later pass complete
      cases ended : pass.err with
      | some => exact ⟨fun clear => absurd clear (by simp), fun clear => absurd clear (by simp)⟩
      | none =>
        obtain ⟨⟨usable, bytes, count⟩, read⟩ := complete ended
        rw [nil_append] at bytes count
        rw [erase_bind, erase_lift]
        refine (Buffer.flush_ensures usable).bind ?_ ?_
        · rintro last b ⟨rfl, rfl⟩
          exact ⟨checkErr_complete stream (count ▸ read), fun _ => ⟨bytes, count⟩⟩
        · intro b stuck
          cases failed : b.err with
          | none => exact absurd failed stuck
          | some => simp [Always, Reports.erase, pure]
    · intro pass failed
      cases ended : pass.err with
      | none => exact absurd ended failed
      | some => simp [Always, Reports.erase, pure]
  · intro header stuck
    cases failed : header.err with
    | none => exact absurd failed stuck
    | some => simp [Always, Reports.erase, pure]

theorem encodeCSV_ensures (stream : RowStream Value) (sent : List UInt8) :
    (encodeCSV codec columns stream).Ensures (fun _ outcome => outcome.Complete stream)
      (fun outcome => outcome.err ≠ none) sent :=
  (encodeCSV_writes codec columns stream sent).mono (fun _ _ holds => holds.1)
    fun _ failed => failed

theorem jsonlRow_counts : CountsRow (fun _ => True) id (jsonlRow codec columns) := by
  intro rows values sent _
  unfold jsonlRow
  cases codec.marshal (rowMap codec columns values) with
  | error => exact fun clear => absurd clear (by simp)
  | ok =>
    refine (call_ensures _ sent).bind ?_ ?_
    · rintro after reply ⟨-, rfl⟩
      exact fun _ => ⟨trivial, rfl⟩
    · rintro ⟨_, err⟩ failed
      cases err with
      | none => exact absurd rfl failed
      | some => simp [Always, pure]

theorem encodeJSONL_ensures (stream : RowStream Value) (sent : List UInt8) :
    (encodeJSONL codec columns stream).Ensures (fun _ outcome => outcome.Complete stream)
      (fun outcome => outcome.err ≠ none) sent := by
  rw [encodeJSONL, Reporting.encodeJSONL, erase_bind, eachRow_erase]
  refine (eachRow_ensures (jsonlRow_counts codec columns) stream.events 0 sent trivial).bind ?_ ?_
  · intro after pass complete
    cases ended : pass.err with
    | some => exact fun clear => absurd clear (by simp)
    | none =>
      obtain ⟨-, rows, read, count⟩ := complete ended
      refine checkErr_complete stream ?_
      have same : pass.state = rows := by simpa using count
      rw [same]
      exact read
  · intro pass failed
    cases ended : pass.err with
    | none => exact absurd ended failed
    | some => simp [Always, Reports.erase, pure]

end

section
variable {Value : Type} (parquet : Parquet Value)

/-- parquet-go reports failed output: a call during which a `Write` failed returns an
error. -/
structure Parquet.Reports : Prop where
  writeRows : ∀ writer row sent, (parquet.writeRows writer row).Ensures (fun _ _ => True)
    (fun reply => reply.1 ≠ none) sent
  flush : ∀ writer sent, (parquet.flush writer).Ensures (fun _ _ => True)
    (fun reply => reply.1 ≠ none) sent
  close : ∀ writer sent, (parquet.close writer).Ensures (fun _ _ => True)
    (fun reply => reply.1 ≠ none) sent

variable {parquet}

theorem parquetRow_counts (reports : parquet.Reports) (schema : parquet.Schema) :
    CountsRow (fun _ => True) Prod.snd (parquetRow parquet schema) := by
  rintro ⟨writer, _⟩ values sent _
  unfold parquetRow
  cases parquet.convert schema values with
  | error => exact fun clear => absurd clear (by simp)
  | ok row =>
    refine (reports.writeRows writer row sent).bind ?_ ?_
    · rintro after ⟨err, writer'⟩ -
      cases err with
      | some => exact fun clear => absurd clear (by simp)
      | none =>
        dsimp only
        split
        · refine (reports.flush writer' after).bind ?_ ?_
          · rintro last ⟨err, writer''⟩ -
            cases err with
            | some => exact fun clear => absurd clear (by simp)
            | none => exact fun _ => ⟨trivial, rfl⟩
          · rintro ⟨err, writer''⟩ failed
            cases err with
            | none => exact absurd rfl failed
            | some => simp [Always, pure]
        · exact fun _ => ⟨trivial, rfl⟩
    · rintro ⟨err, writer'⟩ failed
      cases err with
      | none => exact absurd rfl failed
      | some => simp [Always, pure]

theorem writeSample_ensures (reports : parquet.Reports) (schema : parquet.Schema)
    (sample : List (List Value)) (state : parquet.Writer × Int) (sent : List UInt8) :
    (writeSample parquet schema sample state).Ensures
      (fun _ reply => reply.1 = none → reply.2.2 = state.2 + sample.length)
      (fun reply => reply.1 ≠ none) sent := by
  induction sample generalizing state sent with
  | nil => exact fun _ => by simp
  | cons values rest ih =>
    rw [writeSample_cons]
    refine (parquetRow_counts reports schema state values sent trivial).bind ?_ ?_
    · rintro after ⟨err, next⟩ counted
      cases err with
      | some => exact fun clear => absurd clear (by simp)
      | none =>
        refine (ih next after).mono ?_ fun _ failed => failed
        intro last reply total clear
        rw [total clear, (counted rfl).2, length_cons]
        push_cast
        omega
    · rintro ⟨err, next⟩ failed
      cases err with
      | none => exact absurd rfl failed
      | some => simp [Always, pure]

theorem parquetFail_always (state : parquet.Writer × Int) (err : GoError)
    (left : List (Event Value)) :
    (parquetFail parquet state err left).Always fun outcome => outcome.err ≠ none :=
  (Always.trivial _).bind fun _ _ => by simp [Always, pure]

theorem parquetFail_ensures (stream : RowStream Value) (state : parquet.Writer × Int)
    (err : GoError) (left : List (Event Value)) (sent : List UInt8) :
    (parquetFail parquet state err left).Ensures (fun _ outcome => outcome.Complete stream)
      (fun outcome => outcome.err ≠ none) sent :=
  (parquetFail_always state err left).ensures.mono (fun _ _ failed clear => absurd clear failed)
    fun _ failed => failed

theorem sampleRows_read (room : Nat) (events : List (Event Value)) (rows : List (List Value))
    (clear : (sampleRows room events rows).err = none) :
    ∃ consumed, events = consumed ++ (sampleRows room events rows).left ∧
      (sampleRows room events rows).rows.length = rows.length + consumed.countP Event.isRow := by
  induction room generalizing events rows with
  | zero => exact ⟨[], by simp [sampleRows], by simp [sampleRows]⟩
  | succ _ ih =>
    cases events with
    | nil => exact ⟨[], by simp [sampleRows], by simp [sampleRows]⟩
    | cons event rest =>
      cases event with
      | stop => exact ⟨[.stop], by simp [sampleRows], by simp [sampleRows, Event.isRow]⟩
      | row fetched =>
        obtain ⟨ctxErr, scanned⟩ := fetched
        cases ctxErr with
        | some => simp [sampleRows] at clear
        | none =>
          cases scanned with
          | error => simp [sampleRows] at clear
          | ok values =>
            simp only [sampleRows] at clear ⊢
            obtain ⟨consumed, split, total⟩ := ih rest (rows ++ [values]) clear
            refine ⟨.row ⟨none, .ok values⟩ :: consumed, ?_, ?_⟩
            · rw [cons_append, ← split]
            · simp only [total, length_append, length_singleton,
                countP_cons, Event.isRow, if_true]
              omega

theorem encodeParquet_ensures (reports : parquet.Reports) (columns : List String)
    (stream : RowStream Value) (sent : List UInt8) :
    (encodeParquet parquet columns stream).Ensures (fun _ outcome => outcome.Complete stream)
      (fun outcome => outcome.err ≠ none) sent := by
  unfold encodeParquet Reporting.encodeParquet
  dsimp only
  split
  · exact fun clear => absurd clear (by simp)
  · exact fun clear => absurd clear (by simp)
  · exact fun clear => absurd clear (by simp)
  · rename_i schema sampled _ _
    obtain ⟨consumed, split, total⟩ := sampleRows_read _ _ _ sampled
    rw [erase_bind]
    refine (writeSample_ensures reports schema _ _ sent).bind ?_ ?_
    · rintro after ⟨err, state⟩ written
      cases err with
      | some err => exact erase_lift _ ▸ parquetFail_ensures stream state err _ after
      | none =>
        rw [erase_bind, eachRow_erase]
        refine (eachRow_ensures (parquetRow_counts reports schema) _ state after trivial).bind
          ?_ ?_
        · intro later pass complete
          cases ended : pass.err with
          | some err => exact erase_lift _ ▸ parquetFail_ensures stream pass.state err _ later
          | none =>
            cases failed : stream.err pass.left with
            | some => exact erase_lift _ ▸ parquetFail_ensures stream pass.state _ _ later
            | none =>
              obtain ⟨-, rows, read, count⟩ := complete ended
              rw [erase_bind, erase_lift]
              refine (reports.close pass.state.1 later).bind ?_ ?_
              · rintro last ⟨err, writer⟩ -
                intro clear
                refine ⟨?_, failed, rfl⟩
                have whole := read.prepend consumed
                rw [← split] at whole
                have start := written rfl
                have sum : pass.state.2 = consumed.countP Event.isRow + rows := by
                  rw [count, start, total]
                  simp
                rw [← sum] at whole
                exact whole
              · rintro ⟨err, writer⟩ failed'
                cases err with
                | none => exact absurd rfl failed'
                | some => simp [Always, Reports.erase, pure]
        · intro pass failed
          cases ended : pass.err with
          | none => exact absurd ended failed
          | some err => exact erase_lift _ ▸ parquetFail_always pass.state err _
    · rintro ⟨err, state⟩ failed
      cases err with
      | none => exact absurd rfl failed
      | some err => exact erase_lift _ ▸ parquetFail_always state err _

end

section
variable {Value : Type} (codec : Codec Value) {parquet : Parquet Value}

theorem counting_ensures {ρ : Type} {post : List UInt8 → ρ → Prop} {broken : ρ → Prop}
    {program : Reports Int GoError ρ} {sent : List UInt8}
    (holds : program.erase.Ensures post broken sent) :
    (Reporting.counting sent.length program).erase.Ensures
      (fun after reply => post after reply.1 ∧ reply.2 = (after.length : Int))
      (fun reply => broken reply.1) sent := by
  have always : ∀ (program : Reports Int GoError ρ) (count : Int), program.erase.Always broken →
      (Reporting.counting count program).erase.Always fun reply => broken reply.1 := by
    intro program
    induction program with
    | done => exact fun _ holds => holds
    | write _ _ ih => exact fun count holds n err => ih n err _ (holds n err)
    | tell _ _ _ ih => exact ih
  induction program generalizing sent with
  | done => exact ⟨holds, rfl⟩
  | write bytes _ ih =>
    refine ⟨?_, fun n err => always _ _ (holds.2 n err)⟩
    have later := ih bytes.length none holds.1
    rwa [length_append, Int.natCast_add] at later
  | tell _ _ _ ih => exact ih holds

theorem encodeAs_ensures (reports : parquet.Reports) (format : String) (columns : List String)
    (stream : RowStream Value) (sent : List UInt8) :
    (Reporting.encodeAs codec parquet format columns stream).erase.Ensures
      (fun _ outcome => outcome.Complete stream) (fun outcome => outcome.err ≠ none) sent := by
  rw [Reporting.encodeAs, erase_bind_say, Reporting.encodeFormat]
  split
  · exact encodeCSV_ensures codec columns stream sent
  split
  · exact encodeParquet_ensures reports columns stream sent
  split
  · exact encodeJSONL_ensures codec columns stream sent
  · exact fun clear => absurd clear (by simp)

/-- The account of `EncodeStream`: a nil error comes with the end of the stream, a nil
`Err`, and the counts of the rows read and of the bytes sent. -/
theorem encodeStream_ensures (reports : parquet.Reports) (format : String)
    (stream : RowStream Value) :
    (encodeStream codec parquet format stream).Ensures
      (fun sent encoding => encoding.err = none →
        ReadToEnd stream.events encoding.left encoding.rows ∧ stream.err encoding.left = none ∧
          encoding.bytes = (sent.length : Int))
      (fun encoding => encoding.err ≠ none) [] := by
  unfold encodeStream Reporting.encodeStream
  cases stream.columns with
  | error => exact fun clear => absurd clear (by simp)
  | ok columns =>
    rw [erase_bind]
    refine (counting_ensures
      (encodeAs_ensures codec reports format columns stream [])).bind ?_ ?_
    · rintro sent ⟨_, _⟩ ⟨complete, total⟩ clear
      obtain ⟨read, ended, counted⟩ := complete clear
      exact ⟨read, ended, (if_pos counted).trans total⟩
    · exact fun reply failed => failed

end

/-! ## The store's writer and the hasher -/

structure WriteCall where
  bytes : List UInt8
  n : Nat
  err : Option GoError

/-- A result store's writer may answer every call in view of all earlier ones. -/
structure ResultWriter where
  write : List WriteCall → List UInt8 → Nat × Option GoError
  close : List WriteCall → Option GoError

/-- The calls made on the store's writer, oldest first, and what the hasher got. -/
structure Pipe where
  calls : List WriteCall := []
  hashed : List UInt8 := []

def accepted (calls : List WriteCall) : List UInt8 :=
  calls.flatMap fun call => call.bytes.take call.n

/-- `Write` of `io.MultiWriter(writer, hasher)`. -/
def multiWrite (writer : ResultWriter) (pipe : Pipe) (bytes : List UInt8) :
    (Nat × Option GoError) × Pipe :=
  let (n, err) := writer.write pipe.calls bytes
  let calls := pipe.calls ++ [{ bytes, n, err }]
  match err with
  | some err => ((n, some err), { pipe with calls := calls })
  | none =>
    if n = bytes.length then
      ((bytes.length, none), { calls := calls, hashed := pipe.hashed ++ bytes })
    else ((n, some errShortWrite), { pipe with calls := calls })

def Pipe.Took (sent : List UInt8) (pipe : Pipe) : Prop :=
  (∀ call ∈ pipe.calls, call.n = call.bytes.length ∧ call.err = none) ∧
    accepted pipe.calls = sent ∧ pipe.hashed = sent

theorem multiWrite_took (writer : ResultWriter) (sent : List UInt8) (pipe : Pipe)
    (bytes : List UInt8) (took : pipe.Took sent)
    (fine : (multiWrite writer pipe bytes).1.2 = none) :
    (multiWrite writer pipe bytes).1.1 = bytes.length ∧
      (multiWrite writer pipe bytes).2.Took (sent ++ bytes) := by
  obtain ⟨full, same, hashed⟩ := took
  unfold multiWrite at fine ⊢
  cases answer : writer.write pipe.calls bytes with
  | mk n err =>
    rw [answer] at fine
    cases err with
    | some => simp at fine
    | none =>
      by_cases whole : n = bytes.length
      · subst whole
        simp only [if_true]
        refine ⟨trivial, ?_, ?_, by rw [hashed]⟩
        · intro call member
          rcases mem_append.mp member with old | new
          · exact full call old
          · rw [mem_singleton.mp new]
            exact ⟨rfl, rfl⟩
        · simp only [accepted, flatMap_append] at same ⊢
          rw [same]
          simp
      · simp [whole] at fine

end DbBridge.Storage
