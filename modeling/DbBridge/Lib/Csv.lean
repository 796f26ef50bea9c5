import DbBridge.Lib.Lines

/-!
# Comma-separated values

The writer and the reader of Go's `encoding/csv` with their default options, over bytes. The
writer leaves an empty field as it is, and quotes one that holds a delimiter, starts with a space,
or is `\.`; the reader takes `\r\n` for `\n`, skips lines that are empty and expects the same
number of fields in every record.
-/

namespace Csv

open List
open Lines (lf cr)

abbrev Field := List UInt8

def comma : UInt8 := 44
def quote : UInt8 := 34

/-! ## Writing -/

section
variable (startsWithSpace : Field → Bool)

def isSpecial (b : UInt8) : Bool := b = lf || b = cr || b = quote || b = comma

/-- `fieldNeedsQuotes`; a space is one of Unicode, which is a parameter here. -/
def needsQuotes (field : Field) : Bool :=
  field ≠ [] && (field = [92, 46] || field.any isSpecial || startsWithSpace field)

def escape (field : Field) : List UInt8 :=
  field.flatMap fun b => if b = quote then [quote, quote] else [b]

def writeField (field : Field) : List UInt8 :=
  if needsQuotes startsWithSpace field then quote :: (escape field ++ [quote]) else field

def writeFields : List Field → List UInt8
  | [] => []
  | [field] => writeField startsWithSpace field
  | field :: next :: rest => writeField startsWithSpace field ++ comma :: writeFields (next :: rest)

def writeRecord (fields : List Field) : List UInt8 := writeFields startsWithSpace fields ++ [lf]

def write (records : List (List Field)) : List UInt8 :=
  records.flatMap (writeRecord startsWithSpace)

end

/-! ## Reading -/

inductive ReadError where
  | bareQuote
  | quote
  | fieldCount

/-- `readLine`, on every line: `\r\n` is `\n`. -/
def unixLines : List UInt8 → List UInt8
  | [] => []
  | b :: rest => if b = cr ∧ rest.head? = some lf then unixLines rest else b :: unixLines rest

/-- `readLine` drops a carriage return at the end of the input. -/
def trimReturn (text : List UInt8) : List UInt8 :=
  if text.getLast? = some cr then text.dropLast else text

/-- A field, whether another one follows in its record, and the text after it. -/
structure Cell where
  field : Field
  more : Bool
  rest : List UInt8

def Cell.prepend (b : UInt8) (cell : Cell) : Cell := { cell with field := b :: cell.field }

def readPlain : List UInt8 → Except ReadError Cell
  | [] => .ok ⟨[], false, []⟩
  | b :: rest =>
    if b = comma then .ok ⟨[], true, rest⟩
    else if b = lf then .ok ⟨[], false, rest⟩
    else if b = quote then .error .bareQuote
    else (readPlain rest).map (Cell.prepend b)

def readQuoted : List UInt8 → Except ReadError Cell
  | [] => .error .quote
  | [b] => if b = quote then .ok ⟨[], false, []⟩ else .error .quote
  | b :: next :: rest =>
    if b = quote then
      if next = quote then (readQuoted rest).map (Cell.prepend quote)
      else if next = comma then .ok ⟨[], true, rest⟩
      else if next = lf then .ok ⟨[], false, rest⟩
      else .error .quote
    else (readQuoted (next :: rest)).map (Cell.prepend b)

def readField (text : List UInt8) : Except ReadError Cell :=
  match text with
  | [] => readPlain []
  | b :: rest => if b = quote then readQuoted rest else readPlain (b :: rest)

/-- Every field but the last takes its comma, so the length of the text is enough fuel. -/
def readFields : Nat → List UInt8 → Except ReadError (List Field × List UInt8)
  | 0, text => (readField text).map fun cell => ([cell.field], cell.rest)
  | fuel + 1, text =>
    match readField text with
    | .error err => .error err
    | .ok cell =>
      if cell.more then
        (readFields fuel cell.rest).map fun others => (cell.field :: others.1, others.2)
      else .ok ([cell.field], cell.rest)

/-- `width` is the number of fields of the first record. -/
def readRecords : Nat → Option Nat → List UInt8 → Except ReadError (List (List Field))
  | _, _, [] => .ok []
  | 0, _, _ :: _ => .ok []
  | fuel + 1, width, b :: text =>
    if b = lf then readRecords fuel width text
    else
      match readFields (b :: text).length (b :: text) with
      | .error err => .error err
      | .ok (fields, rest) =>
        if fields.length = width.getD fields.length then
          (readRecords fuel (some fields.length) rest).map (fields :: ·)
        else .error .fieldCount

def readAll (text : List UInt8) : Except ReadError (List (List Field)) :=
  let text := unixLines (trimReturn text)
  readRecords text.length none text

/-! ## Lines -/

variable {b : UInt8}

theorem unixLines_cons_of_ne (other : b ≠ cr) (rest : List UInt8) :
    unixLines (b :: rest) = b :: unixLines rest := by
  simp [unixLines, other]

variable {text : List UInt8}

theorem unixLines_append_of_plain (plain : cr ∉ text) (rest : List UInt8) :
    unixLines (text ++ rest) = text ++ unixLines rest := by
  induction text with
  | nil => rfl
  | cons _ _ ih =>
    rw [mem_cons, not_or] at plain
    rw [cons_append, unixLines_cons_of_ne (Ne.symm plain.1), ih plain.2, cons_append]

theorem unixLines_of_plain (plain : cr ∉ text) : unixLines text = text := by
  have whole := unixLines_append_of_plain plain []
  simpa [unixLines] using whole

@[simp] theorem escape_nil : escape [] = [] := rfl

theorem escape_quote (field : Field) : escape (quote :: field) = quote :: quote :: escape field :=
  rfl

theorem escape_cons_of_ne (other : b ≠ quote) (field : Field) :
    escape (b :: field) = b :: escape field := by
  simp [escape, other]

/-- Doubled quotes do not come between a carriage return and its newline. -/
theorem unixLines_escape (field : Field) (rest : List UInt8) :
    unixLines (escape field ++ quote :: rest) =
      escape (unixLines field) ++ quote :: unixLines rest := by
  induction field with
  | nil => exact unixLines_cons_of_ne (by decide) rest
  | cons b field ih =>
    have head : (escape field ++ quote :: rest).head? = some lf ↔ field.head? = some lf := by
      cases field with
      | nil => simp [quote, lf]
      | cons c =>
        by_cases quoted : c = quote
        · rw [quoted, escape_quote]
          simp [quote, lf]
        · simp [escape_cons_of_ne quoted]
    by_cases quoted : b = quote
    · subst quoted
      rw [escape_quote, cons_append, cons_append, unixLines_cons_of_ne (by decide),
        unixLines_cons_of_ne (by decide), unixLines_cons_of_ne (by decide), escape_quote, ih]
      rfl
    · rw [escape_cons_of_ne quoted, cons_append, unixLines, unixLines]
      simp only [head]
      split
      · exact ih
      · rw [ih, escape_cons_of_ne quoted]
        rfl

/-! ## One field -/

variable {field : Field}

section
variable (startsWithSpace : Field → Bool)

/-- A written field as the reader sees it. -/
def shown (field : Field) : List UInt8 :=
  if needsQuotes startsWithSpace field then quote :: (escape (unixLines field) ++ [quote])
  else field

variable {startsWithSpace}

theorem plain_of_unquoted (plain : ¬ needsQuotes startsWithSpace field = true) :
    ∀ b ∈ field, isSpecial b = false := by
  intro b member
  have some : field ≠ [] := ne_nil_of_mem member
  simp only [needsQuotes, some, ne_eq, not_false_eq_true, decide_true, Bool.true_and,
    Bool.or_eq_true, any_eq_true, not_or, not_exists, not_and, Bool.not_eq_true] at plain
  exact plain.1.2 b member

theorem unixLines_writeField (field : Field) (rest : List UInt8) :
    unixLines (writeField startsWithSpace field ++ rest) =
      shown startsWithSpace field ++ unixLines rest := by
  unfold writeField shown
  by_cases quoted : needsQuotes startsWithSpace field = true
  · rw [if_pos quoted, if_pos quoted]
    rw [cons_append, append_assoc, unixLines_cons_of_ne (by decide),
      singleton_append, unixLines_escape]
    simp
  · rw [if_neg quoted, if_neg quoted]
    apply unixLines_append_of_plain
    intro member
    have plain := plain_of_unquoted quoted cr member
    revert plain
    decide

variable {separator : UInt8}

theorem readPlain_append (plain : ∀ b ∈ field, isSpecial b = false)
    (ends : separator = comma ∨ separator = lf) (rest : List UInt8) :
    readPlain (field ++ separator :: rest) = .ok ⟨field, separator = comma, rest⟩ := by
  induction field with
  | nil => rcases ends with rfl | rfl <;> simp [readPlain, comma, lf]
  | cons _ _ ih =>
    rw [forall_mem_cons] at plain
    obtain ⟨here, later⟩ := plain
    simp only [isSpecial, Bool.or_eq_false_iff, decide_eq_false_iff_not] at here
    rw [cons_append, readPlain, if_neg here.2, if_neg here.1.1.1, if_neg here.1.2, ih later]
    rfl

theorem readQuoted_cons_of_ne (other : b ≠ quote) (some : text ≠ []) :
    readQuoted (b :: text) = (readQuoted text).map (Cell.prepend b) := by
  cases text with
  | nil => contradiction
  | cons => rw [readQuoted, if_neg other]

theorem readQuoted_escape (field : Field) (ends : separator = comma ∨ separator = lf)
    (rest : List UInt8) :
    readQuoted (escape field ++ quote :: separator :: rest) =
      .ok ⟨field, separator = comma, rest⟩ := by
  induction field with
  | nil => rcases ends with rfl | rfl <;> simp [readQuoted, comma, lf, quote]
  | cons b _ ih =>
    by_cases quoted : b = quote
    · subst quoted
      rw [escape_quote, cons_append, cons_append, readQuoted, if_pos rfl, if_pos rfl, ih]
      rfl
    · rw [escape_cons_of_ne quoted, cons_append, readQuoted_cons_of_ne quoted (by simp), ih]
      rfl

theorem readField_shown (field : Field) (ends : separator = comma ∨ separator = lf)
    (rest : List UInt8) :
    readField (shown startsWithSpace field ++ separator :: rest) =
      .ok ⟨unixLines field, separator = comma, rest⟩ := by
  unfold shown
  by_cases quoted : needsQuotes startsWithSpace field = true
  · rw [if_pos quoted, cons_append, append_assoc, readField, if_pos rfl]
    exact readQuoted_escape (unixLines field) ends rest
  · have plain := plain_of_unquoted quoted
    have noReturn : cr ∉ field := fun member => absurd (plain cr member) (by decide)
    have noQuote : ∀ b tail, field ++ separator :: rest = b :: tail → b ≠ quote := by
      rintro b tail start rfl
      cases field with
      | nil =>
        cases start
        rcases ends with same | same <;> exact absurd same (by decide)
      | cons =>
        cases start
        exact absurd (plain quote (mem_cons_self ..)) (by decide)
    rw [if_neg quoted, unixLines_of_plain noReturn, ← readPlain_append plain ends rest]
    unfold readField
    split
    · rename_i empty
      simp at empty
    · rename_i b tail start
      rw [if_neg (noQuote b tail start), start]

end

/-! ## Records -/

variable {width : Nat}

section
variable {startsWithSpace : Field → Bool}

def showFields (startsWithSpace : Field → Bool) : List Field → List UInt8
  | [] => []
  | [field] => shown startsWithSpace field
  | field :: next :: rest =>
    shown startsWithSpace field ++ comma :: showFields startsWithSpace (next :: rest)

theorem unixLines_writeFields (fields : List Field) (rest : List UInt8) :
    unixLines (writeFields startsWithSpace fields ++ lf :: rest) =
      showFields startsWithSpace fields ++ lf :: unixLines rest := by
  fun_induction writeFields startsWithSpace fields with
  | case1 => exact unixLines_cons_of_ne (by decide) rest
  | case2 => rw [unixLines_writeField, unixLines_cons_of_ne (by decide), showFields]
  | case3 _ _ _ ih =>
    rw [append_assoc, unixLines_writeField, cons_append,
      unixLines_cons_of_ne (by decide), ih, showFields]
    simp

variable (startsWithSpace) in
theorem length_le_showFields (fields : List Field) :
    fields.length ≤ (showFields startsWithSpace fields).length + 1 := by
  fun_induction showFields startsWithSpace fields with
  | case1 | case2 => simp
  | case3 _ _ _ ih =>
    simp only [length_cons, length_append] at ih ⊢
    omega

variable {fields : List Field}

variable (startsWithSpace) in
theorem readFields_showFields (filled : fields ≠ []) {fuel : Nat}
    (enough : fields.length ≤ fuel + 1) (rest : List UInt8) :
    readFields fuel (showFields startsWithSpace fields ++ lf :: rest) =
      .ok (fields.map unixLines, rest) := by
  induction fields generalizing fuel with
  | nil => contradiction
  | cons field others ih =>
    cases others with
    | nil =>
      have cell : readField (shown startsWithSpace field ++ lf :: rest) =
          .ok ⟨unixLines field, false, rest⟩ := readField_shown field (.inr rfl) rest
      cases fuel with
      | zero | succ =>
        rw [showFields, readFields, cell]
        rfl
    | cons =>
      cases fuel with
      | zero => simp at enough
      | succ =>
        have later := ih (by simp) (Nat.le_of_succ_le_succ enough)
        rw [showFields, append_assoc, cons_append, readFields,
          readField_shown field (.inl rfl) _]
        simp only [decide_true, if_true, later]
        rfl

theorem shown_head (filled : field ≠ []) :
    ∃ b tail, shown startsWithSpace field = b :: tail ∧ b ≠ lf := by
  unfold shown
  by_cases quoted : needsQuotes startsWithSpace field = true
  · rw [if_pos quoted]
    exact ⟨quote, _, rfl, by decide⟩
  · rw [if_neg quoted]
    obtain ⟨b, tail, rfl⟩ := exists_cons_of_ne_nil filled
    refine ⟨b, tail, rfl, ?_⟩
    rintro rfl
    exact absurd (plain_of_unquoted quoted lf (mem_cons_self ..)) (by decide)

theorem shown_nil : shown startsWithSpace [] = [] := rfl

variable (startsWithSpace) in
/-- Only a record of one empty field is shown as an empty line. -/
theorem showFields_head (filled : fields ≠ []) (visible : fields ≠ [[]]) (rest : List UInt8) :
    ∃ b tail, showFields startsWithSpace fields ++ lf :: rest = b :: tail ∧ b ≠ lf := by
  obtain ⟨field, others, rfl⟩ := exists_cons_of_ne_nil filled
  cases others with
  | nil =>
    have visible : field ≠ [] := fun empty => visible (by rw [empty])
    obtain ⟨b, tail, start, other⟩ := shown_head visible
    exact ⟨b, tail ++ lf :: rest, by rw [showFields, start]; rfl, other⟩
  | cons =>
    by_cases empty : field = []
    · subst empty
      exact ⟨comma, _, rfl, by decide⟩
    · obtain ⟨b, tail, start, other⟩ := shown_head empty
      exact ⟨b, _, by rw [showFields, start]; rfl, other⟩

theorem readRecords_write (positive : 0 < width) (records : List (List Field))
    (widths : ∀ record ∈ records, record.length = width) (fuel : Nat) (first : Option Nat)
    (expected : first.getD width = width)
    (enough : (unixLines (write startsWithSpace records)).length ≤ fuel) :
    readRecords fuel first (unixLines (write startsWithSpace records)) =
      .ok ((records.filter (· ≠ [[]])).map (map unixLines)) := by
  induction records generalizing fuel first with
  | nil => cases fuel <;> rfl
  | cons record records ih =>
    obtain ⟨own, others⟩ := forall_mem_cons.mp widths
    have filled : record ≠ [] := by
      rintro rfl
      exact absurd own (Nat.ne_of_lt positive)
    have text : unixLines (write startsWithSpace (record :: records)) =
        showFields startsWithSpace record ++ lf :: unixLines (write startsWithSpace records) := by
      rw [← unixLines_writeFields]
      simp [write, writeRecord]
    rw [text] at enough ⊢
    have shorter : (unixLines (write startsWithSpace records)).length + 1 ≤ fuel := by
      simp only [length_append, length_cons] at enough
      omega
    obtain ⟨fuel, rfl⟩ := Nat.exists_eq_add_of_le' (Nat.le_of_add_left_le shorter)
    by_cases blank : record = [[]]
    · subst blank
      have skipped := ih others fuel first expected (Nat.le_of_succ_le_succ shorter)
      rw [showFields, shown_nil, nil_append, readRecords, if_pos rfl, skipped]
      rfl
    · generalize unixLines (write startsWithSpace records) = rest at *
      have few : record.length ≤ (showFields startsWithSpace record ++ lf :: rest).length + 1 := by
        have fields := length_le_showFields startsWithSpace record
        simp only [length_append, length_cons]
        omega
      have fields := readFields_showFields startsWithSpace filled few rest
      have further := ih others fuel (some width) rfl (Nat.le_of_succ_le_succ shorter)
      obtain ⟨_, _, start, other⟩ := showFields_head startsWithSpace filled blank rest
      rw [start] at fields ⊢
      rw [readRecords, if_neg other, fields]
      simp only [length_map, own, expected, if_true, further]
      rw [filter_cons_of_pos (by simpa using blank)]
      rfl

end

theorem trimReturn_write (startsWithSpace : Field → Bool) (records : List (List Field)) :
    trimReturn (write startsWithSpace records) = write startsWithSpace records := by
  rcases eq_nil_or_concat' records with rfl | ⟨earlier, last, rfl⟩
  · rfl
  · have ending : (write startsWithSpace (earlier ++ [last])).getLast? = some lf := by
      simp [write, writeRecord]
    rw [trimReturn, ending, if_neg (by decide)]

/-- A text that was written reads as its records, but for those of one empty field. -/
theorem readAll_write (startsWithSpace : Field → Bool) (positive : 0 < width)
    (records : List (List Field)) (widths : ∀ record ∈ records, record.length = width) :
    readAll (write startsWithSpace records) =
      .ok ((records.filter (· ≠ [[]])).map (map unixLines)) := by
  rw [readAll, trimReturn_write]
  exact readRecords_write positive records widths _ none rfl (Nat.le_refl _)

end Csv
