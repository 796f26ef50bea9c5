import DbBridge.Lib.Utf8

/-!
# The read-only statement guard

`scan` and `ReadOnly` of `internal/sqlguard`, over the rune sequence of the
statement; a position in the source is here the suffix that starts at it. Go's
rune classification enters through `UnicodeTables`, of which only the ASCII part
is fixed.
-/

namespace DbBridge.SqlGuard

/-- `unicode.IsLetter`, `IsDigit`, `IsSpace` and `ToUpper`. On ASCII they are
what Go documents; beyond it nothing is assumed. -/
structure UnicodeTables where
  isLetter : Char → Bool
  isDigit : Char → Bool
  isSpace : Char → Bool
  toUpper : Char → Char
  isLetter_ascii : ∀ c : Char, c.toNat < 128 → isLetter c = c.isAlpha
  isDigit_ascii : ∀ c : Char, c.toNat < 128 → isDigit c = c.isDigit
  isSpace_ascii : ∀ c : Char, c.toNat < 128 →
    isSpace c = (c ∈ [' ', '\t', '\n', '\x0b', '\x0c', '\r'] : Bool)
  toUpper_ascii : ∀ c : Char, c.toNat < 128 → toUpper c = c.toUpper

def asciiTables : UnicodeTables where
  isLetter := Char.isAlpha
  isDigit := Char.isDigit
  isSpace := fun c => (c ∈ [' ', '\t', '\n', '\x0b', '\x0c', '\r'] : Bool)
  toUpper := Char.toUpper
  isLetter_ascii := fun _ _ => rfl
  isDigit_ascii := fun _ _ => rfl
  isSpace_ascii := fun _ _ => rfl
  toUpper_ascii := fun _ _ => rfl

def writeKeywords : List (List Char) :=
  ["ALTER", "ANALYZE", "ATTACH", "BEGIN", "CALL", "COMMIT", "COPY", "CREATE",
    "DEALLOCATE", "DELETE", "DETACH", "DO", "DROP", "EXEC", "EXECUTE", "GRANT",
    "HANDLER", "IMPORT", "INSERT", "INTO", "KILL", "LOAD", "LOCK", "MERGE",
    "OPTIMIZE", "PREPARE", "RENAME", "REPLACE", "REVOKE", "ROLLBACK", "SAVEPOINT",
    "SET", "START", "SYSTEM", "TRUNCATE", "UPDATE", "UPSERT", "USE", "VACUUM"].map
    String.toList

def readVerbs : List (List Char) :=
  ["SELECT", "WITH", "SHOW", "EXPLAIN", "DESC", "DESCRIBE", "TABLE", "VALUES"].map
    String.toList

/-! ## Skipping -/

/-- The loop of the line-comment branch: up to, not past, the newline. -/
def skipLine : List Char → List Char
  | [] => []
  | c :: rest => if c = '\n' then c :: rest else skipLine rest

def skipBlock : Nat → List Char → List Char
  | 0, rest => rest
  | _ + 1, [] => []
  | _ + 1, [_] => []
  | depth + 1, c :: d :: rest =>
    if c = '/' ∧ d = '*' then skipBlock (depth + 2) rest
    else if c = '*' ∧ d = '/' then skipBlock depth rest
    else skipBlock (depth + 1) (d :: rest)

/-- `skipQuoted`, entered just past the opening quote. -/
def skipQuoted (quote : Char) : List Char → List Char
  | [] => []
  | [_] => []
  | c :: d :: rest =>
    if c = '\\' ∧ quote = '\'' then skipQuoted quote rest
    else if c = quote then
      if d = quote then skipQuoted quote rest else d :: rest
    else skipQuoted quote (d :: rest)

section
variable (tables : UnicodeTables)

/-- `unicode.IsLetter(c) || unicode.IsDigit(c) || c == '_'`. -/
def isWordRune (c : Char) : Bool :=
  tables.isLetter c || tables.isDigit c || c = '_'

/-- `dollarTag` at a dollar sign: the tag with both its dollars, and what follows
the opener. The argument is the text after the first dollar. -/
def dollarTag (rest : List Char) : Option (List Char × List Char) :=
  match rest.dropWhile (isWordRune tables) with
  | '$' :: after => some ('$' :: rest.takeWhile (isWordRune tables) ++ ['$'], after)
  | _ => none

/-- `skipDollarQuoted`: a search in the UTF-8 bytes, whose result is turned back
into a number of runes. -/
def skipDollarQuoted (tag rest : List Char) : List Char :=
  match Utf8.firstIndex (Utf8.encode tag) (Utf8.encode rest) with
  | some index =>
    rest.drop (Utf8.runeCount ((Utf8.encode rest).take index) +
      Utf8.runeCount (Utf8.encode tag))
  | none => []

/-- `dollarTag` at position `i`: the tag as a string and the index just past the opener. That
there is a dollar sign at `i` is for the caller to see. -/
def dollarTagAt (src : List Char) (i : Nat) : Option (List UInt8 × Nat) :=
  let j := i + 1 + ((src.drop (i + 1)).takeWhile (isWordRune tables)).length
  if src[j]? = some '$' then some (Utf8.encode ((src.take (j + 1)).drop i), j + 1) else none

/-- `skipDollarQuoted` by positions; `drop_skipDollarQuotedAt` says that it is the same. -/
def skipDollarQuotedAt (src : List Char) (i : Nat) (tag : List UInt8) : Nat :=
  let rest := Utf8.encode (src.drop i)
  match Utf8.firstIndex tag rest with
  | some idx => i + Utf8.runeCount (rest.take idx) + Utf8.runeCount tag
  | none => src.length

/-! ## The scanner -/

structure ScanState where
  words : List (List Char) := []
  word : List Char := []
  statements : Nat := 0
  pending : Bool := false

def ScanState.flush (state : ScanState) : ScanState :=
  if state.word = [] then state
  else { state with words := state.words ++ [state.word], word := [] }

/-- The `;` branch after its flush, and the end of the input. -/
def ScanState.endStatement (state : ScanState) : ScanState :=
  if state.pending then
    { state with statements := state.statements + 1, pending := false }
  else state

/-- One round of the scanner's loop at rune `c`: the new variables and the
position reached. -/
def scanStep (state : ScanState) (c : Char) (rest : List Char) :
    ScanState × List Char :=
  if (c = '-' ∧ rest.head? = some '-') ∨ c = '#' then
    (state.flush, skipLine (c :: rest))
  else if c = '/' ∧ rest.head? = some '*' then
    (state.flush, skipBlock 1 rest.tail)
  else if c = '$' then
    match dollarTag tables rest with
    | some (tag, after) =>
      ({ state.flush with pending := true }, skipDollarQuoted tag after)
    | none => ({ state with word := state.word ++ [c] }, rest)
  else if c = '\'' ∨ c = '"' ∨ c = '`' then
    ({ state.flush with pending := true }, skipQuoted c rest)
  else if c = ';' then (state.flush.endStatement, rest)
  else if isWordRune tables c then
    ({ state with word := state.word ++ [c], pending := true }, rest)
  else
    ({ state.flush with pending := state.pending || !tables.isSpace c }, rest)

/-- The loop; every round consumes a rune, so the input's length is enough fuel. -/
def scanLoop : Nat → ScanState → List Char → ScanState
  | _, state, [] => state
  | 0, state, _ :: _ => state
  | fuel + 1, state, c :: rest =>
    scanLoop fuel (scanStep tables state c rest).1 (scanStep tables state c rest).2

/-- `scan`: the bare words and the number of statements. -/
def scan (sql : List Char) : List (List Char) × Nat :=
  let final := (scanLoop tables sql.length {} sql).flush.endStatement
  (final.words, final.statements)

def toUpper (word : List Char) : List Char := word.map tables.toUpper

/-- `ReadOnly`: the reason for rejection, `none` when the statement is accepted. -/
def readOnly (sql : List Char) : Option String :=
  match scan tables sql with
  | ([], _) => some "statement is empty"
  | (verb :: words, statements) =>
    if statements > 1 then some "multiple statements are not allowed"
    else if ¬ toUpper tables verb ∈ readVerbs then
      some ("only read-only statements are allowed, got " ++
        String.ofList (toUpper tables verb))
    else
      match (verb :: words).find? fun word => toUpper tables word ∈ writeKeywords with
      | some word =>
        some ("only read-only statements are allowed, found " ++
          String.ofList (toUpper tables word))
      | none => none

end

/-! ## What the scanner leaves of its input -/

theorem skipLine_suffix (text : List Char) : skipLine text <:+ text := by
  induction text with
  | nil => exact List.suffix_refl _
  | cons c rest ih =>
    simp only [skipLine]
    split
    · exact List.suffix_refl _
    · exact ih.trans (List.suffix_cons c rest)

theorem skipBlock_suffix (depth : Nat) (text : List Char) : skipBlock depth text <:+ text := by
  fun_induction skipBlock depth text with
  | case1 | case2 => exact List.suffix_refl _
  | case3 => exact List.nil_suffix
  | case4 _ c d rest _ ih | case5 _ c d rest _ _ ih =>
    exact ih.trans ((List.suffix_cons d rest).trans (List.suffix_cons c _))
  | case6 _ c _ _ _ _ ih => exact ih.trans (List.suffix_cons c _)

theorem skipQuoted_suffix (quote : Char) (text : List Char) : skipQuoted quote text <:+ text := by
  fun_induction skipQuoted quote text with
  | case1 => exact List.suffix_refl _
  | case2 => exact List.nil_suffix
  | case3 c d rest _ ih =>
    exact ih.trans ((List.suffix_cons d rest).trans (List.suffix_cons c _))
  | case4 rest _ ih =>
    exact ih.trans ((List.suffix_cons quote rest).trans (List.suffix_cons quote _))
  | case5 => exact List.suffix_cons quote _
  | case6 c _ _ _ _ ih => exact ih.trans (List.suffix_cons c _)

/-! ## Dollar quotes by positions -/

section
variable {tables : UnicodeTables}

theorem drop_skipDollarQuotedAt (src : List Char) (i : Nat) (tag : List Char) :
    src.drop (skipDollarQuotedAt src i (Utf8.encode tag)) = skipDollarQuoted tag (src.drop i) := by
  simp only [skipDollarQuotedAt, skipDollarQuoted]
  cases Utf8.firstIndex (Utf8.encode tag) (Utf8.encode (src.drop i)) with
  | none => exact List.drop_length
  | some => simp only [List.drop_drop, Nat.add_assoc]

variable {src : List Char} {i : Nat}

/-- At a dollar sign the opener is found by its position as in the text after it. -/
theorem dollarTagAt_eq (dollar : src[i]? = some '$') :
    (dollarTagAt tables src i).map (fun opened => (opened.1, src.drop opened.2)) =
      (dollarTag tables (src.drop (i + 1))).map fun opened => (Utf8.encode opened.1, opened.2) := by
  obtain ⟨before, rest, rfl, rfl⟩ : ∃ before rest, src = before ++ '$' :: rest ∧
      before.length = i := by
    obtain ⟨inside, here⟩ := List.getElem?_eq_some_iff.mp dollar
    refine ⟨src.take i, src.drop (i + 1), ?_, List.length_take_of_le inside.le⟩
    rw [← here, ← List.drop_eq_getElem_cons inside, List.take_append_drop]
  have split := rest.takeWhile_append_dropWhile (p := isWordRune tables)
  simp only [dollarTagAt, dollarTag, List.drop_length_add_append, List.drop_succ_cons,
    List.drop_zero]
  generalize rest.takeWhile (isWordRune tables) = word at split ⊢
  generalize rest.dropWhile (isWordRune tables) = after at split ⊢
  subst split
  have here : (before ++ '$' :: (word ++ after))[before.length + 1 + word.length]? = after.head? := by
    rw [Nat.add_assoc, List.getElem?_append_right (Nat.le_add_right _ _), Nat.add_sub_cancel_left,
      Nat.add_comm 1, List.getElem?_cons_succ, List.getElem?_append_right le_rfl, Nat.sub_self,
      List.head?_eq_getElem?]
  rw [here]
  by_cases opens : after.head? = some '$'
  · obtain ⟨tail, rfl⟩ := List.head?_eq_some_iff.mp opens
    have upTo : before.length + 1 + word.length + 1 = (before ++ '$' :: word ++ ['$']).length := by
      simp only [List.length_append, List.length_cons, List.length_nil]
      omega
    have whole : before ++ '$' :: (word ++ '$' :: tail) =
        (before ++ '$' :: word ++ ['$']) ++ tail := by simp
    rw [if_pos opens, upTo, whole, List.take_left]
    simp
  · rw [if_neg opens]
    split
    · exact absurd rfl opens
    · rfl

variable {tag : List UInt8}

theorem dollarTagAt_eq_some {stop : Nat} (opened : dollarTagAt tables src i = some (tag, stop)) :
    i < stop ∧ stop ≤ src.length ∧ tag = Utf8.encode ((src.take stop).drop i) := by
  simp only [dollarTagAt] at opened
  split at opened <;> cases opened
  rename_i dollar
  obtain ⟨inside, -⟩ := List.getElem?_eq_some_iff.mp dollar
  exact ⟨by omega, inside, rfl⟩

/-- The search in the bytes is one in the characters. -/
theorem skipDollarQuotedAt_chars (src : List Char) (i : Nat) (head : Char) (tag : List Char) :
    skipDollarQuotedAt src i (Utf8.encode (head :: tag)) =
      match Utf8.firstIndex (head :: tag) (src.drop i) with
      | some k => i + k + (head :: tag).length
      | none => src.length := by
  simp only [skipDollarQuotedAt, Utf8.firstIndex_encode]
  cases found : Utf8.firstIndex (head :: tag) (src.drop i) with
  | none => rfl
  | some k =>
    have inside := (Utf8.firstIndex_occurs found).1
    have bytes : (Utf8.encode (src.drop i)).take (Utf8.encode ((src.drop i).take k)).length =
        Utf8.encode ((src.drop i).take k) := by
      have split := Utf8.encode_append ((src.drop i).take k) ((src.drop i).drop k)
      rw [List.take_append_drop] at split
      rw [split, List.take_left]
    simp only [Option.map_some, bytes, Utf8.runeCount_encode, List.length_take_of_le inside]

theorem skipDollarQuoted_chars (tag text : List Char) :
    skipDollarQuoted ('$' :: tag) text =
      match Utf8.firstIndex ('$' :: tag) text with
      | some index => text.drop (index + ('$' :: tag).length)
      | none => [] := by
  have skipped := drop_skipDollarQuotedAt text 0 ('$' :: tag)
  rw [skipDollarQuotedAt_chars, List.drop_zero] at skipped
  rw [← skipped]
  cases Utf8.firstIndex ('$' :: tag) text with
  | none => exact List.drop_length
  | some => simp only [Nat.zero_add]

/-- The skip ends just past the first occurrence of the tag's runes, or at the end of the text
where there is none, and the byte search behind it stops only between two runes. -/
theorem skipDollarQuoted_lands {stop : Nat} (opened : dollarTagAt tables src i = some (tag, stop)) :
    (∀ k, Utf8.lossy tag <+: (src.drop stop).drop k →
      (∀ earlier < k, ¬ Utf8.lossy tag <+: (src.drop stop).drop earlier) →
        skipDollarQuotedAt src stop tag = stop + k + (Utf8.lossy tag).length) ∧
      ((∀ k, ¬ Utf8.lossy tag <+: (src.drop stop).drop k) →
        skipDollarQuotedAt src stop tag = src.length) ∧
      stop ≤ skipDollarQuotedAt src stop tag ∧ skipDollarQuotedAt src stop tag ≤ src.length ∧
      ∀ idx, Utf8.firstIndex tag (Utf8.encode (src.drop stop)) = some idx →
        ∃ k ≤ (src.drop stop).length, idx = (Utf8.encode ((src.drop stop).take k)).length := by
  obtain ⟨_, ends, rfl⟩ := dollarTagAt_eq_some opened
  obtain ⟨head, rest, runes⟩ : ∃ head rest, (src.take stop).drop i = head :: rest := by
    apply List.exists_cons_of_length_pos
    rw [List.length_drop, List.length_take_of_le ends]
    omega
  rw [runes, Utf8.lossy_encode, skipDollarQuotedAt_chars, Utf8.firstIndex_encode]
  have length : (src.drop stop).length = src.length - stop := List.length_drop
  cases found : Utf8.firstIndex (head :: rest) (src.drop stop) with
  | none =>
    refine ⟨fun k here first => ?_, fun _ => rfl, ends, le_rfl, nofun⟩
    rw [Utf8.firstIndex_of_first (List.cons_ne_nil _ _) here first] at found
    contradiction
  | some k =>
    obtain ⟨inside, occurs⟩ := Utf8.firstIndex_occurs found
    have fits := Utf8.firstIndex_le found
    refine ⟨fun k' here first => ?_, fun absent => absurd occurs (absent k), by grind, by grind,
      fun idx stops => ⟨k, inside, (Option.some.inj stops).symm⟩⟩
    rw [Utf8.firstIndex_of_first (List.cons_ne_nil _ _) here first] at found
    cases found
    rfl

theorem wide_opener_skipped :
    dollarTagAt asciiTables "é$ab é$c".toList 0 = some (Utf8.encode "é$".toList, 2) ∧
      skipDollarQuotedAt "é$ab é$c".toList 2 (Utf8.encode "é$".toList) = 7 := by
  have opened : dollarTagAt asciiTables "é$ab é$c".toList 0 = some (Utf8.encode "é$".toList, 2) := by
    decide
  have lands := (skipDollarQuoted_lands opened).1 3
  rw [Utf8.lossy_encode] at lands
  exact ⟨opened, lands (by decide) (by decide)⟩

end

section
variable (tables : UnicodeTables)

theorem skipDollarQuoted_suffix (tag text : List Char) : skipDollarQuoted tag text <:+ text := by
  unfold skipDollarQuoted
  split
  · exact List.drop_suffix _ _
  · exact List.nil_suffix

theorem dollarTag_suffix {rest tag after : List Char}
    (opened : dollarTag tables rest = some (tag, after)) : after <:+ rest := by
  unfold dollarTag at opened
  split at opened <;> cases opened
  rename_i tail found
  have dropped := List.dropWhile_suffix (l := rest) (isWordRune tables)
  rw [found] at dropped
  exact (List.suffix_cons '$' _).trans dropped

variable (state : ScanState)

theorem scanStep_suffix (c : Char) (rest : List Char) :
    (scanStep tables state c rest).2 <:+ rest := by
  unfold scanStep
  split
  · rename_i comment
    have plain : c ≠ '\n' := by
      rintro rfl
      simp at comment
    simp only [skipLine, if_neg plain]
    exact skipLine_suffix rest
  · split
    · exact (skipBlock_suffix 1 rest.tail).trans (List.tail_suffix rest)
    · split
      · split
        · rename_i tag after opened
          exact (skipDollarQuoted_suffix tag after).trans (dollarTag_suffix tables opened)
        · exact List.suffix_refl _
      · split
        · exact skipQuoted_suffix c rest
        · split
          · exact List.suffix_refl _
          · split <;> exact List.suffix_refl _

def scanFrom (state : ScanState) (text : List Char) : ScanState :=
  scanLoop tables text.length state text

theorem scanLoop_fuel (text : List Char) (fuel : Nat) (enough : text.length ≤ fuel) :
    scanLoop tables fuel state text = scanFrom tables state text := by
  -- both sides make the same rounds, so induct on the fuel of one for any fuel of the other
  have agree : ∀ (first second : Nat) (state : ScanState) (text : List Char),
      text.length ≤ first → text.length ≤ second →
        scanLoop tables first state text = scanLoop tables second state text := by
    intro first
    induction first with
    | zero =>
      intro second state text small _
      cases text with
      | nil => simp [scanLoop]
      | cons => simp at small
    | succ _ ih =>
      intro second state text enough₁ enough₂
      cases text with
      | nil => simp [scanLoop]
      | cons c rest =>
        cases second with
        | zero => simp at enough₂
        | succ second =>
          have shorter := (scanStep_suffix tables state c rest).length_le
          simp only [List.length_cons, Nat.add_le_add_iff_right] at enough₁ enough₂
          exact ih second _ _ (shorter.trans enough₁) (shorter.trans enough₂)
  exact agree fuel text.length state text enough le_rfl

@[simp] theorem scanFrom_nil : scanFrom tables state [] = state := rfl

theorem scanFrom_cons (c : Char) (rest : List Char) :
    scanFrom tables state (c :: rest) =
      scanFrom tables (scanStep tables state c rest).1 (scanStep tables state c rest).2 :=
  scanLoop_fuel tables _ _ rest.length (scanStep_suffix tables state c rest).length_le

variable {c : Char}

theorem isWordRune_special (special : c ∈ ['-', '#', '/', '$', '\'', '"', '`', ';']) :
    isWordRune tables c = false := by
  simp only [List.mem_cons, List.not_mem_nil, or_false] at special
  rcases special with rfl | rfl | rfl | rfl | rfl | rfl | rfl | rfl <;>
    rw [isWordRune, tables.isLetter_ascii _ (by decide), tables.isDigit_ascii _ (by decide)] <;>
    decide

theorem scanStep_word (rest : List Char) (word : isWordRune tables c = true) :
    scanStep tables state c rest =
      ({ state with word := state.word ++ [c], pending := true }, rest) := by
  have plain : c ∉ ['-', '#', '/', '$', '\'', '"', '`', ';'] := by
    intro special
    rw [isWordRune_special tables special] at word
    contradiction
  simp only [List.mem_cons, List.not_mem_nil, or_false, not_or] at plain
  simp [scanStep, plain, word]

end

end DbBridge.SqlGuard
