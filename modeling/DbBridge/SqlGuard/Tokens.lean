import DbBridge.SqlGuard.Lexer

/-!
# The tokens of the guard

The segmentation that `scan` documents: comments, quoted and dollar-quoted tokens,
semicolons, words and single other characters, from left to right. An unclosed token
extends to the end of the text and is marked. `scan_eq` says that
the scanner's loop, with its word buffer and its flag, returns the words of the segmentation
and the number of its statements.
-/

namespace DbBridge.SqlGuard.Grammar

/-! ## Closing delimiters -/

/-- The newline that ends a line comment is not part of it. -/
def closeLine (text : List Char) : Option (List Char) :=
  match text.dropWhile (· ≠ '\n') with
  | [] => none
  | newline :: rest => some (newline :: rest)

def closeBlock : Nat → List Char → Option (List Char)
  | 0, rest => some rest
  | _ + 1, [] => none
  | _ + 1, [_] => none
  | depth + 1, c :: d :: rest =>
    if c = '/' ∧ d = '*' then closeBlock (depth + 2) rest
    else if c = '*' ∧ d = '/' then closeBlock depth rest
    else closeBlock (depth + 1) (d :: rest)

/-- The text after a quoted token, from inside it: a doubled quote stands for itself, and in
single quotes a backslash escapes what follows. -/
def closeQuoted (quote : Char) : List Char → Option (List Char)
  | [] => none
  | [c] => if c = quote then some [] else none
  | c :: d :: rest =>
    if c = '\\' ∧ quote = '\'' then closeQuoted quote rest
    else if c = quote then
      if d = quote then closeQuoted quote rest else some (d :: rest)
    else closeQuoted quote (d :: rest)

def closeDollar (tag text : List Char) : Option (List Char) :=
  (Utf8.firstIndex tag text).map fun index => text.drop (index + tag.length)

/-! ### What the scanner skips is what they close -/

theorem skipLine_eq_close (text : List Char) : skipLine text = (closeLine text).getD [] := by
  rw [skipLine_eq, closeLine]
  cases text.dropWhile (· ≠ '\n') <;> rfl

theorem skipBlock_eq_close (depth : Nat) (text : List Char) :
    skipBlock depth text = (closeBlock depth text).getD [] := by
  fun_induction closeBlock depth text with
  | case1 | case2 | case3 => simp [skipBlock]
  | case4 _ _ _ _ opens ih => rw [skipBlock, if_pos opens, ih]
  | case5 _ _ _ _ opens closes ih => rw [skipBlock, if_neg opens, if_pos closes, ih]
  | case6 _ _ _ _ opens closes ih => rw [skipBlock, if_neg opens, if_neg closes, ih]

theorem skipQuoted_eq_close (quote : Char) (text : List Char) :
    skipQuoted quote text = (closeQuoted quote text).getD [] := by
  fun_induction closeQuoted quote text with
  | case1 | case2 | case3 => rfl
  | case4 _ _ _ escape ih => rw [skipQuoted, if_pos escape, ih]
  | case5 _ escape ih => rw [skipQuoted, if_neg escape, if_pos rfl, if_pos rfl, ih]
  | case6 _ _ escape single => rw [skipQuoted, if_neg escape, if_pos rfl, if_neg single]; rfl
  | case7 _ _ _ escape inside ih => rw [skipQuoted, if_neg escape, if_neg inside, ih]

theorem skipDollarQuoted_eq_close (tag text : List Char) :
    skipDollarQuoted ('$' :: tag) text = (closeDollar ('$' :: tag) text).getD [] := by
  rw [skipDollarQuoted_chars, closeDollar]
  cases Utf8.firstIndex ('$' :: tag) text <;> rfl

/-! ## Tokens -/

/-- `closed` says that the closing delimiter is there. -/
inductive Token where
  | line (closed : Bool)
  | block (closed : Bool)
  | quoted (closed : Bool)
  | dollar (closed : Bool)
  | semicolon
  | word (text : List Char)
  | other (c : Char)

def Token.word? : Token → Option (List Char)
  | word text => some text
  | _ => none

def Token.isSemicolon : Token → Bool
  | semicolon => true
  | _ => false

def Token.closed : Token → Bool
  | line closed | block closed | quoted closed | dollar closed => closed
  | _ => true

def closing (kind : Bool → Token) : Option (List Char) → Token × List Char
  | some rest => (kind true, rest)
  | none => (kind false, [])

section
variable (tables : UnicodeTables)

/-- A letter, a digit, an underscore, or a dollar sign that opens no dollar quote. -/
def inWord (c : Char) (rest : List Char) : Bool :=
  isWordRune tables c || (c = '$' && (dollarTag tables rest).isNone)

def wordRun : List Char → List Char × List Char
  | [] => ([], [])
  | c :: rest =>
    if inWord tables c rest then (c :: (wordRun rest).1, (wordRun rest).2) else ([], c :: rest)

def nextToken (c : Char) (rest : List Char) : Token × List Char :=
  if (c = '-' ∧ rest.head? = some '-') ∨ c = '#' then closing .line (closeLine rest)
  else if c = '/' ∧ rest.head? = some '*' then closing .block (closeBlock 1 rest.tail)
  else if c = '\'' ∨ c = '"' ∨ c = '`' then closing .quoted (closeQuoted c rest)
  else if c = ';' then (.semicolon, rest)
  else if inWord tables c rest then (.word (c :: (wordRun tables rest).1), (wordRun tables rest).2)
  else if c = '$' then
    match dollarTag tables rest with
    | some (tag, after) => closing .dollar (closeDollar tag after)
    | none => (.other c, rest)
  else (.other c, rest)

def tokensFrom : Nat → List Char → List Token
  | _, [] => []
  | 0, _ :: _ => []
  | fuel + 1, c :: rest => (nextToken tables c rest).1 :: tokensFrom fuel (nextToken tables c rest).2

def tokens (sql : List Char) : List Token := tokensFrom tables sql.length sql

end

/-! ## The segmentation, token by token -/

section
variable (tables : UnicodeTables)

@[simp] theorem closing_rest (kind : Bool → Token) (closed : Option (List Char)) :
    (closing kind closed).2 = closed.getD [] := by
  cases closed <;> rfl

theorem dollarTag_eq_some {rest tag after : List Char}
    (opened : dollarTag tables rest = some (tag, after)) :
    ∃ name, (∀ c ∈ name, isWordRune tables c = true) ∧ tag = '$' :: (name ++ ['$']) ∧
      rest = name ++ '$' :: after := by
  unfold dollarTag at opened
  split at opened <;> cases opened
  rename_i tail found
  refine ⟨rest.takeWhile (isWordRune tables), fun c => List.mem_takeWhile_imp, rfl, ?_⟩
  rw [← found, List.takeWhile_append_dropWhile]

theorem wordRun_suffix (rest : List Char) : (wordRun tables rest).2 <:+ rest := by
  induction rest with
  | nil => exact List.suffix_refl _
  | cons c rest ih =>
    simp only [wordRun]
    split
    · exact ih.trans (List.suffix_cons c rest)
    · exact List.suffix_refl _

theorem wordRun_stops (rest : List Char) :
    ∀ c after, (wordRun tables rest).2 = c :: after → inWord tables c after = false := by
  induction rest with
  | nil =>
    intro c after same
    simp [wordRun] at same
  | cons d rest ih =>
    intro c after same
    simp only [wordRun] at same
    split at same
    · exact ih c after same
    · rename_i stops
      cases same
      exact Bool.eq_false_iff.mpr stops

theorem nextToken_suffix (c : Char) (rest : List Char) : (nextToken tables c rest).2 <:+ rest := by
  unfold nextToken
  split
  · rw [closing_rest, ← skipLine_eq_close]
    exact skipLine_suffix rest
  · split
    · rw [closing_rest, ← skipBlock_eq_close]
      exact (skipBlock_suffix 1 rest.tail).trans (List.tail_suffix rest)
    · split
      · rw [closing_rest, ← skipQuoted_eq_close]
        exact skipQuoted_suffix c rest
      · split
        · exact List.suffix_refl _
        · split
          · exact wordRun_suffix tables rest
          · split
            · split
              · rename_i tag after opened
                obtain ⟨name, -, rfl, rfl⟩ := dollarTag_eq_some tables opened
                rw [closing_rest, ← skipDollarQuoted_eq_close]
                exact (skipDollarQuoted_suffix _ _).trans (dollarTag_suffix tables opened)
              · exact List.suffix_refl _
            · exact List.suffix_refl _

theorem tokensFrom_fuel (text : List Char) (first second : Nat) (enough : text.length ≤ first)
    (enough' : text.length ≤ second) :
    tokensFrom tables first text = tokensFrom tables second text := by
  induction first generalizing second text with
  | zero =>
    have empty : text = [] := List.eq_nil_of_length_eq_zero (Nat.le_zero.mp enough)
    subst empty
    simp [tokensFrom]
  | succ _ ih =>
    cases text with
    | nil => simp [tokensFrom]
    | cons c rest =>
      cases second with
      | zero => simp at enough'
      | succ second =>
        have shorter := (nextToken_suffix tables c rest).length_le
        simp only [List.length_cons, Nat.add_le_add_iff_right] at enough enough'
        simp only [tokensFrom]
        rw [ih _ second (shorter.trans enough) (shorter.trans enough')]

@[simp] theorem tokens_nil : tokens tables [] = [] := rfl

theorem tokens_cons (c : Char) (rest : List Char) :
    tokens tables (c :: rest) =
      (nextToken tables c rest).1 :: tokens tables (nextToken tables c rest).2 := by
  have shorter := (nextToken_suffix tables c rest).length_le
  exact congrArg _ (tokensFrom_fuel tables _ _ _ shorter le_rfl)

/-- Induction over a text from token to token. -/
theorem tokens_induction {motive : List Char → Prop} (nil : motive [])
    (cons : ∀ c rest, motive (nextToken tables c rest).2 → motive (c :: rest))
    (text : List Char) : motive text := by
  induction length : text.length using Nat.strong_induction_on generalizing text with
  | _ n ih =>
    cases text with
    | nil => exact nil
    | cons c rest =>
      apply cons
      have shorter := (nextToken_suffix tables c rest).length_le
      exact ih _ (by rw [← length, List.length_cons]; omega) _ rfl

/-! ## The scanner on a token -/

variable {c : Char}

theorem inWord_special (rest : List Char) (special : c ∈ ['-', '#', '/', '\'', '"', '`', ';']) :
    inWord tables c rest = false := by
  have plain := isWordRune_special tables
    (show c ∈ ['-', '#', '/', '$', '\'', '"', '`', ';'] by
      simp only [List.mem_cons, List.not_mem_nil, or_false] at special ⊢
      tauto)
  have other : c ≠ '$' := by
    rintro rfl
    simp at special
  simp [inWord, plain, other]

variable {rest : List Char}

theorem scanStep_inWord (state : ScanState) (inside : inWord tables c rest = true) :
    scanStep tables state c rest =
      ({ state with word := state.word ++ [c], pending := state.pending || isWordRune tables c },
        rest) := by
  cases letter : isWordRune tables c with
  | true =>
    rw [scanStep_word tables state rest letter]
    simp
  | false =>
    simp only [inWord, letter, Bool.false_or, Bool.and_eq_true, decide_eq_true_eq,
      Option.isNone_iff_eq_none] at inside
    obtain ⟨rfl, unopened⟩ := inside
    simp [scanStep, unopened]

theorem scanFrom_wordRun (state : ScanState) (rest : List Char) :
    scanFrom tables state rest =
      scanFrom tables
        { state with
          word := state.word ++ (wordRun tables rest).1
          pending := state.pending || (wordRun tables rest).1.any (isWordRune tables) }
        (wordRun tables rest).2 := by
  induction rest generalizing state with
  | nil => simp [wordRun]
  | cons c rest ih =>
    by_cases inside : inWord tables c rest = true
    · rw [scanFrom_cons, scanStep_inWord tables state inside, ih]
      simp [wordRun, inside, Bool.or_assoc]
    · simp [wordRun, inside]

def advance (state : ScanState) : Token → ScanState
  | .line _ | .block _ => state.flush
  | .quoted _ | .dollar _ => { state.flush with pending := true }
  | .semicolon => state.flush.endStatement
  | .word _ => state
  | .other c => { state.flush with pending := state.pending || !tables.isSpace c }

section
variable (state : ScanState) (closed : Option (List Char))
include state closed

theorem advance_line : advance tables state (closing .line closed).1 = state.flush := by
  cases closed <;> rfl

theorem advance_block : advance tables state (closing .block closed).1 = state.flush := by
  cases closed <;> rfl

theorem advance_quoted :
    advance tables state (closing .quoted closed).1 = { state.flush with pending := true } := by
  cases closed <;> rfl

theorem advance_dollar :
    advance tables state (closing .dollar closed).1 = { state.flush with pending := true } := by
  cases closed <;> rfl

end

theorem scanStep_token (state : ScanState) (outside : inWord tables c rest = false) :
    scanStep tables state c rest =
      (advance tables state (nextToken tables c rest).1, (nextToken tables c rest).2) := by
  unfold scanStep nextToken
  by_cases line : (c = '-' ∧ rest.head? = some '-') ∨ c = '#'
  · have text : c ≠ '\n' := by
      rintro rfl
      simp at line
    rw [if_pos line, if_pos line, closing_rest, ← skipLine_eq_close, advance_line]
    simp [skipLine, text]
  rw [if_neg line, if_neg line]
  by_cases block : c = '/' ∧ rest.head? = some '*'
  · rw [if_pos block, if_pos block, closing_rest, ← skipBlock_eq_close, advance_block]
  rw [if_neg block, if_neg block]
  by_cases dollar : c = '$'
  · subst dollar
    cases opened : dollarTag tables rest with
    | none => simp [inWord, opened] at outside
    | some opener =>
      obtain ⟨_, _⟩ := opener
      obtain ⟨_, -, rfl, -⟩ := dollarTag_eq_some tables opened
      have plain : ¬ ('$' = '\'' ∨ '$' = '"' ∨ '$' = '`') := by decide
      have other : ¬ '$' = ';' := by decide
      have outside' : ¬ inWord tables '$' rest = true := Bool.eq_false_iff.mp outside
      simp only [if_true, if_neg plain, if_neg other, if_neg outside', closing_rest,
        skipDollarQuoted_eq_close]
      rw [advance_dollar]
  rw [if_neg dollar]
  by_cases quote : c = '\'' ∨ c = '"' ∨ c = '`'
  · rw [if_pos quote, if_pos quote, closing_rest, ← skipQuoted_eq_close, advance_quoted]
  rw [if_neg quote, if_neg quote]
  by_cases semicolon : c = ';'
  · rw [if_pos semicolon, if_pos semicolon]
    rfl
  have letter : isWordRune tables c = false := by
    simp only [inWord, Bool.or_eq_false_iff] at outside
    exact outside.1
  rw [if_neg semicolon, if_neg semicolon, outside, letter]
  simp [dollar, advance]

theorem nextToken_word (inside : inWord tables c rest = true) : nextToken tables c rest =
      (.word (c :: (wordRun tables rest).1), (wordRun tables rest).2) := by
  have plain : c ∉ ['-', '#', '/', '\'', '"', '`', ';'] := by
    intro special
    rw [inWord_special tables rest special] at inside
    contradiction
  simp only [List.mem_cons, List.not_mem_nil, or_false, not_or] at plain
  simp [nextToken, plain, inside]

theorem flush_flush (state : ScanState) : state.flush.flush = state.flush := by
  conv_lhs => rw [ScanState.flush, if_pos (flush_word state)]

theorem advance_flush (state : ScanState) {token : Token} (other : token.word? = none) :
    advance tables state.flush token = advance tables state token := by
  cases token with
  | word => contradiction
  | other => simp only [advance, flush_flush, (flush_statements state).2]
  | _ => simp only [advance, flush_flush]

theorem closing_word? {kind : Bool → Token} (other : ∀ closed, (kind closed).word? = none)
    (closed : Option (List Char)) : (closing kind closed).1.word? = none := by
  cases closed with
  | none => exact other false
  | some => exact other true

theorem nextToken_other (outside : inWord tables c rest = false) :
    (nextToken tables c rest).1.word? = none := by
  unfold nextToken
  rw [outside]
  (repeat' split) <;> first | contradiction | exact closing_word? (fun _ => rfl) _ | rfl

theorem scanFrom_flush (state : ScanState) (text : List Char)
    (stops : ∀ c after, text = c :: after → inWord tables c after = false) :
    (scanFrom tables state text).flush = (scanFrom tables state.flush text).flush := by
  cases text with
  | nil => exact (flush_flush state).symm
  | cons c after =>
    have outside := stops c after rfl
    rw [scanFrom_cons, scanFrom_cons, scanStep_token tables state outside,
      scanStep_token tables state.flush outside,
      advance_flush tables state (nextToken_other tables outside)]

end

/-! ## The whole text -/

section
variable (tables : UnicodeTables)

/-- The tokens that set the scanner's flag: not the words of dollar signs alone. -/
def Token.isCounted : Token → Bool
  | line _ | block _ | semicolon => false
  | quoted _ | dollar _ => true
  | word text => text.any (isWordRune tables)
  | other c => !tables.isSpace c

def total (state : ScanState) (rest : List Token) : Nat :=
  state.statements +
    countPending Token.isSemicolon (Token.isCounted tables) state.pending rest

theorem total_flush (state : ScanState) (rest : List Token) :
    total tables state.flush rest = total tables state rest := by
  obtain ⟨statements, pending⟩ := flush_statements state
  rw [total, total, statements, pending]

theorem advance_effect (state : ScanState) {token : Token} (other : token.word? = none)
    (rest : List Token) :
    (advance tables state token).word = [] ∧
      (advance tables state token).words = state.flush.words ∧
      total tables (advance tables state token) rest = total tables state (token :: rest) := by
  obtain ⟨statements, pending⟩ := flush_statements state
  obtain ⟨ended, idle⟩ := endStatement_statements state
  cases token with
  | word => contradiction
  | semicolon =>
    refine ⟨(endStatement_words state).1, (endStatement_words state).2, ?_⟩
    simp only [total, advance, ended, idle, countPending, Token.isSemicolon, if_true]
    omega
  | line | block =>
    refine ⟨flush_word state, rfl, ?_⟩
    simp [total, advance, statements, pending, countPending, Token.isSemicolon, Token.isCounted]
  | quoted | dollar | other =>
    refine ⟨flush_word state, rfl, ?_⟩
    simp [total, advance, statements, countPending, Token.isSemicolon, Token.isCounted]

/-- From any point between two tokens on, the scanner finds the words and counts the
statements of the segmentation. -/
theorem scanFrom_tokens (text : List Char) (state : ScanState) (empty : state.word = []) :
    (scanFrom tables state text).flush.words =
        state.words ++ (tokens tables text).filterMap Token.word? ∧
      (scanFrom tables state text).flush.endStatement.statements =
        total tables state (tokens tables text) := by
  have flushed : ∀ state : ScanState, state.word = [] → state.flush = state :=
    fun state empty => if_pos empty
  induction text using tokens_induction tables generalizing state with
  | nil =>
    rw [scanFrom_nil, (endStatement_statements state).1, flushed state empty]
    simp [total, countPending]
  | cons c rest ih =>
    rw [tokens_cons]
    by_cases inside : inWord tables c rest = true
    · have run := scanFrom_wordRun tables state (c :: rest)
      have stops := wordRun_stops tables rest
      rw [nextToken_word tables inside] at ih ⊢
      simp only [wordRun, inside, if_true, empty, List.nil_append] at run
      generalize next_eq : ({ state with
        word := c :: (wordRun tables rest).1
        pending := state.pending ||
          (c :: (wordRun tables rest).1).any (isWordRune tables) } : ScanState) = next at run
      have words : next.flush.words = state.words ++ [c :: (wordRun tables rest).1] := by
        simp [← next_eq, ScanState.flush]
      have counted : total tables next.flush (tokens tables (wordRun tables rest).2) =
          total tables state (.word (c :: (wordRun tables rest).1) ::
            tokens tables (wordRun tables rest).2) := by
        rw [total_flush, ← next_eq]
        simp [total, countPending, Token.isSemicolon, Token.isCounted]
      obtain ⟨found, statements⟩ := ih next.flush (flush_word next)
      rw [run, scanFrom_flush tables next _ stops, found, statements, words, counted]
      simp [Token.word?]
    · have outside := Bool.eq_false_iff.mpr inside
      have other := nextToken_other tables outside
      obtain ⟨word, words, counted⟩ := advance_effect tables state other
        (tokens tables (nextToken tables c rest).2)
      obtain ⟨found, statements⟩ := ih _ word
      rw [scanFrom_cons, scanStep_token tables state outside, found, statements, words, counted,
        flushed state empty]
      simp [other]

/-- The scanner's result, in terms of the tokens. -/
theorem scan_eq (sql : List Char) :
    scan tables sql =
      ((tokens tables sql).filterMap Token.word?,
        countSeparated Token.isSemicolon (Token.isCounted tables) (tokens tables sql)) := by
  obtain ⟨words, statements⟩ := scanFrom_tokens tables sql {} rfl
  change ((scanFrom tables {} sql).flush.endStatement.words, _) = _
  rw [(endStatement_words _).2, words, countSeparated_eq]
  change (_, (scanFrom tables {} sql).flush.endStatement.statements) = _
  rw [statements]
  simp [total]

end

end DbBridge.SqlGuard.Grammar
