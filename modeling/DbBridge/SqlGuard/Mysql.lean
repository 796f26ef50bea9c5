import Mathlib
import DbBridge.SqlGuard.Lexer

/-!
# The guard against MySQL's lexical rules

MySQL's default lexical rules, stated on their own, and what an accepted statement can hold
under them. The guard serves four dialects, so the two readings part where PostgreSQL's
rules differ: `--` before a printing character, nested comments and dollar quotes. They
also part at a backslash before a double quote, at the executable comments `/*! */` and at
words that start with a digit.
-/

namespace DbBridge.SqlGuard.Mysql

open List

/-! ## The reference lexer -/

/-- A string literal carries its quote and its text up to the closing quote, a block comment
its text up to and with `*/`. An operator character is any character with no other role. -/
inductive Token where
  | identifier (name : List Char)
  | digit (c : Char)
  | stringLiteral (quote : Char) (text : List Char)
  | quotedIdentifier
  | lineComment
  | blockComment (text : List Char)
  | executableOpener
  | executableCloser
  | semicolon
  | space
  | operator (c : Char)
  deriving DecidableEq, Repr

def isSpace (c : Char) : Bool := c ∈ [' ', '\t', '\n', '\x0b', '\x0c', '\r']

def isControl (c : Char) : Bool := c.toNat < 32 || c.toNat = 127

def isIdentifier (c : Char) : Bool := c.isAlphanum || c = '_' || c = '$' || 128 ≤ c.toNat

/-- A dash and this text: `--` starts a comment before whitespace, a control character and
the end of the input. -/
def startsComment : List Char → Bool
  | '-' :: after => after.head?.all fun c => isSpace c || isControl c
  | _ => false

def blockText : List Char → List Char × List Char
  | [] => ([], [])
  | [c] => ([c], [])
  | c :: d :: rest =>
    if c = '*' ∧ d = '/' then ([c, d], rest)
    else (c :: (blockText (d :: rest)).1, (blockText (d :: rest)).2)

/-- The version number of an executable comment has five or six digits. -/
def dropVersion (text : List Char) : List Char :=
  let digits := (text.takeWhile Char.isDigit).length
  if digits < 5 then text else text.drop (min digits 6)

/-- The token at `c :: rest` and the text after it; `inside` is true between the ends of an
executable comment. -/
def nextToken (inside : Bool) (c : Char) (rest : List Char) : Token × List Char :=
  if c = '#' ∨ c = '-' ∧ startsComment rest = true then
    (.lineComment, rest.dropWhile (· ≠ '\n'))
  else if c = '/' ∧ rest.take 2 = ['*', '!'] then (.executableOpener, dropVersion (rest.drop 2))
  else if c = '/' ∧ rest.head? = some '*' then
    (.blockComment (blockText rest.tail).1, (blockText rest.tail).2)
  else if c = '*' ∧ rest.head? = some '/' ∧ inside = true then (.executableCloser, rest.tail)
  else if c = '\'' ∨ c = '"' then
    (.stringLiteral c (quotedText true c rest).1, (quotedText true c rest).2)
  else if c = '`' then (.quotedIdentifier, (quotedText false '`' rest).2)
  else if c = ';' then (.semicolon, rest)
  else if c.isDigit then (.digit c, rest)
  else if isIdentifier c then
    (.identifier (c :: rest.takeWhile isIdentifier), rest.dropWhile isIdentifier)
  else if isSpace c then (.space, rest)
  else (.operator c, rest)

/-- Digits that do not continue an identifier are tokens of their own. -/
def Token.glues : Token → Bool
  | .digit _ => true
  | _ => false

def Token.leadsInside (inside : Bool) : Token → Bool
  | .executableOpener => true
  | .executableCloser => false
  | _ => inside

def lexer : Lexer Token Bool := ⟨nextToken, Token.leadsInside, Token.glues⟩

def lexemes (sql : List Char) : List (Lexed Token) := lexer.lexFrom sql.length false false sql

def Token.isContent : Token → Bool
  | .space => false
  | .lineComment => false
  | .blockComment _ => false
  | .executableOpener => false
  | .executableCloser => false
  | _ => true

def countStatements (kind : Token → Bool) (tokens : List Token) : Nat :=
  countSeparated (· = .semicolon) kind tokens

/-! ## Where the guard's reading is MySQL's -/

def opensComment : List Char → Bool
  | [] => false
  | [_] => false
  | c :: d :: rest => (c = '/' && d = '*') || opensComment (d :: rest)

/-- The lexeme is one that the guard reads as MySQL does. -/
def Common (lexeme : Lexed Token) : Prop :=
  match lexeme.token with
  | .stringLiteral quote text => quote = '"' → escapesQuote '"' text = false
  | .blockComment text => opensComment text = false
  | .executableOpener => False
  | .identifier name => name.count '$' ≤ 1
  | .operator c => c = '-' → lexeme.rest.head? ≠ some '-'
  | _ => True

instance (lexeme : Lexed Token) : Decidable (Common lexeme) := by
  unfold Common
  split <;> infer_instance

variable {c : Char} {name : List Char}

section
variable (tables : UnicodeTables)

/-- A character of an identifier that makes its statement count. -/
def counts (c : Char) : Bool := c ≠ '$' && !tables.isSpace c

/-- Content other than an identifier of dollar signs and of what Go takes for space. -/
def Token.isCounted : Token → Bool
  | .identifier name => name.any (counts tables)
  | token => token.isContent

def collects (c : Char) : Bool := isWordRune tables c || c = '$'

def view : View Token where
  continues := isIdentifier
  separates := (· = .semicolon)
  counted := Token.isCounted tables
  name
    | .identifier name => if name.all (collects tables) then some name else none
    | _ => none

/-! ## Skipped text -/

theorem quotedText_backslash {quote : Char} (visible : quote ≠ '\\') (text : List Char)
    (plain : escapesQuote quote (quotedText true quote text).1 = false) :
    (quotedText false quote text).2 = (quotedText true quote text).2 := by
  fun_induction quotedText true quote text with
  | case1 | case2 => rfl
  | case3 c d rest escape ih =>
    obtain ⟨rfl, -⟩ := escape
    -- MySQL jumps over d, the guard reads it
    simp only [escapesQuote, if_true, Bool.or_eq_false_iff, decide_eq_false_iff_not] at plain
    rw [quotedText, if_neg (by simp), if_neg visible.symm, ← ih plain.2]
    cases rest with
    | nil => rfl
    | cons => rw [quotedText, if_neg (by simp), if_neg plain.1]
  | case4 _ _ ih =>
    rw [escapesQuote_cons visible, escapesQuote_cons visible] at plain
    rw [quotedText, if_neg (by simp), if_pos rfl, if_pos rfl]
    exact ih plain
  | case5 _ _ single => rw [quotedText, if_neg (by simp), if_pos rfl, if_neg single]
  | case6 _ _ _ letter inside ih =>
    rw [escapesQuote_cons (by simpa using letter)] at plain
    rw [quotedText, if_neg (by simp), if_neg inside]
    exact ih plain

theorem opensComment_cons (c : Char) (text : List Char) :
    opensComment (c :: text) = ((c = '/' && text.head? = some '*') || opensComment text) := by
  cases text with
  | nil | cons => simp [opensComment]

theorem blockText_head (c : Char) (rest : List Char) : (blockText (c :: rest)).1.head? = some c := by
  cases rest with
  | nil => rfl
  | cons =>
    simp only [blockText]
    split <;> rfl

theorem skipBlock_eq (text : List Char) (flat : opensComment (blockText text).1 = false) :
    skipBlock 1 text = (blockText text).2 := by
  fun_induction blockText text with
  | case1 | case2 => rfl
  | case3 _ _ _ closes =>
    obtain ⟨rfl, rfl⟩ := closes
    simp [skipBlock]
  | case4 _ _ _ open_ ih =>
    rw [opensComment_cons, blockText_head, Bool.or_eq_false_iff] at flat
    rw [skipBlock, if_neg (by simpa using flat.1), if_neg open_]
    exact ih flat.2

theorem blockText_suffix (text : List Char) : (blockText text).2 <:+ text := by
  fun_induction blockText text with
  | case1 => exact List.suffix_refl _
  | case2 => exact List.nil_suffix
  | case3 c d rest => exact (List.suffix_cons d rest).trans (List.suffix_cons c _)
  | case4 c _ _ _ ih => exact ih.trans (List.suffix_cons c _)

theorem dropVersion_suffix (text : List Char) : dropVersion text <:+ text := by
  simp only [dropVersion]
  split
  · exact List.suffix_refl _
  · exact List.drop_suffix _ _

/-! ## One token -/

inductive Branch (inside : Bool) (c : Char) (rest : List Char) : Token × List Char → Prop where
  | line (dashes : c = '#' ∨ c = '-' ∧ startsComment rest = true) :
      Branch inside c rest (.lineComment, rest.dropWhile (· ≠ '\n'))
  | opener : Branch inside c rest (.executableOpener, dropVersion (rest.drop 2))
  | block (slash : c = '/' ∧ rest.head? = some '*') :
      Branch inside c rest (.blockComment (blockText rest.tail).1, (blockText rest.tail).2)
  | closer (within : inside = true) : Branch inside c rest (.executableCloser, rest.tail)
  | literal (quote : c = '\'' ∨ c = '"') :
      Branch inside c rest (.stringLiteral c (quotedText true c rest).1, (quotedText true c rest).2)
  | backtick (tick : c = '`') :
      Branch inside c rest (.quotedIdentifier, (quotedText false '`' rest).2)
  | semicolon (separator : c = ';') : Branch inside c rest (.semicolon, rest)
  | digit (figure : c.isDigit = true) : Branch inside c rest (.digit c, rest)
  | identifier (letter : isIdentifier c = true) :
      Branch inside c rest (.identifier (c :: rest.takeWhile isIdentifier),
        rest.dropWhile isIdentifier)
  | space (blank : isSpace c = true) (outside : isIdentifier c = false) :
      Branch inside c rest (.space, rest)
  | operator (visible : isSpace c = false) (outside : isIdentifier c = false)
      (special : c ∉ ['#', '\'', '"', '`', ';']) (slash : ¬ (c = '/' ∧ rest.head? = some '*')) :
      Branch inside c rest (.operator c, rest)

theorem nextToken_branch (inside : Bool) (c : Char) (rest : List Char) :
    Branch inside c rest (nextToken inside c rest) := by
  refine of_ite (motive := Branch inside c rest) .line fun line => ?_
  refine of_ite (motive := Branch inside c rest) (fun _ => .opener) fun _ => ?_
  refine of_ite (motive := Branch inside c rest) .block fun slash => ?_
  refine of_ite (motive := Branch inside c rest) (fun closes => .closer closes.2.2) fun _ => ?_
  refine of_ite (motive := Branch inside c rest) .literal fun quote => ?_
  refine of_ite (motive := Branch inside c rest) .backtick fun tick => ?_
  refine of_ite (motive := Branch inside c rest) .semicolon fun separator => ?_
  refine of_ite (motive := Branch inside c rest) .digit fun _ => ?_
  refine of_ite (motive := Branch inside c rest) .identifier fun letter => ?_
  have outside := Bool.eq_false_iff.mpr letter
  refine of_ite (motive := Branch inside c rest) (fun blank => .space blank outside) fun visible => ?_
  refine .operator (Bool.eq_false_iff.mpr visible) outside ?_ slash
  simp only [not_or] at line quote
  simp [line, quote, tick, separator]

theorem nextToken_suffix (inside : Bool) (c : Char) (rest : List Char) :
    (nextToken inside c rest).2 <:+ rest := by
  have branch := nextToken_branch inside c rest
  generalize nextToken inside c rest = read at branch ⊢
  cases branch with
  | opener => exact (dropVersion_suffix _).trans (List.drop_suffix 2 rest)
  | block => exact (blockText_suffix rest.tail).trans (List.tail_suffix rest)
  | closer => exact List.tail_suffix rest
  | literal => exact quotedText_suffix true c rest
  | backtick => exact quotedText_suffix false '`' rest
  | line | identifier => exact List.dropWhile_suffix _
  | semicolon | digit | space | operator => exact List.suffix_refl _

variable {tables}

theorem isWordRune_of_isIdentifier (ascii : c.toNat < 128) :
    isWordRune tables c = (isIdentifier c && c ≠ '$') := by
  rw [isWordRune, tables.isLetter_ascii c ascii, tables.isDigit_ascii c ascii, isIdentifier,
    Char.isAlphanum]
  by_cases dollar : c = '$'
  · subst dollar
    decide
  · simp [dollar, Nat.not_le.mpr ascii]

theorem ascii_of_isIdentifier (outside : isIdentifier c = false) : c.toNat < 128 := by
  simp only [isIdentifier, Bool.or_eq_false_iff, decide_eq_false_iff_not, not_le] at outside
  exact outside.2

theorem scanStep_beyond (state : ScanState) (rest : List Char) (beyond : 128 ≤ c.toNat)
    (other : isWordRune tables c = false) :
    scanStep tables state c rest =
      ({ state.flush with pending := state.pending || !tables.isSpace c }, rest) := by
  have plain : ∀ d : Char, d.toNat < 128 → c ≠ d := by
    rintro d ascii rfl
    omega
  simp [scanStep, other, plain '-' (by decide), plain '#' (by decide), plain '/' (by decide),
    plain '$' (by decide), plain '\'' (by decide), plain '"' (by decide), plain '`' (by decide),
    plain ';' (by decide)]

theorem dollarTag_inside {after : List Char} (last : '$' ∉ name)
    (stop : ∀ c ∈ after.head?, isIdentifier c = false) :
    dollarTag tables (name ++ after) = none := by
  refine dollarTag_eq_none tables ?_
  induction name with
  | nil =>
    cases after with
    | nil => simp
    | cons d =>
      have outside := stop d rfl
      have word : isWordRune tables d = false := by
        rw [isWordRune_of_isIdentifier (ascii_of_isIdentifier outside), outside]
        rfl
      rw [nil_append, dropWhile_cons_of_neg (by simp [word])]
      rintro ⟨⟩
      contradiction
  | cons _ _ ih =>
    rw [mem_cons, not_or] at last
    rw [cons_append, dropWhile_cons]
    split
    · exact ih last.2
    · rintro ⟨⟩
      exact last.1 rfl

structure Passes (tables : UnicodeTables) (state : ScanState) (name : List Char)
    (next : ScanState) : Prop where
  words : ∀ word ∈ state.words, word ∈ next.words
  statements : next.statements = state.statements
  pending : state.pending = true ∨ name.any (counts tables) = true → next.pending = true
  word : name.all (collects tables) = true → next.word = state.word ++ name

theorem Passes.cons {state middle next : ScanState} (first : Passes tables state [c] middle)
    (rest : Passes tables middle name next) :
    Passes tables state (c :: name) next where
  words := fun word member => rest.words word (first.words word member)
  statements := rest.statements.trans first.statements
  pending := by
    intro held
    rw [any_cons, Bool.or_eq_true, ← or_assoc] at held
    exact rest.pending (held.imp_left fun held => first.pending (by simpa using held))
  word := by
    intro all
    rw [all_cons, Bool.and_eq_true] at all
    rw [rest.word all.2, first.word (by simpa using all.1), append_assoc]
    rfl

theorem scanStep_identifier (state : ScanState) (rest : List Char)
    (letter : isIdentifier c = true) (plain : c = '$' → dollarTag tables rest = none) :
    ∃ next, scanStep tables state c rest = (next, rest) ∧ Passes tables state [c] next := by
  by_cases dollar : c = '$'
  · subst dollar
    refine ⟨{ state with word := state.word ++ ['$'] }, by simp [scanStep, plain rfl], ?_⟩
    exact ⟨fun _ member => member, rfl, by simp [counts], fun _ => rfl⟩
  by_cases word : isWordRune tables c = true
  · exact ⟨_, scanStep_word tables state rest word, fun _ member => member, rfl, fun _ => rfl,
      fun _ => rfl⟩
  · have other := Bool.eq_false_iff.mpr word
    have beyond : 128 ≤ c.toNat := by
      refine Nat.le_of_not_lt fun ascii => ?_
      rw [isWordRune_of_isIdentifier ascii, letter] at other
      simp [dollar] at other
    exact ⟨_, scanStep_beyond state rest beyond other, (flush_words state).1,
      (flush_statements state).1, by simp [counts, dollar], by simp [collects, other, dollar]⟩

theorem scanFrom_identifier (tables : UnicodeTables) (name after : List Char) (state : ScanState)
    (letters : ∀ c ∈ name, isIdentifier c = true) (few : name.count '$' ≤ 1)
    (stop : ∀ c ∈ after.head?, isIdentifier c = false) :
    ∃ next, scanFrom tables state (name ++ after) = scanFrom tables next after ∧
      Passes tables state name next := by
  induction name generalizing state with
  | nil => exact ⟨state, rfl, fun _ member => member, rfl, by simp, by simp⟩
  | cons c name ih =>
    have plain : c = '$' → dollarTag tables (name ++ after) = none := by
      rintro rfl
      refine dollarTag_inside (fun member => ?_) stop
      have positive := count_pos_iff.mpr member
      rw [count_cons_self] at few
      omega
    obtain ⟨middle, step, first⟩ :=
      scanStep_identifier state (name ++ after) (letters c mem_cons_self) plain
    obtain ⟨next, run, rest⟩ := ih middle
      (fun d member => letters d (mem_cons_of_mem c member))
      (le_trans count_le_count_cons few)
    exact ⟨next, by rw [cons_append, scanFrom_cons, step]; exact run, first.cons rest⟩

variable {state : ScanState} {glued : Bool} {rest : List Char}

theorem reads_identifier (letter : isIdentifier c = true)
    (boundary : AtBoundary (view tables) glued state.word (c :: rest))
    (few : (c :: rest.takeWhile isIdentifier).count '$' ≤ 1) :
    Reads lexer (view tables) tables state glued c rest
      (.identifier (c :: rest.takeWhile isIdentifier)) (rest.dropWhile isIdentifier) := by
  have letters : ∀ d ∈ c :: rest.takeWhile isIdentifier, isIdentifier d = true := by
    intro d member
    rcases mem_cons.mp member with rfl | member
    · exact letter
    · exact mem_takeWhile_imp member
  have stop : ∀ d ∈ (rest.dropWhile isIdentifier).head?, isIdentifier d = false := by
    intro d member
    have head := head?_dropWhile_not isIdentifier rest
    rw [Option.mem_def.mp member] at head
    exact head
  obtain ⟨next, run, passes⟩ := scanFrom_identifier tables
    (c :: rest.takeWhile isIdentifier) (rest.dropWhile isIdentifier) state letters few stop
  rw [cons_append, takeWhile_append_dropWhile] at run
  have empty : glued = false → state.word = [] := by
    intro separate
    refine (boundary separate).resolve_right fun stops => ?_
    have clash : isIdentifier c = false := stops c rfl
    rw [letter] at clash
    contradiction
  refine ⟨next, ⟨fun _ => .inr stop, passes.words, ?_, ?_, by simp [view], ?_⟩, run⟩
  · exact fun separate held => absurd (empty separate) held
  · intro name named separate
    simp only [view, Option.mem_def, Option.ite_none_right_eq_some, Option.some.injEq] at named
    obtain ⟨all, rfl⟩ := named
    exact ⟨by rw [passes.word all, empty separate]; rfl, cons_ne_nil _ _⟩
  · exact fun _ => ⟨passes.statements, passes.pending⟩

theorem scanStep_other (ascii : c.toNat < 128) (outside : isIdentifier c = false)
    (special : c ∉ ['#', '\'', '"', '`', ';'])
    (dashes : ¬ (c = '-' ∧ rest.head? = some '-')) (slash : ¬ (c = '/' ∧ rest.head? = some '*')) :
    scanStep tables state c rest =
      ({ state.flush with pending := state.pending || !isSpace c }, rest) := by
  have word : isWordRune tables c = false := by
    rw [isWordRune_of_isIdentifier ascii, outside]
    rfl
  have dollar : c ≠ '$' := by
    rintro rfl
    contradiction
  simp only [List.mem_cons, List.not_mem_nil, or_false, not_or] at special
  simp [scanStep, special, dashes, slash, dollar, word, tables.isSpace_ascii c ascii, isSpace]

/-- One token of MySQL outside executable comments, read by the scanner's loop. -/
theorem reads_nextToken (boundary : AtBoundary (view tables) glued state.word (c :: rest))
    (common : Common ⟨(nextToken false c rest).1, glued, (nextToken false c rest).2⟩) :
    Reads lexer (view tables) tables state glued c rest (nextToken false c rest).1
        (nextToken false c rest).2 ∧
      Token.leadsInside false (nextToken false c rest).1 = false := by
  have branch := nextToken_branch false c rest
  generalize nextToken false c rest = read at branch common ⊢
  cases branch with
  | line dashes =>
    refine ⟨reads_comment ?_ rfl rfl rfl, rfl⟩
    rcases dashes with rfl | ⟨rfl, starts⟩
    · simp [scanStep, skipLine, skipLine_eq]
    · have second : rest.head? = some '-' := by
        unfold startsComment at starts
        split at starts
        · rfl
        · contradiction
      simp [scanStep, second, skipLine, skipLine_eq]
  | opener => exact absurd common id
  | block slash =>
    refine ⟨reads_comment ?_ rfl rfl rfl, rfl⟩
    obtain ⟨rfl, star⟩ := slash
    simp [scanStep, star, skipBlock_eq rest.tail common]
  | closer => contradiction
  | literal quote =>
    refine ⟨reads_flush true ?_ rfl rfl fun _ => rfl, rfl⟩
    rcases quote with rfl | rfl
    · simp [scanStep, skipQuoted_eq]
    · simp [scanStep, skipQuoted_eq, quotedText_backslash _ rest (common rfl)]
  | backtick tick =>
    subst tick
    exact ⟨reads_flush true (by simp [scanStep, skipQuoted_eq]) rfl rfl fun _ => rfl, rfl⟩
  | semicolon separator =>
    subst separator
    exact ⟨reads_semicolon rfl rfl, rfl⟩
  | digit figure =>
    have ascii : c.toNat < 128 := by
      rw [Char.isDigit, Bool.and_eq_true, decide_eq_true_eq, decide_eq_true_eq] at figure
      exact Nat.lt_of_le_of_lt (show c.toNat ≤ 57 from figure.2) (by decide)
    have word : isWordRune tables c = true := by
      simp [isWordRune, tables.isDigit_ascii c ascii, figure]
    have continues : isIdentifier c = true := by simp [isIdentifier, Char.isAlphanum, figure]
    exact ⟨⟨_, Advance.glue lexer (view tables) boundary continues rfl rfl rfl
      (show _ → true = true from fun _ => rfl),
      by rw [scanFrom_cons, scanStep_word tables state rest word]⟩, rfl⟩
  | identifier letter => exact ⟨reads_identifier letter boundary common, rfl⟩
  | space blank outside =>
    have visible : ∀ d, isSpace d = false → c ≠ d := by
      rintro d other rfl
      rw [blank] at other
      contradiction
    refine ⟨reads_flush state.pending ?_ rfl rfl fun pending => ?_, rfl⟩
    · have special : ∀ d ∈ ['#', '\'', '"', '`', ';'], isSpace d = false := by
        simp [isSpace]
      rw [scanStep_other (ascii_of_isIdentifier outside) outside
        (fun member => visible c (special c member) rfl)
        (fun dashes => visible '-' rfl dashes.1) fun slash => visible '/' rfl slash.1]
      simp [blank]
    · simpa [view, Token.isCounted, Token.isContent] using pending
  | operator visible outside special slash =>
    refine ⟨reads_flush true ?_ rfl rfl fun _ => rfl, rfl⟩
    rw [scanStep_other (ascii_of_isIdentifier outside) outside special
      (fun dashes => common dashes.1 dashes.2) slash]
    simp [visible]

end

/-! ## The whole statement -/

theorem writeKeywords_upper : ∀ word ∈ writeKeywords, ∀ c ∈ word, c.isUpper = true := by
  have upper : (writeKeywords.all fun word => word.all Char.isUpper) = true := by decide +kernel
  simpa only [all_eq_true] using upper

theorem toUpper_of_not_isLower (other : c.isLower = false) : c.toUpper = c := by
  unfold Char.toUpper
  rw [dif_neg]
  simpa [Char.isLower] using other

theorem isAlpha_of_toUpper (upper : c.toUpper.isUpper = true) : c.isAlpha = true := by
  cases lower : c.isLower with
  | true => simp [Char.isAlpha, lower]
  | false =>
    rw [toUpper_of_not_isLower lower] at upper
    simp [Char.isAlpha, upper]

/-- A name that is a keyword has only characters that the scanner puts into a word. -/
theorem all_collects {tables : UnicodeTables}
    (upper : ∀ c : Char, 128 ≤ c.toNat → isWordRune tables c = false →
      128 ≤ (tables.toUpper c).toNat)
    (keyword : toUpper tables name ∈ writeKeywords) : name.all (collects tables) = true := by
  refine all_eq_true.mpr fun c member => ?_
  have letter := writeKeywords_upper _ keyword _ (mem_map_of_mem member)
  have word : isWordRune tables c = true := by
    by_cases ascii : c.toNat < 128
    · rw [tables.toUpper_ascii c ascii] at letter
      simp [isWordRune, tables.isLetter_ascii c ascii, isAlpha_of_toUpper letter]
    · by_contra other
      have beyond := upper c (Nat.le_of_not_lt ascii) (Bool.eq_false_iff.mpr other)
      rw [Char.isUpper, decide_eq_true_eq] at letter
      have bound : (tables.toUpper c).toNat ≤ 90 := letter.2
      omega
  simp [collects, word]

/-- An accepted statement, all of whose lexemes are common to the guard's reading and
MySQL's, where `ToUpper` takes no character beyond ASCII but a letter or a digit to ASCII:
no write keyword is an identifier of it, unless one that directly follows a digit, and at
most one of its statements has content other than a dollar sign by itself and what Go takes
for space. -/
theorem readOnly_sound_for_mysql (tables : UnicodeTables)
    (upper : ∀ c : Char, 128 ≤ c.toNat → isWordRune tables c = false →
      128 ≤ (tables.toUpper c).toNat)
    (sql : List Char) (common : ∀ lexeme ∈ lexemes sql, Common lexeme)
    (accepted : readOnly tables sql = none) :
    (∀ lexeme ∈ lexemes sql, lexeme.glued = false →
      ∀ name, lexeme.token = .identifier name → toUpper tables name ∉ writeKeywords) ∧
    countStatements (Token.isCounted tables) ((lexemes sql).map Lexed.token) ≤ 1 := by
  obtain ⟨single, clean⟩ := readOnly_eq_none accepted
  have unglued : ∀ token, ∀ name ∈ (view tables).name token, lexer.glues token = false := by
    intro token name named
    cases token with
    | digit => simp [view] at named
    | _ => rfl
  obtain ⟨-, -, names, statements⟩ := scan_covers (view tables) tables (· = false) unglued
    nextToken_suffix (fun mode state glued c rest regular boundary common => by
      subst regular
      exact reads_nextToken boundary common)
    sql.length false {} false sql le_rfl rfl (fun _ => .inl rfl) common
  refine ⟨fun lexeme member separate name token keyword => ?_, ?_⟩
  · refine clean name (names lexeme member separate name ?_) keyword
    rw [token]
    exact Option.mem_def.mpr (if_pos (all_collects upper keyword))
  · rw [countStatements, countSeparated_eq]
    exact (Nat.le_add_left _ _).trans (statements.trans single)

def sampleQuery : List Char :=
  "SELECT 'it\\'s', \"a\"\"b\", a$1 FROM `set` /* do */ # drop\n -- call\n;".toList

theorem readOnly_sound_for_mysqlQuery :
    readOnly asciiTables sampleQuery = none ∧
    (∀ lexeme ∈ lexemes sampleQuery, lexeme.glued = false →
      ∀ name, lexeme.token = .identifier name → toUpper asciiTables name ∉ writeKeywords) ∧
    countStatements (Token.isCounted asciiTables) ((lexemes sampleQuery).map Lexed.token) ≤ 1 := by
  have accepted : readOnly asciiTables sampleQuery = none := by decide +kernel
  have upper : ∀ c : Char, 128 ≤ c.toNat → isWordRune asciiTables c = false →
      128 ≤ (asciiTables.toUpper c).toNat := by
    intro c beyond _
    have other : c.isLower = false := by
      rw [Char.isLower, Bool.and_eq_false_iff, decide_eq_false_iff_not, decide_eq_false_iff_not]
      refine .inr fun small => ?_
      have bound : c.toNat ≤ 122 := small
      omega
    show 128 ≤ c.toUpper.toNat
    rw [toUpper_of_not_isLower other]
    exact beyond
  exact ⟨accepted, readOnly_sound_for_mysql asciiTables upper sampleQuery (by decide +kernel)
    accepted⟩

/-- MySQL ends the comment at the first end and drops the table; the guard counts the
second opening and reads a comment up to the last end. -/
theorem nested_comment_hides_drop :
    let sql := "SELECT 1 /* /* */; DROP TABLE t /* */ */".toList
    readOnly asciiTables sql = none ∧
    (∃ lexeme ∈ lexemes sql, lexeme.glued = false ∧
      lexeme.token = .identifier "DROP".toList ∧
      toUpper asciiTables "DROP".toList ∈ writeKeywords) ∧
    countStatements Token.isContent ((lexemes sql).map Lexed.token) = 2 := by
  decide +kernel

-- what the other conditions leave out is accepted as well
example : readOnly asciiTables "SELECT 1--1; DROP TABLE t".toList = none := by decide +kernel

example : readOnly asciiTables "SELECT \"\\\", \"; DROP TABLE t; # \"".toList = none := by
  decide +kernel

example : readOnly asciiTables "SELECT 1 /*! INTO OUTFILE 'f' */".toList = none := by
  decide +kernel

example : readOnly asciiTables "SELECT 1.5INTO OUTFILE 'f'".toList = none := by decide +kernel

end DbBridge.SqlGuard.Mysql
