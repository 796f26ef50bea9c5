import DbBridge.SqlGuard.Lexer

/-!
# The guard against PostgreSQL's lexical rules

The lexical rules of PostgreSQL with `standard_conforming_strings` on, stated on
their own, and what an accepted statement can hold under them. The guard serves
four dialects, so the two readings part where MySQL's rules differ: a backslash
before a quote, `#`, and backticks. They also part at a dollar sign inside an
identifier and at words that start with a digit.
-/

namespace DbBridge.SqlGuard.Postgres

open List

/-! ## The reference lexer -/

/-- A string literal carries its text up to its closing quote. An operator
character is any character with no other role. -/
inductive Token where
  | identifier (name : List Char)
  | digit (c : Char)
  | stringLiteral (text : List Char)
  | quotedIdentifier
  | dollarString
  | comment
  | semicolon
  | space
  | operator (c : Char)
  deriving DecidableEq, Repr

/-- What is left after a comment at nesting depth `depth`. -/
def endComment : Nat → List Char → List Char
  | 0, text => text
  | _ + 1, [] => []
  | depth + 1, '/' :: '*' :: rest => endComment (depth + 2) rest
  | depth + 1, '*' :: '/' :: rest => endComment depth rest
  | depth + 1, _ :: rest => endComment (depth + 1) rest

section
variable (tables : UnicodeTables)

def startsIdentifier (c : Char) : Bool := tables.isLetter c || c = '_'

def continuesIdentifier (c : Char) : Bool := isWordRune tables c || c = '$'

/-- The tag of a dollar quote, which is empty or an identifier without dollars, and
the text after its second dollar sign. -/
def dollarOpener (rest : List Char) : Option (List Char × List Char) :=
  let tag := rest.takeWhile (isWordRune tables)
  match rest.dropWhile (isWordRune tables) with
  | '$' :: after => if tag.head?.all (startsIdentifier tables) then some (tag, after) else none
  | _ => none

def endDollar (delimiter text : List Char) : List Char :=
  match Utf8.firstIndex delimiter text with
  | some index => text.drop (index + delimiter.length)
  | none => []

def nextToken (c : Char) (rest : List Char) : Token × List Char :=
  if c = '-' ∧ rest.head? = some '-' then (.comment, rest.dropWhile (· ≠ '\n'))
  else if c = '/' ∧ rest.head? = some '*' then (.comment, endComment 1 rest.tail)
  else if c = '\'' then
    (.stringLiteral (quotedText false '\'' rest).1, (quotedText false '\'' rest).2)
  else if c = '"' then (.quotedIdentifier, (quotedText false '"' rest).2)
  else if c = ';' then (.semicolon, rest)
  else if c = '$' then
    match dollarOpener tables rest with
    | some (tag, after) => (.dollarString, endDollar ('$' :: tag ++ ['$']) after)
    | none => (.operator c, rest)
  else if startsIdentifier tables c then
    (.identifier (c :: rest.takeWhile (continuesIdentifier tables)),
      rest.dropWhile (continuesIdentifier tables))
  else if tables.isDigit c then (.digit c, rest)
  else if tables.isSpace c then (.space, rest)
  else (.operator c, rest)

/-- A digit and a dollar sign that are tokens of their own. -/
def Token.glues : Token → Bool
  | .digit _ => true
  | .operator c => c = '$'
  | _ => false

def lexer : Lexer Token Unit := ⟨fun _ => nextToken tables, fun _ _ => (), Token.glues⟩

def lexemes (sql : List Char) : List (Lexed Token) := (lexer tables).lexFrom sql.length () false sql

end

def Token.isContent : Token → Bool
  | .space => false
  | .comment => false
  | _ => true

def countStatements (kind : Token → Bool) (tokens : List Token) : Nat :=
  countSeparated (· = .semicolon) kind tokens

/-! ## Where the guard's reading is PostgreSQL's -/

section
variable (tables : UnicodeTables)

/-- The lexeme is one that the guard reads as PostgreSQL does. -/
def Common (lexeme : Lexed Token) : Prop :=
  match lexeme.token with
  | .stringLiteral text => escapesQuote '\'' text = false
  | .identifier name => name.count '$' ≤ 1
  | .operator c => c ≠ '#' ∧ c ≠ '`' ∧
      (c = '$' → (lexeme.rest.dropWhile (isWordRune tables)).head? ≠ some '$')
  | _ => True

instance (lexeme : Lexed Token) : Decidable (Common tables lexeme) := by
  unfold Common
  split <;> infer_instance

def Token.isCounted (token : Token) : Bool :=
  token.isContent && token ≠ .operator '$'

def view : View Token where
  continues := continuesIdentifier tables
  separates := (· = .semicolon)
  counted := Token.isCounted
  name
    | .identifier name => some name
    | _ => none

/-! ## Skipped text -/

theorem skipBlock_eq (depth : Nat) (text : List Char) :
    skipBlock depth text = endComment depth text := by
  fun_induction skipBlock depth text with
  | case1 | case2 | case3 => simp [endComment]
  | case4 _ _ _ _ opens ih | case5 _ _ _ _ _ opens ih =>
    obtain ⟨rfl, rfl⟩ := opens
    rw [ih, endComment]
  | case6 _ _ _ _ plain open_ ih =>
    rw [ih, eq_comm, endComment]
    · rintro more rfl equal
      cases equal
      exact plain ⟨rfl, rfl⟩
    · rintro more rfl equal
      cases equal
      exact open_ ⟨rfl, rfl⟩

theorem skipQuoted_single_eq (text : List Char)
    (plain : escapesQuote '\'' (quotedText false '\'' text).1 = false) :
    skipQuoted '\'' text = (quotedText false '\'' text).2 := by
  fun_induction skipQuoted '\'' text with
  | case1 | case2 => rfl
  | case3 _ d rest escape ih =>
    obtain ⟨rfl, -⟩ := escape
    -- the guard jumps over d, PostgreSQL reads it
    cases rest with
    | nil => simp [quotedText, skipQuoted]
    | cons e =>
      by_cases quote : d = '\''
      · subst quote
        by_cases doubled : e = '\'' <;>
          simp [quotedText, doubled, escapesQuote] at plain
      · simp only [quotedText, Bool.false_eq_true, and_false, Char.reduceEq, if_false, quote,
          escapesQuote, if_true, decide_false, Bool.false_or] at plain ⊢
        exact ih plain
  | case4 _ _ ih =>
    simp only [quotedText, Bool.false_eq_true, and_false, if_false, if_true] at plain ⊢
    rw [escapesQuote_cons (by decide), escapesQuote_cons (by decide)] at plain
    exact ih plain
  | case5 _ _ single => simp [quotedText, single]
  | case6 c _ _ noEscape inside ih =>
    have letter : c ≠ '\\' := fun equal => noEscape ⟨equal, rfl⟩
    simp only [quotedText, Bool.false_eq_true, and_false, inside, if_false] at plain ⊢
    rw [escapesQuote_cons letter] at plain
    exact ih plain

theorem skipDollarQuoted_eq (tag text : List Char) :
    skipDollarQuoted ('$' :: tag) text = endDollar ('$' :: tag) text :=
  skipDollarQuoted_chars tag text

/-! ## One token -/

theorem not_continues_of_dropWhile (text : List Char) :
    ∀ c ∈ (text.dropWhile (continuesIdentifier tables)).head?,
      continuesIdentifier tables c = false := by
  have head := head?_dropWhile_not (continuesIdentifier tables) text
  intro c member
  rw [Option.mem_def.mp member] at head
  exact head

theorem dollarTag_inside {name after : List Char}
    (letters : ∀ c ∈ name, continuesIdentifier tables c = true) (last : '$' ∉ name)
    (stop : ∀ c ∈ after.head?, continuesIdentifier tables c = false) :
    dollarTag tables (name ++ after) = none := by
  have words : ∀ c ∈ name, isWordRune tables c = true := by
    intro c member
    have ne : c ≠ '$' := fun equal => last (equal ▸ member)
    simpa [continuesIdentifier, ne] using letters c member
  unfold dollarTag
  rw [dropWhile_append_of_pos words]
  cases after with
  | nil => rfl
  | cons d rest =>
    have ends := stop d rfl
    simp only [continuesIdentifier, Bool.or_eq_false_iff, decide_eq_false_iff_not] at ends
    simp only [dropWhile_cons, ends.1, Bool.false_eq_true, if_false]
    split
    · rename_i equal
      cases equal
      exact absurd rfl ends.2
    · rfl

theorem scanFrom_identifier (name after : List Char) (state : ScanState)
    (letters : ∀ c ∈ name, continuesIdentifier tables c = true) (few : name.count '$' ≤ 1)
    (stop : ∀ c ∈ after.head?, continuesIdentifier tables c = false) :
    ∃ pending, (state.pending = true → pending = true) ∧
      ((∃ c ∈ name.head?, isWordRune tables c = true) → pending = true) ∧
      scanFrom tables state (name ++ after) =
        scanFrom tables { state with word := state.word ++ name, pending := pending } after := by
  induction name generalizing state with
  | nil => exact ⟨state.pending, id, by simp, by simp⟩
  | cons c name ih =>
    have rest : ∀ d ∈ name, continuesIdentifier tables d = true :=
      fun d member => letters d (mem_cons_of_mem c member)
    by_cases dollar : c = '$'
    · subst dollar
      have last : '$' ∉ name := by
        intro member
        have positive := count_pos_iff.mpr member
        simp only [count_cons_self] at few
        omega
      have step : scanStep tables state '$' (name ++ after) =
          ({ state with word := state.word ++ ['$'] }, name ++ after) := by
        simp [scanStep, dollarTag_inside tables rest last stop]
      obtain ⟨pending, kept, -, run⟩ := ih { state with word := state.word ++ ['$'] } rest
        (le_trans (count_le_count_cons) few)
      refine ⟨pending, kept, ?_, ?_⟩
      · rintro ⟨d, head, word⟩
        cases head
        rw [isWordRune_special tables (by decide)] at word
        contradiction
      · rw [cons_append, scanFrom_cons, step]
        simpa using run
    · have word : isWordRune tables c = true := by
        simpa [continuesIdentifier, dollar] using letters c (by simp)
      obtain ⟨pending, kept, -, run⟩ :=
        ih { state with word := state.word ++ [c], pending := true } rest
          (le_trans (count_le_count_cons) few)
      refine ⟨pending, fun _ => kept rfl, fun _ => kept rfl, ?_⟩
      rw [cons_append, scanFrom_cons, scanStep_word tables state _ word]
      simpa using run

theorem dollarTag_of_opener {rest tag after : List Char}
    (opened : dollarOpener tables rest = some (tag, after)) :
    dollarTag tables rest = some ('$' :: tag ++ ['$'], after) := by
  simp only [dollarOpener] at opened
  unfold dollarTag
  split at opened
  · rename_i tail found
    split at opened <;> cases opened
    simp [found]
  · contradiction

variable {tables} {state : ScanState} {glued : Bool} {c : Char} {rest : List Char}

theorem reads_identifier (starts : startsIdentifier tables c = true)
    (boundary : AtBoundary (view tables) glued state.word (c :: rest))
    (few : (c :: rest.takeWhile (continuesIdentifier tables)).count '$' ≤ 1) :
    Reads (lexer tables) (view tables) tables state glued c rest
      (.identifier (c :: rest.takeWhile (continuesIdentifier tables)))
      (rest.dropWhile (continuesIdentifier tables)) := by
  have word : isWordRune tables c = true := by
    simp only [startsIdentifier, Bool.or_eq_true] at starts
    rcases starts with letter | underscore <;> simp_all [isWordRune]
  have continues : continuesIdentifier tables c = true := by simp [continuesIdentifier, word]
  have letters : ∀ d ∈ c :: rest.takeWhile (continuesIdentifier tables),
      continuesIdentifier tables d = true := by
    intro d member
    rcases mem_cons.mp member with rfl | member
    · exact continues
    · exact mem_takeWhile_imp member
  have stop := not_continues_of_dropWhile tables rest
  obtain ⟨_, -, set, run⟩ := scanFrom_identifier tables
    (c :: rest.takeWhile (continuesIdentifier tables))
    (rest.dropWhile (continuesIdentifier tables)) state letters few stop
  rw [cons_append, takeWhile_append_dropWhile] at run
  have empty : glued = false → state.word = [] := by
    intro separate
    refine (boundary separate).resolve_right fun stops => ?_
    have clash : continuesIdentifier tables c = false := stops c rfl
    rw [continues] at clash
    contradiction
  refine ⟨_, ?_, run⟩
  refine ⟨fun _ => .inr stop, fun _ member => member, ?_, ?_, by simp [view], ?_⟩
  · exact fun separate held => absurd (empty separate) held
  · intro name named separate
    cases Option.some.inj named
    exact ⟨by simp [empty separate], cons_ne_nil _ _⟩
  · exact fun _ => ⟨rfl, fun _ => set ⟨c, rfl, word⟩⟩

inductive Branch (tables : UnicodeTables) (c : Char) (rest : List Char) :
    Token × List Char → Prop where
  | line (dashes : c = '-' ∧ rest.head? = some '-') :
      Branch tables c rest (.comment, rest.dropWhile (· ≠ '\n'))
  | block (slash : c = '/' ∧ rest.head? = some '*') :
      Branch tables c rest (.comment, endComment 1 rest.tail)
  | literal (quote : c = '\'') : Branch tables c rest
      (.stringLiteral (quotedText false '\'' rest).1, (quotedText false '\'' rest).2)
  | quoted (quote : c = '"') : Branch tables c rest (.quotedIdentifier, (quotedText false '"' rest).2)
  | semicolon (separator : c = ';') : Branch tables c rest (.semicolon, rest)
  | dollarString (dollar : c = '$') {tag after : List Char}
      (opened : dollarOpener tables rest = some (tag, after)) :
      Branch tables c rest (.dollarString, endDollar ('$' :: tag ++ ['$']) after)
  | dollar (dollar : c = '$') : Branch tables c rest (.operator c, rest)
  | identifier (starts : startsIdentifier tables c = true) :
      Branch tables c rest (.identifier (c :: rest.takeWhile (continuesIdentifier tables)),
        rest.dropWhile (continuesIdentifier tables))
  | digit (figure : tables.isDigit c = true) : Branch tables c rest (.digit c, rest)
  | space (blank : tables.isSpace c = true) (other : isWordRune tables c = false) :
      Branch tables c rest (.space, rest)
  | operator (visible : tables.isSpace c = false) (other : isWordRune tables c = false)
      (special : c ∉ ['\'', '"', ';', '$']) (dashes : ¬ (c = '-' ∧ rest.head? = some '-'))
      (slash : ¬ (c = '/' ∧ rest.head? = some '*')) : Branch tables c rest (.operator c, rest)

theorem nextToken_branch (tables : UnicodeTables) (c : Char) (rest : List Char) :
    Branch tables c rest (nextToken tables c rest) := by
  refine of_ite (motive := Branch tables c rest) .line fun dashes => ?_
  refine of_ite (motive := Branch tables c rest) .block fun slash => ?_
  refine of_ite (motive := Branch tables c rest) .literal fun single => ?_
  refine of_ite (motive := Branch tables c rest) .quoted fun double => ?_
  refine of_ite (motive := Branch tables c rest) .semicolon fun semicolon => ?_
  refine of_ite (motive := Branch tables c rest) (fun dollar => ?_) fun dollar => ?_
  · cases opened : dollarOpener tables rest with
    | some => exact .dollarString dollar opened
    | none => exact .dollar dollar
  refine of_ite (motive := Branch tables c rest) .identifier fun starts => ?_
  refine of_ite (motive := Branch tables c rest) .digit fun figure => ?_
  have other : isWordRune tables c = false := by
    simp only [startsIdentifier, Bool.or_eq_true, not_or, Bool.not_eq_true,
      decide_eq_true_eq] at starts
    simp [isWordRune, starts, Bool.eq_false_iff.mpr figure]
  refine of_ite (motive := Branch tables c rest) (fun blank => .space blank other) fun visible => ?_
  exact .operator (Bool.eq_false_iff.mpr visible) other
    (by simp [single, double, semicolon, dollar]) dashes slash

theorem scanStep_other (other : isWordRune tables c = false)
    (special : c ∉ ['\'', '"', ';', '$', '#', '`'])
    (dashes : ¬ (c = '-' ∧ rest.head? = some '-')) (slash : ¬ (c = '/' ∧ rest.head? = some '*')) :
    scanStep tables state c rest =
      ({ state.flush with pending := state.pending || !tables.isSpace c }, rest) := by
  simp only [mem_cons, not_mem_nil, or_false, not_or] at special
  simp [scanStep, special, dashes, slash, other]

/-- One token of PostgreSQL, read by the scanner's loop. -/
theorem reads_nextToken (boundary : AtBoundary (view tables) glued state.word (c :: rest))
    (common : Common tables
      ⟨(nextToken tables c rest).1, glued, (nextToken tables c rest).2⟩) :
    Reads (lexer tables) (view tables) tables state glued c rest (nextToken tables c rest).1
      (nextToken tables c rest).2 := by
  have branch := nextToken_branch tables c rest
  generalize nextToken tables c rest = read at branch common ⊢
  cases branch with
  | line dashes =>
    obtain ⟨rfl, second⟩ := dashes
    exact reads_comment (by simp [scanStep, second, skipLine, skipLine_eq]) rfl rfl rfl
  | block slash =>
    obtain ⟨rfl, star⟩ := slash
    exact reads_comment (by simp [scanStep, star, skipBlock_eq]) rfl rfl rfl
  | literal quote =>
    subst quote
    exact reads_flush true (by simp [scanStep, skipQuoted_single_eq rest common]) rfl rfl
      fun _ => rfl
  | quoted quote =>
    subst quote
    exact reads_flush true (by simp [scanStep, skipQuoted_eq]) rfl rfl fun _ => rfl
  | semicolon separator =>
    subst separator
    exact reads_semicolon rfl rfl
  | dollarString dollar opened =>
    subst dollar
    refine reads_flush true ?_ rfl rfl fun _ => rfl
    simp [scanStep, dollarTag_of_opener tables opened, skipDollarQuoted_eq]
  | dollar dollar =>
    subst dollar
    have closed := dollarTag_eq_none tables (common.2.2 rfl)
    refine ⟨_, Advance.glue _ _ boundary (by simp [view, continuesIdentifier]) rfl rfl rfl
      (show _ → state.pending = true from fun pending => ?_), ?_⟩
    · simpa [view, Token.isCounted] using pending
    · simp [scanFrom_cons, scanStep, closed]
  | identifier starts => exact reads_identifier starts boundary common
  | digit figure =>
    have word : isWordRune tables c = true := by simp [isWordRune, figure]
    exact ⟨_, Advance.glue _ _ boundary (by simp [view, continuesIdentifier, word]) rfl rfl rfl
      (show _ → true = true from fun _ => rfl),
      by rw [scanFrom_cons, scanStep_word tables state rest word]⟩
  | space blank other =>
    have visible : ∀ d : Char, d.toNat < 128 →
        d ∉ [' ', '\t', '\n', '\x0b', '\x0c', '\r'] → c ≠ d := by
      rintro d ascii visible rfl
      rw [tables.isSpace_ascii c ascii, decide_eq_true_eq] at blank
      exact visible blank
    refine reads_flush state.pending ?_ rfl rfl fun pending => ?_
    · have special : ∀ d ∈ ['\'', '"', ';', '$', '#', '`'], d.toNat < 128 ∧
          d ∉ [' ', '\t', '\n', '\x0b', '\x0c', '\r'] := by simp
      rw [scanStep_other other
        (fun member => visible c (special c member).1 (special c member).2 rfl)
        (fun dashes => visible '-' (by decide) (by decide) dashes.1)
        fun slash => visible '/' (by decide) (by decide) slash.1]
      simp [blank]
    · simpa [view, Token.isCounted, Token.isContent] using pending
  | operator visible other special dashes slash =>
    have special' : c ∉ ['\'', '"', ';', '$', '#', '`'] := by
      simp only [mem_cons, not_mem_nil, or_false, not_or] at special ⊢
      exact ⟨special.1, special.2.1, special.2.2.1, special.2.2.2, common.1, common.2.1⟩
    refine reads_flush true ?_ rfl rfl fun _ => rfl
    rw [scanStep_other other special' dashes slash]
    simp [visible]

/-! ## The whole statement -/

theorem nextToken_suffix (c : Char) (rest : List Char) : (nextToken tables c rest).2 <:+ rest := by
  have branch := nextToken_branch tables c rest
  generalize nextToken tables c rest = read at branch ⊢
  cases branch with
  | block =>
    rw [← skipBlock_eq]
    exact (skipBlock_suffix 1 rest.tail).trans (tail_suffix rest)
  | literal => exact quotedText_suffix false '\'' rest
  | quoted => exact quotedText_suffix false '"' rest
  | dollarString _ opened =>
    rw [List.cons_append, ← skipDollarQuoted_eq]
    exact (skipDollarQuoted_suffix _ _).trans
      (dollarTag_suffix tables (dollarTag_of_opener tables opened))
  | line | identifier => exact List.dropWhile_suffix _
  | _ => exact List.suffix_refl _

end

/-- A statement the guard accepts, all of whose lexemes are common to the guard's
reading and PostgreSQL's: no write keyword is an identifier of it, unless one that
directly follows a digit or a dollar sign, and at most one of its statements has
content other than dollar signs by themselves. -/
theorem readOnly_sound_for_postgres (tables : UnicodeTables) (sql : List Char)
    (common : ∀ lexeme ∈ lexemes tables sql, Common tables lexeme)
    (accepted : readOnly tables sql = none) :
    (∀ lexeme ∈ lexemes tables sql, lexeme.glued = false →
      ∀ name, lexeme.token = .identifier name → toUpper tables name ∉ writeKeywords) ∧
    countStatements Token.isCounted ((lexemes tables sql).map Lexed.token) ≤ 1 := by
  obtain ⟨single, clean⟩ := readOnly_eq_none accepted
  have unglued : ∀ token, ∀ name ∈ (view tables).name token,
      (lexer tables).glues token = false := by
    intro token name named
    cases token with
    | identifier => rfl
    | _ => simp [view] at named
  obtain ⟨-, -, names, statements⟩ := scan_covers (view tables) tables (fun _ => True) unglued
    (fun _ => nextToken_suffix) (fun mode state glued c rest _ boundary common => by
      exact ⟨reads_nextToken boundary common, trivial⟩)
    sql.length () {} false sql le_rfl trivial (fun _ => .inl rfl) common
  refine ⟨fun lexeme member separate name token => ?_, ?_⟩
  · refine clean name (names lexeme member separate name ?_)
    rw [token]
    rfl
  · rw [countStatements, countSeparated_eq]
    exact (Nat.le_add_left _ _).trans (statements.trans single)

def sampleQuery : List Char :=
  "SELECT 'it''s', $q$drop$q$, a$1 FROM \"set\" /* /* do */ */ -- call\n;".toList

theorem readOnly_sound_for_sampleQuery :
    readOnly asciiTables sampleQuery = none ∧
    (∀ lexeme ∈ lexemes asciiTables sampleQuery, lexeme.glued = false →
      ∀ name, lexeme.token = .identifier name → toUpper asciiTables name ∉ writeKeywords) ∧
    countStatements Token.isCounted ((lexemes asciiTables sampleQuery).map Lexed.token) ≤ 1 := by
  have accepted : readOnly asciiTables sampleQuery = none := by decide +kernel
  exact ⟨accepted, readOnly_sound_for_postgres asciiTables sampleQuery (by decide +kernel) accepted⟩

/-- PostgreSQL ends the literal at the quote after the backslash and drops the
table; for the guard the literal goes on to the end of the text. -/
theorem backslash_hides_drop :
    let sql := "SELECT '\\'; DROP TABLE t; --'".toList
    readOnly asciiTables sql = none ∧
    (∃ lexeme ∈ lexemes asciiTables sql, lexeme.glued = false ∧
      lexeme.token = .identifier "DROP".toList ∧
      toUpper asciiTables "DROP".toList ∈ writeKeywords) ∧
    countStatements Token.isContent ((lexemes asciiTables sql).map Lexed.token) = 2 := by
  decide +kernel

-- what the other conditions leave out is accepted as well
example : readOnly asciiTables "SELECT 1 # 2; DROP TABLE t".toList = none := by decide +kernel

example : readOnly asciiTables "SELECT a$b$; DROP TABLE t; --$b$".toList = none := by
  decide +kernel

example : readOnly asciiTables "SELECT $1$; DROP TABLE t; --$1$".toList = none := by
  decide +kernel

example : readOnly asciiTables "SELECT 1INTO t".toList = none := by decide +kernel

example : readOnly asciiTables "SELECT 1; $".toList = none := by decide +kernel

end DbBridge.SqlGuard.Postgres
