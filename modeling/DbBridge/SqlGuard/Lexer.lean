import Mathlib.Data.List.TakeWhile
import DbBridge.SqlGuard.Scan

/-!
# The scanner beside a dialect's lexer

A dialect reads a statement token by token, the guard reads it with the loop of `scan`.
`Reads` says that the loop gets past one token of the dialect; `scan_covers` is the rule
that makes of it a statement about the whole text: the guard's words hold every name of
the dialect's reading, and it counts every statement.
-/

namespace DbBridge.SqlGuard

open List

/-! ## Lexers -/

/-- The token at a position, read in one of the lexer's modes, with the text after it.
`glues` marks the tokens behind which the scanner's word goes on. -/
structure Lexer (τ σ : Type) where
  next : σ → Char → List Char → τ × List Char
  follow : σ → τ → σ
  glues : τ → Bool

/-- A token with the text after it; `glued` says that it directly follows one that
glues. -/
structure Lexed (τ : Type) where
  token : τ
  glued : Bool
  rest : List Char

/-- Every token takes a character, so the length of the text is enough fuel. -/
def Lexer.lexFrom {τ σ : Type} (lexer : Lexer τ σ) : Nat → σ → Bool → List Char → List (Lexed τ)
  | _, _, _, [] => []
  | 0, _, _, _ :: _ => []
  | fuel + 1, mode, glued, c :: rest =>
    { token := (lexer.next mode c rest).1, glued, rest := (lexer.next mode c rest).2 } ::
      lexer.lexFrom fuel (lexer.follow mode (lexer.next mode c rest).1)
        (lexer.glues (lexer.next mode c rest).1) (lexer.next mode c rest).2

/-- The number of statements that hold a token of a kind, where some tokens separate
statements. -/
def countSeparated {τ : Type} (separates kind : τ → Bool) (tokens : List τ) : Nat :=
  (tokens.splitOnP separates).countP fun statement => statement.any kind

/-- What the comparison looks at: the characters that continue an identifier, the tokens
that separate statements, those that make one count, and the names that have to be among
the scanner's words. -/
structure View (τ : Type) where
  continues : Char → Bool
  separates : τ → Bool
  counted : τ → Bool
  name : τ → Option (List Char)

/-- A rule for the branches of a lexer. -/
theorem of_ite {α : Type} {p : Prop} [Decidable p] {motive : α → Prop} {a b : α}
    (yes : p → motive a) (no : ¬ p → motive b) : motive (if p then a else b) := by
  split
  · exact yes ‹p›
  · exact no ‹¬ p›

/-! ## The scanner's variables -/

section
variable (state : ScanState)
include state

theorem flush_word : state.flush.word = [] := by
  unfold ScanState.flush
  split <;> simp_all

theorem flush_words :
    (∀ word ∈ state.words, word ∈ state.flush.words) ∧
      (state.word ≠ [] → state.word ∈ state.flush.words) := by
  unfold ScanState.flush
  split <;> simp_all

theorem flush_statements :
    state.flush.statements = state.statements ∧ state.flush.pending = state.pending := by
  unfold ScanState.flush
  split <;> simp

theorem endStatement_statements :
    state.flush.endStatement.statements = state.statements + state.pending.toNat ∧
      state.flush.endStatement.pending = false := by
  obtain ⟨statements, pending⟩ := flush_statements state
  unfold ScanState.endStatement
  rw [pending, statements]
  cases held : state.pending <;> simp [statements, pending, held]

theorem endStatement_words :
    state.flush.endStatement.word = [] ∧ state.flush.endStatement.words = state.flush.words := by
  unfold ScanState.endStatement
  split <;> simp [flush_word]

end

theorem skipLine_eq (rest : List Char) : skipLine rest = rest.dropWhile (· ≠ '\n') := by
  induction rest with
  | nil => rfl
  | cons c _ ih => by_cases newline : c = '\n' <;> simp [skipLine, newline, ih]

theorem dollarTag_eq_none (tables : UnicodeTables) {rest : List Char}
    (closed : (rest.dropWhile (isWordRune tables)).head? ≠ some '$') :
    dollarTag tables rest = none := by
  unfold dollarTag
  split
  · rename_i tail found
    simp [found] at closed
  · rfl

theorem readOnly_eq_none_iff (tables : UnicodeTables) (sql : List Char) :
    readOnly tables sql = none ↔
      (scan tables sql).1 ≠ [] ∧ (scan tables sql).2 ≤ 1 ∧
        (∀ verb ∈ (scan tables sql).1.head?, toUpper tables verb ∈ readVerbs) ∧
        ∀ word ∈ (scan tables sql).1, toUpper tables word ∉ writeKeywords := by
  unfold readOnly
  split
  · rename_i statements scanned
    simp [scanned]
  · rename_i verb words statements scanned
    simp only [scanned, head?_cons, Option.mem_some_iff, forall_eq', ne_eq, reduceCtorEq,
      not_false_eq_true, true_and]
    split
    · rename_i many
      simp [Nat.not_le.mpr many]
    · rename_i few
      split
      · rename_i other
        simp [other]
      · rename_i reads
        split
        · rename_i word found
          have member := mem_of_find?_eq_some found
          have written := find?_some found
          simp only [reduceCtorEq, false_iff, not_and]
          intro _ _ all
          exact all word member (by simpa using written)
        · rename_i none
          refine ⟨fun _ => ⟨Nat.le_of_not_gt few, not_not.mp reads, ?_⟩, fun _ => rfl⟩
          intro word member
          simpa using find?_eq_none.mp none word member

theorem readOnly_eq_none {tables : UnicodeTables} {sql : List Char}
    (accepted : readOnly tables sql = none) :
    (scanFrom tables {} sql).flush.endStatement.statements ≤ 1 ∧
      ∀ word ∈ (scanFrom tables {} sql).flush.words, toUpper tables word ∉ writeKeywords := by
  obtain ⟨-, few, -, reads⟩ := (readOnly_eq_none_iff tables sql).mp accepted
  rw [← (endStatement_words _).2]
  exact ⟨few, reads⟩

/-! ## Quoted text -/

/-- The text up to the first quote that is not doubled, nor escaped where a backslash
escapes, and the text after it. -/
def quotedText (backslash : Bool) (quote : Char) : List Char → List Char × List Char
  | [] => ([], [])
  | [c] => ([c], [])
  | c :: d :: rest =>
    if c = '\\' ∧ backslash = true then
      (c :: d :: (quotedText backslash quote rest).1, (quotedText backslash quote rest).2)
    else if c = quote then
      if d = quote then
        (c :: d :: (quotedText backslash quote rest).1, (quotedText backslash quote rest).2)
      else ([c], d :: rest)
    else (c :: (quotedText backslash quote (d :: rest)).1,
      (quotedText backslash quote (d :: rest)).2)

def escapesQuote (quote : Char) : List Char → Bool
  | [] => false
  | [_] => false
  | c :: d :: rest =>
    if c = '\\' then d = quote || escapesQuote quote rest else escapesQuote quote (d :: rest)

theorem skipQuoted_eq (quote : Char) (text : List Char) :
    skipQuoted quote text = (quotedText (quote = '\'') quote text).2 := by
  fun_induction skipQuoted quote text with
  | case1 | case2 => rfl
  | case3 _ _ _ escape ih =>
    obtain ⟨rfl, rfl⟩ := escape
    simpa [quotedText] using ih
  | case4 _ plain ih =>
    rw [quotedText, if_neg (by simpa using plain), if_pos rfl, if_pos rfl]
    exact ih
  | case5 _ _ single plain =>
    rw [quotedText, if_neg (by simpa using plain), if_pos rfl, if_neg single]
  | case6 _ _ _ plain inside ih =>
    rw [quotedText, if_neg (by simpa using plain), if_neg inside]
    exact ih

theorem escapesQuote_cons {quote c : Char} (letter : c ≠ '\\') (text : List Char) :
    escapesQuote quote (c :: text) = escapesQuote quote text := by
  cases text with
  | nil => rfl
  | cons => simp [escapesQuote, letter]

theorem quotedText_suffix (backslash : Bool) (quote : Char) (text : List Char) :
    (quotedText backslash quote text).2 <:+ text := by
  fun_induction quotedText backslash quote text with
  | case1 => exact suffix_refl _
  | case2 => exact nil_suffix
  | case3 c d rest _ ih =>
    exact ih.trans ((suffix_cons d rest).trans (suffix_cons c _))
  | case4 rest _ ih =>
    exact ih.trans ((suffix_cons quote rest).trans (suffix_cons quote _))
  | case5 => exact suffix_cons quote _
  | case6 c _ _ _ _ ih => exact ih.trans (suffix_cons c _)

/-! ## One token -/

variable {pending : Bool}

section
variable {τ σ : Type} (lexer : Lexer τ σ) (view : View τ)

def AtBoundary (glued : Bool) (word text : List Char) : Prop :=
  glued = false → word = [] ∨ ∀ c ∈ text.head?, view.continues c = false

/-- What the scanner has done when the dialect has read one token: between tokens it holds
a word only behind tokens that glue, or one that is about to end. -/
structure Advance (state : ScanState) (glued : Bool) (token : τ) (after : List Char)
    (next : ScanState) : Prop where
  boundary : AtBoundary view (lexer.glues token) next.word after
  words : ∀ word ∈ state.words, word ∈ next.words
  flushed : glued = false → state.word ≠ [] → state.word ∈ next.words
  named : ∀ name ∈ view.name token, glued = false → next.word = name ∧ name ≠ []
  ended : view.separates token = true →
    next.statements = state.statements + state.pending.toNat ∧ next.pending = false
  counted : view.separates token = false → next.statements = state.statements ∧
    (state.pending = true ∨ view.counted token = true → next.pending = true)

variable {token : τ}

theorem Advance.flush (state : ScanState) (glued : Bool) (after : List Char)
    (plain : view.separates token = false) (unnamed : view.name token = none)
    (kept : state.pending = true ∨ view.counted token = true → pending = true) :
    Advance lexer view state glued token after { state.flush with pending := pending } where
  boundary _ := .inl (flush_word state)
  words := (flush_words state).1
  flushed _ := (flush_words state).2
  named := by simp [unnamed]
  ended := by simp [plain]
  counted _ := ⟨(flush_statements state).1, kept⟩

theorem Advance.semicolon (state : ScanState) (glued : Bool) (after : List Char)
    (separator : view.separates token = true) (unnamed : view.name token = none) :
    Advance lexer view state glued token after state.flush.endStatement where
  boundary _ := .inl (endStatement_words state).1
  words := (endStatement_words state).2 ▸ (flush_words state).1
  flushed _ := (endStatement_words state).2 ▸ (flush_words state).2
  named := by simp [unnamed]
  ended _ := endStatement_statements state
  counted := by simp [separator]

variable {after : List Char}

theorem Advance.glue {state : ScanState} {glued : Bool} {text : List Char} {c : Char}
    (boundary : AtBoundary view glued state.word (c :: text))
    (continues : view.continues c = true) (glues : lexer.glues token = true)
    (plain : view.separates token = false) (unnamed : view.name token = none)
    (kept : state.pending = true ∨ view.counted token = true → pending = true) :
    Advance lexer view state glued token after
      { state with word := state.word ++ [c], pending := pending } := by
  refine ⟨by simp [AtBoundary, glues], fun _ member => member, ?_, by simp [unnamed],
    by simp [plain], fun _ => ⟨rfl, kept⟩⟩
  intro separate held
  have stops := (boundary separate).resolve_left held c rfl
  rw [continues] at stops
  contradiction

variable (tables : UnicodeTables)

/-- The scanner's loop gets past `token`, which takes it from `c :: rest` to `after`. -/
def Reads (state : ScanState) (glued : Bool) (c : Char) (rest : List Char) (token : τ)
    (after : List Char) : Prop :=
  ∃ next, Advance lexer view state glued token after next ∧
    scanFrom tables state (c :: rest) = scanFrom tables next after

variable {lexer view tables} {state : ScanState} {glued : Bool} {c : Char} {rest : List Char}

theorem reads_flush (pending : Bool)
    (step : scanStep tables state c rest = ({ state.flush with pending := pending }, after))
    (plain : view.separates token = false) (unnamed : view.name token = none)
    (kept : state.pending = true ∨ view.counted token = true → pending = true) :
    Reads lexer view tables state glued c rest token after :=
  ⟨_, Advance.flush lexer view state glued after plain unnamed kept, by rw [scanFrom_cons, step]⟩

theorem reads_comment (step : scanStep tables state c rest = (state.flush, after))
    (plain : view.separates token = false) (unnamed : view.name token = none)
    (blank : view.counted token = false) :
    Reads lexer view tables state glued c rest token after := by
  refine reads_flush state.flush.pending step plain unnamed fun pending => ?_
  rw [(flush_statements state).2]
  simpa [blank] using pending

theorem reads_semicolon (separator : view.separates token = true)
    (unnamed : view.name token = none) : Reads lexer view tables state glued ';' rest token rest :=
  ⟨_, Advance.semicolon lexer view state glued rest separator unnamed,
    by simp [scanFrom_cons, scanStep]⟩

end

/-! ## The whole text -/

section
variable {τ : Type} (separates kind : τ → Bool)

/-- The statements that still end, where `pending` says that the current one has
something in it. -/
def countPending : Bool → List τ → Nat
  | pending, [] => pending.toNat
  | pending, token :: rest =>
    if separates token then pending.toNat + countPending false rest
    else countPending (pending || kind token) rest

theorem countPending_eq (pending : Bool) (tokens : List τ) :
    ∃ first others, tokens.splitOnP separates = first :: others ∧
      countPending separates kind pending tokens =
        (pending || first.any kind).toNat + others.countP fun statement => statement.any kind := by
  induction tokens generalizing pending with
  | nil => exact ⟨[], [], splitOnP_nil, by simp [countPending]⟩
  | cons token _ ih =>
    rw [splitOnP_cons_eq_if_modifyHead]
    by_cases semicolon : separates token = true
    · obtain ⟨first, others, split, count⟩ := ih false
      refine ⟨[], first :: others, by simp [semicolon, split], ?_⟩
      simp only [countPending, if_pos semicolon, count, countP_cons]
      cases first.any kind <;> simp [Nat.add_comm]
    · obtain ⟨first, others, split, count⟩ := ih (pending || kind token)
      refine ⟨token :: first, others, by simp [semicolon, split], ?_⟩
      simp only [countPending, if_neg semicolon, count, any_cons, Bool.or_assoc]

theorem countSeparated_eq (tokens : List τ) :
    countSeparated separates kind tokens = countPending separates kind false tokens := by
  obtain ⟨first, _, split, count⟩ := countPending_eq separates kind false tokens
  rw [countSeparated, split, count, countP_cons]
  cases first.any kind <;> simp [Nat.add_comm]

theorem countPending_mono {more : Bool} (tokens : List τ) (implies : pending = true → more = true) :
    countPending separates kind pending tokens ≤ countPending separates kind more tokens := by
  induction tokens generalizing pending more with
  | nil => cases pending <;> cases more <;> simp_all [countPending]
  | cons _ _ ih =>
    simp only [countPending]
    split
    · cases pending <;> cases more <;> simp_all
    · apply ih
      simp only [Bool.or_eq_true]
      exact Or.imp_left implies

theorem countPending_pos {tokens : List τ}
    (present : pending = true ∨ ∃ token ∈ tokens, separates token = false ∧ kind token = true) :
    0 < countPending separates kind pending tokens := by
  induction tokens generalizing pending with
  | nil =>
    have held : pending = true := by simpa using present
    simp [countPending, held]
  | cons token rest ih =>
    simp only [countPending]
    split
    · rename_i semicolon
      rcases present with held | ⟨found, member, plain, counts⟩
      · exact Nat.add_pos_left (by simp [held]) _
      · rcases mem_cons.mp member with rfl | later
        · rw [semicolon] at plain
          contradiction
        · exact Nat.add_pos_right _ (ih (.inr ⟨found, later, plain, counts⟩))
    · apply ih
      rcases present with held | ⟨found, member, plain, counts⟩
      · exact .inl (by simp [held])
      · rcases mem_cons.mp member with rfl | later
        · exact .inl (by simp [counts])
        · exact .inr ⟨found, later, plain, counts⟩

variable {σ : Type} {lexer : Lexer τ σ} (view : View τ) (tables : UnicodeTables)
  {Common : Lexed τ → Prop} (Regular : σ → Prop)

/-- A dialect whose common lexemes the scanner reads, in the modes they lead to: from any
boundary between tokens on, the scanner's words hold every name, and it counts every
statement. -/
theorem scan_covers
    (unglued : ∀ token, ∀ name ∈ view.name token, lexer.glues token = false)
    (suffix : ∀ mode c rest, (lexer.next mode c rest).2 <:+ rest)
    (reads : ∀ mode state glued c rest, Regular mode →
      AtBoundary view glued state.word (c :: rest) →
      Common ⟨(lexer.next mode c rest).1, glued, (lexer.next mode c rest).2⟩ →
      Reads lexer view tables state glued c rest (lexer.next mode c rest).1
        (lexer.next mode c rest).2 ∧ Regular (lexer.follow mode (lexer.next mode c rest).1))
    (fuel : Nat) (mode : σ) (state : ScanState) (glued : Bool) (text : List Char)
    (enough : text.length ≤ fuel) (regular : Regular mode)
    (boundary : AtBoundary view glued state.word text)
    (common : ∀ lexeme ∈ lexer.lexFrom fuel mode glued text, Common lexeme) :
    (∀ word ∈ state.words, word ∈ (scanFrom tables state text).flush.words) ∧
    (glued = false → state.word ≠ [] →
      state.word ∈ (scanFrom tables state text).flush.words) ∧
    (∀ lexeme ∈ lexer.lexFrom fuel mode glued text, lexeme.glued = false →
      ∀ name ∈ view.name lexeme.token,
        name ∈ (scanFrom tables state text).flush.words) ∧
    state.statements + countPending view.separates view.counted state.pending
        ((lexer.lexFrom fuel mode glued text).map Lexed.token) ≤
      (scanFrom tables state text).flush.endStatement.statements := by
  have finish : ∀ state : ScanState,
      state.statements + state.pending.toNat ≤ state.flush.endStatement.statements :=
    fun state => (endStatement_statements state).1.ge
  induction fuel generalizing mode state glued text with
  | zero =>
    have empty : text = [] := eq_nil_of_length_eq_zero (Nat.le_zero.mp enough)
    subst empty
    exact ⟨(flush_words state).1, fun _ => (flush_words state).2, by simp [Lexer.lexFrom],
      finish state⟩
  | succ fuel ih =>
    cases text with
    | nil =>
      exact ⟨(flush_words state).1, fun _ => (flush_words state).2, by simp [Lexer.lexFrom],
        finish state⟩
    | cons c rest =>
      have shorter := (suffix mode c rest).length_le
      obtain ⟨⟨next, advance, run⟩, regular'⟩ :=
        reads mode state glued c rest regular boundary (common _ mem_cons_self)
      obtain ⟨words, word, names, statements⟩ := ih _ next _ _ (by simp at enough; omega)
        regular' advance.boundary
        fun lexeme member => common lexeme (mem_cons_of_mem _ member)
      rw [run]
      refine ⟨fun w member => words w (advance.words w member), ?_, ?_, ?_⟩
      · exact fun separate held => words _ (advance.flushed separate held)
      · intro lexeme member separate name named
        rcases mem_cons.mp member with rfl | later
        · obtain ⟨rfl, some⟩ := advance.named name named separate
          exact word (unglued _ _ named) some
        · exact names lexeme later separate name named
      · simp only [Lexer.lexFrom, map_cons, countPending]
        split
        · rename_i semicolon
          obtain ⟨ended, pending⟩ := advance.ended semicolon
          rw [pending, ended] at statements
          omega
        · rename_i plain
          obtain ⟨same, pending⟩ := advance.counted (Bool.eq_false_iff.mpr plain)
          rw [same] at statements
          refine le_trans ?_ statements
          refine Nat.add_le_add_left (countPending_mono _ _ _ ?_) _
          simpa using pending

end

end DbBridge.SqlGuard
