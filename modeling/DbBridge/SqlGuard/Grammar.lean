import DbBridge.SqlGuard.Tokens

/-!
# The grammar of the guard

What `ReadOnly` accepts, said of the tokens of a statement: one segment between semicolons
with something in it, a verb that reads, no keyword that writes. And what the tokens of a
text are when a skipped token stands in its middle: those of the parts.
-/

namespace DbBridge.SqlGuard.Grammar

open List

variable (tables : UnicodeTables)

/-! ## What is accepted -/

def Token.isContent : Token → Bool
  | line _ | block _ | semicolon => false
  | quoted _ | dollar _ | word _ => true
  | other c => !tables.isSpace c

def words (sql : List Char) : List (List Char) := (tokens tables sql).filterMap Token.word?

def segments (sql : List Char) : List (List Token) :=
  (tokens tables sql).splitOnP Token.isSemicolon

/-- The number of segments with a token of a kind. -/
def segmentsWith (kind : Token → Bool) (sql : List Char) : Nat :=
  ((segments tables sql).filter fun segment => segment.any kind).length

structure ReadsOnly (sql : List Char) : Prop where
  words : words tables sql ≠ []
  verb : ∀ verb ∈ (Grammar.words tables sql).head?, toUpper tables verb ∈ readVerbs
  reads : ∀ word ∈ Grammar.words tables sql, toUpper tables word ∉ writeKeywords

structure Conforms (sql : List Char) : Prop extends ReadsOnly tables sql where
  single : segmentsWith tables (Token.isContent tables) sql = 1

/-- Besides the one segment that the scanner counts, others have nothing in them but dollar
signs that open no dollar quote. -/
structure Overlooked (sql : List Char) : Prop extends ReadsOnly tables sql where
  counted : segmentsWith tables (Token.isCounted tables) sql ≤ 1
  several : 1 < segmentsWith tables (Token.isContent tables) sql

variable {tables} {token : Token}

theorem content_of_counted (counted : token.isCounted tables = true) :
    token.isContent tables = true := by
  cases token with
  | other => exact counted
  | word | quoted | dollar => rfl
  | line | block | semicolon => contradiction

variable {sql : List Char}

theorem counted_le_content :
    segmentsWith tables (Token.isCounted tables) sql ≤
      segmentsWith tables (Token.isContent tables) sql := by
  rw [segmentsWith, segmentsWith, ← countP_eq_length_filter, ← countP_eq_length_filter]
  refine countP_mono_left fun segment _ counted => ?_
  obtain ⟨token, present, counts⟩ := any_eq_true.mp counted
  exact any_eq_true.mpr ⟨token, present, content_of_counted counts⟩

variable {text : List Char}

theorem word_is_content (named : token.word? = some text) :
    token.isSemicolon = false ∧ token.isContent tables = true := by
  cases token with
  | word => exact ⟨rfl, rfl⟩
  | _ => contradiction

theorem content_pos (some : words tables sql ≠ []) :
    0 < segmentsWith tables (Token.isContent tables) sql := by
  obtain ⟨_, member⟩ := exists_mem_of_ne_nil _ some
  obtain ⟨token, present, named⟩ := mem_filterMap.mp member
  have counted := countPending_pos Token.isSemicolon (Token.isContent tables)
    (.inr ⟨token, present, word_is_content named⟩ : false = true ∨ _)
  rw [← countSeparated_eq, countSeparated, countP_eq_length_filter] at counted
  exact counted

theorem readOnly_eq_none_iff_readsOnly : readOnly tables sql = none ↔
    ReadsOnly tables sql ∧ segmentsWith tables (Token.isCounted tables) sql ≤ 1 := by
  have scanned : scan tables sql =
      (words tables sql, segmentsWith tables (Token.isCounted tables) sql) := by
    rw [scan_eq, segmentsWith, ← countP_eq_length_filter]
    rfl
  rw [readOnly_eq_none_iff, scanned]
  exact ⟨fun ⟨found, few, verb, reads⟩ => ⟨⟨found, verb, reads⟩, few⟩,
    fun ⟨reads, few⟩ => ⟨reads.words, few, reads.verb, reads.reads⟩⟩

variable (tables sql)

/-- The guard accepts its grammar and nothing else, except that it accepts the statements in
which it overlooks segments of dollar signs. -/
theorem readOnly_iff_conforms :
    (readOnly tables sql = none ↔ Conforms tables sql) ↔ ¬ Overlooked tables sql := by
  have fewer := @counted_le_content tables sql
  rw [readOnly_eq_none_iff_readsOnly]
  constructor
  · intro same overlooked
    have single := (same.mp ⟨overlooked.toReadsOnly, overlooked.counted⟩).single
    exact absurd single overlooked.several.ne'
  · intro seen
    refine ⟨fun ⟨reads, few⟩ => ⟨reads, ?_⟩, fun conforms => ⟨conforms.toReadsOnly, ?_⟩⟩
    · have positive := content_pos reads.words
      have atMost : ¬ 1 < segmentsWith tables (Token.isContent tables) sql :=
        fun several => seen ⟨reads, few, several⟩
      omega
    · exact fewer.trans conforms.single.le

variable {tables}

/-- Two segments with something in them, and one of them is a dollar sign. -/
theorem lone_dollar_accepted :
    readOnly asciiTables "SELECT 1;$".toList = none ∧
      ¬ Conforms asciiTables "SELECT 1;$".toList := by
  refine ⟨by decide +kernel, fun conforms => ?_⟩
  have single := conforms.single
  revert single
  decide +kernel

/-! ## A space between two texts

A space ends every token but those that it is inside of. -/

section
variable (tables)

def EndsOutside (text : List Char) : Prop := ∀ token ∈ tokens tables text, token.closed = true

variable {after : List Char}

theorem closeLine_append (more : List Char) (closed : closeLine text = some after) :
    closeLine (text ++ more) = some (after ++ more) := by
  unfold closeLine at closed ⊢
  rw [dropWhile_append]
  split at closed
  · contradiction
  · rename_i newline rest found
    cases closed
    rw [found]
    rfl

theorem closeBlock_append {depth : Nat} (more : List Char)
    (closed : closeBlock depth text = some after) :
    closeBlock depth (text ++ more) = some (after ++ more) := by
  fun_induction closeBlock depth text with
  | case1 =>
    cases closed
    simp [closeBlock]
  | case2 | case3 => contradiction
  | case4 _ _ _ _ opens ih =>
    rw [cons_append, cons_append, closeBlock, if_pos opens]
    exact ih closed
  | case5 _ _ _ _ opens closes ih =>
    rw [cons_append, cons_append, closeBlock, if_neg opens, if_pos closes]
    exact ih closed
  | case6 _ _ _ _ opens closes ih =>
    rw [cons_append, cons_append, closeBlock, if_neg opens, if_neg closes]
    exact ih closed

/-- A quote that closes is still single in front of another character. -/
theorem closeQuoted_append {quote next : Char} (other : next ≠ quote) (more : List Char)
    (closed : closeQuoted quote text = some after) :
    closeQuoted quote (text ++ next :: more) = some (after ++ next :: more) := by
  fun_induction closeQuoted quote text with
  | case2 =>
    cases closed
    have plain : ¬ (quote = '\\' ∧ quote = '\'') := by
      rintro ⟨rfl, _⟩
      contradiction
    simp [closeQuoted, plain, other]
  | case1 | case3 => contradiction
  | case4 _ _ _ escape ih =>
    rw [cons_append, cons_append, closeQuoted, if_pos escape]
    exact ih closed
  | case5 _ escape ih =>
    rw [cons_append, cons_append, closeQuoted, if_neg escape, if_pos rfl, if_pos rfl]
    exact ih closed
  | case6 _ _ escape single =>
    cases closed
    rw [cons_append, cons_append, closeQuoted, if_neg escape, if_pos rfl,
      if_neg single]
  | case7 _ _ _ escape inside ih =>
    rw [cons_append, cons_append, closeQuoted, if_neg escape, if_neg inside]
    exact ih closed

theorem closeDollar_append {tag after : List Char} (more : List Char)
    (closed : closeDollar tag text = some after) :
    closeDollar tag (text ++ more) = some (after ++ more) := by
  obtain ⟨_, found, rest⟩ := Option.map_eq_some_iff.mp closed
  have inside := Utf8.firstIndex_le found
  rw [closeDollar, Utf8.firstIndex_append found more, Option.map_some,
    drop_append_of_le_length inside, rest]

theorem isWordRune_space : isWordRune tables ' ' = false := by
  rw [isWordRune, tables.isLetter_ascii _ (by decide), tables.isDigit_ascii _ (by decide)]
  decide

theorem dollarTag_append (rest more : List Char) :
    dollarTag tables (rest ++ ' ' :: more) =
      (dollarTag tables rest).map fun opener => (opener.1, opener.2 ++ ' ' :: more) := by
  unfold dollarTag
  rw [dropWhile_append, takeWhile_append]
  cases stop : rest.dropWhile (isWordRune tables) with
  | nil => simp [isWordRune_space]
  | cons c =>
    have short : ¬ (rest.takeWhile (isWordRune tables)).length = rest.length := by
      intro whole
      have split := congrArg length (rest.takeWhile_append_dropWhile (p := isWordRune tables))
      rw [stop, length_append, length_cons] at split
      omega
    rw [if_neg short]
    by_cases dollar : c = '$'
    · subst dollar
      rfl
    · simp [dollar]

theorem inWord_append (c : Char) (rest more : List Char) :
    inWord tables c (rest ++ ' ' :: more) = inWord tables c rest := by
  simp [inWord, dollarTag_append]

theorem wordRun_append (rest more : List Char) :
    wordRun tables (rest ++ ' ' :: more) =
      ((wordRun tables rest).1, (wordRun tables rest).2 ++ ' ' :: more) := by
  induction rest with
  | nil => simp [wordRun, inWord, isWordRune_space]
  | cons _ _ ih =>
    simp only [cons_append, wordRun, inWord_append, ih]
    split <;> rfl

theorem head_append {d : Char} (other : d ≠ ' ') (rest more : List Char) :
    (rest ++ ' ' :: more).head? = some d ↔ rest.head? = some d := by
  cases rest with
  | nil => simp [other.symm]
  | cons => rfl

theorem closing_append {kind : Bool → Token} {closed longer : Option (List Char)}
    (marks : (kind false).closed = false) (more : List Char)
    (outside : (closing kind closed).1.closed = true)
    (same : ∀ after, closed = some after → longer = some (after ++ more)) :
    closing kind longer = ((closing kind closed).1, (closing kind closed).2 ++ more) := by
  cases closed with
  | none =>
    change (kind false).closed = true at outside
    rw [marks] at outside
    contradiction
  | some after =>
    rw [same after rfl]
    rfl

theorem nextToken_append (c : Char) (rest more : List Char)
    (outside : (nextToken tables c rest).1.closed = true) :
    nextToken tables c (rest ++ ' ' :: more) =
      ((nextToken tables c rest).1, (nextToken tables c rest).2 ++ ' ' :: more) := by
  unfold nextToken at outside ⊢
  simp only [head_append (show '-' ≠ ' ' by decide), head_append (show '*' ≠ ' ' by decide),
    inWord_append, wordRun_append]
  by_cases line : (c = '-' ∧ rest.head? = some '-') ∨ c = '#'
  · rw [if_pos line] at outside
    rw [if_pos line, if_pos line]
    exact closing_append rfl _ outside fun after => closeLine_append _
  rw [if_neg line] at outside
  rw [if_neg line, if_neg line]
  by_cases block : c = '/' ∧ rest.head? = some '*'
  · have started : (rest ++ ' ' :: more).tail = rest.tail ++ ' ' :: more := by
      obtain ⟨d, inner, rfl⟩ : ∃ d inner, rest = d :: inner :=
        exists_cons_of_ne_nil fun empty => by simp [empty] at block
      rfl
    rw [if_pos block] at outside
    rw [if_pos block, if_pos block, started]
    exact closing_append rfl _ outside fun after => closeBlock_append _
  rw [if_neg block] at outside
  rw [if_neg block, if_neg block]
  by_cases quote : c = '\'' ∨ c = '"' ∨ c = '`'
  · have space : ' ' ≠ c := by
      rintro rfl
      simp at quote
    rw [if_pos quote] at outside
    rw [if_pos quote, if_pos quote]
    exact closing_append rfl _ outside fun after => closeQuoted_append space _
  rw [if_neg quote] at outside
  rw [if_neg quote, if_neg quote]
  by_cases semicolon : c = ';'
  · rw [if_pos semicolon, if_pos semicolon]
  rw [if_neg semicolon] at outside
  rw [if_neg semicolon, if_neg semicolon]
  by_cases inside : inWord tables c rest = true
  · rw [if_pos inside, if_pos inside]
  rw [if_neg inside] at outside
  rw [if_neg inside, if_neg inside]
  by_cases dollar : c = '$'
  · rw [if_pos dollar] at outside
    rw [if_pos dollar, if_pos dollar, dollarTag_append]
    cases opened : dollarTag tables rest with
    | none => rfl
    | some =>
      rw [opened] at outside
      exact closing_append rfl _ outside fun after => closeDollar_append _
  · rw [if_neg dollar, if_neg dollar]

theorem tokens_append (outside : EndsOutside tables text) (more : List Char) :
    tokens tables (text ++ ' ' :: more) =
      tokens tables text ++ .other ' ' :: tokens tables more := by
  induction text using tokens_induction tables with
  | nil =>
    rw [List.nil_append, tokens_cons]
    simp [nextToken, inWord, isWordRune_space]
  | cons c rest ih =>
    unfold EndsOutside at outside
    rw [tokens_cons, List.forall_mem_cons] at outside
    rw [List.cons_append, tokens_cons, tokens_cons, nextToken_append tables c rest more outside.1,
      ih outside.2]
    rfl

/-! ### Complete tokens that are skipped -/

/-- A comment or a literal with its delimiters, and of a line comment the newline. -/
inductive Skipped : List Char → Prop where
  | dashes (body : List Char) (inside : '\n' ∉ body) : Skipped ('-' :: '-' :: (body ++ ['\n']))
  | hash (body : List Char) (inside : '\n' ∉ body) : Skipped ('#' :: (body ++ ['\n']))
  | block (body : List Char) (balanced : closeBlock 1 body = some []) : Skipped ('/' :: '*' :: body)
  | quoted (quote : Char) (delimiter : quote ∈ ['\'', '"', '`']) (body : List Char)
      (closed : closeQuoted quote body = some []) : Skipped (quote :: body)
  | dollar (name body : List Char) (letters : ∀ c ∈ name, isWordRune tables c = true)
      (first : ∀ index < body.length,
        ¬ ('$' :: (name ++ ['$'])) <+: (body ++ '$' :: (name ++ ['$'])).drop index) :
      Skipped ('$' :: (name ++ '$' :: (body ++ '$' :: (name ++ ['$']))))

theorem closeLine_newline {body : List Char} (inside : '\n' ∉ body) :
    closeLine (body ++ ['\n']) = some ['\n'] := by
  have text : ∀ c ∈ body, decide (c ≠ '\n') = true := by
    intro c member
    simp only [decide_eq_true_eq]
    rintro rfl
    exact inside member
  rw [closeLine, dropWhile_append_of_pos text]
  rfl

theorem tokens_newline : tokens tables ['\n'] = [.other '\n'] := by
  have blank : isWordRune tables '\n' = false := by
    rw [isWordRune, tables.isLetter_ascii _ (by decide), tables.isDigit_ascii _ (by decide)]
    decide
  rw [tokens_cons]
  simp [nextToken, inWord, blank]

theorem dollarTag_name {name : List Char} (letters : ∀ c ∈ name, isWordRune tables c = true)
    (after : List Char) :
    dollarTag tables (name ++ '$' :: after) = some ('$' :: (name ++ ['$']), after) := by
  have stop : isWordRune tables '$' = false := isWordRune_special tables (by decide)
  unfold dollarTag
  rw [dropWhile_append_of_pos letters, takeWhile_append_of_pos letters]
  simp [stop]

/-- Its tokens are closed, and none is a word. -/
theorem Skipped.tokens (skipped : Skipped tables text) :
    EndsOutside tables text ∧ (Grammar.tokens tables text).filterMap Token.word? = [] := by
  cases skipped with
  | dashes body inside =>
    have dash : '\n' ∉ '-' :: body := by simpa using inside
    have next : nextToken tables '-' ('-' :: (body ++ ['\n'])) = (.line true, ['\n']) := by
      rw [nextToken, if_pos (.inl ⟨rfl, rfl⟩), ← cons_append, closeLine_newline dash]
      rfl
    rw [EndsOutside, tokens_cons, next, tokens_newline]
    exact ⟨by simp [Token.closed], rfl⟩
  | hash body inside =>
    have next : nextToken tables '#' (body ++ ['\n']) = (.line true, ['\n']) := by
      rw [nextToken, if_pos (.inr rfl), closeLine_newline inside]
      rfl
    rw [EndsOutside, tokens_cons, next, tokens_newline]
    exact ⟨by simp [Token.closed], rfl⟩
  | block body balanced =>
    have next : nextToken tables '/' ('*' :: body) = (.block true, []) := by
      simp [nextToken, balanced, closing]
    rw [EndsOutside, tokens_cons, next]
    exact ⟨by simp [Token.closed], rfl⟩
  | quoted quote delimiter body closed =>
    have next : nextToken tables quote body = (.quoted true, []) := by
      simp only [mem_cons, not_mem_nil, or_false] at delimiter
      rw [nextToken, if_neg, if_neg, if_pos delimiter, closed]
      · rfl
      · rintro ⟨rfl, -⟩
        simp at delimiter
      · rintro (⟨rfl, -⟩ | rfl) <;> simp at delimiter
    rw [EndsOutside, tokens_cons, next]
    exact ⟨by simp [Token.closed], rfl⟩
  | dollar name body letters first =>
    have found : closeDollar ('$' :: (name ++ ['$'])) (body ++ '$' :: (name ++ ['$'])) =
        some [] := by
      have last : Utf8.firstIndex ('$' :: (name ++ ['$'])) (body ++ '$' :: (name ++ ['$'])) =
          some body.length := Utf8.firstIndex_of_first (by simp) (by simp) first
      rw [closeDollar, last]
      simp
    have opened := dollarTag_name tables letters (body ++ '$' :: (name ++ ['$']))
    have stop : isWordRune tables '$' = false := isWordRune_special tables (by decide)
    have next : nextToken tables '$' (name ++ '$' :: (body ++ '$' :: (name ++ ['$']))) =
        (.dollar true, []) := by
      simp [nextToken, inWord, stop, opened, found, closing]
    rw [EndsOutside, tokens_cons, next]
    exact ⟨by simp [Token.closed], rfl⟩

end

/-- Nothing inside a comment or a literal reaches the keyword check. -/
theorem skipped_text_adds_no_word {before skipped : List Char}
    (outside : EndsOutside tables before) (complete : Skipped tables skipped) (after : List Char) :
    (scan tables (before ++ ' ' :: (skipped ++ ' ' :: after))).1 =
      (scan tables before).1 ++ (scan tables after).1 := by
  obtain ⟨closed, noWord⟩ := complete.tokens
  have space : Token.word? (.other ' ') = none := rfl
  rw [scan_eq, scan_eq, scan_eq, tokens_append tables outside, tokens_append tables closed]
  simp only [filterMap_append, filterMap_cons_none space, noWord, nil_append]

instance (text : List Char) : Decidable (EndsOutside tables text) :=
  inferInstanceAs (Decidable (∀ token ∈ tokens tables text, _))

/-- A literal between two words, with a keyword in it and a quote that is doubled. -/
theorem keyword_in_literal_adds_no_word :
    EndsOutside asciiTables "SELECT".toList ∧
      Skipped asciiTables "'it''s; DROP'".toList ∧
      (scan asciiTables ("SELECT".toList ++ ' ' :: ("'it''s; DROP'".toList ++
        ' ' :: "FROM t".toList))).1 = (scan asciiTables "SELECT".toList).1 ++
          (scan asciiTables "FROM t".toList).1 := by
  have outside : EndsOutside asciiTables "SELECT".toList := by decide +kernel
  have complete : Skipped asciiTables "'it''s; DROP'".toList :=
    .quoted '\'' (by decide) "it''s; DROP'".toList (by decide +kernel)
  exact ⟨outside, complete, skipped_text_adds_no_word outside complete "FROM t".toList⟩

end DbBridge.SqlGuard.Grammar
