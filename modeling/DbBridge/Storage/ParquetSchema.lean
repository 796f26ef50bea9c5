import Mathlib.Data.List.Sort
import DbBridge.Storage.Encoder

/-!
# The columns of a parquet file

`uniqueColumnNames`, `buildParquetSchema` and `converterFor`. A schema group of parquet-go
is a map, whose fields are listed in the order of their names; a row has its values at the
positions of the fields. The results below say that every result column has a position of
its own.
-/

namespace DbBridge.Storage

open Domain State List

/-! ## Names -/

/-- The names `uniqueColumnNames` tries for a column, in this order. -/
def candidate (base : String) : Nat → String
  | 0 => base
  | n + 1 => base ++ "_" ++ toString (n + 1)

/-- The first candidate from the `n`-th on that is not taken, among as many as there is
fuel. -/
def firstFree (seen : List String) (base : String) : Nat → Nat → String
  | 0, n => candidate base n
  | fuel + 1, n =>
    if candidate base n ∈ seen then firstFree seen base fuel (n + 1) else candidate base n

def baseName (i : Nat) (col : String) : String :=
  if col = "" then "column_" ++ toString i else col

/-- The loop over the columns, from the `i`-th on; `seen` lists the names given so far. -/
def uniqueNamesFrom (seen : List String) : Nat → List String → List String
  | _, [] => []
  | i, col :: rest =>
    let name := firstFree seen (baseName i col) seen.length 0
    name :: uniqueNamesFrom (name :: seen) (i + 1) rest

def uniqueColumnNames (columns : List String) : List String := uniqueNamesFrom [] 0 columns

theorem toString_injective {m n : Nat} (same : toString m = toString n) : m = n := by
  have digits : Nat.toDigits 10 m = Nat.toDigits 10 n := by
    have texts := congrArg String.toList same
    rwa [Nat.toString_eq_ofList_toDigits, Nat.toString_eq_ofList_toDigits,
      String.toList_ofList, String.toList_ofList] at texts
  have values := congrArg (Nat.ofDigitChars 10 · 0) digits
  simpa only [Nat.ofDigitChars_ten_toDigits] using values

theorem candidate_injective (base : String) : Function.Injective (candidate base) := by
  have longer : ∀ n, candidate base (n + 1) ≠ base := by
    intro n same
    have lengths := congrArg String.length same
    simp only [candidate, String.length_append, show "_".length = 1 from rfl] at lengths
    omega
  intro m n same
  cases m with
  | zero =>
    cases n with
    | zero => rfl
    | succ n => exact absurd same.symm (longer n)
  | succ m =>
    cases n with
    | zero => exact absurd same (longer m)
    | succ =>
      have texts := congrArg String.toList same
      simp only [candidate, String.toList_append, append_cancel_left_eq] at texts
      exact toString_injective (String.toList_inj.mp texts)

variable {base : String}

theorem candidate_ne_empty (named : base ≠ "") (n : Nat) : candidate base n ≠ "" := by
  cases n with
  | zero => exact named
  | succ => simp [candidate, named]

variable (seen : List String)

theorem firstFree_spec (base : String) (fuel n : Nat) :
    ∃ m, firstFree seen base fuel n = candidate base m ∧ n ≤ m ∧ m ≤ n + fuel ∧
      (∀ k, n ≤ k → k < m → candidate base k ∈ seen) ∧
      (candidate base m ∈ seen → m = n + fuel) := by
  induction fuel generalizing n with
  | zero => exact ⟨n, rfl, le_rfl, le_rfl, fun k from_ below => by omega, fun _ => rfl⟩
  | succ fuel ih =>
    simp only [firstFree]
    split
    · rename_i taken
      obtain ⟨m, found, from_, upto, passed, last⟩ := ih (n + 1)
      refine ⟨m, found, by omega, by omega, fun k above below => ?_, fun listed => ?_⟩
      · by_cases first : k = n
        · exact first ▸ taken
        · exact passed k (by omega) below
      · have := last listed
        omega
    · rename_i free
      exact ⟨n, rfl, le_rfl, by omega, fun k from_ below => by omega, fun listed => absurd listed free⟩

/-- The test at which the loop over the candidates stops. -/
def StopsAt (seen : List String) (base : String) (n : Nat) : Prop :=
  candidate base n ∉ seen ∧ ∀ k < n, candidate base k ∈ seen

/-- Of one candidate more than there are names taken, one is free. -/
theorem exists_stopsAt (base : String) : ∃ n ≤ seen.length, StopsAt seen base n := by
  obtain ⟨n, -, -, _, passed, last⟩ := firstFree_spec seen base seen.length 0
  refine ⟨n, by omega, fun taken => ?_, fun k below => passed k (Nat.zero_le k) below⟩
  have distinct : ((range (seen.length + 1)).map (candidate base)).Nodup :=
    nodup_range.map (candidate_injective base)
  have all : (range (seen.length + 1)).map (candidate base) ⊆ seen := by
    intro name listed
    obtain ⟨k, bound, rfl⟩ := mem_map.mp listed
    have whole := last taken
    rcases Nat.lt_or_ge k n with below | above
    · exact passed k (Nat.zero_le k) below
    · rwa [show k = n by have := mem_range.mp bound; omega]
  have few := (subperm_of_subset distinct all).length_le
  rw [length_map, length_range] at few
  omega

/-- The fuel is not what stops the loop. -/
theorem StopsAt.firstFree_eq {seen : List String} {n fuel : Nat} (stops : StopsAt seen base n)
    (enough : n ≤ fuel) : firstFree seen base fuel 0 = candidate base n := by
  obtain ⟨m, found, -, _, passed, last⟩ := firstFree_spec seen base fuel 0
  rcases Nat.lt_trichotomy m n with below | same | above
  · have := last (stops.2 m below)
    omega
  · exact same ▸ found
  · exact absurd (passed n (Nat.zero_le n) above) stops.1

theorem firstFree_notMem (base : String) : firstFree seen base seen.length 0 ∉ seen := by
  obtain ⟨_, upto, stops⟩ := exists_stopsAt seen base
  rw [stops.firstFree_eq upto]
  exact stops.1

theorem uniqueNamesFrom_spec (i : Nat) (columns : List String) :
    (uniqueNamesFrom seen i columns).Nodup ∧
      ∀ name ∈ uniqueNamesFrom seen i columns, name ∉ seen := by
  induction columns generalizing seen i with
  | nil => simp [uniqueNamesFrom]
  | cons col _ ih =>
    obtain ⟨distinct, fresh⟩ := ih (firstFree seen (baseName i col) seen.length 0 :: seen) (i + 1)
    simp only [uniqueNamesFrom, nodup_cons, forall_mem_cons]
    refine ⟨⟨fun listed => ?_, distinct⟩, firstFree_notMem seen _, fun name listed => ?_⟩
    · exact fresh _ listed mem_cons_self
    · exact fun taken => fresh name listed (mem_cons_of_mem _ taken)

theorem uniqueColumnNames_nodup (columns : List String) : (uniqueColumnNames columns).Nodup :=
  (uniqueNamesFrom_spec [] 0 columns).1

@[simp] theorem uniqueColumnNames_length (columns : List String) :
    (uniqueColumnNames columns).length = columns.length := by
  have from_ : ∀ seen i, (uniqueNamesFrom seen i columns).length = columns.length := by
    induction columns with
    | nil => exact fun _ _ => rfl
    | cons _ _ ih => exact fun seen i => congrArg (· + 1) (ih _ _)
  exact from_ [] 0

theorem baseName_ne_empty (i : Nat) (col : String) : baseName i col ≠ "" := by
  unfold baseName
  split
  · simp
  · assumption

variable {i : Nat} {columns : List String} {col : String}

theorem uniqueNamesFrom_getElem? (here : columns[i]? = some col) (seen : List String)
    (first : Nat) :
    (uniqueNamesFrom seen first columns)[i]? =
      some (firstFree (((uniqueNamesFrom seen first columns).take i).reverse ++ seen)
        (baseName (first + i) col) (seen.length + i) 0) := by
  induction columns generalizing seen first i with
  | nil => simp at here
  | cons head _ ih =>
    cases i with
    | zero =>
      obtain rfl : head = col := by simpa using here
      simp [uniqueNamesFrom]
    | succ i =>
      have further := ih (i := i) (by simpa using here)
        (firstFree seen (baseName first head) seen.length 0 :: seen) (first + 1)
      simpa [uniqueNamesFrom, Nat.add_comm, Nat.add_left_comm] using further

/-- The names in front of the `i`-th are what the loop has seen there. -/
theorem uniqueColumnNames_stopsAt (here : columns[i]? = some col) :
    ∃ n ≤ i, StopsAt ((uniqueColumnNames columns).take i) (baseName i col) n ∧
      (uniqueColumnNames columns)[i]? = some (candidate (baseName i col) n) := by
  have inside := (List.getElem?_eq_some_iff.mp here).1
  have count : ((uniqueColumnNames columns).take i).length = i := by
    rw [length_take, uniqueColumnNames_length]
    omega
  obtain ⟨n, upto, stops⟩ := exists_stopsAt ((uniqueColumnNames columns).take i) (baseName i col)
  refine ⟨n, count ▸ upto, stops, ?_⟩
  have entry := uniqueNamesFrom_getElem? here [] 0
  rw [append_nil, length_nil, Nat.zero_add] at entry
  have reversed : StopsAt ((uniqueColumnNames columns).take i).reverse (baseName i col) n := by
    simpa only [StopsAt, mem_reverse] using stops
  exact entry.trans (congrArg some (reversed.firstFree_eq (by omega)))

/-- `uniqueColumnNames` gives every column a name of its own, not the empty one. The loop
for the `i`-th column ends at its first free candidate, after at most `i` more than the
first test, however many it is allowed; a name that no earlier column has and that was not
made up for one is kept. -/
theorem uniqueColumnNames_correct (columns : List String) :
    (uniqueColumnNames columns).length = columns.length ∧
      (uniqueColumnNames columns).Nodup ∧ "" ∉ uniqueColumnNames columns ∧
      ∀ i col, columns[i]? = some col →
        (∃ n ≤ i, StopsAt ((uniqueColumnNames columns).take i) (baseName i col) n ∧
          (uniqueColumnNames columns)[i]? = some (candidate (baseName i col) n) ∧
          ∀ fuel ≥ n, firstFree ((uniqueColumnNames columns).take i) (baseName i col) fuel 0 =
            candidate (baseName i col) n) ∧
        ((∀ j < i, columns[j]? ≠ some (baseName i col)) →
          (∀ j < i, (uniqueColumnNames columns)[j]? ≠ columns[j]? →
            (uniqueColumnNames columns)[j]? ≠ some (baseName i col)) →
          (uniqueColumnNames columns)[i]? = some (baseName i col)) := by
  refine ⟨uniqueColumnNames_length columns, uniqueColumnNames_nodup columns, fun empty => ?_,
    fun i col here => ?_⟩
  · obtain ⟨i, found⟩ := List.getElem?_of_mem empty
    have inside := (List.getElem?_eq_some_iff.mp found).1
    rw [uniqueColumnNames_length] at inside
    obtain ⟨n, -, -, entry⟩ := uniqueColumnNames_stopsAt (List.getElem?_eq_getElem inside)
    rw [entry] at found
    exact candidate_ne_empty (baseName_ne_empty i _) n (Option.some.inj found)
  · obtain ⟨n, upto, stops, entry⟩ := uniqueColumnNames_stopsAt here
    refine ⟨⟨n, upto, stops, entry, fun fuel enough => stops.firstFree_eq enough⟩,
      fun unrepeated ungenerated => ?_⟩
    -- a candidate after the first would mean that the name itself is an earlier entry
    cases n with
    | zero => exact entry
    | succ n =>
      obtain ⟨j, found⟩ := List.getElem?_of_mem (stops.2 0 (Nat.succ_pos n))
      rw [List.getElem?_take] at found
      split at found
      · rename_i earlier
        by_cases own : (uniqueColumnNames columns)[j]? = columns[j]?
        · exact absurd (own ▸ found) (unrepeated j earlier)
        · exact absurd found (ungenerated j earlier own)
      · cases found

example : uniqueColumnNames ["a", "a", "a_1", "", "a"] = ["a", "a_1", "a_1_1", "column_3", "a_2"] := by
  decide +kernel

/-! ## Kinds and conversions -/

/-- A value that `Scan` has left behind, by the type switches on it: `float` is a `float64`
or a `float32`, of type `F`; `time` is a time by its nanoseconds since the epoch; `other`
is a string, a byte slice or anything else, of type `X`. -/
inductive SqlValue (F X : Type) where
  | null
  | bool (value : Bool)
  | int (value : Int)
  | uint (value : Nat)
  | float (value : F)
  | time (nanos : Int)
  | other (value : X)
  deriving DecidableEq

inductive ParquetKind where
  | string
  | int
  | uint
  | float
  | bool
  | timestamp
  deriving DecidableEq, Repr

variable {kinds : List ParquetKind} {kind : ParquetKind}

section
variable {F X : Type}

def kindOf : SqlValue F X → ParquetKind
  | .bool _ => .bool
  | .int _ => .int
  | .uint _ => .uint
  | .float _ => .float
  | .time _ => .timestamp
  | .null | .other _ => .string

/-- `kinds[i]` and `decided[i]` after one more value of the column; `none` is undecided. -/
def mergeKind (decided : Option ParquetKind) : SqlValue F X → Option ParquetKind
  | .null => decided
  | value =>
    match decided with
    | none => some (kindOf value)
    | some kind => if kind ≠ kindOf value then some .string else some kind

def mergeRow : List (Option ParquetKind) → List (SqlValue F X) → List (Option ParquetKind)
  | decided :: rest, value :: values => mergeKind decided value :: mergeRow rest values
  | decided, _ => decided

def inferKinds (columns : Nat) (sample : List (List (SqlValue F X))) : List ParquetKind :=
  (sample.foldl mergeRow (List.replicate columns none)).map (·.getD .string)

variable (decided : List (Option ParquetKind)) (row : List (SqlValue F X))

theorem mergeRow_length : (mergeRow decided row).length = decided.length := by
  fun_induction mergeRow decided row with
  | case1 _ _ _ _ ih => exact congrArg (· + 1) ih
  | case2 => rfl

@[simp] theorem inferKinds_length (columns : Nat) (sample : List (List (SqlValue F X))) :
    (inferKinds columns sample).length = columns := by
  have folded : ∀ decided : List (Option ParquetKind),
      (sample.foldl mergeRow decided).length = decided.length := by
    induction sample with
    | nil => exact fun _ => rfl
    | cons row _ ih => exact fun decided => (ih _).trans (mergeRow_length decided row)
  simp [inferKinds, folded]

/-- The kind for the kinds of the values that are not NULL: theirs if they agree, and text
otherwise. -/
def commonKind : List ParquetKind → ParquetKind
  | [] => .string
  | kind :: rest => if ∀ other ∈ rest, other = kind then kind else .string

def presentKind : SqlValue F X → Option ParquetKind
  | .null => none
  | value => some (kindOf value)

/-- The kinds of the sampled values of the `i`-th column, without the NULLs. -/
def kindsAt (i : Nat) (sample : List (List (SqlValue F X))) : List ParquetKind :=
  sample.filterMap fun row => row[i]?.bind presentKind

theorem commonKind_of_agree (listed : kind ∈ kinds) (agree : ∀ other ∈ kinds, other = kind) :
    commonKind kinds = kind := by
  cases kinds with
  | nil => cases listed
  | cons =>
    rw [forall_mem_cons] at agree
    obtain ⟨rfl, agree⟩ := agree
    exact if_pos agree

theorem commonKind_of_disagree (differ : ¬ ∃ kind ∈ kinds, ∀ other ∈ kinds, other = kind) :
    commonKind kinds = .string := by
  cases kinds with
  | nil => rfl
  | cons first =>
    refine if_neg fun agree => differ ⟨first, mem_cons_self, ?_⟩
    exact forall_mem_cons.mpr ⟨rfl, agree⟩

theorem commonKind_eq_or (listed : kind ∈ kinds) :
    commonKind kinds = kind ∨ commonKind kinds = .string := by
  by_cases agree : ∃ kind ∈ kinds, ∀ other ∈ kinds, other = kind
  · obtain ⟨_, found, agree⟩ := agree
    exact .inl ((commonKind_of_agree found agree).trans (agree kind listed).symm)
  · exact .inr (commonKind_of_disagree agree)

theorem commonKind_perm {kinds' : List ParquetKind} (same : kinds.Perm kinds') :
    commonKind kinds = commonKind kinds' := by
  by_cases agree : ∃ kind ∈ kinds, ∀ other ∈ kinds, other = kind
  · obtain ⟨kind, listed, agree⟩ := agree
    rw [commonKind_of_agree listed agree]
    exact (commonKind_of_agree (same.mem_iff.mp listed)
      fun other found => agree other (same.mem_iff.mpr found)).symm
  · rw [commonKind_of_disagree agree, commonKind_of_disagree]
    simpa only [same.mem_iff] using agree

/-- The pair of `kinds[i]` and `decided[i]` that stands for the kinds met so far. -/
def Decided (kinds : List ParquetKind) (decided : Option ParquetKind) : Prop :=
  decided = if kinds = [] then none else some (commonKind kinds)

theorem commonKind_concat (met : kinds ≠ []) (kind : ParquetKind) :
    commonKind (kinds ++ [kind]) = if commonKind kinds ≠ kind then .string else commonKind kinds := by
  obtain ⟨first, rest, rfl⟩ := exists_cons_of_ne_nil met
  by_cases agree : ∀ other ∈ rest, other = first
  · have whole : commonKind (first :: rest) = first := if_pos agree
    rw [whole]
    by_cases same : first = kind
    · subst same
      rw [if_neg (not_not_intro rfl)]
      refine if_pos (forall_mem_append.mpr ⟨agree, ?_⟩)
      simp
    · rw [if_pos same]
      refine if_neg fun all => same ?_
      exact ((forall_mem_append.mp all).2 kind (mem_singleton_self kind)).symm
  · have text : commonKind (first :: rest) = .string := if_neg agree
    have text' : commonKind (first :: rest ++ [kind]) = .string :=
      if_neg fun all => agree (forall_mem_append.mp all).1
    rw [text, text']
    split <;> rfl

theorem mergeKind_eq (decided : Option ParquetKind) (value : SqlValue F X) :
    mergeKind decided value = (presentKind value).elim decided fun kind =>
      some (decided.elim kind fun chosen => if chosen ≠ kind then .string else chosen) := by
  cases value <;> cases decided <;> simp [mergeKind, presentKind, apply_ite some]

theorem Decided.merge {decided : Option ParquetKind} (stands : Decided kinds decided)
    (value : SqlValue F X) :
    Decided (kinds ++ (presentKind value).toList) (mergeKind decided value) := by
  rw [mergeKind_eq]
  cases presentKind value with
  | none => rwa [Option.toList_none, append_nil]
  | some =>
    by_cases met : kinds = []
    · subst met
      cases stands
      rfl
    · obtain rfl : decided = some (commonKind kinds) := stands.trans (if_neg met)
      refine Eq.trans ?_ (if_neg (by simp)).symm
      rw [Option.toList_some, commonKind_concat met]
      rfl

theorem mergeRow_getElem? (i : Nat) :
    (mergeRow decided row)[i]? =
      decided[i]?.map fun kind => (row[i]?).elim kind (mergeKind kind) := by
  induction decided generalizing row i with
  | nil => simp [mergeRow]
  | cons _ _ ih =>
    cases row with
    | nil => simp [mergeRow]
    | cons _ values =>
      cases i with
      | zero => simp [mergeRow]
      | succ i => simpa [mergeRow] using ih values i

/-- One sampled row after the other, the state of every column stands for its values. -/
theorem foldl_mergeRow_getElem? (sample : List (List (SqlValue F X)))
    {decided : List (Option ParquetKind)} {kind : Option ParquetKind}
    (here : decided[i]? = some kind) (stands : Decided kinds kind) :
    ∃ last, (sample.foldl mergeRow decided)[i]? = some last ∧
      Decided (kinds ++ kindsAt i sample) last := by
  induction sample generalizing decided kinds kind with
  | nil => exact ⟨kind, here, by rwa [kindsAt, filterMap_nil, append_nil]⟩
  | cons row rest ih =>
    have next := mergeRow_getElem? decided row i
    rw [here, Option.map_some] at next
    have after : Decided (kinds ++ (row[i]?.bind presentKind).toList)
        (row[i]?.elim kind (mergeKind kind)) := by
      cases row[i]? with
      | none => rwa [Option.bind_none, Option.toList_none, append_nil]
      | some value => exact stands.merge value
    obtain ⟨last, reached, stands⟩ := ih next after
    refine ⟨last, reached, ?_⟩
    have split : kindsAt i (row :: rest) = (row[i]?.bind presentKind).toList ++ kindsAt i rest := by
      simp only [kindsAt, filterMap_cons]
      cases row[i]?.bind presentKind <;> rfl
    rwa [split, ← append_assoc]

theorem inferKinds_getElem? {columns : Nat} (inside : i < columns)
    (sample : List (List (SqlValue F X))) :
    (inferKinds columns sample)[i]? = some (commonKind (kindsAt i sample)) := by
  have start : (replicate columns (none : Option ParquetKind))[i]? = some none := by
    simp [inside]
  have none_met : Decided [] none := rfl
  obtain ⟨last, reached, stands⟩ := foldl_mergeRow_getElem? sample start none_met
  rw [inferKinds, List.getElem?_map, reached, stands, nil_append, Option.map_some]
  split
  · rename_i empty
    rw [empty]
    rfl
  · rfl

theorem inferKinds_perm (columns : Nat) {sample sample' : List (List (SqlValue F X))}
    (same : sample.Perm sample') : inferKinds columns sample = inferKinds columns sample' := by
  refine ext_getElem? fun i => ?_
  rcases Nat.lt_or_ge i columns with inside | beyond
  · rw [inferKinds_getElem? inside, inferKinds_getElem? inside, kindsAt, kindsAt]
    exact congrArg some (commonKind_perm (same.filterMap _))
  · rw [List.getElem?_eq_none (by simpa using beyond), List.getElem?_eq_none (by simpa using beyond)]

end

/-- The content of a parquet value; `int64` is also what an unsigned integer and a
timestamp are stored as. -/
inductive Content (F : Type) where
  | null
  | int64 (value : Int)
  | double (value : F)
  | boolean (value : Bool)
  | byteArray (bytes : List UInt8)
  deriving DecidableEq

structure Cell (F : Type) where
  content : Content F
  definition : Nat
  column : Nat
  deriving DecidableEq

/-- `toString`, and the type that `%T` prints. -/
structure Printing (F X : Type) where
  toString : SqlValue F X → String
  typeName : SqlValue F X → String

/-- A result column: its position in the schema and the kind that chose its converter. -/
structure ParquetColumn where
  index : Nat
  kind : ParquetKind

section
variable {F X : Type} (printing : Printing F X)

def errUnconvertible (value : SqlValue F X) (kind : String) : GoError :=
  { text := "value of type " ++ printing.typeName value ++ " does not fit the inferred " ++
      kind ++ " column" }

def contentOf (kind : ParquetKind) (value : SqlValue F X) : Except GoError (Content F) :=
  match kind, value with
  | .int, .int n => .ok (.int64 n)
  | .int, _ => .error (errUnconvertible printing value "integer")
  -- the bit pattern is what the unsigned logical type reads back
  | .uint, .uint n => .ok (.int64 (wrap64 n))
  | .uint, _ => .error (errUnconvertible printing value "unsigned integer")
  | .float, .float f => .ok (.double f)
  | .float, _ => .error (errUnconvertible printing value "float")
  | .bool, .bool b => .ok (.boolean b)
  | .bool, _ => .error (errUnconvertible printing value "boolean")
  | .timestamp, .time nanos => .ok (.int64 (wrap64 (nanos / 1000)))
  | .timestamp, _ => .error (errUnconvertible printing value "timestamp")
  | .string, _ => .ok (.byteArray (printing.toString value).toUTF8.toList)

/-- `converterFor`, applied. -/
def ParquetColumn.convert (column : ParquetColumn) (value : SqlValue F X) :
    Except GoError (Cell F) :=
  match value with
  | .null => .ok ⟨.null, 0, column.index⟩
  | value => (contentOf printing column.kind value).map fun content => ⟨content, 1, column.index⟩

variable {value : SqlValue F X}

theorem contentOf_ne_null {content : Content F}
    (converted : contentOf printing kind value = .ok content) : content ≠ .null := by
  unfold contentOf at converted
  split at converted <;> cases converted <;> exact nofun

variable {column : ParquetColumn}

theorem ParquetColumn.convert_null_iff {cell : Cell F}
    (converted : column.convert printing value = .ok cell) :
    cell.content = .null ↔ value = .null := by
  unfold ParquetColumn.convert at converted
  split at converted
  · cases converted
    simp
  · rename_i present
    obtain ⟨content, made, rfl⟩ : ∃ content, contentOf printing column.kind value = .ok content ∧
        (⟨content, 1, column.index⟩ : Cell F) = cell := by
      cases made : contentOf printing column.kind value with
      | error => simp [made, Except.map] at converted
      | ok content => exact ⟨content, rfl, by simpa [made, Except.map] using converted⟩
    exact iff_of_false (contentOf_ne_null printing made) present

theorem contentOf_kindOf (fits : kind = kindOf value ∨ kind = .string) :
    ∃ content, contentOf printing kind value = .ok content := by
  rcases fits with rfl | rfl
  · cases value <;> exact ⟨_, rfl⟩
  · exact ⟨_, rfl⟩

/-- A column of the inferred kind converts what was sampled. -/
theorem ParquetColumn.convert_sampled {sample : List (List (SqlValue F X))}
    (inferred : column.kind = commonKind (kindsAt i sample)) {row : List (SqlValue F X)}
    (sampled : row ∈ sample) (here : row[i]? = some value) :
    ∃ cell, column.convert printing value = .ok cell := by
  by_cases null : value = .null
  · subst null
    exact ⟨_, rfl⟩
  · have present : presentKind value = some (kindOf value) := by cases value <;> trivial
    have listed : kindOf value ∈ kindsAt i sample :=
      mem_filterMap.mpr ⟨row, sampled, by rw [here, Option.bind_some, present]⟩
    obtain ⟨content, made⟩ := contentOf_kindOf printing (inferred ▸ commonKind_eq_or listed)
    refine ⟨⟨content, 1, column.index⟩, ?_⟩
    have converted : column.convert printing value =
        (contentOf printing column.kind value).map fun content => ⟨content, 1, column.index⟩ := by
      cases value <;> trivial
    rw [converted, made]
    rfl

end

/-! ## The schema -/

def schemaEntries (names : List String) (kinds : List ParquetKind) :
    List (Sigma fun _ : String => ParquetKind) :=
  (names.zip kinds).map fun entry => ⟨entry.1, entry.2⟩

/-- `parquet.Group`: a later column of the same name would replace an earlier one. -/
def schemaGroup (names : List String) (kinds : List ParquetKind) : Table ParquetKind :=
  (schemaEntries names kinds).foldl (fun group entry => group.insert entry.1 entry.2) ∅

def schemaFields (group : Table ParquetKind) : List String :=
  group.keys.insertionSort (· ≤ ·)

def position (fields : List String) (name : String) : Nat :=
  if name ∈ fields then fields.idxOf name else 0

def columnsOf (names : List String) (kinds : List ParquetKind) (fields : List String) :
    List ParquetColumn :=
  (names.zip kinds).map fun entry => ⟨position fields entry.1, entry.2⟩

def buildParquetSchema {F X : Type} (names : List String)
    (sample : List (List (SqlValue F X))) :
    Except GoError (Table ParquetKind × List ParquetColumn) :=
  let kinds := inferKinds names.length sample
  let group := schemaGroup names kinds
  let fields := schemaFields group
  if fields.length ≠ names.length then
    .error { text := "parquet schema has " ++ toString fields.length ++ " fields for " ++
      toString names.length ++ " result columns" }
  else .ok (group, columnsOf names kinds fields)

/-- What `encodeParquet` knows of the file before the first row: the schema, and the name,
the position and the converter of every result column. -/
structure Layout where
  group : Table ParquetKind
  columns : List (String × ParquetColumn)

def layoutOf {F X : Type} (columns : List String) (sample : List (List (SqlValue F X))) :
    Except GoError Layout :=
  let names := uniqueColumnNames columns
  match buildParquetSchema names sample with
  | .error err => .error err
  | .ok (group, cols) => .ok ⟨group, names.zip cols⟩

structure Layout.Sound (layout : Layout) (columns : Nat) : Prop where
  length : layout.columns.length = columns
  fields : (schemaFields layout.group).length = columns
  names : (layout.columns.map Prod.fst).Nodup
  positions : ∀ entry ∈ layout.columns,
    (schemaFields layout.group)[entry.2.index]? = some entry.1

variable {F X : Type}

section

variable {names : List String}

theorem schemaFields_perm (distinct : names.Nodup) (fits : kinds.length = names.length) :
    (schemaFields (schemaGroup names kinds)).Perm names := by
  have keys : (schemaEntries names kinds).keys = names := by
    have firsts : (schemaEntries names kinds).keys = (names.zip kinds).map Prod.fst := by
      simp [schemaEntries, keys]
    rw [firsts, map_fst_zip (Nat.le_of_eq fits.symm)]
  have kept := insertAll_perm (schemaEntries names kinds) ∅ (by rw [keys]; simpa using distinct)
  rw [AList.empty_entries, append_nil] at kept
  have listed : (schemaGroup names kinds).keys.Perm (schemaEntries names kinds).keys :=
    kept.map Sigma.fst
  exact (perm_insertionSort _ _).trans (listed.trans (Perm.of_eq keys))

theorem getElem?_position {fields : List String} {name : String} (listed : name ∈ fields) :
    fields[position fields name]? = some name := by
  rw [position, if_pos listed, List.getElem?_eq_getElem (idxOf_lt_length_of_mem listed),
    List.getElem_idxOf]

theorem zip_columnsOf (names : List String) (kinds : List ParquetKind) (fields : List String) :
    names.zip (columnsOf names kinds fields) =
      (names.zip kinds).map fun entry => (entry.1, ⟨position fields entry.1, entry.2⟩) := by
  induction names generalizing kinds with
  | nil => rfl
  | cons _ _ ih =>
    cases kinds with
    | nil => rfl
    | cons _ kinds => exact congrArg (_ :: ·) (ih kinds)

theorem buildParquetSchema_ok (distinct : names.Nodup) (sample : List (List (SqlValue F X))) :
    ∃ group cols, buildParquetSchema names sample = .ok (group, cols) :=
  ⟨_, _, if_neg (not_not_intro (schemaFields_perm distinct
    (inferKinds_length names.length sample)).length_eq)⟩

theorem buildParquetSchema_kind {sample : List (List (SqlValue F X))} {group : Table ParquetKind}
    {cols : List ParquetColumn} (built : buildParquetSchema names sample = .ok (group, cols))
    {col : ParquetColumn} (here : cols[i]? = some col) :
    col.kind = commonKind (kindsAt i sample) := by
  simp only [buildParquetSchema] at built
  split at built
  · cases built
  · cases built
    rw [columnsOf, List.getElem?_map] at here
    obtain ⟨⟨_, kind⟩, entry, rfl⟩ := Option.map_eq_some_iff.mp here
    obtain ⟨named, inferred⟩ := List.getElem?_zip_eq_some.mp entry
    rw [inferKinds_getElem? (List.getElem?_eq_some_iff.mp named).1] at inferred
    exact (Option.some.inj inferred).symm

theorem layoutOf_sound (columns : List String) (sample : List (List (SqlValue F X))) :
    ∃ layout, layoutOf columns sample = .ok layout ∧ layout.Sound columns.length := by
  have distinct := uniqueColumnNames_nodup columns
  have count := inferKinds_length (uniqueColumnNames columns).length sample
  have fields := schemaFields_perm distinct count
  have built : buildParquetSchema (uniqueColumnNames columns) sample = .ok (_, _) :=
    if_neg (not_not_intro fields.length_eq)
  refine ⟨_, by simp only [layoutOf, built]; rfl, ?_⟩
  have firsts : ((uniqueColumnNames columns).zip (inferKinds _ sample)).map Prod.fst =
      uniqueColumnNames columns := map_fst_zip (Nat.le_of_eq count.symm)
  constructor
  case length => simp [columnsOf]
  case fields => simpa using fields.length_eq
  case names =>
    rw [zip_columnsOf, map_map]
    exact firsts.symm ▸ distinct
  case positions =>
    intro entry listed
    rw [zip_columnsOf] at listed
    obtain ⟨⟨_, _⟩, found, rfl⟩ := mem_map.mp listed
    exact getElem?_position (fields.mem_iff.mpr (of_mem_zip found).1)

end

end DbBridge.Storage
