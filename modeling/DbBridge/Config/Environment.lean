import DbBridge.Lib.Utf8

/-!
# `expandEnv`

The substitution of environment variables in the node tree of a parsed document, and what
yaml.v3 makes of a scalar that is decoded into a string. A string is its bytes.
-/

namespace DbBridge.Settings

def bytesOf (text : String) : List UInt8 := Utf8.encode text.toList

/-- `tag` is empty for a scalar without one; a style other than 0 is a quoted or block style. -/
structure Scalar where
  value : List UInt8
  tag : String
  style : Nat
  deriving DecidableEq, Repr

/-- A mapping has its keys and values in turn; an alias has no content. -/
inductive Node where
  | scalar (scalar : Scalar)
  | collection (content : List Node)

/-! ## Substitution -/

def isNameStart (b : UInt8) : Bool := (65 ≤ b && b ≤ 90) || (97 ≤ b && b ≤ 122) || b == 95

def isNameByte (b : UInt8) : Bool := isNameStart b || (48 ≤ b && b ≤ 57)

/-- A match of `envRef` at the start of the text: the name, and the text after the match. -/
def envRef : List UInt8 → Option (List UInt8 × List UInt8)
  | 0x24 :: 0x7b :: text =>
    match text.dropWhile isNameByte with
    | 0x7d :: rest =>
      if (text.takeWhile isNameByte).head?.any isNameStart then
        some (text.takeWhile isNameByte, rest)
      else none
    | _ => none
  | _ => none

section
variable (lookupEnv : List UInt8 → Option (List UInt8))

/-- `envRef.ReplaceAllStringFunc`, with the names that are not set; a match that stays goes on
with its own bytes. The fuel is the length of the text. -/
def replaceAll : Nat → List UInt8 → List UInt8 × List (List UInt8)
  | fuel + 1, byte :: text =>
    match envRef (byte :: text) with
    | some (name, rest) =>
      let (expanded, missing) := replaceAll fuel rest
      match lookupEnv name with
      | some value => (value ++ expanded, missing)
      | none => (0x24 :: 0x7b :: name ++ 0x7d :: expanded, name :: missing)
    | none =>
      let (expanded, missing) := replaceAll fuel text
      (byte :: expanded, missing)
  | _, _ => ([], [])

def Scalar.expand (scalar : Scalar) : Scalar × List (List UInt8) :=
  let (expanded, missing) := replaceAll lookupEnv scalar.value.length scalar.value
  if expanded ≠ scalar.value then ({ value := expanded, tag := "", style := 0 }, missing)
  else (scalar, missing)

mutual

def walk : Node → Node × List (List UInt8)
  | .scalar scalar => (.scalar (scalar.expand lookupEnv).1, (scalar.expand lookupEnv).2)
  | .collection content => (.collection (walkAll content).1, (walkAll content).2)

def walkAll : List Node → List Node × List (List UInt8)
  | [] => ([], [])
  | node :: rest => ((walk node).1 :: (walkAll rest).1, (walk node).2 ++ (walkAll rest).2)

end

def expandEnv (node : Node) : Except String Node :=
  let (expanded, missing) := walk lookupEnv node
  if missing.length > 0 then
    .error ("unset environment variables referenced by the config: " ++ ", ".intercalate
      (missing.map fun name => String.ofList (name.map fun b => Char.ofNat b.toNat)))
  else .ok expanded

end

/-! ## Decoding into a string -/

/-- The core schema's null. -/
def nulls : List (List UInt8) := ["", "~", "null", "Null", "NULL"].map bytesOf

def Scalar.isNull (scalar : Scalar) : Bool :=
  scalar.tag = "!!null" || scalar.tag = "" && scalar.style = 0 && scalar.value ∈ nulls

def Scalar.decodeString (scalar : Scalar) : List UInt8 := if scalar.isNull then [] else scalar.value

def Node.at : List Nat → Node → Option Scalar
  | [], .scalar s => some s
  | i :: path, .collection content => content[i]?.bind (Node.at path)
  | _, _ => none

section
variable {lookupEnv : List UInt8 → Option (List UInt8)}

theorem walkAll_get (content : List Node) (i : Nat) :
    (walkAll lookupEnv content).1[i]? = content[i]?.map fun node => (walk lookupEnv node).1 := by
  induction content generalizing i with
  | nil => rfl
  | cons node rest ih =>
    cases i with
    | zero => rfl
    | succ i => exact ih i

theorem walk_at (path : List Nat) (node : Node) :
    (walk lookupEnv node).1.at path = (node.at path).map fun scalar =>
      (scalar.expand lookupEnv).1 := by
  induction path generalizing node with
  | nil => cases node <;> rfl
  | cons i path ih =>
    cases node with
    | scalar => rfl
    | collection content =>
      simp only [walk, Node.at, walkAll_get, Option.bind_map]
      cases content[i]? with
      | none => rfl
      | some child => exact ih child

theorem envRef_reference {name : List UInt8} (starts : name.head?.any isNameStart = true)
    (all : ∀ b ∈ name, isNameByte b = true) (rest : List UInt8) :
    envRef (0x24 :: 0x7b :: name ++ 0x7d :: rest) = some (name, rest) := by
  have stop : isNameByte 0x7d = false := by decide
  have taken : (name ++ 0x7d :: rest).takeWhile isNameByte = name := by
    rw [List.takeWhile_append_of_pos all, List.takeWhile_cons_of_neg (by simp [stop]),
      List.append_nil]
  have dropped : (name ++ 0x7d :: rest).dropWhile isNameByte = 0x7d :: rest := by
    rw [List.dropWhile_append_of_pos all, List.dropWhile_cons_of_neg (by simp [stop])]
  simp only [List.cons_append, envRef, dropped, taken, starts, if_true]

/-- A scalar that is a quoted reference takes the value of its variable, whatever is in it,
exactly when the value is not one that a plain scalar loses. -/
theorem secret_survives {doc expanded : Node} {path : List Nat} {name value : List UInt8}
    {style : Nat} (starts : name.head?.any isNameStart = true)
    (all : ∀ b ∈ name, isNameByte b = true)
    (field : doc.at path = some ⟨0x24 :: 0x7b :: name ++ [0x7d], "!!str", style⟩)
    (set : lookupEnv name = some value) (done : expandEnv lookupEnv doc = .ok expanded) :
    (∃ scalar, expanded.at path = some scalar ∧ scalar.decodeString = value) ↔
      value ∉ ["~", "null", "Null", "NULL"].map bytesOf := by
  have replaced : ∀ fuel, replaceAll lookupEnv (fuel + 1) (0x24 :: 0x7b :: name ++ [0x7d]) =
      (value, []) := by
    intro fuel
    have found := envRef_reference starts all []
    simp only [List.cons_append] at found ⊢
    cases fuel <;> simp [replaceAll, found, set]
  have walked : expanded = (walk lookupEnv doc).1 := by
    simp only [expandEnv] at done
    split at done <;> cases done
    rfl
  rw [walked, walk_at, field]
  simp only [Option.map_some, Option.some.injEq, exists_eq_left', Scalar.expand,
    List.cons_append, List.length_cons] at replaced ⊢
  rw [replaced]
  split
  · by_cases lost : value ∈ ["~", "null", "Null", "NULL"].map bytesOf
    · refine iff_of_false ?_ (not_not.mpr lost)
      have null : value ∈ nulls := List.mem_cons_of_mem _ lost
      rw [Scalar.decodeString, if_pos (by simp [Scalar.isNull, null])]
      rintro rfl
      exact absurd lost (by decide)
    · refine iff_of_true ?_ lost
      by_cases empty : value = []
      · simp [Scalar.decodeString, empty]
      · have plain : value ∉ nulls := fun null => lost ((List.mem_cons.mp null).resolve_left empty)
        simp [Scalar.decodeString, Scalar.isNull, plain]
  · rename_i same
    simp only [ne_eq, not_not] at same
    refine iff_of_true (by simp [Scalar.decodeString, Scalar.isNull, ← same]) ?_
    -- a reference starts with a dollar sign, and none of the four texts does
    have dollar : ∀ text ∈ ["~", "null", "Null", "NULL"].map bytesOf, text.head? ≠ some 0x24 := by
      decide
    exact fun lost => dollar value lost (by rw [same]; rfl)

end

/-- `instance: { redis_password: "${PASS}" }`. -/
def passwordDoc : Node :=
  .collection [.scalar ⟨bytesOf "instance", "!!str", 0⟩, .collection
    [.scalar ⟨bytesOf "redis_password", "!!str", 0⟩, .scalar ⟨bytesOf "$\x7bPASS\x7d", "!!str", 2⟩]]

def passIs (value : String) (name : List UInt8) : Option (List UInt8) :=
  if name = bytesOf "PASS" then some (bytesOf value) else none

/-- A value that looks like a reference is not expanded again. -/
theorem reference_in_secret_survives :
    ∃ expanded scalar, expandEnv (passIs "a$\x7bPASS\x7d") passwordDoc = .ok expanded ∧
      expanded.at [1, 1] = some scalar ∧ scalar.decodeString = bytesOf "a$\x7bPASS\x7d" := by
  have field : passwordDoc.at [1, 1] =
      some ⟨0x24 :: 0x7b :: bytesOf "PASS" ++ [0x7d], "!!str", 2⟩ := by decide
  have set : passIs "a$\x7bPASS\x7d" (bytesOf "PASS") = some (bytesOf "a$\x7bPASS\x7d") := by decide
  have all : ∀ b ∈ bytesOf "PASS", isNameByte b = true := List.all_eq_true.mp (by decide)
  obtain ⟨scalar, found, same⟩ := (secret_survives (by decide) all field set rfl).mpr (by decide)
  exact ⟨_, scalar, rfl, found, same⟩

/-- A password `null` is lost. -/
theorem null_secret_is_lost :
    ∃ expanded ∈ (expandEnv (passIs "null") passwordDoc).toOption, ∃ scalar ∈ expanded.at [1, 1],
      scalar.decodeString = [] := by
  decide

end DbBridge.Settings
