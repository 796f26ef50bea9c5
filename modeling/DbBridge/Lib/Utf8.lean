import Mathlib.Data.List.Infix

/-!
# Substring search in UTF-8 text

Text is a list of characters and its UTF-8 form a list of bytes. A byte search
for the encoding of some characters can only succeed at a character boundary: only
the first byte of an encoding can be a first byte. Hence the byte index of
the first occurrence is the byte length of the characters before it.
-/

namespace Utf8

open List

def encode (text : List Char) : List UInt8 := text.flatMap String.utf8EncodeChar

@[simp] theorem encode_nil : encode [] = [] := rfl

variable (c : Char)

@[simp] theorem encode_cons (rest : List Char) :
    encode (c :: rest) = String.utf8EncodeChar c ++ encode rest := rfl

theorem encode_append (text more : List Char) :
    encode (text ++ more) = encode text ++ encode more :=
  flatMap_append

def firstIndex {α : Type} [DecidableEq α] (needle : List α) : List α → Option Nat
  | [] => if needle = [] then some 0 else none
  | a :: rest =>
    if needle.isPrefixOf (a :: rest) then some 0
    else (firstIndex needle rest).map (· + 1)

/-- The character a byte sequence starts with, if it starts with a valid encoding. -/
def decodeHead (bytes : List UInt8) : Option Char :=
  bytes.toByteArray.utf8DecodeChar? 0

/-- Number of runes, an undecodable byte counting as one; the first argument
bounds the number of steps. -/
def runeCountFrom : Nat → List UInt8 → Nat
  | _, [] => 0
  | 0, _ :: _ => 0
  | fuel + 1, byte :: rest =>
    match decodeHead (byte :: rest) with
    | some c => 1 + runeCountFrom fuel ((byte :: rest).drop c.utf8Size)
    | none => 1 + runeCountFrom fuel rest

def runeCount (bytes : List UInt8) : Nat := runeCountFrom bytes.length bytes

/-! ## Encodings are uniquely decodable -/

variable (rest : List UInt8)

theorem decodeHead_encode : decodeHead (String.utf8EncodeChar c ++ rest) = some c := by
  rw [decodeHead, toByteArray_append]
  exact ByteArray.utf8DecodeChar?_utf8EncodeChar_append

theorem drop_encodeChar : (String.utf8EncodeChar c ++ rest).drop c.utf8Size = rest := by
  rw [← String.length_utf8EncodeChar c, drop_left]

theorem encodeChar_append_inj {c d : Char} {left right : List UInt8}
    (same : String.utf8EncodeChar c ++ left = String.utf8EncodeChar d ++ right) :
    c = d ∧ left = right := by
  have heads : some c = some d := by
    rw [← decodeHead_encode c left, ← decodeHead_encode d right, same]
  cases heads
  exact ⟨rfl, append_cancel_left same⟩

theorem encode_prefix_iff (needle text : List Char) :
    encode needle <+: encode text ↔ needle <+: text := by
  induction needle generalizing text with
  | nil => simp
  | cons _ _ ih =>
    cases text with
    | nil => simp [String.utf8EncodeChar_ne_nil]
    | cons _ text =>
      constructor
      · rintro ⟨tail, same⟩
        simp only [encode_cons, append_assoc] at same
        obtain ⟨sameHead, sameRest⟩ := encodeChar_append_inj same
        subst sameHead
        exact cons_prefix_cons.mpr ⟨rfl, (ih text).mp ⟨tail, sameRest⟩⟩
      · intro extends_
        obtain ⟨rfl, tail⟩ := cons_prefix_cons.mp extends_
        obtain ⟨more, same⟩ := (ih text).mpr tail
        exact ⟨more, by simp [← same]⟩

theorem length_le_length_encode (text : List Char) : text.length ≤ (encode text).length := by
  induction text with
  | nil => simp
  | cons c =>
    have positive := c.utf8Size_pos
    simp only [encode_cons, length_cons, length_append,
      String.length_utf8EncodeChar]
    omega

/-! ## Reading bytes that need not be UTF-8 -/

/-- The characters of a byte string, an undecodable byte standing for U+FFFD; the first
argument bounds the number of steps. -/
def lossyFrom : Nat → List UInt8 → List Char
  | _, [] => []
  | 0, _ :: _ => []
  | fuel + 1, byte :: rest =>
    match decodeHead (byte :: rest) with
    | some c => c :: lossyFrom fuel ((byte :: rest).drop c.utf8Size)
    | none => '\uFFFD' :: lossyFrom fuel rest

def lossy (bytes : List UInt8) : List Char := lossyFrom bytes.length bytes

def Valid (bytes : List UInt8) : Prop := ∃ text, bytes = encode text

variable {bytes : List UInt8}

theorem eq_of_decodeHead {c : Char} (decoded : decodeHead bytes = some c) :
    bytes = String.utf8EncodeChar c ++ bytes.drop c.utf8Size := by
  have whole := congrArg (fun array => array.data.toList)
    (ByteArray.eq_of_utf8DecodeChar?_eq_some decoded)
  have tail : (bytes.drop c.utf8Size).take (bytes.length - c.utf8Size) =
      bytes.drop c.utf8Size := by
    apply take_of_length_le
    rw [length_drop]
  simpa [tail] using whole

theorem lossyFrom_encode (text : List Char) (fuel : Nat) (enough : text.length ≤ fuel) :
    lossyFrom fuel (encode text) = text := by
  induction text generalizing fuel with
  | nil => cases fuel <;> rfl
  | cons c text ih =>
    cases fuel with
    | zero => simp at enough
    | succ fuel =>
      have smaller : text.length ≤ fuel := by
        simpa using enough
      have decoded := decodeHead_encode c (encode text)
      have dropped := drop_encodeChar c (encode text)
      rw [encode_cons]
      cases bytes : String.utf8EncodeChar c ++ encode text with
      | nil => simp [String.utf8EncodeChar_ne_nil] at bytes
      | cons =>
        rw [bytes] at decoded dropped
        simp only [lossyFrom, decoded, dropped, ih fuel smaller]

theorem lossy_encode (text : List Char) : lossy (encode text) = text :=
  lossyFrom_encode text _ (length_le_length_encode text)

variable (fuel : Nat)

theorem runeCountFrom_eq (bytes : List UInt8) :
    runeCountFrom fuel bytes = (lossyFrom fuel bytes).length := by
  fun_induction runeCountFrom fuel bytes with
  | case1 => simp [lossyFrom]
  | case2 => rfl
  | case3 _ _ _ _ decoded ih | case4 _ _ _ decoded ih => simp [lossyFrom, decoded, ih, Nat.add_comm]

theorem runeCount_eq (bytes : List UInt8) : runeCount bytes = (lossy bytes).length :=
  runeCountFrom_eq _ bytes

theorem runeCount_encode (text : List Char) : runeCount (encode text) = text.length := by
  rw [runeCount_eq, lossy_encode]

/-- What is read is at least as long when it is written again, since U+FFFD takes three
bytes and replaces one; it is as long only where nothing was replaced. -/
theorem encode_lossyFrom_length (bytes : List UInt8) (enough : bytes.length ≤ fuel) :
    bytes.length ≤ (encode (lossyFrom fuel bytes)).length ∧
      ((encode (lossyFrom fuel bytes)).length = bytes.length →
        encode (lossyFrom fuel bytes) = bytes) := by
  induction fuel generalizing bytes with
  | zero =>
    cases bytes with
    | nil => simp [lossyFrom]
    | cons => simp at enough
  | succ fuel ih =>
    cases bytes with
    | nil => simp [lossyFrom]
    | cons byte rest =>
      have shorter : rest.length ≤ fuel := by simpa using enough
      simp only [lossyFrom]
      split
      · rename_i c decoded
        have positive := c.utf8Size_pos
        have size := String.length_utf8EncodeChar c
        have whole := eq_of_decodeHead decoded
        have dropped : ((byte :: rest).drop c.utf8Size).length ≤ fuel := by
          rw [length_drop, length_cons]
          omega
        obtain ⟨grows, equal⟩ := ih _ dropped
        have total := congrArg length whole
        rw [length_append] at total
        rw [encode_cons, length_append]
        refine ⟨by omega, fun same => ?_⟩
        rw [equal (by omega), ← whole]
      · obtain ⟨grows, -⟩ := ih rest shorter
        have size : (String.utf8EncodeChar '\uFFFD').length = 3 := by decide
        rw [encode_cons, length_append, length_cons]
        exact ⟨by omega, fun same => by omega⟩

theorem length_le_encode_lossy (bytes : List UInt8) :
    bytes.length ≤ (encode (lossy bytes)).length :=
  (encode_lossyFrom_length _ bytes le_rfl).1

theorem valid_of_length_encode_lossy (same : (encode (lossy bytes)).length = bytes.length) :
    Valid bytes :=
  ⟨lossy bytes, ((encode_lossyFrom_length _ bytes le_rfl).2 same).symm⟩

theorem encode_lossy_of_valid (valid : Valid bytes) : encode (lossy bytes) = bytes := by
  obtain ⟨_, rfl⟩ := valid
  rw [lossy_encode]

instance (bytes : List UInt8) : Decidable (Valid bytes) :=
  decidable_of_iff (encode (lossy bytes) = bytes)
    ⟨fun same => ⟨lossy bytes, same.symm⟩, encode_lossy_of_valid⟩

/-! ## The byte search stops at character boundaries -/

/-- Only the first byte of an encoding is a first byte. -/
theorem encodeChar_cons :
    ∃ first more, String.utf8EncodeChar c = first :: more ∧ first.IsUTF8FirstByte ∧
      ∀ byte ∈ more, ¬ byte.IsUTF8FirstByte := by
  obtain ⟨first, more, bytes⟩ := exists_cons_of_ne_nil (String.utf8EncodeChar_ne_nil (c := c))
  refine ⟨first, more, bytes, ?_, fun byte member => ?_⟩
  · have starts := UInt8.isUTF8FirstByte_getElem_zero_utf8EncodeChar (c := c)
    simpa only [bytes, getElem_cons_zero] using starts
  · obtain ⟨i, bound, rfl⟩ := getElem_of_mem member
    have inside : i + 1 < (String.utf8EncodeChar c).length := by simpa [bytes] using bound
    have only : ¬ (String.utf8EncodeChar c)[i + 1].IsUTF8FirstByte := by
      rw [UInt8.isUTF8FirstByte_getElem_utf8EncodeChar]
      omega
    simpa only [bytes, getElem_cons_succ] using only

variable {index : Nat}

section
variable {α : Type} [DecidableEq α]

/-- Elements that differ from the needle's head cannot start an occurrence. -/
theorem firstIndex_append_of_ne (head : α) (needle skipped rest : List α)
    (different : ∀ a ∈ skipped, a ≠ head) :
    firstIndex (head :: needle) (skipped ++ rest) =
      (firstIndex (head :: needle) rest).map (· + skipped.length) := by
  induction skipped with
  | nil => simp
  | cons a skipped ih =>
    have apart : a ≠ head := different a (by simp)
    have later := ih fun b member => different b (by simp [member])
    have notHere : (head :: needle).isPrefixOf (a :: (skipped ++ rest)) = false := by
      simp [isPrefixOf, Ne.symm apart]
    rw [cons_append, firstIndex, notHere]
    simp only [Bool.false_eq_true, if_false, later, Option.map_map, length_cons]
    congr 1

variable {needle text : List α}

section
variable (found : firstIndex needle text = some index)
include found

theorem firstIndex_occurs : index ≤ text.length ∧ needle <+: text.drop index := by
  induction text generalizing index with
  | nil =>
    unfold firstIndex at found
    split at found <;> cases found
    rename_i empty
    simp [empty]
  | cons a rest ih =>
    unfold firstIndex at found
    split at found
    · rename_i here
      cases found
      exact ⟨Nat.zero_le _, List.isPrefixOf_iff_prefix.mp here⟩
    · obtain ⟨later, found', rfl⟩ := Option.map_eq_some_iff.mp found
      exact ⟨Nat.succ_le_succ (ih found').1, (ih found').2⟩

theorem firstIndex_le : index + needle.length ≤ text.length := by
  obtain ⟨_, occurs⟩ := firstIndex_occurs found
  have fits := occurs.length_le
  rw [length_drop] at fits
  omega

theorem firstIndex_append (more : List α) : firstIndex needle (text ++ more) = some index := by
  induction text generalizing index with
  | nil =>
    unfold firstIndex at found
    split at found <;> cases found
    rename_i empty
    subst empty
    cases more <;> simp [firstIndex]
  | cons a rest ih =>
    have fits := firstIndex_le found
    rw [firstIndex] at found
    rw [cons_append, firstIndex]
    split at found
    · rename_i here
      have longer : needle <+: a :: (rest ++ more) :=
        (List.isPrefixOf_iff_prefix.mp here).trans (prefix_append (a :: rest) more)
      rw [if_pos (List.isPrefixOf_iff_prefix.mpr longer)]
      exact found
    · rename_i notHere
      obtain ⟨later, found', rfl⟩ := Option.map_eq_some_iff.mp found
      have short : needle.length ≤ (a :: rest).length := by omega
      have absent : ¬ needle.isPrefixOf (a :: (rest ++ more)) = true := by
        intro longer
        apply notHere
        rw [List.isPrefixOf_iff_prefix] at longer ⊢
        exact prefix_of_prefix_length_le longer (prefix_append (a :: rest) more) short
      rw [if_neg absent, ih found']
      rfl

end

/-- An occurrence before which there is none is the first. -/
theorem firstIndex_of_first (nonempty : needle ≠ []) (here : needle <+: text.drop index)
    (first : ∀ earlier < index, ¬ needle <+: text.drop earlier) :
    firstIndex needle text = some index := by
  induction text generalizing index with
  | nil => simp [nonempty] at here
  | cons a rest ih =>
    rw [firstIndex]
    cases index with
    | zero =>
      rw [drop_zero] at here
      rw [if_pos (List.isPrefixOf_iff_prefix.mpr here)]
    | succ index =>
      have absent : ¬ needle.isPrefixOf (a :: rest) = true := by
        intro now
        exact first 0 (Nat.succ_pos index) (List.isPrefixOf_iff_prefix.mp now)
      rw [if_neg absent, ih here]
      · rfl
      · intro earlier less
        exact first (earlier + 1) (Nat.succ_lt_succ less)

end

/-- The byte index of the first occurrence is the byte length of the characters
before the first occurrence among characters. -/
theorem firstIndex_encode (head : Char) (needle text : List Char) :
    firstIndex (encode (head :: needle)) (encode text) =
      (firstIndex (head :: needle) text).map fun k => (encode (text.take k)).length := by
  induction text with
  | nil => simp [firstIndex, String.utf8EncodeChar_ne_nil]
  | cons c text ih =>
    obtain ⟨first, more, bytes, -, inner⟩ := encodeChar_cons c
    have whole : encode (c :: text) = first :: (more ++ encode text) := by
      rw [encode_cons, bytes, cons_append]
    have same := encode_prefix_iff (head :: needle) (c :: text)
    rw [whole] at same
    rw [whole, firstIndex, firstIndex]
    by_cases here : head :: needle <+: c :: text
    · rw [if_pos (List.isPrefixOf_iff_prefix.mpr here),
        if_pos (List.isPrefixOf_iff_prefix.mpr (same.mpr here))]
      rfl
    · rw [if_neg (List.isPrefixOf_iff_prefix.not.mpr here),
        if_neg (List.isPrefixOf_iff_prefix.not.mpr (mt same.mp here))]
      -- the needle starts with a first byte, and none of the bytes in `more` is one
      obtain ⟨lead, tail, start, leads, -⟩ := encodeChar_cons head
      have needleBytes : encode (head :: needle) = lead :: (tail ++ encode needle) := by
        rw [encode_cons, start, cons_append]
      have skips := firstIndex_append_of_ne lead (tail ++ encode needle) more (encode text)
        fun byte member equal => inner byte member (equal ▸ leads)
      rw [← needleBytes] at skips
      rw [skips, ih]
      simp only [Option.map_map]
      congr 1
      funext k
      simp only [Function.comp, take_succ_cons, encode_cons, bytes, length_append,
        length_cons]
      omega

end Utf8
