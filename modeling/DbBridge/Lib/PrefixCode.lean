import Mathlib.Data.List.Infix
import Mathlib.Data.Set.Function

/-!
# Prefix codes

A tag is written in front of a free text. The text can be told from the tag, for
every text, exactly when no tag in use is written as a prefix of another.
-/

namespace PrefixCode

universe u v
variable {Tag : Type u} {Letter : Type v}

def PrefixFreeOn (code : Tag → List Letter) (tags : Set Tag) : Prop :=
  ∀ tag ∈ tags, ∀ other ∈ tags, code tag <+: code other → tag = other

/-- Tag and text can be read back from their concatenation, over the tags of `tags` and
all non-empty texts, exactly when the code is prefix-free on `tags`. -/
theorem injOn_append_iff [Nonempty Letter] (code : Tag → List Letter) (tags : Set Tag) :
    Set.InjOn (fun tagged : Tag × List Letter => code tagged.1 ++ tagged.2)
        {tagged | tagged.1 ∈ tags ∧ tagged.2 ≠ []} ↔ PrefixFreeOn code tags := by
  constructor
  · intro injective tag member other otherMember isPrefix
    obtain ⟨rest, longer⟩ := isPrefix
    obtain ⟨letter⟩ := ‹Nonempty Letter›
    -- what the longer code has more can be taken for the start of the text
    have collide : code tag ++ (rest ++ [letter]) = code other ++ [letter] := by
      rw [← longer, List.append_assoc]
    have same := @injective (tag, rest ++ [letter]) ⟨member, by simp⟩ (other, [letter])
      ⟨otherMember, by simp⟩ collide
    exact congrArg Prod.fst same
  · rintro free ⟨tag, text⟩ ⟨member, _⟩ ⟨other, otherText⟩ ⟨otherMember, _⟩ same
    have same : code tag ++ text = code other ++ otherText := same
    have comparable : code tag <+: code other ∨ code other <+: code tag :=
      List.prefix_or_prefix_of_prefix ⟨text, same⟩ (List.prefix_append _ _)
    have equal : tag = other := by
      rcases comparable with shorter | longer
      · exact free tag member other otherMember shorter
      · exact (free other otherMember tag member longer).symm
    subst equal
    rw [List.append_cancel_left same]

/-! ## Delimiters -/

/-- The first occurrence of a letter tells where a part ends. -/
theorem prefix_cut {letter : Letter} {first second : List Letter} (rest otherRest : List Letter)
    (clear : letter ∉ first) (otherClear : letter ∉ second) :
    first ++ letter :: rest <+: second ++ letter :: otherRest ↔
      first = second ∧ rest <+: otherRest := by
  induction first generalizing second with
  | nil =>
    cases second with
    | nil => simp
    | cons head =>
      have ne : letter ≠ head := fun same => otherClear (by simp [same])
      simp [ne]
  | cons head _ ih =>
    cases second with
    | nil =>
      have ne : head ≠ letter := fun same => clear (by simp [same])
      simp [ne]
    | cons _ otherTail =>
      have below := @ih otherTail (fun member => clear (List.mem_cons_of_mem _ member))
        (fun member => otherClear (List.mem_cons_of_mem _ member))
      simp only [List.cons_append, List.cons_prefix_cons, below, List.cons.injEq, and_assoc]

/-- Two parts, each with a delimiter of its own that does not occur in it. -/
theorem prefixFreeOn_delimited {middle final : Letter} {tags : Set (List Letter × List Letter)}
    (clear : ∀ tag ∈ tags, middle ∉ tag.1 ∧ final ∉ tag.2) :
    PrefixFreeOn (fun tag => tag.1 ++ middle :: (tag.2 ++ [final])) tags := by
  rintro ⟨_, _⟩ member ⟨_, _⟩ otherMember isPrefix
  obtain ⟨clearFirst, clearSecond⟩ := clear _ member
  obtain ⟨otherClearFirst, otherClearSecond⟩ := clear _ otherMember
  obtain ⟨same, inner⟩ := (prefix_cut _ _ clearFirst otherClearFirst).mp isPrefix
  obtain ⟨sameSecond, _⟩ := (prefix_cut [] [] clearSecond otherClearSecond).mp inner
  exact Prod.ext same sameSecond

end PrefixCode
