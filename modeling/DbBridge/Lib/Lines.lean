import Mathlib.Data.List.Basic

/-!
# Lines of a text

What Go's `bufio.ScanLines` makes of a text: its lines without their ends, `\n` or `\r\n`.
-/

namespace Lines

open List

abbrev Bytes := List UInt8

def lf : UInt8 := 10

def cr : UInt8 := 13

def dropCR (line : Bytes) : Bytes := if line.getLast? = some cr then line.dropLast else line

/-- The lines of `pending ++ text`, where `pending` has no end of line. -/
def lines (pending : Bytes) : Bytes → List Bytes
  | [] => if pending = [] then [] else [dropCR pending]
  | b :: rest =>
    if b = lf then dropCR pending :: lines [] rest else lines (pending ++ [b]) rest

/-- The lines with `\n` put back. -/
def joined (tokens : List Bytes) : Bytes := tokens.flatMap (· ++ [lf])

/-- Lines that end with `\n` and not with `\r\n`. -/
def Exact (text : Bytes) : Prop :=
  ∃ parts, text = joined parts ∧ ∀ part ∈ parts, lf ∉ part ∧ part.getLast? ≠ some cr

theorem dropCR_sublist (line : Bytes) : (dropCR line).Sublist line := by
  unfold dropCR
  split
  · exact dropLast_sublist line
  · exact Sublist.refl line

theorem dropCR_eq_self_iff (line : Bytes) : dropCR line = line ↔ line.getLast? ≠ some cr := by
  unfold dropCR
  split
  · rename_i ends
    have filled : 0 < line.length := length_pos_of_mem (mem_of_getLast? ends)
    refine ⟨fun same => ?_, fun other => absurd ends other⟩
    have shorter := congrArg length same
    rw [length_dropLast] at shorter
    omega
  · rename_i ends
    exact ⟨fun _ => ends, fun _ => rfl⟩

theorem lines_append {part : Bytes} (plain : lf ∉ part) (pending rest : Bytes) :
    lines pending (part ++ lf :: rest) = dropCR (pending ++ part) :: lines [] rest := by
  induction part generalizing pending with
  | nil => simp [lines]
  | cons b part ih =>
    obtain ⟨other, plain⟩ := not_or.mp (mt mem_cons.mpr plain)
    simp only [cons_append, lines, if_neg (Ne.symm other)]
    rw [ih plain, append_assoc]
    rfl

theorem lines_joined {parts : List Bytes} (plain : ∀ part ∈ parts, lf ∉ part) :
    lines [] (joined parts) = parts.map dropCR := by
  induction parts with
  | nil => rfl
  | cons part parts ih =>
    obtain ⟨here, plain⟩ := forall_mem_cons.mp plain
    have rest := ih plain
    simp only [joined, flatMap_cons, append_assoc, singleton_append] at rest ⊢
    rw [lines_append here, rest]
    rfl

theorem lf_notMem_of_mem_lines {pending text token : Bytes} (plain : lf ∉ pending)
    (known : token ∈ lines pending text) : lf ∉ token := by
  have cut : lf ∉ dropCR pending := fun has => plain ((dropCR_sublist pending).subset has)
  induction text generalizing pending with
  | nil =>
    unfold lines at known
    split at known
    · contradiction
    · exact mem_singleton.mp known ▸ cut
  | cons b rest ih =>
    unfold lines at known
    split at known
    · rcases mem_cons.mp known with rfl | known
      · exact cut
      · exact ih not_mem_nil known not_mem_nil
    · rename_i other
      have plain : lf ∉ pending ++ [b] := by simp [plain, Ne.symm other]
      exact ih plain known fun has => plain ((dropCR_sublist _).subset has)

/-- Cutting a text and putting the ends back gives the text exactly for these. -/
theorem joined_lines_iff (text : Bytes) : joined (lines [] text) = text ↔ Exact text := by
  constructor
  · intro same
    have plain : ∀ token ∈ lines [] text, lf ∉ token :=
      fun token known => lf_notMem_of_mem_lines not_mem_nil known
    refine ⟨lines [] text, same.symm, fun part known => ⟨plain part known, ?_⟩⟩
    have fixed := lines_joined plain
    rw [same] at fixed
    rw [← dropCR_eq_self_iff]
    exact map_inj_left.mp (fixed.symm.trans (map_id _).symm) part known
  · rintro ⟨parts, rfl, whole⟩
    rw [lines_joined fun part known => (whole part known).1]
    congr 1
    refine (map_congr_left fun part known => ?_).trans (map_id parts)
    exact (dropCR_eq_self_iff part).mpr (whole part known).2

end Lines
