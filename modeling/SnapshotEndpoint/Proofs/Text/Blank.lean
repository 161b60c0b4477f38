import Mathlib.Data.List.DropRight
import Mathlib.Data.List.Forall2
import SnapshotEndpoint.Text.Blank

/-!
What trimming leaves: the one part of a text that neither begins nor ends with a blank and has
nothing but blanks around it. And which texts are equal up to case: only the letters from A to Z
have two.
-/
namespace SnapshotEndpoint.Text

/-- Blanks alone, or nothing. -/
def Blank (cs : List Char) : Prop := ∀ c ∈ cs, isBlank c = true

/-- A text and the part of it between its blanks, which begins and ends with none. -/
structure Trims (cs core : List Char) : Prop where
  parts : ∃ before after, cs = before ++ core ++ after ∧ Blank before ∧ Blank after
  head : ∀ c ∈ core.head?, isBlank c = false
  last : ∀ c ∈ core.getLast?, isBlank c = false

theorem drop_while_end_eq {α : Type} (test : α → Bool) (xs : List α) :
    dropWhileEnd test xs = xs.rdropWhile test := rfl

theorem trims_trim_chars (cs : List Char) : Trims cs (trimChars cs) := by
  rw [trimChars, drop_while_end_eq]
  constructor
  · refine ⟨cs.takeWhile isBlank, (cs.dropWhile isBlank).rtakeWhile isBlank, ?_, ?_, ?_⟩
    · rw [List.append_assoc, List.rdropWhile_append_rtakeWhile, List.takeWhile_append_dropWhile]
    · exact fun c => List.mem_takeWhile_imp
    · exact fun c => List.mem_rtakeWhile_imp
  · intro c first
    -- What is dropped at the end leaves the head of the rest alone.
    obtain ⟨after, whole⟩ := List.rdropWhile_prefix isBlank (cs.dropWhile isBlank)
    have kept : c ∈ (cs.dropWhile isBlank).head? := by
      rw [← whole, List.head?_append]
      exact Option.mem_def.mpr (by rw [Option.mem_def.mp first]; rfl)
    have := List.head?_dropWhile_not isBlank cs
    rw [Option.mem_def.mp kept] at this
    simpa using this
  · intro c final
    obtain ⟨some_, rfl⟩ := List.mem_getLast?_eq_getLast final
    exact Bool.not_eq_true _ ▸ List.rdropWhile_last_not isBlank _ some_

theorem rdrop_while_append_of_blank (core : List Char) {after : List Char} (blank : Blank after) :
    (core ++ after).rdropWhile isBlank = core.rdropWhile isBlank := by
  have reversed : ∀ c ∈ after.reverse, isBlank c = true := by
    intro c known
    exact blank c (List.mem_reverse.mp known)
  rw [List.rdropWhile, List.reverse_append, List.dropWhile_append_of_pos reversed, List.rdropWhile]

theorem trim_chars_of_blank {cs : List Char} (blank : Blank cs) : trimChars cs = [] := by
  rw [trimChars, drop_while_end_eq, List.dropWhile_eq_nil_iff.mpr blank, List.rdropWhile_nil]

/-- The core is unique. -/
theorem trim_chars_of_trims {cs core : List Char} (trims : Trims cs core) :
    trimChars cs = core := by
  obtain ⟨before, after, rfl, early, late⟩ := trims.parts
  cases core with
  | nil =>
    rw [List.append_nil]
    exact trim_chars_of_blank (List.forall_mem_append.mpr ⟨early, late⟩)
  | cons first rest =>
    have head : ¬ isBlank first = true := by simp [trims.head first rfl]
    have last : (first :: rest).rdropWhile isBlank = first :: rest := by
      rw [List.rdropWhile_eq_self_iff]
      intro some_
      simp [trims.last _ (List.getLast?_eq_some_getLast some_)]
    rw [trimChars, drop_while_end_eq, List.append_assoc, List.dropWhile_append_of_pos early,
      List.cons_append, List.dropWhile_cons_of_neg head, ← List.cons_append,
      rdrop_while_append_of_blank _ late, last]

theorem trims_iff {cs core : List Char} : Trims cs core ↔ trimChars cs = core := by
  constructor
  · exact trim_chars_of_trims
  · rintro rfl
    exact trims_trim_chars cs

theorem trim_chars_eq_nil_iff {cs : List Char} : trimChars cs = [] ↔ Blank cs := by
  constructor
  · intro nothing
    obtain ⟨before, after, whole, early, late⟩ := (trims_trim_chars cs).parts
    rw [nothing, List.append_nil] at whole
    rw [whole]
    exact List.forall_mem_append.mpr ⟨early, late⟩
  · exact trim_chars_of_blank

theorem trim_eq_iff {s core : String} : trim s = core ↔ Trims s.toList core.toList := by
  rw [trim, trims_iff, ← String.toList_inj, String.toList_ofList]

theorem Trims.bare {cs core : List Char} (trims : Trims cs core) : Trims core core where
  parts := ⟨[], [], (List.append_nil core).symm, List.forall_mem_nil _, List.forall_mem_nil _⟩
  head := trims.head
  last := trims.last

theorem trims_of_visible {cs : List Char} (visible : ∀ c ∈ cs, isBlank c = false) :
    Trims cs cs where
  parts := ⟨[], [], (List.append_nil cs).symm, List.forall_mem_nil _, List.forall_mem_nil _⟩
  head := fun c first => visible c (List.mem_of_mem_head? first)
  last := fun c final => visible c (List.mem_of_mem_getLast? final)

theorem Trims.around {cs core before after : List Char} (trims : Trims cs core)
    (early : Blank before) (late : Blank after) : Trims (before ++ cs ++ after) core where
  parts := by
    obtain ⟨first, last, rfl, blank, blank'⟩ := trims.parts
    refine ⟨before ++ first, last ++ after, ?_, ?_, ?_⟩
    · simp only [List.append_assoc]
    · exact List.forall_mem_append.mpr ⟨early, blank⟩
    · exact List.forall_mem_append.mpr ⟨blank', late⟩
  head := trims.head
  last := trims.last

theorem trim_around {before after : String} (early : Blank before.toList)
    (late : Blank after.toList) (s : String) : trim (before ++ s ++ after) = trim s := by
  rw [trim_eq_iff, String.toList_append, String.toList_append]
  exact (trim_eq_iff.mp rfl).around early late

theorem trim_eq_empty_iff {s : String} : trim s = "" ↔ Blank s.toList := by
  rw [trim, String.ofList_eq_empty_iff, trim_chars_eq_nil_iff]

/-- A letter from A to Z and the same one from a to z. -/
def CapitalOf (capital small : Char) : Prop :=
  65 ≤ capital.toNat ∧ capital.toNat ≤ 90 ∧ small.toNat = capital.toNat + 32

/-- One character, or a letter of the English alphabet in both its cases. -/
def SameLetter (c d : Char) : Prop := c = d ∨ CapitalOf c d ∨ CapitalOf d c

theorem to_nat_to_lower (c : Char) :
    c.toLower.toNat = if 65 ≤ c.toNat ∧ c.toNat ≤ 90 then c.toNat + 32 else c.toNat := by
  have range : (c.val ≥ 'A'.val ∧ c.val ≤ 'Z'.val) ↔ (65 ≤ c.toNat ∧ c.toNat ≤ 90) := Iff.rfl
  unfold Char.toLower
  split
  · rename_i capital
    rw [if_pos (range.mp capital)]
    have small : c.toNat + 32 < 2 ^ 32 := by
      have := (range.mp capital).2
      omega
    exact (UInt32.toNat_add c.val 32).trans (Nat.mod_eq_of_lt small)
  · rename_i other
    rw [if_neg fun capital => other (range.mpr capital)]

theorem to_lower_eq_iff {c d : Char} : c.toLower = d.toLower ↔ SameLetter c d := by
  rw [← Char.toNat_inj, to_nat_to_lower, to_nat_to_lower, SameLetter, ← Char.toNat_inj]
  unfold CapitalOf
  split <;> split <;> omega

theorem equal_ignoring_case_iff {s t : String} :
    equalIgnoringCase s t = true ↔ List.Forall₂ SameLetter s.toList t.toList := by
  rw [equalIgnoringCase, beq_iff_eq, ← List.forall₂_eq_eq_eq, List.forall₂_map_left_iff,
    List.forall₂_map_right_iff]
  simp only [to_lower_eq_iff]

end SnapshotEndpoint.Text
