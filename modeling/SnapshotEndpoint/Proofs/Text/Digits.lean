import Mathlib.Data.List.Induction
import SnapshotEndpoint.Text.Blank

/-!
Digits and what they stand for. Leading zeros change nothing, so a number has many spellings, and
one alone without them: the digits that are written for it.
-/
namespace SnapshotEndpoint.Text

/-- Decimal digits, at least one. -/
structure Digits (cs : List Char) : Prop where
  nonempty : cs ≠ []
  digit : ∀ c ∈ cs, c.isDigit = true

/-- Digits for a whole number, with a sign in front or without. -/
inductive Signed : List Char → Int → Prop where
  | plain {digits : List Char} (all : Digits digits) : Signed digits (decimalValue digits)
  | plus {digits : List Char} (all : Digits digits) : Signed ('+' :: digits) (decimalValue digits)
  | minus {digits : List Char} (all : Digits digits) :
      Signed ('-' :: digits) (-(decimalValue digits : Int))

theorem digits_to_digits (n : Nat) : Digits (Nat.toDigits 10 n) where
  nonempty := Nat.toDigits_ne_nil
  digit _ := Nat.isDigit_of_mem_toDigits (by decide) (Nat.le_refl 10)

theorem starts_to_digits (n : Nat) :
    ∃ c more, Nat.toDigits 10 n = c :: more ∧ c.isDigit = true := by
  obtain ⟨c, more, shape⟩ := List.exists_cons_of_ne_nil (digits_to_digits n).nonempty
  refine ⟨c, more, shape, (digits_to_digits n).digit c ?_⟩
  rw [shape]
  exact List.mem_cons_self

theorem hex_digit_digit_char : ∀ n < 16, hexDigit? (Nat.digitChar n) = some n := by decide

theorem digit_char_zero_iff : ∀ n < 10, Nat.digitChar n = '0' ↔ n = 0 := by decide

theorem head_to_digits_zero_iff (n : Nat) :
    (Nat.toDigits 10 n).head? = some '0' ↔ n = 0 := by
  induction n using Nat.strongRecOn with
  | ind n ih =>
    rw [Nat.toDigits_eq_if (by decide)]
    split
    · rename_i small
      rw [List.head?_cons, Option.some.injEq]
      exact digit_char_zero_iff n small
    · rename_i large
      -- The first digit is that of a tenth, which is not zero.
      have earlier := ih (n / 10) (by omega)
      obtain ⟨c, more, same, _⟩ := starts_to_digits (n / 10)
      rw [same] at earlier ⊢
      rw [List.cons_append, List.head?_cons, ← List.head?_cons (l := more), earlier]
      omega

theorem decimal_value_to_digits (n : Nat) : decimalValue (Nat.toDigits 10 n) = n := by
  rw [decimalValue, ← Nat.ofDigitChars_eq_foldl, Nat.ofDigitChars_ten_toDigits]

theorem decimal_value_concat (digits : List Char) (last : Char) :
    decimalValue (digits ++ [last]) = 10 * decimalValue digits + (last.toNat - '0'.toNat) := by
  rw [decimalValue, decimalValue, List.foldl_append]
  rfl

theorem digit_range {c : Char} (digit : c.isDigit = true) : 48 ≤ c.toNat ∧ c.toNat ≤ 57 := by
  rw [Char.isDigit, Bool.and_eq_true, decide_eq_true_eq, decide_eq_true_eq] at digit
  exact digit

theorem digit_char_of_digit {c : Char} (digit : c.isDigit = true) :
    Nat.digitChar (c.toNat - '0'.toNat) = c := by
  obtain ⟨low, high⟩ := digit_range digit
  have zero : '0'.toNat = 48 := rfl
  rw [← Char.toNat_inj, Nat.toNat_digitChar_of_lt_ten (by omega)]
  omega

/-- Digits without a leading zero are those that are written for their value. -/
theorem to_digits_of_digits {cs : List Char} (digits : Digits cs)
    (plain : cs.head? = some '0' → cs.length ≤ 1) : Nat.toDigits 10 (decimalValue cs) = cs := by
  induction cs using List.reverseRecOn with
  | nil => exact absurd rfl digits.nonempty
  | append_singleton front last ih =>
    have digit := digits.digit last (List.mem_append_right front List.mem_cons_self)
    obtain ⟨_, high⟩ := digit_range digit
    have zero : '0'.toNat = 48 := rfl
    have single : Nat.toDigits 10 (last.toNat - '0'.toNat) = [last] := by
      rw [Nat.toDigits_of_lt_base (by omega), digit_char_of_digit digit]
    cases front with
    | nil =>
      rw [List.nil_append, decimalValue, List.foldl_cons, List.foldl_nil, Nat.mul_zero,
        Nat.zero_add, single]
    | cons first rest =>
      have front : Digits (first :: rest) :=
        ⟨List.cons_ne_nil _ _, fun c member => digits.digit c (List.mem_append_left _ member)⟩
      have nonzero : first ≠ '0' := by
        rintro rfl
        have short := plain rfl
        simp at short
      have written := ih front fun starts => absurd (Option.some.inj starts) nonzero
      have positive : 0 < decimalValue (first :: rest) := by
        apply Nat.pos_of_ne_zero
        rw [Ne, ← head_to_digits_zero_iff, written]
        exact fun starts => nonzero (Option.some.inj starts)
      rw [decimal_value_concat, ← Nat.toDigits_append_toDigits (by decide) positive (by omega),
        written, single]

theorem to_string_natural (n : Nat) : (toString (n : Int)).toList = Nat.toDigits 10 n := by
  rw [Int.toString_eq_repr, Int.repr_eq_if, if_pos (Int.natCast_nonneg n), Int.toNat_natCast,
    Nat.toList_repr]

theorem to_string_negative {n : Nat} (positive : 0 < n) :
    (toString (-n : Int)).toList = '-' :: Nat.toDigits 10 n := by
  rw [Int.toString_eq_repr, Int.repr_eq_if, if_neg (by omega), Int.neg_neg, Int.toNat_natCast,
    String.toList_append, Nat.toList_repr]
  rfl

theorem signed_to_string (n : Int) : Signed (toString n).toList n := by
  rcases Int.lt_or_le n 0 with negative | natural
  · obtain ⟨m, rfl⟩ : ∃ m : Nat, n = -m := ⟨n.natAbs, by omega⟩
    have signed := Signed.minus (digits_to_digits m)
    rwa [decimal_value_to_digits, ← to_string_negative (by omega)] at signed
  · obtain ⟨m, rfl⟩ := Int.eq_ofNat_of_zero_le natural
    have whole := Signed.plain (digits_to_digits m)
    rwa [decimal_value_to_digits, ← to_string_natural] at whole

end SnapshotEndpoint.Text
