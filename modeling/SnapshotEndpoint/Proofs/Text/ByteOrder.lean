import Mathlib.Algebra.Group.Nat.Defs
import SnapshotEndpoint.SortedMap

/-!
The order of texts by their characters is that of their bytes in UTF-8. The first byte of a
character tells how many follow, more for a higher one, and has its highest digits; so the bytes of
two characters part before either has ended, and at the part that tells which is the higher.
-/
namespace SnapshotEndpoint.Text

/-- The bytes of a text in UTF-8. -/
def bytes (s : String) : List UInt8 := s.toUTF8.data.toList

/-- The lower digits of a number to base 64, the last `count` of them, as bytes that follow a
    first one. -/
def following : Nat → Nat → List UInt8
  | 0, _ => []
  | count + 1, n => following count (n / 64) ++ [UInt8.ofNat (n % 64 + 128)]

/-- How many bytes follow the first one of a character, and what its highest digits are added to
    there. -/
inductive Lead : Nat → Nat → Nat → Prop where
  | single {n : Nat} (upper : n < 128) : Lead n 0 0
  | double {n : Nat} (lower : 128 ≤ n) (upper : n < 2048) : Lead n 1 192
  | triple {n : Nat} (lower : 2048 ≤ n) (upper : n < 65536) : Lead n 2 224
  | quadruple {n : Nat} (lower : 65536 ≤ n) (upper : n < 1114112) : Lead n 3 240

theorem bytes_eq (s : String) : bytes s = s.toList.flatMap String.utf8EncodeChar := by
  rw [bytes, String.toUTF8_eq_toByteArray, ← String.utf8Encode_toList, List.utf8Encode,
    List.toList_data_toByteArray]

theorem encode_char (c : Char) : ∃ count base, Lead c.toNat count base ∧
    String.utf8EncodeChar c =
      UInt8.ofNat (base + c.toNat / 64 ^ count) :: following count c.toNat := by
  have top : c.toNat < 1114112 := by
    rcases c.valid with small | ⟨_, small⟩
    · exact Nat.lt_trans small (by decide)
    · exact small
  have value : c.val.toNat = c.toNat := rfl
  rw [String.utf8EncodeChar, value]
  generalize c.toNat = n at top
  split
  · refine ⟨0, 0, .single (by omega), ?_⟩
    rw [Nat.pow_zero, Nat.div_one, Nat.zero_add, following]
  · split
    · have first : n / 64 % 32 + 192 = 192 + n / 64 ^ 1 := by omega
      refine ⟨1, 192, .double (by omega) (by omega), ?_⟩
      rw [first]
      rfl
    · split
      · have first : n / 4096 % 16 + 224 = 224 + n / 64 ^ 2 := by omega
        refine ⟨2, 224, .triple (by omega) (by omega), ?_⟩
        rw [first]
        rfl
      · have first : n / 262144 % 8 + 240 = 240 + n / 64 ^ 3 := by omega
        have second : n / 4096 = n / 64 / 64 := by omega
        refine ⟨3, 240, .quadruple (by omega) top, ?_⟩
        rw [first, second]
        rfl

theorem byte_lt {n m : Nat} (small : m < 256) (less : n < m) : UInt8.ofNat n < UInt8.ofNat m := by
  rw [UInt8.lt_iff_toNat_lt, UInt8.toNat_ofNat', UInt8.toNat_ofNat', Nat.mod_eq_of_lt small,
    Nat.mod_eq_of_lt (Nat.lt_trans less small)]
  exact less

theorem following_lt {count n m : Nat} (same : n / 64 ^ count = m / 64 ^ count) (less : n < m)
    (xs ys : List UInt8) : following count n ++ xs < following count m ++ ys := by
  induction count generalizing n m xs ys with
  | zero =>
    rw [Nat.pow_zero, Nat.div_one, Nat.div_one] at same
    omega
  | succ count ih =>
    rw [following, following, List.append_assoc, List.append_assoc]
    rw [Nat.pow_succ', ← Nat.div_div_eq_div_mul, ← Nat.div_div_eq_div_mul] at same
    by_cases above : n / 64 = m / 64
    · rw [above]
      exact List.append_left_lt (List.cons_lt_cons_iff.mpr (Or.inl (byte_lt (by omega) (by omega))))
    · exact ih same (by omega) _ _

/-- The bytes of two characters are in order whatever follows them. -/
theorem encode_lt {c d : Char} (before : c < d) (xs ys : List UInt8) :
    String.utf8EncodeChar c ++ xs < String.utf8EncodeChar d ++ ys := by
  have less : c.toNat < d.toNat := before
  obtain ⟨count, base, lead, first⟩ := encode_char c
  obtain ⟨count', base', lead', second⟩ := encode_char d
  rw [first, second, List.cons_append, List.cons_append, List.cons_lt_cons_iff]
  have order : base + c.toNat / 64 ^ count < base' + d.toNat / 64 ^ count' ∨
      count = count' ∧ base = base' ∧ c.toNat / 64 ^ count = d.toNat / 64 ^ count' := by
    cases lead <;> cases lead' <;> omega
  have small : base' + d.toNat / 64 ^ count' < 256 := by
    cases lead' <;> omega
  rcases order with parts | ⟨rfl, rfl, same⟩
  · exact Or.inl (byte_lt small parts)
  · exact Or.inr ⟨by rw [same], following_lt same less xs ys⟩

theorem encode_all_lt {xs ys : List Char} (before : xs < ys) :
    xs.flatMap String.utf8EncodeChar < ys.flatMap String.utf8EncodeChar := by
  induction xs generalizing ys with
  | nil =>
    cases ys with
    | nil => cases before
    | cons d ys =>
      obtain ⟨_, _, _, first⟩ := encode_char d
      rw [List.flatMap_cons, first]
      exact List.nil_lt_cons _ _
  | cons c xs ih =>
    cases ys with
    | nil => cases before
    | cons d ys =>
      rw [List.flatMap_cons, List.flatMap_cons]
      rcases List.cons_lt_cons_iff.mp before with first | ⟨rfl, rest⟩
      · exact encode_lt first _ _
      · exact List.append_left_lt (ih rest)

theorem lt_iff_bytes_lt {s t : String} : s < t ↔ bytes s < bytes t := by
  rw [bytes_eq, bytes_eq]
  constructor
  · exact encode_all_lt
  · intro before
    refine Decidable.byContradiction fun other => ?_
    by_cases same : s = t
    · rw [same] at before
      exact List.lt_irrefl _ before
    · exact List.lt_asymm before (encode_all_lt (lt_of_not_lt_of_ne other same))

end SnapshotEndpoint.Text
