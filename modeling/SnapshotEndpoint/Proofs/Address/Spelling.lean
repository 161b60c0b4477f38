import Mathlib.Data.List.TakeDrop
import Mathlib.Data.List.TakeWhile
import SnapshotEndpoint.Proofs.Text.Digits
import SnapshotEndpoint.SocketAddress

/-!
The texts that name a socket address, by a grammar that does not read them. An octet has one
spelling. A group has up to four digits in either case, the last two groups may be four octets, and
one run of zeros may be left out. Leading zeros are free in a scope and in a port.
-/
namespace SnapshotEndpoint.SocketAddress

/-- Decimal digits for a number. -/
structure Number (cs : List Char) (n : Nat) : Prop where
  digits : Text.Digits cs
  value : Text.decimalValue cs = n

def octetChars (n : UInt8) : List Char := Nat.toDigits 10 n.toNat

def dotted (o : Octets) : List Char :=
  octetChars o.a ++ '.' :: (octetChars o.b ++ '.' :: (octetChars o.c ++ '.' :: octetChars o.d))

/-- Up to four hexadecimal digits for a group. -/
structure Group (cs : List Char) (g : UInt16) : Prop where
  nonempty : cs ≠ []
  short : cs.length ≤ 4
  digit : ∀ c ∈ cs, isHexDigit c = true
  value : (hexValue cs).toUInt16 = g

/-- What stands before a group: a colon, if it is not the first of its run. -/
def separator (first : Bool) : List Char := if first then [] else [':']

/-- A run of groups, and whether its last two are written as four octets. -/
inductive Run : Bool → List Char → List UInt16 → Bool → Prop where
  | nil (first : Bool) : Run first [] [] false
  | octets (first : Bool) (o : Octets) :
      Run first (separator first ++ dotted o) [pairGroup o.a o.b, pairGroup o.c o.d] true
  | group {cs more : List Char} {g : UInt16} {groups : List UInt16} {ends : Bool} (first : Bool)
      (text : Group cs g) (rest : Run false more groups ends) :
      Run first (separator first ++ (cs ++ more)) (g :: groups) ends

/-- Eight groups, all written or with zeros left out between two colons. -/
inductive Groups : List Char → List UInt16 → Prop where
  | all {cs : List Char} {groups : List UInt16} {ends : Bool} (run : Run true cs groups ends)
      (eight : groups.length = 8) : Groups cs groups
  | gap {before after : List Char} {heads tails : List UInt16} {ends : Bool}
      (head : Run true before heads false) (tail : Run true after tails ends)
      (fewer : heads.length + tails.length < 8) :
      Groups (before ++ ':' :: ':' :: after)
        (heads ++ List.replicate (8 - heads.length - tails.length) 0 ++ tails)

inductive Scope : List Char → UInt32 → Prop where
  | none : Scope [] 0
  | number {cs : List Char} {scope : UInt32} (number : Number cs scope.toNat) :
      Scope ('%' :: cs) scope

/-- A text names an address. -/
inductive Spells : List Char → SocketAddress → Prop where
  | v4 (o : Octets) {cs : List Char} {port : UInt16} (number : Number cs port.toNat) :
      Spells (dotted o ++ ':' :: cs) ⟨.v4 o.a o.b o.c o.d, port⟩
  | v6 {inside within cs : List Char} {groups : List UInt16} {scope : UInt32} {port : UInt16}
      (address : Groups inside groups) (eight : groups.length = 8) (zone : Scope within scope)
      (number : Number cs port.toNat) :
      Spells ('[' :: (inside ++ (within ++ ']' :: ':' :: cs))) ⟨.v6 groups eight scope, port⟩

/-- A text does not go on with characters of a kind. -/
def Stops (kind : Char → Bool) (rest : List Char) : Prop := ∀ c ∈ rest.head?, kind c = false

section Readers

variable {cs rest : List Char}

theorem stops_nil (kind : Char → Bool) : Stops kind [] := by
  intro c impossible
  cases impossible

theorem stops_cons_iff {kind : Char → Bool} {c : Char} :
    Stops kind (c :: rest) ↔ kind c = false := by
  simp [Stops]

theorem span_eq_iff {kind : Char → Bool} {front : List Char} :
    cs.span kind = (front, rest) ↔
      cs = front ++ rest ∧ (∀ c ∈ front, kind c = true) ∧ Stops kind rest := by
  rw [List.span_eq_takeWhile_dropWhile, Prod.mk.injEq]
  constructor
  · rintro ⟨rfl, rfl⟩
    refine ⟨List.takeWhile_append_dropWhile.symm, fun c => List.mem_takeWhile_imp, ?_⟩
    intro c first
    have := List.head?_dropWhile_not kind cs
    rw [Option.mem_def.mp first] at this
    simpa using this
  · rintro ⟨rfl, all, stops⟩
    rw [List.takeWhile_append_of_pos all, List.dropWhile_append_of_pos all]
    cases rest with
    | nil => simp
    | cons c rest => simp [stops_cons_iff.mp stops]

theorem expect_char_eq_some_iff {c : Char} : expectChar c cs = some rest ↔ cs = c :: rest := by
  cases cs with
  | nil => simp [expectChar]
  | cons d cs => simp [expectChar]

theorem read_decimal_eq_some_iff {limit n : Nat} : readDecimal limit cs = some (n, rest) ↔
    n < limit ∧ ∃ front, cs = front ++ rest ∧ Number front n ∧ Stops Char.isDigit rest := by
  constructor
  · intro read
    rcases parts : cs.span Char.isDigit with ⟨front, back⟩
    obtain ⟨whole, all, stops⟩ := span_eq_iff.mp parts
    rw [readDecimal, parts] at read
    dsimp only at read
    split at read
    · cases read
    · rename_i some_
      split at read
      · rename_i small
        cases read
        rw [List.isEmpty_iff] at some_
        exact ⟨small, front, whole, ⟨⟨some_, all⟩, rfl⟩, stops⟩
      · cases read
  · rintro ⟨small, front, whole, ⟨digits, rfl⟩, stops⟩
    have some_ : ¬ front.isEmpty = true := by simpa using digits.nonempty
    rw [readDecimal, span_eq_iff.mpr ⟨whole, digits.digit, stops⟩]
    dsimp only
    rw [if_neg some_, if_pos small]

theorem read_octet_eq_some_iff {n : UInt8} : readOctet cs = some (n, rest) ↔
    cs = octetChars n ++ rest ∧ Stops Char.isDigit rest := by
  constructor
  · intro read
    rcases parts : cs.span Char.isDigit with ⟨front, back⟩
    obtain ⟨whole, all, stops⟩ := span_eq_iff.mp parts
    rw [readOctet, parts] at read
    dsimp only at read
    split at read
    · cases read
    · rename_i plain
      split at read
      · rename_i small
        cases read
        simp only [Bool.or_eq_true, Bool.and_eq_true, decide_eq_true_eq, beq_iff_eq,
          List.isEmpty_iff, not_or, not_and, Nat.not_lt] at plain
        obtain ⟨⟨some_, _⟩, zero⟩ := plain
        have written := Text.to_digits_of_digits ⟨some_, all⟩ zero
        rw [octetChars, Nat.toUInt8, UInt8.toNat_ofNat_of_lt' small, written]
        exact ⟨whole, stops⟩
      · cases read
  · rintro ⟨whole, stops⟩
    have digits := Text.digits_to_digits n.toNat
    have small := n.toNat_lt
    have plain : ¬ ((octetChars n).isEmpty || decide (3 < (octetChars n).length) ||
        ((octetChars n).head? == some '0' && decide (1 < (octetChars n).length))) = true := by
      have short : (octetChars n).length ≤ 3 :=
        (Nat.length_toDigits_le_iff (by decide) (by decide)).mpr (by omega)
      have zero : (octetChars n).head? = some '0' → (octetChars n).length ≤ 1 := by
        intro starts
        rw [octetChars, (Text.head_to_digits_zero_iff n.toNat).mp starts]
        exact Nat.le_refl 1
      simpa using ⟨⟨digits.nonempty, short⟩, zero⟩
    rw [readOctet, span_eq_iff.mpr ⟨whole, digits.digit, stops⟩]
    dsimp only
    rw [if_neg plain, octetChars, Text.decimal_value_to_digits, if_pos small, Nat.toUInt8,
      UInt8.ofNat_toNat]

theorem read_octets_eq_some_iff {o : Octets} : readOctets cs = some (o, rest) ↔
    cs = dotted o ++ rest ∧ Stops Char.isDigit rest := by
  simp only [readOctets, Option.bind_eq_bind, Option.bind_eq_some_iff, Prod.exists,
    expect_char_eq_some_iff, read_octet_eq_some_iff, Option.some.injEq, Prod.mk.injEq]
  constructor
  · rintro ⟨a, _, ⟨rfl, _⟩, _, rfl, b, _, ⟨rfl, _⟩, _, rfl, c, _, ⟨rfl, _⟩, _, rfl, d, _,
      ⟨rfl, stops⟩, rfl, rfl⟩
    exact ⟨by simp [dotted], stops⟩
  · rintro ⟨rfl, stops⟩
    have point : ∀ more, Stops Char.isDigit ('.' :: more) := fun _ => stops_cons_iff.mpr rfl
    refine ⟨o.a, _, ⟨?_, point _⟩, _, rfl, o.b, _, ⟨rfl, point _⟩, _, rfl, o.c, _,
      ⟨rfl, point _⟩, _, rfl, o.d, _, ⟨rfl, stops⟩, rfl, rfl⟩
    simp only [dotted, List.append_assoc, List.cons_append]

theorem read_group_eq_some_iff {g : UInt16} : readGroup cs = some (g, rest) ↔
    ∃ front, cs = front ++ rest ∧ Group front g ∧ Stops isHexDigit rest := by
  constructor
  · intro read
    rcases parts : cs.span isHexDigit with ⟨front, back⟩
    obtain ⟨whole, all, stops⟩ := span_eq_iff.mp parts
    rw [readGroup, parts] at read
    dsimp only at read
    split at read
    · cases read
    · rename_i fitting
      cases read
      simp only [Bool.or_eq_true, decide_eq_true_eq, List.isEmpty_iff, not_or, Nat.not_lt]
        at fitting
      exact ⟨front, whole, ⟨fitting.1, fitting.2, all, rfl⟩, stops⟩
  · rintro ⟨front, whole, group, stops⟩
    have fitting : ¬ (front.isEmpty || decide (4 < front.length)) = true := by
      simpa using ⟨group.nonempty, group.short⟩
    rw [readGroup, span_eq_iff.mpr ⟨whole, group.digit, stops⟩]
    dsimp only
    rw [if_neg fitting, group.value]

end Readers

end SnapshotEndpoint.SocketAddress
