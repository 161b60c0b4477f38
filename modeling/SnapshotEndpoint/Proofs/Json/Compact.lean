import Mathlib.Data.List.TakeDrop
import SnapshotEndpoint.Json
import SnapshotEndpoint.Proofs.Json.Quoted
import SnapshotEndpoint.Proofs.Json.Spelling
import SnapshotEndpoint.Proofs.Text.Digits

/-!
The compact text of a value spells one tree. Whole numbers keep every digit from the least
signed to the greatest unsigned word, and strings keep every character; doubles are left out,
because reading rounds them.
-/
namespace SnapshotEndpoint.Json

/-- Values that reading gives back as they were written. -/
inductive Exact : Json → Prop where
  | null : Exact .null
  | bool (value : Bool) : Exact (.bool value)
  | integer {n : Int} (low : -(signedLimit : Int) ≤ n) (high : n < wordLimit) : Exact (.integer n)
  | string (s : String) : Exact (.string s)
  | array {items : List Json} (inside : ∀ item ∈ items, Exact item) : Exact (.array items)
  | object {members : List (String × Json)} (inside : ∀ member ∈ members, Exact member.2) :
      Exact (.object members)

mutual

/-- The tree that the compact text of a value spells. That of a double is the one its digits
    are read as. -/
def tree : Json → Tree
  | null => .null
  | bool value => .bool value
  | integer n => .number (some (.integer n))
  | float x => (numberTree (floatText x)).1
  | string s => .string (Quoted.ofText s)
  | array items => .array (itemTrees items) .closed
  | object members => .object (memberTrees members) .closed

def itemTrees : List Json → List Tree
  | [] => []
  | item :: rest => tree item :: itemTrees rest

def memberTrees : List (String × Json) → List (Quoted × Tree)
  | [] => []
  | (key, value) :: rest => (Quoted.ofText key, tree value) :: memberTrees rest

end

theorem take_digits_append {digits rest : List Char} (all : ∀ c ∈ digits, c.isDigit = true)
    (stops : Stops rest) : takeDigits (digits ++ rest) = (digits, rest) := by
  rw [takeDigits, List.span_eq_takeWhile_dropWhile, List.takeWhile_append_of_pos all,
    List.dropWhile_append_of_pos all]
  cases rest with
  | nil => simp
  | cons c more => simp [stops c rfl]

/-- The token of a whole number. -/
def NumberToken.ofNat (negative : Bool) (n : Nat) : NumberToken :=
  ⟨negative, Nat.toDigits 10 n, [], none⟩

theorem value_of_natural {n : Nat} (small : n < wordLimit) :
    (NumberToken.ofNat false n).value? = some (.integer n) := by
  simp [NumberToken.value?, NumberToken.ofNat, NumberToken.isWhole, Text.decimal_value_to_digits,
    small]

theorem value_of_negative {n : Nat} (positive : 0 < n) (small : n ≤ signedLimit) :
    (NumberToken.ofNat true n).value? = some (.integer (-n)) := by
  simp [NumberToken.value?, NumberToken.ofNat, NumberToken.isWhole, Text.decimal_value_to_digits,
    positive, small]

theorem read_whole_digits (n : Nat) {rest : List Char} (ends : Ends rest) :
    readWhole (Nat.toDigits 10 n ++ rest) = .ok (Nat.toDigits 10 n, rest) := by
  have digits : ∀ c ∈ Nat.toDigits 10 n, c.isDigit = true := fun c member =>
    Nat.isDigit_of_mem_toDigits (by decide) (by decide) member
  have taken := take_digits_append digits ends.stops
  have zero := Text.head_to_digits_zero_iff n
  cases shape : Nat.toDigits 10 n with
  | nil => exact absurd shape Nat.toDigits_ne_nil
  | cons c more =>
    rw [shape] at digits taken zero
    rw [readWhole, List.cons_append, readDigits, digits c List.mem_cons_self, if_pos rfl,
      ← List.cons_append, taken]
    dsimp only [Bind.bind, Except.bind]
    split
    · rename_i same
      rw [(List.cons.inj same).1] at zero
      rw [zero.mp rfl] at shape
      rw [same] at shape
      cases shape
    · rfl

theorem read_fraction_of_ends {rest : List Char} (ends : Ends rest) :
    readFraction rest = .ok ([], rest) := by
  cases rest with
  | nil => rfl
  | cons c more =>
    rw [readFraction]
    intro after same
    exact (ends c rfl).2.1 (List.cons.inj same).1

theorem read_exponent_of_ends {rest : List Char} (ends : Ends rest) :
    readExponent rest = .ok (none, rest) := by
  cases rest with
  | nil => rfl
  | cons c more =>
    obtain ⟨_, _, small, capital⟩ := ends c rfl
    rw [readExponent, if_neg (by simp [small, capital])]

theorem read_unsigned_digits (negative : Bool) (n : Nat) {rest : List Char} (ends : Ends rest) :
    readUnsigned negative (Nat.toDigits 10 n ++ rest) =
      .ok (.ofNat negative n, rest) := by
  rw [readUnsigned, read_whole_digits n ends]
  dsimp only [Bind.bind, Except.bind]
  rw [read_fraction_of_ends ends]
  dsimp only
  rw [read_exponent_of_ends ends]
  rfl

theorem int_chars_natural (n : Nat) : intChars n = Nat.toDigits 10 n := Text.to_string_natural n

theorem int_chars_negative {n : Nat} (positive : 0 < n) :
    intChars (-n) = '-' :: Nat.toDigits 10 n := Text.to_string_negative positive

theorem number_text_natural (n : Nat) : NumberText (.ofNat false n) (intChars n) := by
  rw [int_chars_natural]
  obtain ⟨c, more, shape, digit⟩ := Text.starts_to_digits n
  refine ⟨⟨c, more, shape, .inr digit⟩, ?_⟩
  intro rest ends
  rw [← read_unsigned_digits false n ends, shape, List.cons_append, readNumber]
  intro after same
  rw [(List.cons.inj same).1] at digit
  cases digit

theorem number_text_negative {n : Nat} (positive : 0 < n) :
    NumberText (.ofNat true n) (intChars (-n)) := by
  rw [int_chars_negative positive]
  refine ⟨⟨_, _, rfl, .inl rfl⟩, ?_⟩
  intro rest ends
  rw [List.cons_append, readNumber, read_unsigned_digits true n ends]

theorem spells_integer {n : Int} (low : -(signedLimit : Int) ≤ n) (high : n < wordLimit) :
    Spells (.tree (.number (some (.integer n)))) (intChars n) := by
  rcases Int.lt_or_le n 0 with negative | natural
  · obtain ⟨m, rfl⟩ : ∃ m : Nat, n = -m := ⟨n.natAbs, by omega⟩
    have positive : 0 < m := by omega
    rw [← value_of_negative positive (by omega)]
    exact .number (number_text_negative positive)
  · obtain ⟨m, rfl⟩ := Int.eq_ofNat_of_zero_le natural
    rw [← value_of_natural (by omega)]
    exact .number (number_text_natural m)

theorem length_le_escaped (cs : List Char) : cs.length ≤ (cs.flatMap escapeChar).length := by
  induction cs with
  | nil => exact Nat.le_refl 0
  | cons c more ih =>
    obtain ⟨d, tail, head, _⟩ := escape_head c
    rw [List.flatMap_cons, head, List.cons_append, List.length_cons, List.length_cons,
      List.length_append]
    omega

theorem quoted_text (s : String) :
    QuotedText (.ofText s) (s.toList.flatMap escapeChar ++ ['"']) := by
  refine ⟨rfl, ?_⟩
  intro rest fuel enough
  have longer := length_le_escaped s.toList
  rw [List.length_append, List.length_singleton] at enough
  rw [List.append_assoc]
  exact read_quoted_escaped s.toList rest (by omega)

theorem blank_nil : Blank [] := by
  intro c member
  cases member

/-- What follows the first of several items or members: each stands behind a comma and a gap. -/
def tailChars {α : Type} (chars : α → List Char) (gap ending : List Char) : List α → List Char
  | [] => ending
  | x :: rest => ',' :: (gap ++ (chars x ++ tailChars chars gap ending rest))

def memberChars (chars : Json → List Char) (space : List Char) (member : String × Json) :
    List Char :=
  stringChars member.1 ++ ':' :: (space ++ chars member.2)

/-! Items and members that are laid out with blanks of any kind between the tokens. -/

section Layout

variable {chars : Json → List Char} {gap close space : List Char}

theorem spells_item_tail (apart : Blank gap) (closes : Blank close) {items : List Json}
    (inside : ∀ item ∈ items, Spells (.tree item.tree) (chars item)) :
    Spells (.items false (itemTrees items)) (tailChars chars gap (close ++ [']']) items) := by
  induction items with
  | nil => exact .endOfItems closes
  | cons item rest ih =>
    have others := ih fun other member => inside other (List.mem_cons_of_mem item member)
    exact .nextItem blank_nil apart (.item (inside item List.mem_cons_self) others)

theorem spells_items (apart : Blank gap) (closes : Blank close) {item : Json} {rest : List Json}
    (inside : ∀ other ∈ item :: rest, Spells (.tree other.tree) (chars other)) :
    Spells (.items true (itemTrees (item :: rest)))
      (gap ++ (chars item ++ tailChars chars gap (close ++ [']']) rest)) := by
  have others := spells_item_tail apart closes fun other member =>
    inside other (List.mem_cons_of_mem item member)
  exact .firstItem apart (.item (inside item List.mem_cons_self) others)

theorem member_chars_append (member : String × Json) (more : List Char) :
    memberChars chars space member ++ more =
      '"' :: (member.1.toList.flatMap escapeChar ++ '"' :: ':' ::
        (space ++ (chars member.2 ++ more))) := by
  rw [memberChars, stringChars]
  simp only [List.append_assoc, List.cons_append, List.nil_append]

theorem spells_member (spaced : Blank space) {member : String × Json}
    {members : List (Quoted × Tree)} {more : List Char}
    (inside : Spells (.tree member.2.tree) (chars member.2))
    (others : Spells (.members false members) more) :
    Spells (.member ((Quoted.ofText member.1, member.2.tree) :: members))
      (member.1.toList.flatMap escapeChar ++ '"' :: ':' ::
        (space ++ (chars member.2 ++ more))) := by
  have named := Spells.member (quoted_text member.1) blank_nil spaced inside others
  rw [List.append_assoc] at named
  exact named

theorem spells_member_tail (apart : Blank gap) (closes : Blank close) (spaced : Blank space)
    {members : List (String × Json)}
    (inside : ∀ member ∈ members, Spells (.tree member.2.tree) (chars member.2)) :
    Spells (.members false (memberTrees members))
      (tailChars (memberChars chars space) gap (close ++ ['\x7d']) members) := by
  induction members with
  | nil => exact .endOfMembers closes
  | cons member rest ih =>
    have others := ih fun other known => inside other (List.mem_cons_of_mem member known)
    rw [tailChars, member_chars_append]
    have named := spells_member spaced (inside member List.mem_cons_self) others
    exact .nextMember blank_nil apart named

theorem spells_members (apart : Blank gap) (closes : Blank close) (spaced : Blank space)
    {member : String × Json} {rest : List (String × Json)}
    (inside : ∀ other ∈ member :: rest, Spells (.tree other.2.tree) (chars other.2)) :
    Spells (.members true (memberTrees (member :: rest))) (gap ++ (memberChars chars space member ++
      tailChars (memberChars chars space) gap (close ++ ['\x7d']) rest)) := by
  have others := spells_member_tail apart closes spaced fun other known =>
    inside other (List.mem_cons_of_mem member known)
  rw [member_chars_append]
  exact .firstMember apart (spells_member spaced (inside member List.mem_cons_self) others)

end Layout

theorem compact_items_cons (item : Json) (rest : List Json) :
    compactItems (item :: rest) ++ [']'] =
      compactChars item ++ tailChars compactChars [] [']'] rest := by
  induction rest generalizing item with
  | nil => rfl
  | cons next rest ih =>
    rw [compactItems, List.append_assoc, List.cons_append, ih next]
    rfl

theorem compact_members_eq (members : List (String × Json)) :
    compactMembers members =
      [','].intercalate (members.map fun m => stringChars m.1 ++ ':' :: compactChars m.2) := by
  induction members with
  | nil => rfl
  | cons first rest ih =>
    cases rest with
    | nil => simp [compactMembers]
    | cons second rest =>
      rw [compactMembers, ih]
      simp only [List.map_cons, List.intercalate_cons_cons, List.append_assoc, List.cons_append,
        List.nil_append]

theorem compact_members_cons (member : String × Json) (rest : List (String × Json)) :
    compactMembers (member :: rest) ++ ['\x7d'] =
      memberChars compactChars [] member ++
        tailChars (memberChars compactChars []) [] ['\x7d'] rest := by
  induction rest generalizing member with
  | nil => rfl
  | cons next rest ih =>
    rw [compactMembers, List.append_assoc, List.cons_append, ih next]
    simp only [tailChars, memberChars, List.append_assoc, List.cons_append, List.nil_append]

theorem spells_compact {value : Json} (kept : Exact value) :
    Spells (.tree value.tree) (compactChars value) := by
  induction kept with
  | null => exact .null
  | bool value => exact .bool value
  | integer low high => exact spells_integer low high
  | string s => exact .string (quoted_text s)
  | @array items _ ih =>
    cases items with
    | nil => exact .array (.endOfItems blank_nil)
    | cons item rest =>
      have inside := spells_items blank_nil blank_nil ih
      rw [tree, compactChars, List.cons_append, compact_items_cons]
      exact .array inside
  | @object members _ ih =>
    cases members with
    | nil => exact .object (.endOfMembers blank_nil)
    | cons member rest =>
      have inside := spells_members blank_nil blank_nil blank_nil ih
      rw [tree, compactChars, List.cons_append, compact_members_cons]
      exact .object inside

/-- The compact text of a value gives the tree of the value. -/
theorem document_of_text {value : Json} (kept : Exact value) :
    Document.ofText value.text = ⟨value.tree, none⟩ := by
  have document := document_of_spells (spells_compact kept) blank_nil blank_nil
  rw [List.nil_append, List.append_nil] at document
  rw [Document.ofText, text, String.toList_ofList, document]

end SnapshotEndpoint.Json
