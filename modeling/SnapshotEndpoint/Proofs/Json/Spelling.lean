import SnapshotEndpoint.Json.Tree

/-!
The texts of a tree. `Spells` is the grammar, free in the blanks between tokens, and every
text of it is read back whole. Its rules follow the readers: a list of items is spelled from
behind its bracket, with or without an item before it, and so is a list of members.
-/
namespace SnapshotEndpoint.Json

def Blank (cs : List Char) : Prop := ∀ c ∈ cs, isSpace c = true

theorem skip_blank {blanks : List Char} (blank : Blank blanks) (rest : List Char) :
    skipSpace (blanks ++ rest) = skipSpace rest :=
  List.dropWhile_append_of_pos blank

theorem skip_token {c : Char} (token : isSpace c = false) (rest : List Char) :
    skipSpace (c :: rest) = c :: rest := by
  rw [skipSpace, List.dropWhile_cons, token]
  rfl

/-- What can stand behind a number without being read as part of it. -/
def Ends (rest : List Char) : Prop :=
  ∀ c ∈ rest.head?, c.isDigit = false ∧ c ≠ '.' ∧ c ≠ 'e' ∧ c ≠ 'E'

/-- What can stand behind digits. -/
def Stops (rest : List Char) : Prop := ∀ c ∈ rest.head?, c.isDigit = false

theorem Ends.stops {rest : List Char} (ends : Ends rest) : Stops rest :=
  fun c member => (ends c member).1

theorem ends_nil : Ends [] := by
  intro c member
  cases member

theorem ends_blank {c : Char} (space : isSpace c = true) (rest : List Char) :
    Ends (c :: rest) := by
  intro d member
  cases member
  simp only [isSpace, Bool.or_eq_true, beq_iff_eq] at space
  rcases space with ((rfl | rfl) | rfl) | rfl <;> decide

theorem ends_blanks {blanks rest : List Char} (blank : Blank blanks) (ends : Ends rest) :
    Ends (blanks ++ rest) := by
  cases blanks with
  | nil => exact ends
  | cons c more => exact ends_blank (blank c List.mem_cons_self) (more ++ rest)

theorem ends_mark {c : Char} (mark : c ∈ [',', ']', '\x7d']) (rest : List Char) :
    Ends (c :: rest) := by
  intro d member
  cases member
  revert mark
  simp only [List.mem_cons, List.not_mem_nil, or_false]
  rintro (rfl | rfl | rfl) <;> decide

structure NumberText (token : NumberToken) (cs : List Char) : Prop where
  starts : ∃ c more, cs = c :: more ∧ (c = '-' ∨ c.isDigit = true)
  taken : ∀ rest, Ends rest → readNumber (cs ++ rest) = .ok (token, rest)

/-- The text of a string behind its opening quote. -/
structure QuotedText (token : Quoted) (cs : List Char) : Prop where
  whole : token.fault = none
  taken : ∀ rest fuel, cs.length ≤ fuel → readQuoted fuel (cs ++ rest) = (token, rest)

/-- What each of the readers looks for. -/
inductive Node where
  | tree (tree : Tree)
  | item (items : List Tree)
  | items (first : Bool) (items : List Tree)
  | member (members : List (Quoted × Tree))
  | members (first : Bool) (members : List (Quoted × Tree))

inductive Spells : Node → List Char → Prop where
  | null : Spells (.tree .null) "null".toList
  | bool (value : Bool) : Spells (.tree (.bool value)) (if value then "true" else "false").toList
  | number {token : NumberToken} {cs : List Char} (text : NumberText token cs) :
      Spells (.tree (.number token.value?)) cs
  | string {token : Quoted} {cs : List Char} (text : QuotedText token cs) :
      Spells (.tree (.string token)) ('"' :: cs)
  | array {items : List Tree} {cs : List Char} (inside : Spells (.items true items) cs) :
      Spells (.tree (.array items .closed)) ('[' :: cs)
  | object {members : List (Quoted × Tree)} {cs : List Char}
      (inside : Spells (.members true members) cs) :
      Spells (.tree (.object members .closed)) ('\x7b' :: cs)
  | item {item : Tree} {items : List Tree} {cs more : List Char} (value : Spells (.tree item) cs)
      (others : Spells (.items false items) more) : Spells (.item (item :: items)) (cs ++ more)
  | endOfItems {first : Bool} {blanks : List Char} (blank : Blank blanks) :
      Spells (.items first []) (blanks ++ [']'])
  | firstItem {items : List Tree} {blanks cs : List Char} (blank : Blank blanks)
      (inside : Spells (.item items) cs) : Spells (.items true items) (blanks ++ cs)
  | nextItem {items : List Tree} {blanks gap cs : List Char} (blank : Blank blanks)
      (spaced : Blank gap) (inside : Spells (.item items) cs) :
      Spells (.items false items) (blanks ++ ',' :: (gap ++ cs))
  | member {key : Quoted} {value : Tree} {members : List (Quoted × Tree)}
      {name blanks gap cs more : List Char} (text : QuotedText key name) (blank : Blank blanks)
      (spaced : Blank gap) (inside : Spells (.tree value) cs)
      (others : Spells (.members false members) more) :
      Spells (.member ((key, value) :: members)) (name ++ (blanks ++ ':' :: (gap ++ (cs ++ more))))
  | endOfMembers {first : Bool} {blanks : List Char} (blank : Blank blanks) :
      Spells (.members first []) (blanks ++ ['\x7d'])
  | firstMember {members : List (Quoted × Tree)} {blanks cs : List Char} (blank : Blank blanks)
      (inside : Spells (.member members) cs) :
      Spells (.members true members) (blanks ++ '"' :: cs)
  | nextMember {members : List (Quoted × Tree)} {blanks gap cs : List Char}
      (blank : Blank blanks) (spaced : Blank gap) (inside : Spells (.member members) cs) :
      Spells (.members false members) (blanks ++ ',' :: (gap ++ '"' :: cs))

/-- A character that a value can start with. -/
structure Starts (c : Char) : Prop where
  token : isSpace c = false
  inside : c ≠ ']'

theorem starts_number {c : Char} (start : c = '-' ∨ c.isDigit = true) : Starts c := by
  rcases start with rfl | digit
  · exact ⟨by decide, by decide⟩
  · constructor
    · cases space : isSpace c with
      | false => rfl
      | true =>
        have ends := (ends_blank space [] c rfl).1
        rw [digit] at ends
        cases ends
    · rintro rfl
      cases digit

theorem starts_of_spells {node : Node} {cs : List Char} (spells : Spells node cs) :
    (∃ tree, node = .tree tree) ∨ (∃ items, node = .item items) →
      ∃ c more, cs = c :: more ∧ Starts c := by
  induction spells with
  | null => exact fun _ => ⟨_, _, rfl, by decide, by decide⟩
  | bool value =>
    intro _
    cases value <;> exact ⟨_, _, rfl, by decide, by decide⟩
  | number text =>
    intro _
    obtain ⟨c, more, rfl, start⟩ := text.starts
    exact ⟨c, more, rfl, starts_number start⟩
  | string _ => exact fun _ => ⟨_, _, rfl, by decide, by decide⟩
  | array _ _ => exact fun _ => ⟨_, _, rfl, by decide, by decide⟩
  | object _ _ => exact fun _ => ⟨_, _, rfl, by decide, by decide⟩
  | item value others ih _ =>
    intro _
    obtain ⟨c, more, rfl, start⟩ := ih (.inl ⟨_, rfl⟩)
    exact ⟨c, _, rfl, start⟩
  | _ => simp

theorem starts_of_tree {tree : Tree} {cs : List Char} (spells : Spells (.tree tree) cs) :
    ∃ c more, cs = c :: more ∧ Starts c :=
  starts_of_spells spells (.inl ⟨tree, rfl⟩)

theorem length_pos_of_tree {tree : Tree} {cs : List Char} (spells : Spells (.tree tree) cs) :
    0 < cs.length := by
  obtain ⟨c, more, rfl, _⟩ := starts_of_tree spells
  exact Nat.succ_pos more.length

theorem starts_of_item {items : List Tree} {cs : List Char} (spells : Spells (.item items) cs) :
    ∃ c more, cs = c :: more ∧ Starts c :=
  starts_of_spells spells (.inr ⟨items, rfl⟩)

/-- What follows an item ends it. -/
theorem ends_of_items {items : List Tree} {cs : List Char}
    (spells : Spells (.items false items) cs) (rest : List Char) :
    Ends (cs ++ rest) ∧ 0 < cs.length := by
  cases spells with
  | endOfItems blank =>
    rw [List.append_assoc]
    exact ⟨ends_blanks blank (ends_mark (by decide) rest), by simp⟩
  | nextItem blank spaced inside =>
    rw [List.append_assoc]
    refine ⟨ends_blanks blank (ends_mark (by decide) _), ?_⟩
    simp only [List.length_append, List.length_cons]
    omega

theorem ends_of_members {members : List (Quoted × Tree)} {cs : List Char}
    (spells : Spells (.members false members) cs) (rest : List Char) :
    Ends (cs ++ rest) ∧ 0 < cs.length := by
  cases spells with
  | endOfMembers blank =>
    rw [List.append_assoc]
    exact ⟨ends_blanks blank (ends_mark (by decide) rest), by simp⟩
  | nextMember blank spaced inside =>
    rw [List.append_assoc]
    refine ⟨ends_blanks blank (ends_mark (by decide) _), ?_⟩
    simp only [List.length_append, List.length_cons]
    omega

/-- Reading a text as a node, with twice as many steps as the text is long. -/
def Node.Reads : Node → List Char → Prop
  | .tree value, cs => ∀ rest fuel, Ends rest → 2 * cs.length ≤ fuel →
      readTree fuel (cs ++ rest) = (value, some rest)
  | .item found, cs => ∀ rest fuel, 2 * cs.length ≤ fuel + 1 →
      readItem fuel (cs ++ rest) = (found, .closed, some rest)
  | .items first found, cs => ∀ rest fuel, 2 * cs.length ≤ fuel →
      readItems fuel first (cs ++ rest) = (found, .closed, some rest)
  | .member found, cs => ∀ rest fuel, 2 * cs.length ≤ fuel →
      readMember fuel (cs ++ rest) = (found, .closed, some rest)
  | .members first found, cs => ∀ rest fuel, 2 * cs.length ≤ fuel →
      readMembers fuel first (cs ++ rest) = (found, .closed, some rest)

theorem read_tree_of_blank {blanks : List Char} (blank : Blank blanks) (fuel : Nat)
    (cs : List Char) : readTree fuel (blanks ++ cs) = readTree fuel cs := by
  cases fuel with
  | zero => rw [readTree, readTree]
  | succ n => rw [readTree, readTree, skip_blank blank]

theorem read_number_tree {token : NumberToken} {cs : List Char} (text : NumberText token cs)
    {rest : List Char} (ends : Ends rest) (n : Nat) :
    readTree (n + 1) (cs ++ rest) = (.number token.value?, some rest) := by
  obtain ⟨c, more, same, start⟩ := text.starts
  have number := text.taken rest ends
  have token := (starts_number start).token
  have other : c ≠ '"' ∧ c ≠ '[' ∧ c ≠ '\x7b' ∧ c ≠ 'n' ∧ c ≠ 't' ∧ c ≠ 'f' := by
    refine ⟨?_, ?_, ?_, ?_, ?_, ?_⟩ <;> rintro rfl <;> revert start <;> decide
  rw [same] at number ⊢
  rw [List.cons_append] at number ⊢
  rw [readTree, skip_token token]
  simp only [other, start, if_true, if_false, numberTree, number]

theorem read_word_tree (value : Bool) (rest : List Char) (n : Nat) :
    readTree (n + 1) ((if value then "true" else "false").toList ++ rest) =
      (.bool value, some rest) := by
  cases value <;> rfl

theorem read_string_tree {token : Quoted} {cs : List Char} (text : QuotedText token cs)
    (rest : List Char) (n : Nat) :
    readTree (n + 1) ('"' :: (cs ++ rest)) = (.string token, some rest) := by
  have taken := text.taken rest ((cs ++ rest).length + 1) (by rw [List.length_append]; omega)
  rw [readTree, skip_token (by decide)]
  simp only [if_true, stringTree, taken, text.whole, Option.isNone_none]

theorem read_array_tree (cs : List Char) (n : Nat) : readTree (n + 1) ('[' :: cs) =
    (.array (readItems n true cs).1 (readItems n true cs).2.1, (readItems n true cs).2.2) := rfl

theorem read_object_tree (cs : List Char) (n : Nat) : readTree (n + 1) ('\x7b' :: cs) =
    (.object (readMembers n true cs).1 (readMembers n true cs).2.1,
      (readMembers n true cs).2.2) := rfl

section Steps

variable {blanks gap : List Char} (blank : Blank blanks) (spaced : Blank gap)

theorem read_item_of {item : Tree} {items : List Tree} {cs rest : List Char} {left : Remainder}
    {n : Nat} (value : readTree n cs = (item, some rest))
    (others : readItems n false rest = (items, .closed, left)) :
    readItem (n + 1) cs = (item :: items, .closed, left) := by
  rw [readItem, value]
  dsimp only
  rw [others]

include blank

theorem read_end_of_items (first : Bool) (rest : List Char) (n : Nat) :
    readItems (n + 1) first (blanks ++ ']' :: rest) = ([], .closed, some rest) := by
  rw [readItems, skip_blank blank]
  rfl

theorem read_first_item {c : Char} (start : Starts c) (rest : List Char) (n : Nat) :
    readItems (n + 1) true (blanks ++ c :: rest) = readItem n (c :: rest) := by
  rw [readItems, skip_blank blank, skip_token start.token]
  simp only [start.inside, if_false, if_true]

theorem read_end_of_members (first : Bool) (rest : List Char) (n : Nat) :
    readMembers (n + 1) first (blanks ++ '\x7d' :: rest) = ([], .closed, some rest) := by
  rw [readMembers, skip_blank blank]
  rfl

theorem read_first_member (rest : List Char) (n : Nat) :
    readMembers (n + 1) true (blanks ++ '"' :: rest) = readMember n rest := by
  rw [readMembers, skip_blank blank]
  rfl

theorem read_colon_of_blank (rest : List Char) :
    readColon (blanks ++ ':' :: rest) = .ok rest := by
  rw [readColon, skip_blank blank]
  rfl

include spaced

theorem read_next_item {c : Char} (start : Starts c) (rest : List Char) (n : Nat) :
    readItems (n + 1) false (blanks ++ ',' :: (gap ++ c :: rest)) = readItem n (c :: rest) := by
  rw [readItems, skip_blank blank, skip_token (by decide)]
  dsimp only
  rw [skip_blank spaced, skip_token start.token]
  simp only [start.inside, if_false, if_true]
  rfl

theorem read_next_member (rest : List Char) (n : Nat) :
    readMembers (n + 1) false (blanks ++ ',' :: (gap ++ '"' :: rest)) = readMember n rest := by
  rw [readMembers, skip_blank blank, skip_token (by decide)]
  dsimp only
  rw [skip_blank spaced]
  rfl

theorem read_member_of {key : Quoted} {value : Tree} {members : List (Quoted × Tree)}
    {name cs rest : List Char} {left : Remainder} {n : Nat} (text : QuotedText key name)
    (inside : readTree n cs = (value, some rest))
    (others : readMembers n false rest = (members, .closed, left)) :
    readMember (n + 1) (name ++ (blanks ++ ':' :: (gap ++ cs))) =
      ((key, value) :: members, .closed, left) := by
  rw [readMember, text.taken _ _ (by rw [List.length_append]; omega)]
  dsimp only
  rw [text.whole, read_colon_of_blank blank]
  dsimp only
  rw [read_tree_of_blank spaced, inside]
  dsimp only
  rw [others]

end Steps

/-- Each rule of the grammar is one step of a reader. -/
theorem reads_of_spells {node : Node} {cs : List Char} (spells : Spells node cs) :
    node.Reads cs := by
  induction spells with
  | null =>
    intro rest fuel ends enough
    obtain ⟨n, rfl⟩ := Nat.exists_eq_add_of_le' (Nat.le_trans (by decide) enough : 1 ≤ fuel)
    rfl
  | bool value =>
    intro rest fuel ends enough
    obtain ⟨n, rfl⟩ := Nat.exists_eq_add_of_le'
      (Nat.le_trans (by cases value <;> decide) enough : 1 ≤ fuel)
    exact read_word_tree value rest n
  | number text =>
    intro rest fuel ends enough
    cases fuel with
    | zero =>
      obtain ⟨c, more, rfl, _⟩ := text.starts
      cases enough
    | succ n => exact read_number_tree text ends n
  | string text =>
    intro rest fuel ends enough
    cases fuel with
    | zero => cases enough
    | succ n => exact read_string_tree text rest n
  | array inside ih =>
    intro rest fuel ends enough
    cases fuel with
    | zero => cases enough
    | succ n =>
      rw [List.length_cons] at enough
      rw [List.cons_append, read_array_tree, ih rest n (by omega)]
  | object inside ih =>
    intro rest fuel ends enough
    cases fuel with
    | zero => cases enough
    | succ n =>
      rw [List.length_cons] at enough
      rw [List.cons_append, read_object_tree, ih rest n (by omega)]
  | item value others ih ih' =>
    intro rest fuel enough
    obtain ⟨ends, positive⟩ := ends_of_items others rest
    have own := length_pos_of_tree value
    -- Neither the item nor what follows it is empty, so each leaves two steps to the other.
    rw [List.length_append] at enough
    cases fuel with
    | zero => omega
    | succ n =>
      rw [List.append_assoc]
      exact read_item_of (ih _ n ends (by omega)) (ih' rest n (by omega))
  | @endOfItems first blanks blank =>
    intro rest fuel enough
    cases fuel with
    | zero => simp at enough
    | succ n =>
      rw [List.append_assoc]
      exact read_end_of_items blank first rest n
  | firstItem blank inside ih =>
    intro rest fuel enough
    obtain ⟨c, more, rfl, start⟩ := starts_of_item inside
    rw [List.length_append] at enough
    cases fuel with
    | zero => simp at enough
    | succ n =>
      rw [List.append_assoc]
      exact (read_first_item blank start (more ++ rest) n).trans (ih rest n (by omega))
  | nextItem blank spaced inside ih =>
    intro rest fuel enough
    obtain ⟨c, more, rfl, start⟩ := starts_of_item inside
    simp only [List.length_append, List.length_cons] at enough
    cases fuel with
    | zero => simp at enough
    | succ n =>
      rw [List.append_assoc, List.cons_append, List.append_assoc]
      exact (read_next_item blank spaced start (more ++ rest) n).trans
        (ih rest n (by rw [List.length_cons]; omega))
  | member text blank spaced inside others ih ih' =>
    intro rest fuel enough
    obtain ⟨ends, _⟩ := ends_of_members others rest
    simp only [List.length_append, List.length_cons] at enough
    cases fuel with
    | zero => simp at enough
    | succ n =>
      rw [List.append_assoc, List.append_assoc, List.cons_append, List.append_assoc,
        List.append_assoc]
      exact read_member_of blank spaced text (ih _ n ends (by omega)) (ih' rest n (by omega))
  | @endOfMembers first blanks blank =>
    intro rest fuel enough
    cases fuel with
    | zero => simp at enough
    | succ n =>
      rw [List.append_assoc]
      exact read_end_of_members blank first rest n
  | firstMember blank inside ih =>
    intro rest fuel enough
    simp only [List.length_append, List.length_cons] at enough
    cases fuel with
    | zero => simp at enough
    | succ n =>
      rw [List.append_assoc, List.cons_append, read_first_member blank]
      exact ih rest n (by omega)
  | nextMember blank spaced inside ih =>
    intro rest fuel enough
    simp only [List.length_append, List.length_cons] at enough
    cases fuel with
    | zero => simp at enough
    | succ n =>
      rw [List.append_assoc, List.cons_append, List.append_assoc, List.cons_append,
        read_next_member blank spaced]
      exact ih rest n (by omega)

/-- The text of a tree, with blanks around it, gives the tree and nothing else. -/
theorem document_of_spells {tree : Tree} {cs before after : List Char}
    (spells : Spells (.tree tree) cs) (blank : Blank before) (blank' : Blank after) :
    Document.ofChars (before ++ (cs ++ after)) = ⟨tree, none⟩ := by
  have ends : Ends after := by
    rw [← List.append_nil after]
    exact ends_blanks blank' ends_nil
  have enough : 2 * cs.length ≤ 2 * (before ++ (cs ++ after)).length + 2 := by
    simp only [List.length_append]
    omega
  have finished : skipSpace after = [] := by
    rw [← List.append_nil after, skip_blank blank']
    rfl
  rw [Document.ofChars, read_tree_of_blank blank, reads_of_spells spells after _ ends enough]
  simp only [finished, List.isEmpty_nil, if_true]

end SnapshotEndpoint.Json
