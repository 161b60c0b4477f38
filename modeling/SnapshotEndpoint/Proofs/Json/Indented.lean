import SnapshotEndpoint.Proofs.Json.Compact

/-!
The indented text of a value spells the same tree as its compact text: the two differ in the
blanks between the tokens only. A line break at the end changes nothing either.
-/
namespace SnapshotEndpoint.Json

theorem blank_line_break (depth : Nat) : Blank (lineBreak depth) := by
  intro c member
  rcases List.mem_cons.mp member with rfl | indent
  · rfl
  · rw [List.eq_of_mem_replicate indent]
    rfl

theorem blank_space : Blank [' '] := by
  intro c member
  rw [List.mem_singleton.mp member]
  rfl

theorem pretty_items_cons (depth : Nat) (item : Json) (rest : List Json) (ending : List Char) :
    prettyItems depth (item :: rest) ++ ending = lineBreak depth ++ (prettyChars depth item ++
      tailChars (prettyChars depth) (lineBreak depth) ending rest) := by
  induction rest generalizing item with
  | nil => rw [prettyItems, List.append_assoc, tailChars]
  | cons next rest ih =>
    rw [prettyItems, List.append_assoc, List.append_assoc, List.cons_append, ih next]
    rfl

theorem pretty_members_cons (depth : Nat) (member : String × Json) (rest : List (String × Json))
    (ending : List Char) :
    prettyMembers depth (member :: rest) ++ ending =
      lineBreak depth ++ (memberChars (prettyChars depth) [' '] member ++
        tailChars (memberChars (prettyChars depth) [' ']) (lineBreak depth) ending rest) := by
  induction rest generalizing member with
  | nil => simp [prettyMembers, memberChars, tailChars]
  | cons next rest ih =>
    rw [prettyMembers, List.append_assoc, List.cons_append, ih next]
    simp [memberChars, tailChars]

theorem spells_indented {value : Json} (kept : Exact value) (depth : Nat) :
    Spells (.tree value.tree) (prettyChars depth value) := by
  induction kept generalizing depth with
  | null => exact .null
  | bool value => exact .bool value
  | integer low high => exact spells_integer low high
  | string s => exact .string (quoted_text s)
  | @array items _ ih =>
    cases items with
    | nil => exact .array (.endOfItems blank_nil)
    | cons item rest =>
      have inside := spells_items (blank_line_break (depth + 1)) (blank_line_break depth)
        fun other member => ih other member (depth + 1)
      rw [tree, prettyChars, List.append_assoc, List.cons_append, pretty_items_cons]
      exact .array inside
  | @object members _ ih =>
    cases members with
    | nil => exact .object (.endOfMembers blank_nil)
    | cons member rest =>
      have inside := spells_members (blank_line_break (depth + 1)) (blank_line_break depth)
        blank_space fun other known => ih other known (depth + 1)
      rw [tree, prettyChars, List.append_assoc, List.cons_append, pretty_members_cons]
      exact .object inside

end SnapshotEndpoint.Json
