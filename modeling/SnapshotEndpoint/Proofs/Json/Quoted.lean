import SnapshotEndpoint.Json.Decode
import SnapshotEndpoint.Proofs.Text.Digits

/-!
Strings of JSON text, read back. Each character has one written form, reading takes that form
as one piece, and the pieces of a written string give the string again.
-/
namespace SnapshotEndpoint.Json

/-- The piece that the written form of a character is read as. -/
def Piece.ofChar (c : Char) : Piece :=
  if c.toNat < 0x20 ∧ c.toNat ∉ [8, 9, 10, 12, 13] then .code c.toNat else .char c

/-- The token that the written form of a string is read as. -/
def Quoted.ofText (s : String) : Quoted := ⟨s.toList.map Piece.ofChar, none⟩

theorem read_code_two_digits {n : Nat} (small : n < 0x20) (rest : List Char) :
    readCode ('0' :: '0' :: twoHexDigits n ++ rest) = .ok (n, rest) := by
  have high := Text.hex_digit_digit_char (n / 16) (by omega)
  have low := Text.hex_digit_digit_char (n % 16) (by omega)
  have zero : Text.hexDigit? '0' = some 0 := Text.hex_digit_digit_char 0 (by omega)
  simp only [twoHexDigits, List.cons_append, List.nil_append, readCode, zero, high, low]
  rw [show ((0 * 16 + 0) * 16 + n / 16) * 16 + n % 16 = n by omega]

theorem eq_of_to_nat {c : Char} {n : Nat} (same : c.toNat = n) : c = Char.ofNat n := by
  rw [← same, Char.ofNat_toNat]

theorem read_piece_escape (c : Char) (rest : List Char) :
    readPiece (escapeChar c ++ rest) = .ok (Piece.ofChar c, rest) := by
  unfold escapeChar
  split
  · subst c; rfl
  split
  · subst c; rfl
  split
  · rename_i same
    rw [eq_of_to_nat same]
    rfl
  split
  · rename_i same
    rw [eq_of_to_nat same]
    rfl
  split
  · subst c; rfl
  split
  · subst c; rfl
  split
  · subst c; rfl
  rename_i backslash backspace feed newline carriage tab
  have others : c.toNat ≠ 10 ∧ c.toNat ≠ 13 ∧ c.toNat ≠ 9 := by
    refine ⟨?_, ?_, ?_⟩
    · intro same
      exact newline (eq_of_to_nat same)
    · intro same
      exact carriage (eq_of_to_nat same)
    · intro same
      exact tab (eq_of_to_nat same)
  split
  · rename_i small
    have piece : Piece.ofChar c = .code c.toNat := by
      rw [Piece.ofChar, if_pos]
      simp only [List.mem_cons, List.not_mem_nil, or_false]
      omega
    have code := read_code_two_digits small rest
    simp only [List.cons_append] at code
    simp only [List.cons_append, List.nil_append, readPiece, readEscape, if_true, code, piece]
    rfl
  · rename_i large
    have piece : Piece.ofChar c = .char c := by
      rw [Piece.ofChar, if_neg]
      omega
    simp only [List.cons_append, List.nil_append, readPiece, backslash, large, if_false, piece]

/-- No written form starts like the end of the string. -/
theorem escape_head (c : Char) : ∃ d more, escapeChar c = d :: more ∧ d ≠ '"' := by
  unfold escapeChar
  split
  · exact ⟨_, _, rfl, by decide⟩
  · rename_i quote
    repeat' split
    all_goals first | exact ⟨_, _, rfl, by decide⟩ | exact ⟨_, _, rfl, quote⟩

/-- Reading needs one step for each character and one for the end. -/
theorem read_quoted_escaped (cs rest : List Char) {fuel : Nat} (enough : cs.length < fuel) :
    readQuoted fuel (cs.flatMap escapeChar ++ '"' :: rest) =
      (⟨cs.map Piece.ofChar, none⟩, rest) := by
  induction cs generalizing fuel with
  | nil =>
    obtain ⟨n, rfl⟩ := Nat.exists_eq_add_of_lt enough
    rfl
  | cons c more ih =>
    cases fuel with
    | zero => cases enough
    | succ fuel =>
      obtain ⟨d, tail, head, other⟩ := escape_head c
      have piece := read_piece_escape c (more.flatMap escapeChar ++ '"' :: rest)
      rw [List.flatMap_cons, List.append_assoc, readQuoted, piece]
      · dsimp only
        rw [ih (by simpa using enough)]
        rfl
      · intro after same
        rw [head] at same
        exact other (List.cons.inj same).1

theorem piece_chars_of_char (c : Char) (more : List Piece) :
    pieceChars none (Piece.ofChar c :: more) = (pieceChars none more).map (c :: ·) := by
  unfold Piece.ofChar
  split
  · rename_i control
    have high : ¬ (0xD800 ≤ c.toNat ∧ c.toNat < 0xDC00) := by omega
    have low : ¬ (0xDC00 ≤ c.toNat ∧ c.toNat < 0xE000) := by omega
    rw [pieceChars.eq_def]
    dsimp only
    rw [if_neg high, if_neg low, Char.ofNat_toNat]
  · rw [pieceChars]

theorem text_of_text (s : String) : (Quoted.ofText s).text = .ok s := by
  have chars : ∀ cs : List Char, pieceChars none (cs.map Piece.ofChar) = .ok cs := by
    intro cs
    induction cs with
    | nil => rfl
    | cons c more ih =>
      rw [List.map_cons, piece_chars_of_char, ih]
      rfl
  rw [Quoted.text, Quoted.ofText, chars]
  exact congrArg Except.ok String.ofList_toList

end SnapshotEndpoint.Json
