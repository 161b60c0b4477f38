import Mathlib.Data.List.TakeWhile
import SnapshotEndpoint.Proofs.Except
import SnapshotEndpoint.Proofs.Json.Compact

/-!
Reading takes the texts of the grammar and no others: what a reader has taken up whole is a
spelling of what it gives. Each part of a token is taken up in the same way before anything
that cannot extend it.
-/
namespace SnapshotEndpoint.Json

section Numbers

variable {cs rest : List Char}

theorem digits_of_read {digits : List Char} (read : readDigits cs = .ok (digits, rest)) :
    cs = digits ++ rest ∧ (∃ c more, digits = c :: more ∧ c.isDigit = true) ∧
      ∀ after, Stops after → readDigits (digits ++ after) = .ok (digits, after) := by
  cases cs with
  | nil => cases read
  | cons c more =>
    rw [readDigits] at read
    split at read
    · rename_i digit
      have taken := Except.ok.inj read
      rw [takeDigits, List.span_eq_takeWhile_dropWhile, Prod.mk.injEq] at taken
      obtain ⟨rfl, rfl⟩ := taken
      have start : (c :: more).takeWhile Char.isDigit = c :: more.takeWhile Char.isDigit := by
        rw [List.takeWhile_cons, if_pos digit]
      refine ⟨List.takeWhile_append_dropWhile.symm, ⟨c, _, start, digit⟩, ?_⟩
      intro after stops
      have all : ∀ d ∈ (c :: more).takeWhile Char.isDigit, d.isDigit = true :=
        fun d member => List.all_eq_true.mp List.all_takeWhile d member
      have again := take_digits_append all stops
      rw [start] at again ⊢
      rw [List.cons_append, readDigits, if_pos digit, ← List.cons_append, again]
    · cases read

theorem whole_of_read {whole : List Char} (read : readWhole cs = .ok (whole, rest)) :
    cs = whole ++ rest ∧ (∃ c more, whole = c :: more ∧ c.isDigit = true) ∧
      ∀ after, Stops after → readWhole (whole ++ after) = .ok (whole, after) := by
  obtain ⟨⟨digits, rest'⟩, first, more⟩ := bind_eq_ok_iff.mp read
  obtain ⟨same, starts, taken⟩ := digits_of_read first
  dsimp only at more
  split at more
  · cases more
  · rename_i plain
    cases more
    refine ⟨same, starts, ?_⟩
    intro after stops
    refine bind_eq_ok_iff.mpr ⟨(whole, after), taken after stops, ?_⟩
    dsimp only
    split
    · exact absurd rfl (plain _ _)
    · rfl

theorem read_fraction_of_other {after : List Char} (other : after.head? ≠ some '.') :
    readFraction after = .ok ([], after) := by
  cases after with
  | nil => rfl
  | cons c more =>
    rw [readFraction]
    intro _ same
    rw [(List.cons.inj same).1] at other
    exact other rfl

theorem fraction_of_read {fraction : List Char} (read : readFraction cs = .ok (fraction, rest)) :
    ∃ body, cs = body ++ rest ∧ ∀ after, Stops after → after.head? ≠ some '.' →
      Stops (body ++ after) ∧ readFraction (body ++ after) = .ok (fraction, after) := by
  unfold readFraction at read
  split at read
  · obtain ⟨rfl, _, taken⟩ := digits_of_read read
    refine ⟨'.' :: fraction, rfl, ?_⟩
    intro after stops _
    refine ⟨?_, taken after stops⟩
    intro c member
    cases member
    decide
  · cases read
    exact ⟨[], rfl, fun after stops other => ⟨stops, read_fraction_of_other other⟩⟩

theorem signed_digits_of_read {exponent : Bool × List Char}
    (read : readSignedDigits cs = .ok (exponent, rest)) :
    ∃ body, cs = body ++ rest ∧ ∀ after, Stops after →
      readSignedDigits (body ++ after) = .ok (exponent, after) := by
  unfold readSignedDigits at read
  split at read
  · obtain ⟨⟨digits, left⟩, first, same⟩ := bind_eq_ok_iff.mp read
    cases same
    obtain ⟨rfl, _, taken⟩ := digits_of_read first
    refine ⟨'-' :: digits, rfl, ?_⟩
    intro after stops
    exact bind_eq_ok_iff.mpr ⟨(digits, after), taken after stops, rfl⟩
  · obtain ⟨⟨digits, left⟩, first, same⟩ := bind_eq_ok_iff.mp read
    cases same
    obtain ⟨rfl, _, taken⟩ := digits_of_read first
    refine ⟨'+' :: digits, rfl, ?_⟩
    intro after stops
    exact bind_eq_ok_iff.mpr ⟨(digits, after), taken after stops, rfl⟩
  · obtain ⟨⟨digits, left⟩, first, same⟩ := bind_eq_ok_iff.mp read
    cases same
    obtain ⟨rfl, ⟨c, more, rfl, digit⟩, taken⟩ := digits_of_read first
    refine ⟨c :: more, rfl, ?_⟩
    intro after stops
    rw [List.cons_append, readSignedDigits]
    · exact bind_eq_ok_iff.mpr ⟨(c :: more, after), taken after stops, rfl⟩
    all_goals
      intro _ same
      rw [(List.cons.inj same).1] at digit
      cases digit

theorem exponent_of_read {exponent : Option (Bool × List Char)}
    (read : readExponent cs = .ok (exponent, rest)) :
    ∃ body, cs = body ++ rest ∧ ∀ after, Ends after → Stops (body ++ after) ∧
      (body ++ after).head? ≠ some '.' ∧ readExponent (body ++ after) = .ok (exponent, after) := by
  have absent : ∀ after, Ends after → Stops after ∧ after.head? ≠ some '.' ∧
      readExponent after = .ok (none, after) := fun after ends =>
    ⟨ends.stops, fun same => (ends '.' same).2.1 rfl, read_exponent_of_ends ends⟩
  cases cs with
  | nil =>
    cases read
    exact ⟨[], rfl, absent⟩
  | cons c more =>
    rw [readExponent] at read
    split at read
    · rename_i mark
      obtain ⟨⟨exponent, left⟩, first, same⟩ := bind_eq_ok_iff.mp read
      cases same
      obtain ⟨body, rfl, taken⟩ := signed_digits_of_read first
      refine ⟨c :: body, rfl, ?_⟩
      intro after ends
      refine ⟨?_, ?_, ?_⟩
      · intro d member
        cases member
        rcases mark with rfl | rfl <;> decide
      · rcases mark with rfl | rfl <;> simp
      · rw [List.cons_append, readExponent, if_pos mark]
        exact bind_eq_ok_iff.mpr ⟨(exponent, after), taken after ends.stops, rfl⟩
    · cases read
      exact ⟨[], rfl, absent⟩

theorem unsigned_of_read {negative : Bool} {token : NumberToken}
    (read : readUnsigned negative cs = .ok (token, rest)) :
    ∃ c more, cs = c :: (more ++ rest) ∧ c.isDigit = true ∧
      ∀ after, Ends after → readUnsigned negative (c :: (more ++ after)) = .ok (token, after) := by
  obtain ⟨⟨whole, left⟩, first, read⟩ := bind_eq_ok_iff.mp read
  obtain ⟨⟨fraction, left'⟩, second, read⟩ := bind_eq_ok_iff.mp read
  obtain ⟨⟨exponent, left''⟩, third, same⟩ := bind_eq_ok_iff.mp read
  cases same
  obtain ⟨rfl, ⟨c, more, rfl, digit⟩, taken⟩ := whole_of_read first
  obtain ⟨point, rfl, taken'⟩ := fraction_of_read second
  obtain ⟨power, rfl, taken''⟩ := exponent_of_read third
  refine ⟨c, more ++ (point ++ power), ?_, digit, ?_⟩
  · simp only [List.cons_append, List.append_assoc]
  intro after ends
  -- Each part stops where the next one begins, from the last one back.
  obtain ⟨stops, other, last⟩ := taken'' after ends
  obtain ⟨stops', middle⟩ := taken' _ stops other
  have start := taken _ stops'
  rw [← List.cons_append, ← List.cons_append, List.append_assoc, List.append_assoc]
  exact bind_eq_ok_iff.mpr ⟨_, start, bind_eq_ok_iff.mpr ⟨_, middle,
    bind_eq_ok_iff.mpr ⟨_, last, rfl⟩⟩⟩

theorem number_text_of_read {token : NumberToken} (read : readNumber cs = .ok (token, rest)) :
    ∃ body, cs = body ++ rest ∧ NumberText token body := by
  unfold readNumber at read
  split at read
  · obtain ⟨c, more, rfl, _, taken⟩ := unsigned_of_read read
    exact ⟨'-' :: c :: more, rfl, ⟨⟨_, _, rfl, .inl rfl⟩, taken⟩⟩
  · obtain ⟨c, more, rfl, digit, taken⟩ := unsigned_of_read read
    refine ⟨c :: more, rfl, ⟨⟨c, more, rfl, .inr digit⟩, ?_⟩⟩
    intro after ends
    rw [List.cons_append, readNumber, taken after ends]
    intro _ same
    rw [(List.cons.inj same).1] at digit
    cases digit

end Numbers

section Strings

variable {cs rest : List Char}

theorem code_of_read {unit : Nat} (read : readCode cs = .ok (unit, rest)) :
    ∃ body, cs = body ++ rest ∧ ∀ after, readCode (body ++ after) = .ok (unit, after) := by
  unfold readCode at read
  split at read
  · rename_i a b c d more
    split at read
    · rename_i p q r s first second third fourth
      cases read
      refine ⟨[a, b, c, d], rfl, ?_⟩
      intro after
      simp only [List.cons_append, List.nil_append, readCode, first, second, third, fourth]
    · cases read
  · split at read <;> cases read

theorem escape_of_read {piece : Piece} (read : readEscape cs = .ok (piece, rest)) :
    ∃ body, cs = body ++ rest ∧ ∀ after, readEscape (body ++ after) = .ok (piece, after) := by
  cases cs with
  | nil => cases read
  | cons c more =>
    rw [readEscape] at read
    split at read
    · rename_i code
      obtain ⟨⟨unit, left⟩, first, same⟩ := bind_eq_ok_iff.mp read
      cases same
      obtain ⟨body, rfl, taken⟩ := code_of_read first
      refine ⟨c :: body, rfl, ?_⟩
      intro after
      rw [List.cons_append, readEscape, if_pos code]
      exact bind_eq_ok_iff.mpr ⟨(unit, after), taken after, rfl⟩
    · rename_i other
      split at read
      · rename_i plain escape
        cases read
        refine ⟨[c], rfl, ?_⟩
        intro after
        simp only [List.cons_append, List.nil_append, readEscape, if_neg other, escape]
      · cases read

theorem piece_of_read {piece : Piece} (read : readPiece cs = .ok (piece, rest)) :
    ∃ c more, cs = c :: (more ++ rest) ∧
      ∀ after, readPiece (c :: (more ++ after)) = .ok (piece, after) := by
  cases cs with
  | nil => cases read
  | cons c more =>
    rw [readPiece] at read
    split at read
    · rename_i escape
      obtain ⟨body, rfl, taken⟩ := escape_of_read read
      refine ⟨c, body, rfl, ?_⟩
      intro after
      rw [readPiece, if_pos escape, taken after]
    · rename_i plain
      split at read
      · cases read
      · rename_i printed
        cases read
        refine ⟨c, [], rfl, ?_⟩
        intro after
        rw [readPiece, if_neg plain, if_neg printed, List.nil_append]

theorem quoted_text_nil : QuotedText ⟨[], none⟩ ['"'] := by
  refine ⟨rfl, ?_⟩
  intro rest fuel enough
  obtain ⟨n, rfl⟩ := Nat.exists_eq_add_of_le' (enough : 1 ≤ fuel)
  rfl

theorem quoted_text_cons {c : Char} {more body : List Char} {piece : Piece} {token : Quoted}
    (other : c ≠ '"') (taken : ∀ after, readPiece (c :: (more ++ after)) = .ok (piece, after))
    (text : QuotedText token body) :
    QuotedText ⟨piece :: token.pieces, token.fault⟩ (c :: (more ++ body)) := by
  refine ⟨text.whole, ?_⟩
  intro rest fuel enough
  cases fuel with
  | zero => cases enough
  | succ n =>
    simp only [List.length_cons, List.length_append] at enough
    rw [List.cons_append, List.append_assoc, readQuoted, taken]
    · dsimp only
      rw [text.taken rest n (by omega)]
    · intro _ same
      exact other (List.cons.inj same).1

/-- What a string is read from is its text, however many steps there were to read it. -/
theorem quoted_text_of_read {fuel : Nat} {token : Quoted}
    (read : readQuoted fuel cs = (token, rest)) (whole : token.fault = none) :
    ∃ body, cs = body ++ rest ∧ QuotedText token body := by
  induction fuel generalizing cs token with
  | zero =>
    cases read
    cases whole
  | succ n ih =>
    unfold readQuoted at read
    split at read
    · cases read
      exact ⟨['"'], rfl, quoted_text_nil⟩
    · rename_i other
      split at read
      · cases read
        cases whole
      · rename_i piece left first
        obtain ⟨c, more, rfl, taken⟩ := piece_of_read first
        cases later : readQuoted n left with
        | mk token' rest' =>
          rw [later] at read
          cases read
          obtain ⟨body, rfl, text⟩ := ih later whole
          refine ⟨c :: (more ++ body), ?_, quoted_text_cons ?_ taken text⟩
          · rw [List.cons_append, List.append_assoc]
          · rintro rfl
            exact other _ rfl

end Strings

theorem word_of_read {word cs rest : List Char} (read : readWord word cs = .ok rest) :
    cs = word ++ rest := by
  induction word generalizing cs with
  | nil => exact Except.ok.inj read
  | cons w word ih =>
    cases cs with
    | nil => cases read
    | cons c more =>
      rw [readWord] at read
      split at read
      · rename_i same
        rw [ih read, same, List.cons_append]
      · cases read

theorem blanks_of_skip {cs more : List Char} {c : Char} (skipped : skipSpace cs = c :: more) :
    ∃ blanks, Blank blanks ∧ cs = blanks ++ c :: more := by
  refine ⟨cs.takeWhile isSpace, ?_, ?_⟩
  · intro d member
    exact List.all_eq_true.mp List.all_takeWhile d member
  · rw [← skipped, skipSpace, List.takeWhile_append_dropWhile]

theorem blank_append {first second : List Char} (blank : Blank first) (blank' : Blank second) :
    Blank (first ++ second) := by
  intro c member
  rcases List.mem_append.mp member with early | late
  · exact blank c early
  · exact blank' c late

/-- A text that begins with a spelling of a node, up to what is left of it. -/
def Begins (node : Node) (cs rest : List Char) : Prop :=
  ∃ body, cs = body ++ rest ∧ Spells node body

/-- What the readers take with some number of steps is spelled. -/
structure Takes (fuel : Nat) : Prop where
  tree {cs rest : List Char} {tree : Tree} (read : readTree fuel cs = (tree, some rest)) :
    ∃ blanks more, Blank blanks ∧ cs = blanks ++ more ∧ Begins (.tree tree) more rest
  item {cs rest : List Char} {items : List Tree} {ending : ArrayEnd}
    (read : readItem fuel cs = (items, ending, some rest)) : ending = .closed ∧
      ∃ blanks more, Blank blanks ∧ cs = blanks ++ more ∧ Begins (.item items) more rest
  items {first : Bool} {cs rest : List Char} {items : List Tree} {ending : ArrayEnd}
    (read : readItems fuel first cs = (items, ending, some rest)) :
    ending = .closed ∧ Begins (.items first items) cs rest
  member {cs rest : List Char} {members : List (Quoted × Tree)} {ending : ObjectEnd}
    (read : readMember fuel cs = (members, ending, some rest)) :
    ending = .closed ∧ Begins (.member members) cs rest
  members {first : Bool} {cs rest : List Char} {members : List (Quoted × Tree)}
    {ending : ObjectEnd} (read : readMembers fuel first cs = (members, ending, some rest)) :
    ending = .closed ∧ Begins (.members first members) cs rest

theorem takes_zero : Takes 0 where
  tree read := by cases read
  item read := by cases read
  items read := by cases read
  member read := by cases read
  members read := by cases read

theorem word_of_tree {word : String} {value tree : Tree} {cs rest : List Char}
    (read : wordTree word value cs = (tree, some rest)) :
    tree = value ∧ cs = word.toList ++ rest := by
  rw [wordTree] at read
  split at read
  · rename_i left taken
    cases read
    exact ⟨rfl, word_of_read taken⟩
  · cases read

theorem number_of_tree {tree : Tree} {cs rest : List Char}
    (read : numberTree cs = (tree, some rest)) : Begins (.tree tree) cs rest := by
  rw [numberTree] at read
  split at read
  · rename_i token left taken
    cases read
    obtain ⟨body, same, text⟩ := number_text_of_read taken
    exact ⟨body, same, .number text⟩
  · cases read

theorem string_of_tree {tree : Tree} {token : Quoted} {cs left rest : List Char} {fuel : Nat}
    (read : readQuoted fuel cs = (token, left)) (kept : stringTree token left = (tree, some rest)) :
    Begins (.tree tree) ('"' :: cs) rest := by
  rw [stringTree, Prod.mk.injEq] at kept
  obtain ⟨rfl, kept⟩ := kept
  split at kept
  · rename_i whole
    cases kept
    obtain ⟨body, rfl, text⟩ := quoted_text_of_read read (Option.isNone_iff_eq_none.mp whole)
    exact ⟨'"' :: body, rfl, .string text⟩
  · cases kept

section Steps

variable {n : Nat} (taken : Takes n) {cs rest : List Char}
include taken

theorem tree_of_read {tree : Tree} (read : readTree (n + 1) cs = (tree, some rest)) :
    ∃ blanks more, Blank blanks ∧ cs = blanks ++ more ∧ Begins (.tree tree) more rest := by
  rw [readTree] at read
  cases skipped : skipSpace cs with
  | nil =>
    rw [skipped] at read
    cases read
  | cons c more =>
    obtain ⟨blanks, blank, same⟩ := blanks_of_skip skipped
    refine ⟨blanks, c :: more, blank, same, ?_⟩
    rw [skipped] at read
    dsimp only at read
    split at read
    · rename_i quote
      rw [quote]
      exact string_of_tree rfl read
    split at read
    · rename_i bracket
      rcases inside : readItems n true more with ⟨items, ending, left⟩
      rw [inside] at read
      cases read
      obtain ⟨rfl, body, rfl, spells⟩ := taken.items inside
      rw [bracket]
      exact ⟨'[' :: body, rfl, .array spells⟩
    split at read
    · rename_i brace
      rcases inside : readMembers n true more with ⟨members, ending, left⟩
      rw [inside] at read
      cases read
      obtain ⟨rfl, body, rfl, spells⟩ := taken.members inside
      rw [brace]
      exact ⟨'\x7b' :: body, rfl, .object spells⟩
    split at read
    · obtain ⟨rfl, same⟩ := word_of_tree read
      exact ⟨_, same, .null⟩
    split at read
    · obtain ⟨rfl, same⟩ := word_of_tree read
      exact ⟨_, same, .bool true⟩
    split at read
    · obtain ⟨rfl, same⟩ := word_of_tree read
      exact ⟨_, same, .bool false⟩
    split at read
    · exact number_of_tree read
    · cases read

theorem item_of_read {items : List Tree} {ending : ArrayEnd}
    (read : readItem (n + 1) cs = (items, ending, some rest)) : ending = .closed ∧
      ∃ blanks more, Blank blanks ∧ cs = blanks ++ more ∧ Begins (.item items) more rest := by
  rw [readItem] at read
  split at read
  · cases read
  · rename_i item left own
    obtain ⟨blanks, _, blank, rfl, body, rfl, spells⟩ := taken.tree own
    rcases later : readItems n false left with ⟨others, ending', left'⟩
    rw [later] at read
    cases read
    obtain ⟨rfl, body', rfl, spells'⟩ := taken.items later
    refine ⟨rfl, blanks, _, blank, rfl, body ++ body', ?_, .item spells spells'⟩
    rw [List.append_assoc]

theorem items_of_read {first : Bool} {items : List Tree} {ending : ArrayEnd}
    (read : readItems (n + 1) first cs = (items, ending, some rest)) :
    ending = .closed ∧ Begins (.items first items) cs rest := by
  rw [readItems] at read
  cases skipped : skipSpace cs with
  | nil =>
    rw [skipped] at read
    cases read
  | cons c more =>
    obtain ⟨blanks, blank, rfl⟩ := blanks_of_skip skipped
    rw [skipped] at read
    dsimp only at read
    split at read
    · rename_i bracket
      cases read
      refine ⟨rfl, blanks ++ [']'], ?_, .endOfItems blank⟩
      rw [bracket, List.append_assoc, List.cons_append, List.nil_append]
    split at read
    · rename_i start
      obtain ⟨rfl, gap, _, spaced, same, body, rfl, spells⟩ := taken.item read
      rw [start, same]
      refine ⟨rfl, (blanks ++ gap) ++ body, ?_, .firstItem (blank_append blank spaced) spells⟩
      simp only [List.append_assoc]
    · rename_i later
      rw [Bool.not_eq_true] at later
      split at read
      · rename_i comma
        split at read
        · cases read
        · rename_i d tail skipped'
          obtain ⟨gap, spaced, rfl⟩ := blanks_of_skip skipped'
          split at read
          · cases read
          · obtain ⟨rfl, gap', _, spaced', same, body, rfl, spells⟩ := taken.item read
            rw [later, comma, same]
            refine ⟨rfl, _, ?_, .nextItem blank (blank_append spaced spaced') spells⟩
            simp only [List.append_assoc, List.cons_append]
      · cases read

omit taken in
theorem colon_of_read {left : List Char} (read : readColon cs = .ok left) :
    ∃ blanks, Blank blanks ∧ cs = blanks ++ ':' :: left := by
  rw [readColon] at read
  split at read
  · cases read
  · rename_i c more skipped
    obtain ⟨blanks, blank, rfl⟩ := blanks_of_skip skipped
    split at read
    · rename_i colon
      cases read
      exact ⟨blanks, blank, by rw [colon]⟩
    · cases read

theorem member_of_read {members : List (Quoted × Tree)} {ending : ObjectEnd}
    (read : readMember (n + 1) cs = (members, ending, some rest)) :
    ending = .closed ∧ Begins (.member members) cs rest := by
  rw [readMember] at read
  rcases name : readQuoted (cs.length + 1) cs with ⟨key, left⟩
  rw [name] at read
  dsimp only at read
  split at read
  · cases read
  · rename_i whole
    obtain ⟨body, rfl, text⟩ := quoted_text_of_read name whole
    split at read
    · cases read
    · rename_i behind colon
      obtain ⟨blanks, blank, rfl⟩ := colon_of_read colon
      split at read
      · cases read
      · rename_i value next own
        obtain ⟨gap, _, spaced, rfl, body', rfl, spells⟩ := taken.tree own
        rcases later : readMembers n false next with ⟨others, ending', last⟩
        rw [later] at read
        cases read
        obtain ⟨rfl, body'', rfl, spells'⟩ := taken.members later
        refine ⟨rfl, _, ?_, .member text blank spaced spells spells'⟩
        simp only [List.append_assoc, List.cons_append]

theorem members_of_read {first : Bool} {members : List (Quoted × Tree)} {ending : ObjectEnd}
    (read : readMembers (n + 1) first cs = (members, ending, some rest)) :
    ending = .closed ∧ Begins (.members first members) cs rest := by
  rw [readMembers] at read
  cases skipped : skipSpace cs with
  | nil =>
    rw [skipped] at read
    cases read
  | cons c more =>
    obtain ⟨blanks, blank, rfl⟩ := blanks_of_skip skipped
    rw [skipped] at read
    dsimp only at read
    split at read
    · rename_i brace
      cases read
      refine ⟨rfl, blanks ++ ['\x7d'], ?_, .endOfMembers blank⟩
      rw [brace, List.append_assoc, List.cons_append, List.nil_append]
    split at read
    · rename_i start
      split at read
      · rename_i quote
        obtain ⟨rfl, body, rfl, spells⟩ := taken.member read
        rw [start, quote]
        refine ⟨rfl, _, ?_, .firstMember blank spells⟩
        simp only [List.append_assoc, List.cons_append]
      · cases read
    · rename_i later
      rw [Bool.not_eq_true] at later
      split at read
      · rename_i comma
        split at read
        · cases read
        · rename_i d tail skipped'
          obtain ⟨gap, spaced, rfl⟩ := blanks_of_skip skipped'
          split at read
          · rename_i quote
            obtain ⟨rfl, body, rfl, spells⟩ := taken.member read
            rw [later, comma, quote]
            refine ⟨rfl, _, ?_, .nextMember blank spaced spells⟩
            simp only [List.append_assoc, List.cons_append]
          · cases read
      · cases read

end Steps

theorem takes (fuel : Nat) : Takes fuel := by
  induction fuel with
  | zero => exact takes_zero
  | succ n ih =>
    exact ⟨tree_of_read ih, item_of_read ih, items_of_read ih, member_of_read ih,
      members_of_read ih⟩

/-- A text of a tree: a spelling of it, with blanks around. -/
def IsTextOf (s : String) (tree : Tree) : Prop :=
  ∃ before cs after, Blank before ∧ Blank after ∧ s.toList = before ++ (cs ++ after) ∧
    Spells (.tree tree) cs

/-- The texts read to their end are those of the tree that is read. -/
theorem is_text_of_iff {s : String} {tree : Tree} :
    IsTextOf s tree ↔ Document.ofText s = ⟨tree, none⟩ := by
  constructor
  · rintro ⟨before, cs, after, blank, blank', same, spells⟩
    rw [Document.ofText, same, document_of_spells spells blank blank']
  · intro document
    rw [Document.ofText, Document.ofChars] at document
    split at document
    · cases document
    · rename_i found left read
      obtain ⟨before, _, blank, same, body, rfl, spells⟩ := (takes _).tree read
      rw [Document.mk.injEq] at document
      obtain ⟨rfl, ended⟩ := document
      split at ended
      · rename_i finished
        refine ⟨before, body, left, blank, ?_, same, spells⟩
        rw [List.isEmpty_iff, skipSpace, List.dropWhile_eq_nil_iff] at finished
        exact finished
      · cases ended

theorem is_text_of_text {value : Json} (kept : Exact value) : IsTextOf value.text value.tree :=
  is_text_of_iff.mpr (document_of_text kept)

/-- A tree that has a text. -/
def Written (tree : Tree) : Prop := ∃ cs, Spells (.tree tree) cs

/-- A key of an object that can be written. -/
def Quotable (key : Quoted) : Prop := ∃ cs, QuotedText key cs

/-- Whatever stands inside a node can be written. -/
def Node.Inside : Node → Prop
  | .tree (.array found ending) => ending = .closed ∧ ∀ item ∈ found, Written item
  | .tree (.object found ending) =>
      ending = .closed ∧ ∀ member ∈ found, Quotable member.1 ∧ Written member.2
  | .tree _ => True
  | .item found => ∀ item ∈ found, Written item
  | .items _ found => ∀ item ∈ found, Written item
  | .member found => ∀ member ∈ found, Quotable member.1 ∧ Written member.2
  | .members _ found => ∀ member ∈ found, Quotable member.1 ∧ Written member.2

theorem inside_of_spells {node : Node} {cs : List Char} (spells : Spells node cs) :
    node.Inside := by
  induction spells with
  | null => trivial
  | bool value => trivial
  | number text => trivial
  | string text => trivial
  | array _ ih => exact ⟨rfl, ih⟩
  | object _ ih => exact ⟨rfl, ih⟩
  | item value _ _ ih => exact List.forall_mem_cons.mpr ⟨⟨_, value⟩, ih⟩
  | endOfItems _ => exact List.forall_mem_nil _
  | firstItem _ _ ih => exact ih
  | nextItem _ _ _ ih => exact ih
  | member text _ _ value _ _ ih => exact List.forall_mem_cons.mpr ⟨⟨⟨_, text⟩, _, value⟩, ih⟩
  | endOfMembers _ => exact List.forall_mem_nil _
  | firstMember _ _ ih => exact ih
  | nextMember _ _ _ ih => exact ih

theorem spells_of_items {items : List Tree} (inside : ∀ item ∈ items, Written item) :
    ∃ cs, Spells (.items false items) cs := by
  induction items with
  | nil => exact ⟨_, .endOfItems blank_nil⟩
  | cons item rest ih =>
    obtain ⟨cs, value⟩ := inside item List.mem_cons_self
    obtain ⟨more, others⟩ := ih fun other later => inside other (List.mem_cons_of_mem item later)
    exact ⟨_, .nextItem blank_nil blank_nil (.item value others)⟩

theorem spells_of_members {members : List (Quoted × Tree)}
    (inside : ∀ member ∈ members, Quotable member.1 ∧ Written member.2) :
    ∃ cs, Spells (.members false members) cs := by
  induction members with
  | nil => exact ⟨_, .endOfMembers blank_nil⟩
  | cons member rest ih =>
    obtain ⟨⟨name, text⟩, cs, value⟩ := inside member List.mem_cons_self
    obtain ⟨more, others⟩ := ih fun other later => inside other (List.mem_cons_of_mem member later)
    exact ⟨_, .nextMember blank_nil blank_nil (.member text blank_nil blank_nil value others)⟩

theorem written_array_iff {items : List Tree} {ending : ArrayEnd} :
    Written (.array items ending) ↔ ending = .closed ∧ ∀ item ∈ items, Written item := by
  constructor
  · rintro ⟨cs, spells⟩
    exact inside_of_spells spells
  · rintro ⟨rfl, inside⟩
    cases items with
    | nil => exact ⟨_, .array (.endOfItems blank_nil)⟩
    | cons item rest =>
      obtain ⟨⟨cs, value⟩, later⟩ := List.forall_mem_cons.mp inside
      obtain ⟨more, others⟩ := spells_of_items later
      exact ⟨_, .array (.firstItem blank_nil (.item value others))⟩

theorem written_object_iff {members : List (Quoted × Tree)} {ending : ObjectEnd} :
    Written (.object members ending) ↔
      ending = .closed ∧ ∀ member ∈ members, Quotable member.1 ∧ Written member.2 := by
  constructor
  · rintro ⟨cs, spells⟩
    exact inside_of_spells spells
  · rintro ⟨rfl, inside⟩
    cases members with
    | nil => exact ⟨_, .object (.endOfMembers blank_nil)⟩
    | cons member rest =>
      obtain ⟨⟨⟨name, text⟩, cs, value⟩, later⟩ := List.forall_mem_cons.mp inside
      obtain ⟨more, others⟩ := spells_of_members later
      exact ⟨_, .object (.firstMember blank_nil (.member text blank_nil blank_nil value others))⟩

theorem written_of_text {s : String} {tree : Tree} (text : IsTextOf s tree) : Written tree := by
  obtain ⟨_, cs, _, _, _, _, spells⟩ := text
  exact ⟨cs, spells⟩

theorem text_of_written {tree : Tree} (written : Written tree) : ∃ s, IsTextOf s tree := by
  obtain ⟨cs, spells⟩ := written
  refine ⟨String.ofList cs, [], cs, [], blank_nil, blank_nil, ?_, spells⟩
  rw [String.toList_ofList, List.nil_append, List.append_nil]

/-- Nothing in a node is in the way of passing over it. -/
def Node.Ignored : Node → Prop
  | .tree value => ignore value = .ok ()
  | .item found => ignoreItems found = .ok ()
  | .items _ found => ignoreItems found = .ok ()
  | .member found => ignoreMembers found = .ok ()
  | .members _ found => ignoreMembers found = .ok ()

theorem ignored_of_spells {node : Node} {cs : List Char} (spells : Spells node cs) :
    node.Ignored := by
  induction spells with
  | null => rfl
  | bool value => rfl
  | number text => rfl
  | @string token _ text =>
    show ignore (.string token) = .ok ()
    rw [ignore, text.whole]
  | @array items _ _ ih =>
    show ignore (.array items .closed) = .ok ()
    rw [ignore, ih]
    rfl
  | @object members _ _ ih =>
    show ignore (.object members .closed) = .ok ()
    rw [ignore, ih]
    rfl
  | @item item items _ _ _ _ ih ih' =>
    show ignoreItems (item :: items) = .ok ()
    rw [ignoreItems, ih]
    exact ih'
  | endOfItems _ => rfl
  | firstItem _ _ ih => exact ih
  | nextItem _ _ _ ih => exact ih
  | @member key value members _ _ _ _ _ text _ _ _ _ ih ih' =>
    show ignoreMembers ((key, value) :: members) = .ok ()
    rw [ignoreMembers, text.whole]
    dsimp only
    rw [ih]
    exact ih'
  | endOfMembers _ => rfl
  | firstMember _ _ ih => exact ih
  | nextMember _ _ _ ih => exact ih

theorem ignore_of_written {tree : Tree} (written : Written tree) : ignore tree = .ok () := by
  obtain ⟨cs, spells⟩ := written
  exact ignored_of_spells spells

end SnapshotEndpoint.Json
