import SnapshotEndpoint.Proofs.Address.Reading

/-!
The text that is written for an address spells it. For eight groups it leaves out the first of the
longest runs of zeros, so what is left are the groups before it and those behind it; and the octets
of an embedded address are those of its last two groups.
-/
namespace SnapshotEndpoint.SocketAddress

theorem number_to_digits (n : Nat) : Number (Nat.toDigits 10 n) n :=
  ⟨Text.digits_to_digits n, Text.decimal_value_to_digits n⟩

theorem hex_digits (n : Nat) :
    (∀ c ∈ Text.hexDigits n, isHexDigit c = true) ∧ hexValue (Text.hexDigits n) = n := by
  have single : ∀ digit < 16, isHexDigit (Nat.digitChar digit) = true ∧
      (Text.hexDigit? (Nat.digitChar digit)).getD 0 = digit := by
    intro digit small
    rw [isHexDigit, Text.hex_digit_digit_char digit small]
    exact ⟨rfl, rfl⟩
  induction n using Nat.strongRecOn with
  | ind n ih =>
    rw [Text.hexDigits, Nat.toDigits_eq_if (by decide)]
    split
    · rename_i small
      obtain ⟨hex, value⟩ := single n small
      refine ⟨List.forall_mem_singleton.mpr hex, ?_⟩
      simp [hexValue, value]
    · rename_i large
      obtain ⟨front, value⟩ := ih (n / 16) (by omega)
      obtain ⟨hex, last⟩ := single (n % 16) (Nat.mod_lt n (by decide))
      refine ⟨List.forall_mem_append.mpr ⟨front, List.forall_mem_singleton.mpr hex⟩, ?_⟩
      rw [hexValue, Text.hexDigits] at value
      rw [hexValue, List.foldl_append, value, List.foldl_cons, List.foldl_nil, last]
      omega

theorem group_hex_digits (g : UInt16) : Group (Text.hexDigits g.toNat) g where
  nonempty := Nat.toDigits_ne_nil
  short := (Nat.length_toDigits_le_iff (by decide) (by decide)).mpr g.toNat_lt
  digit := (hex_digits g.toNat).1
  value := by rw [(hex_digits g.toNat).2, Nat.toUInt16, UInt16.ofNat_toNat]

theorem run_later (groups : List UInt16) :
    Run false (groups.flatMap fun g => ':' :: Text.hexDigits g.toNat) groups false := by
  induction groups with
  | nil => exact .nil false
  | cons g rest ih => exact .group false (group_hex_digits g) ih

theorem groups_text_cons (g : UInt16) (rest : List UInt16) : (groupsText (g :: rest)).toList =
    Text.hexDigits g.toNat ++ rest.flatMap fun g => ':' :: Text.hexDigits g.toNat := by
  rw [groupsText, Text.joinWith]
  induction rest generalizing g with
  | nil => simp
  | cons next rest ih =>
    have later := ih next
    rw [List.map_cons] at later
    rw [List.map_cons, List.map_cons, String.intercalate_cons_cons, String.toList_append, later]
    simp

theorem run_groups_text (groups : List UInt16) :
    Run true (groupsText groups).toList groups false := by
  cases groups with
  | nil => exact .nil true
  | cons g rest =>
    rw [groups_text_cons]
    exact .group true (group_hex_digits g) (run_later rest)

/-- A run of zeros that stands in the groups where it says. -/
def ZeroRun.Marks (zeros : ZeroRun) (groups : List UInt16) : Prop :=
  ∃ before after, groups = before ++ List.replicate zeros.length 0 ++ after ∧
    before.length = zeros.start

/-- A run of zeros that goes on at the end of the groups, or none. -/
def ZeroRun.Runs (zeros : ZeroRun) (groups : List UInt16) : Prop :=
  zeros.length = 0 ∨
    ∃ before, groups = before ++ List.replicate zeros.length 0 ∧ before.length = zeros.start

namespace ZeroRun

variable {zeros : ZeroRun} {groups : List UInt16}

theorem Marks.extend (marks : zeros.Marks groups) (more : List UInt16) :
    zeros.Marks (groups ++ more) := by
  obtain ⟨before, after, rfl, start⟩ := marks
  exact ⟨before, after ++ more, List.append_assoc _ after more, start⟩

/-- The run that ends with one more zero. -/
def grown (zeros : ZeroRun) (index : Nat) : ZeroRun :=
  if zeros.length = 0 then ⟨index, 1⟩ else ⟨zeros.start, zeros.length + 1⟩

theorem Runs.grown (runs : zeros.Runs groups) :
    (zeros.grown groups.length).Runs (groups ++ [0]) ∧
      (zeros.grown groups.length).Marks (groups ++ [0]) := by
  have ending : ∃ before,
      groups ++ [0] = before ++ List.replicate (zeros.grown groups.length).length 0 ∧
        before.length = (zeros.grown groups.length).start := by
    rw [ZeroRun.grown]
    split
    · exact ⟨groups, rfl, rfl⟩
    · rename_i some_
      obtain ⟨before, parts, start⟩ := runs.resolve_left some_
      refine ⟨before, ?_, start⟩
      rw [List.replicate_succ', ← List.append_assoc, ← parts]
  refine ⟨Or.inr ending, ?_⟩
  obtain ⟨before, parts, start⟩ := ending
  exact ⟨before, [], by rw [List.append_nil, parts], start⟩

end ZeroRun

theorem longest_zeros_zero (rest : List UInt16) (index : Nat) (current best : ZeroRun) :
    longestZeros (0 :: rest) index current best =
      longestZeros rest (index + 1) (current.grown index)
        (if best.length < (current.grown index).length then current.grown index else best) := by
  rw [longestZeros, if_pos rfl]
  rfl

/-- The longest run that is found stands where it says, as do the run that goes on and the best
    one so far. -/
theorem longest_zeros_marks (rest : List UInt16) {done : List UInt16} {current best : ZeroRun}
    (running : current.Runs done) (marks : best.Marks done) :
    (longestZeros rest done.length current best).Marks (done ++ rest) := by
  -- On the groups that are left, with those that are done as the place of both runs.
  induction rest generalizing done current best with
  | nil =>
    rw [longestZeros, List.append_nil]
    exact marks
  | cons g rest ih =>
    have count : done.length + 1 = (done ++ [g]).length := by simp
    rw [List.append_cons]
    by_cases zero : g = 0
    · subst zero
      obtain ⟨runs, grown⟩ := running.grown
      rw [longest_zeros_zero, count]
      apply ih runs
      split
      · exact grown
      · exact marks.extend [0]
    · rw [longestZeros, if_neg zero, count]
      exact ih (Or.inl rfl) (marks.extend [g])

theorem groups_compressed {groups : List UInt16} (eight : groups.length = 8) :
    Groups (compressedText groups).toList groups := by
  have nothing : (⟨0, 0⟩ : ZeroRun).Marks [] := ⟨[], [], rfl, rfl⟩
  have found : (longestZeros groups 0 ⟨0, 0⟩ ⟨0, 0⟩).Marks groups :=
    longest_zeros_marks groups (Or.inl rfl) nothing
  rw [compressedText]
  generalize longestZeros groups 0 ⟨0, 0⟩ ⟨0, 0⟩ = zeros at found
  split
  · rename_i several
    obtain ⟨before, after, whole, start⟩ := found
    have heads : groups.take zeros.start = before := by
      rw [whole, ← start, List.append_assoc, List.take_left]
    have tails : groups.drop (zeros.start + zeros.length) = after := by
      rw [whole, ← start]
      exact List.drop_left' (by simp)
    have total : before.length + zeros.length + after.length = 8 := by
      rw [← eight, whole]
      simp [Nat.add_assoc]
    have gap := Groups.gap (run_groups_text before) (run_groups_text after) (by omega)
    rw [show 8 - before.length - after.length = zeros.length by omega, ← whole] at gap
    rw [heads, tails]
    simpa using gap
  · exact .all (run_groups_text groups) eight

theorem pair_group_halves (g : UInt16) :
    pairGroup (g.toNat / 256).toUInt8 (g.toNat % 256).toUInt8 = g := by
  have small := g.toNat_lt
  have high : (g.toNat / 256).toUInt8.toNat = g.toNat / 256 :=
    UInt8.toNat_ofNat_of_lt' (Nat.div_lt_of_lt_mul small)
  have low : (g.toNat % 256).toUInt8.toNat = g.toNat % 256 :=
    UInt8.toNat_ofNat_of_lt' (Nat.mod_lt _ (by decide))
  rw [pairGroup, high, low, Nat.div_add_mod', Nat.toUInt16, UInt16.ofNat_toNat]

theorem octets_text_eq (o : Octets) : (octetsText o.a o.b o.c o.d).toList = dotted o := by
  simp [octetsText, dotted, octetChars]

theorem groups_embedded (o : Octets) :
    Groups ("::ffff:" ++ octetsText o.a o.b o.c o.d).toList
      [0, 0, 0, 0, 0, 0xffff, pairGroup o.a o.b, pairGroup o.c o.d] := by
  have ffff : Group "ffff".toList 0xffff := group_hex_digits 0xffff
  have fewer : 0 + 3 < 8 := by decide
  have gap := Groups.gap (.nil true) (.group true ffff (.octets false o)) fewer
  rw [String.toList_append, octets_text_eq]
  exact gap

theorem groups_v6_text {groups : List UInt16} (eight : groups.length = 8) :
    Groups (v6Text groups).toList groups := by
  unfold v6Text
  split
  · rename_i high low
    have embedded := groups_embedded ⟨(high.toNat / 256).toUInt8, (high.toNat % 256).toUInt8,
      (low.toNat / 256).toUInt8, (low.toNat % 256).toUInt8⟩
    rwa [pair_group_halves, pair_group_halves] at embedded
  · exact groups_compressed eight

theorem scope_of_text (scope : UInt32) : Scope (scopeText scope).toList scope := by
  rw [scopeText]
  split
  · rename_i zero
    rw [zero]
    exact .none
  · have number := Scope.number (number_to_digits scope.toNat)
    simpa using number

/-- The text that is written for an address spells it. -/
theorem spells_text (address : SocketAddress) : Spells address.text.toList address := by
  obtain ⟨ip, port⟩ := address
  have number := number_to_digits port.toNat
  cases ip with
  | v4 a b c d =>
    have spells := Spells.v4 ⟨a, b, c, d⟩ number
    rw [← octets_text_eq] at spells
    simpa [text, hostText] using spells
  | v6 groups eight scope =>
    have spells := Spells.v6 (groups_v6_text eight) eight (scope_of_text scope) number
    simpa [text, hostText] using spells

end SnapshotEndpoint.SocketAddress
