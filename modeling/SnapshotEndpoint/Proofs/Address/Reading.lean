import SnapshotEndpoint.Proofs.Address.Spelling

/-!
An address is read of just the texts that spell it. Groups are read as far as they go, and octets
where they can stand. Neither takes too much, since what follows a run of groups neither goes on
with one nor begins another.
-/
namespace SnapshotEndpoint.SocketAddress

/-- Characters of groups, of octets and between octets. -/
def isGroupChar (c : Char) : Bool := isHexDigit c || c == '.'

/-- The end of a run: no group goes on here, and none begins behind a colon. -/
structure Ends (rest : List Char) : Prop where
  here : Stops isGroupChar rest
  behind : ∀ more, rest = ':' :: more → Stops isGroupChar more

section Runs

variable {first : Bool} {cs rest : List Char}

theorem hex_of_digit {c : Char} (digit : c.isDigit = true) : isHexDigit c = true := by
  rw [isHexDigit, Text.hexDigit?, if_pos digit]
  rfl

theorem stops_hex (stops : Stops isGroupChar rest) : Stops isHexDigit rest := by
  intro c first
  have := stops c first
  rw [isGroupChar, Bool.or_eq_false_iff] at this
  exact this.1

theorem stops_digit (stops : Stops isGroupChar rest) : Stops Char.isDigit rest := by
  intro c first
  rw [Bool.eq_false_iff]
  intro digit
  have hex := stops_hex stops c first
  rw [hex_of_digit digit] at hex
  cases hex

theorem opened_eq_some_iff {body : List Char} :
    (if first = true then some cs else expectChar ':' cs) = some body ↔
      cs = separator first ++ body := by
  cases first with
  | true => simp [separator]
  | false => simp [separator, expect_char_eq_some_iff]

/-- What is read as octets has a point behind its first digits. -/
theorem read_octets_of_hex (hex : ∀ c ∈ cs, isHexDigit c = true) (stops : Stops isGroupChar rest) :
    readOctets (cs ++ rest) = none := by
  rw [Option.eq_none_iff_forall_ne_some]
  rintro ⟨o, left⟩ read
  obtain ⟨whole, _⟩ := read_octets_eq_some_iff.mp read
  have digits : ∀ c ∈ octetChars o.a, isHexDigit c = true := fun c known =>
    hex_of_digit ((Text.digits_to_digits o.a.toNat).digit c known)
  rw [dotted, List.append_assoc, List.cons_append] at whole
  -- The hexadecimal digits in front end at one place, and there stands no point.
  have point := span_eq_iff.mpr ⟨whole, digits, stops_cons_iff.mpr rfl⟩
  rw [span_eq_iff.mpr ⟨rfl, hex, stops_hex stops⟩, Prod.mk.injEq] at point
  rw [point.2] at stops
  cases stops_cons_iff.mp stops

theorem read_octets_of_stops (stops : Stops isGroupChar rest) : readOctets rest = none :=
  read_octets_of_hex (List.forall_mem_nil _) stops

theorem read_group_of_stops (stops : Stops isGroupChar rest) : readGroup rest = none := by
  rw [Option.eq_none_iff_forall_ne_some]
  rintro ⟨g, left⟩ read
  obtain ⟨front, rfl, group, _⟩ := read_group_eq_some_iff.mp read
  obtain ⟨c, more, rfl⟩ := List.exists_cons_of_ne_nil group.nonempty
  have stops := stops_cons_iff.mp (stops_hex stops)
  rw [group.digit c List.mem_cons_self] at stops
  cases stops

theorem stops_of_later_run {groups : List UInt16} {ends : Bool} (run : Run false cs groups ends)
    (stops : Stops isGroupChar rest) : Stops isGroupChar (cs ++ rest) := by
  cases run with
  | nil _ => exact stops
  | octets _ o => exact stops_cons_iff.mpr rfl
  | group _ text later => exact stops_cons_iff.mpr rfl

/-- A run that is spelled is read to its end, and no further. -/
theorem read_groups_of_run {groups : List UInt16} {ends : Bool} (run : Run first cs groups ends)
    {slots : Nat} (room : groups.length ≤ slots) (stop : Ends rest) :
    readGroups slots first (cs ++ rest) = ⟨groups, ends, rest⟩ := by
  -- On the run, one group for each slot; what reading meets first is what the run has there.
  induction run generalizing slots with
  | nil first =>
    cases slots with
    | zero => rfl
    | succ slots =>
      rw [List.nil_append, readGroups]
      split
      · rfl
      · rename_i body opened
        have closed : Stops isGroupChar body := by
          rw [opened_eq_some_iff] at opened
          cases first with
          | true =>
            have here := stop.here
            rwa [opened] at here
          | false => exact stop.behind body opened
        rw [read_octets_of_stops closed, ite_self, read_group_of_stops closed]
  | octets first o =>
    obtain ⟨slots, rfl⟩ : ∃ n, slots = n + 1 + 1 := Nat.exists_eq_add_of_le' room
    have point : Stops Char.isDigit rest := stops_digit stop.here
    have read : readOctets (dotted o ++ rest) = some (o, rest) :=
      read_octets_eq_some_iff.mpr ⟨rfl, point⟩
    rw [List.append_assoc, readGroups, opened_eq_some_iff.mpr rfl]
    dsimp only
    rw [if_neg (Nat.succ_ne_zero slots), read]
  | @group cs more g groups ends first text later ih =>
    obtain ⟨slots, rfl⟩ : ∃ n, slots = n + 1 :=
      Nat.exists_eq_add_of_le' (Nat.le_of_add_left_le room)
    have closed := stops_of_later_run later stop.here
    have read : readGroup (cs ++ (more ++ rest)) = some (g, more ++ rest) :=
      read_group_eq_some_iff.mpr ⟨cs, rfl, text, stops_hex closed⟩
    rw [List.append_assoc, List.append_assoc, readGroups, opened_eq_some_iff.mpr rfl]
    dsimp only
    rw [read_octets_of_hex text.digit closed, ite_self, read]
    dsimp only
    rw [ih (Nat.le_of_succ_le_succ room)]

/-- Whatever is read is a run, with no more groups than there are slots. -/
theorem run_of_read_groups (slots : Nat) (first : Bool) (cs : List Char) :
    (readGroups slots first cs).groups.length ≤ slots ∧
      ∃ front, cs = front ++ (readGroups slots first cs).rest ∧
        Run first front (readGroups slots first cs).groups
          (readGroups slots first cs).endsInOctets := by
  induction slots generalizing first cs with
  | zero => exact ⟨Nat.le_refl 0, [], rfl, .nil first⟩
  | succ slots ih =>
    rw [readGroups]
    split
    · exact ⟨Nat.zero_le _, [], rfl, .nil first⟩
    · rename_i body opened
      rw [opened_eq_some_iff] at opened
      subst opened
      split
      · rename_i o rest read
        split at read
        · cases read
        · rename_i more
          obtain ⟨rfl, _⟩ := read_octets_eq_some_iff.mp read
          have room : 2 ≤ slots + 1 := by omega
          exact ⟨room, separator first ++ dotted o, (List.append_assoc _ _ _).symm, .octets first o⟩
      · split
        · exact ⟨Nat.zero_le _, [], rfl, .nil first⟩
        · rename_i g rest read
          obtain ⟨front, rfl, group, _⟩ := read_group_eq_some_iff.mp read
          obtain ⟨room, more, whole, run⟩ := ih false rest
          refine ⟨Nat.succ_le_succ room, separator first ++ (front ++ more), ?_,
            .group first group run⟩
          rw [List.append_assoc, List.append_assoc, ← whole]

end Runs

section Parts

variable {cs rest : List Char}

theorem read_all_groups_of_groups {groups : List UInt16} (spelled : Groups cs groups)
    (here : Stops isGroupChar rest) (apart : Stops (· == ':') rest) :
    readAllGroups (cs ++ rest) = some (groups, rest) := by
  have ends : Ends rest := by
    refine ⟨here, ?_⟩
    rintro more rfl
    cases stops_cons_iff.mp apart
  cases spelled with
  | all run eight =>
    have read := read_groups_of_run run (Nat.le_of_eq eight) ends
    simp only [readAllGroups, read, if_pos eight]
  | @gap before after heads tails _ head tail fewer =>
    have gap : Ends (':' :: ':' :: (after ++ rest)) := by
      refine ⟨stops_cons_iff.mpr rfl, ?_⟩
      intro more same
      cases same
      exact stops_cons_iff.mpr rfl
    have readHead := read_groups_of_run head (show heads.length ≤ 8 by omega) gap
    have readTail := read_groups_of_run tail (show tails.length ≤ 7 - heads.length by omega) ends
    rw [List.append_assoc, List.cons_append, List.cons_append]
    simp only [readAllGroups, readHead, if_neg (show ¬ heads.length = 8 by omega)]
    simp [expectChar, readTail]

theorem groups_of_read {groups : List UInt16} (read : readAllGroups cs = some (groups, rest)) :
    ∃ front, cs = front ++ rest ∧ Groups front groups := by
  obtain ⟨room, front, whole, run⟩ := run_of_read_groups 8 true cs
  unfold readAllGroups at read
  dsimp only at read
  split at read
  · rename_i eight
    cases read
    exact ⟨front, whole, .all run eight⟩
  · rename_i fewer
    split at read
    · cases read
    · rename_i plain
      simp only [Option.bind_eq_bind, Option.bind_eq_some_iff, expect_char_eq_some_iff,
        Option.some.injEq, Prod.mk.injEq] at read
      obtain ⟨_, colon, after, rfl, rfl, rfl⟩ := read
      obtain ⟨space, behind, rest, tail⟩ :=
        run_of_read_groups (7 - (readGroups 8 true cs).groups.length) true after
      rw [Bool.not_eq_true] at plain
      rw [plain] at run
      rw [colon] at whole
      refine ⟨front ++ ':' :: ':' :: behind, ?_, .gap run tail (by omega)⟩
      rw [List.append_assoc, List.cons_append, List.cons_append, ← rest]
      exact whole

theorem read_port_eq_some_iff {port : UInt16} : readPort cs = some (port, rest) ↔
    ∃ front, cs = ':' :: (front ++ rest) ∧ Number front port.toNat ∧ Stops Char.isDigit rest := by
  simp only [readPort, Option.bind_eq_bind, Option.bind_eq_some_iff, Prod.exists,
    expect_char_eq_some_iff, read_decimal_eq_some_iff, Option.some.injEq, Prod.mk.injEq]
  constructor
  · rintro ⟨_, rfl, n, _, ⟨small, front, rfl, number, stops⟩, rfl, rfl⟩
    refine ⟨front, rfl, ?_, stops⟩
    rwa [Nat.toUInt16, UInt16.toNat_ofNat_of_lt' small]
  · rintro ⟨front, rfl, number, stops⟩
    exact ⟨_, rfl, port.toNat, rest, ⟨port.toNat_lt, front, rfl, number, stops⟩,
      UInt16.ofNat_toNat, rfl⟩

theorem read_scope_of_scope {scope : UInt32} (spelled : Scope cs scope)
    (stops : Stops Char.isDigit rest) (apart : Stops (· == '%') rest) :
    readScope (cs ++ rest) = some (scope, rest) := by
  cases spelled with
  | none =>
    have none : expectChar '%' rest = none := by
      rw [Option.eq_none_iff_forall_ne_some]
      intro more read
      rw [expect_char_eq_some_iff.mp read] at apart
      cases stops_cons_iff.mp apart
    rw [List.nil_append, readScope, none]
  | number number =>
    have read : readDecimal wordLimit32 _ = some (scope.toNat, rest) :=
      read_decimal_eq_some_iff.mpr ⟨scope.toNat_lt, _, rfl, number, stops⟩
    rw [List.cons_append, readScope, expect_char_eq_some_iff.mpr rfl]
    dsimp only
    rw [read, Option.map_some, Nat.toUInt32, UInt32.ofNat_toNat]

theorem scope_of_read {scope : UInt32} (read : readScope cs = some (scope, rest)) :
    ∃ front, cs = front ++ rest ∧ Scope front scope := by
  unfold readScope at read
  split at read
  · cases read
    exact ⟨[], rfl, .none⟩
  · rename_i more percent
    obtain ⟨⟨n, left⟩, parsed, same⟩ := Option.map_eq_some_iff.mp read
    cases same
    obtain ⟨small, front, rfl, number, _⟩ := read_decimal_eq_some_iff.mp parsed
    have fits : n < UInt32.size := small
    refine ⟨'%' :: front, expect_char_eq_some_iff.mp percent, .number ?_⟩
    rwa [Nat.toUInt32, UInt32.toNat_ofNat_of_lt' fits]

theorem read_v4_eq_some_iff {address : SocketAddress} : readV4 cs = some (address, rest) ↔
    ∃ o front port, cs = dotted o ++ ':' :: (front ++ rest) ∧ Number front port.toNat ∧
      Stops Char.isDigit rest ∧ address = ⟨.v4 o.a o.b o.c o.d, port⟩ := by
  simp only [readV4, Option.bind_eq_bind, Option.bind_eq_some_iff, Prod.exists,
    read_octets_eq_some_iff, read_port_eq_some_iff, Option.some.injEq, Prod.mk.injEq]
  constructor
  · rintro ⟨o, _, ⟨rfl, _⟩, port, _, ⟨front, rfl, number, stops⟩, rfl, rfl⟩
    exact ⟨o, front, port, rfl, number, stops, rfl⟩
  · rintro ⟨o, front, port, rfl, number, stops, rfl⟩
    exact ⟨o, _, ⟨rfl, stops_cons_iff.mpr rfl⟩, port, _, ⟨front, rfl, number, stops⟩, rfl, rfl⟩

theorem stops_of_scope {scope : UInt32} (zone : Scope cs scope) {kind : Char → Bool}
    (percent : kind '%' = false) (bracket : kind ']' = false) :
    Stops kind (cs ++ ']' :: rest) := by
  cases zone with
  | none => exact stops_cons_iff.mpr bracket
  | number _ => exact stops_cons_iff.mpr percent

theorem read_v6_of_parts {inside within front : List Char} {groups : List UInt16} {scope : UInt32}
    {port : UInt16} (spelled : Groups inside groups) (eight : groups.length = 8)
    (zone : Scope within scope) (number : Number front port.toNat)
    (stops : Stops Char.isDigit rest) :
    readV6 ('[' :: (inside ++ (within ++ ']' :: ':' :: (front ++ rest)))) =
      some (⟨.v6 groups eight scope, port⟩, rest) := by
  have first : readAllGroups (inside ++ (within ++ ']' :: ':' :: (front ++ rest))) =
      some (groups, within ++ ']' :: ':' :: (front ++ rest)) :=
    read_all_groups_of_groups spelled (stops_of_scope zone rfl rfl) (stops_of_scope zone rfl rfl)
  have second : readScope (within ++ ']' :: ':' :: (front ++ rest)) =
      some (scope, ']' :: ':' :: (front ++ rest)) :=
    read_scope_of_scope zone (stops_cons_iff.mpr rfl) (stops_cons_iff.mpr rfl)
  simp only [readV6, Option.bind_eq_bind, Option.bind_eq_some_iff, Prod.exists,
    expect_char_eq_some_iff, read_port_eq_some_iff]
  exact ⟨_, rfl, groups, _, first, scope, _, second, _, rfl, port, rest,
    ⟨front, rfl, number, stops⟩, dif_pos eight⟩

theorem spells_of_read_v6 {address : SocketAddress} (read : readV6 cs = some (address, rest)) :
    ∃ front, cs = front ++ rest ∧ Spells front address := by
  simp only [readV6, Option.bind_eq_bind, Option.bind_eq_some_iff, Prod.exists,
    expect_char_eq_some_iff, read_port_eq_some_iff] at read
  obtain ⟨_, rfl, groups, _, first, scope, _, second, _, rfl, port, _,
    ⟨front, rfl, number, _⟩, made⟩ := read
  split at made
  · rename_i eight
    cases made
    obtain ⟨inside, rfl, spelled⟩ := groups_of_read first
    obtain ⟨within, rfl, zone⟩ := scope_of_read second
    exact ⟨_, by simp, .v6 spelled eight zone number⟩
  · cases made

end Parts

theorem read_v4_bracket (rest : List Char) : readV4 ('[' :: rest) = none := by
  rw [Option.eq_none_iff_forall_ne_some]
  rintro ⟨address, left⟩ read
  obtain ⟨o, front, port, parts, _⟩ := read_v4_eq_some_iff.mp read
  obtain ⟨c, more, written, digit⟩ := Text.starts_to_digits o.a.toNat
  rw [dotted, octetChars, written] at parts
  cases parts
  cases digit

/-- An address is read of a text if the text spells it, and of no other text. -/
theorem parse_eq_some_iff {s : String} {address : SocketAddress} :
    parse? s = some address ↔ Spells s.toList address := by
  have whole : parse? s = some address ↔
      (readV4 s.toList).or (readV6 s.toList) = some (address, []) := by
    rw [parse?]
    split
    · rename_i same
      rw [same]
      simp
    · rename_i other
      constructor
      · intro impossible
        cases impossible
      · intro same
        exact (other address same).elim
  rw [whole, Option.or_eq_some_iff]
  constructor
  · rintro (read | ⟨_, read⟩)
    · obtain ⟨o, front, port, parts, number, _, rfl⟩ := read_v4_eq_some_iff.mp read
      rw [parts, List.append_nil]
      exact .v4 o number
    · obtain ⟨front, parts, spells⟩ := spells_of_read_v6 read
      rwa [parts, List.append_nil]
  · intro spells
    generalize s.toList = cs at spells
    cases spells with
    | @v4 o cs port number =>
      refine Or.inl (read_v4_eq_some_iff.mpr ⟨o, cs, port, ?_, number, stops_nil _, rfl⟩)
      rw [List.append_nil]
    | v6 spelled eight zone number =>
      have read := read_v6_of_parts spelled eight zone number (stops_nil Char.isDigit)
      rw [List.append_nil] at read
      exact Or.inr ⟨read_v4_bracket _, read⟩

end SnapshotEndpoint.SocketAddress
