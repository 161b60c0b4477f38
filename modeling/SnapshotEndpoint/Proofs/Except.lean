import Mathlib.Data.List.Forall2

/-!
When steps that can fail give a result: each of them does.
-/
namespace SnapshotEndpoint

variable {ε α β : Type}

theorem bind_eq_ok_iff {x : Except ε α} {f : α → Except ε β} {result : β} :
    (x >>= f) = .ok result ↔ ∃ value, x = .ok value ∧ f value = .ok result := by
  cases x with
  | error e => simp [bind, Except.bind]
  | ok value => simp [bind, Except.bind]

theorem map_eq_ok_iff {x : Except ε α} {f : α → β} {result : β} :
    x.map f = .ok result ↔ ∃ value, x = .ok value ∧ f value = result := by
  cases x with
  | error e => simp [Except.map]
  | ok value => simp [Except.map]

theorem map_m_eq_ok_iff {f : α → Except ε β} {xs : List α} {results : List β} :
    xs.mapM f = .ok results ↔ List.Forall₂ (fun x result => f x = .ok result) xs results := by
  induction xs generalizing results with
  | nil => simp [pure, Except.pure, eq_comm]
  | cons x rest ih =>
    rw [List.mapM_cons, bind_eq_ok_iff, List.forall₂_cons_left_iff]
    constructor
    · rintro ⟨result, first, more⟩
      obtain ⟨others, later, same⟩ := bind_eq_ok_iff.mp more
      cases same
      exact ⟨result, others, first, ih.mp later, rfl⟩
    · rintro ⟨result, others, first, later, rfl⟩
      exact ⟨result, first, bind_eq_ok_iff.mpr ⟨others, ih.mpr later, rfl⟩⟩

/-- Each result is that of one of the steps. -/
theorem exists_of_mem_results {R : α → β → Prop} {xs : List α} {results : List β}
    (each : List.Forall₂ R xs results) {result : β} (member : result ∈ results) :
    ∃ x ∈ xs, R x result := by
  induction each with
  | nil => cases member
  | @cons x first xs results own _ ih =>
    rcases List.mem_cons.mp member with rfl | later
    · exact ⟨x, List.mem_cons_self, own⟩
    · obtain ⟨other, known, related⟩ := ih later
      exact ⟨other, List.mem_cons_of_mem x known, related⟩

theorem forall₂_append_left_iff {R : α → β → Prop} {first second : List α} {results : List β} :
    List.Forall₂ R (first ++ second) results ↔ ∃ before after, results = before ++ after ∧
      List.Forall₂ R first before ∧ List.Forall₂ R second after := by
  constructor
  · intro each
    induction first generalizing results with
    | nil => exact ⟨[], results, rfl, .nil, each⟩
    | cons x first ih =>
      cases each with
      | cons own later =>
        obtain ⟨before, after, rfl, earlier, others⟩ := ih later
        exact ⟨_ :: before, after, rfl, .cons own earlier, others⟩
  · rintro ⟨before, after, rfl, earlier, later⟩
    exact List.rel_append earlier later

/-- Steps give results together when each of them can. -/
theorem exists_results_iff {R : α → β → Prop} {xs : List α} :
    (∃ results, List.Forall₂ R xs results) ↔ ∀ x ∈ xs, ∃ result, R x result := by
  induction xs with
  | nil => exact iff_of_true ⟨[], .nil⟩ (List.forall_mem_nil _)
  | cons x rest ih =>
    rw [List.forall_mem_cons, ← ih]
    constructor
    · rintro ⟨_, each⟩
      obtain ⟨result, others, own, later, rfl⟩ := List.forall₂_cons_left_iff.mp each
      exact ⟨⟨result, own⟩, others, later⟩
    · rintro ⟨⟨result, own⟩, others, later⟩
      exact ⟨result :: others, .cons own later⟩

end SnapshotEndpoint
