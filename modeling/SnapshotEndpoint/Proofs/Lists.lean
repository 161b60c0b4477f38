import Mathlib.Data.List.Basic

/-!
Entries of lists that grow at their end or change in one place.
-/
namespace SnapshotEndpoint

variable {β γ : Type} {before after : List β}

theorem entry_kept (kept : before <+: after) {i : Nat} {entry : β}
    (there : before[i]? = some entry) : after[i]? = some entry := by
  obtain ⟨within, rfl⟩ := List.getElem?_eq_some_iff.mp there
  exact List.prefix_iff_getElem?.mp kept i within

theorem entry_concat (before : List β) (last : β) (i : Nat) :
    (before ++ [last])[i]? = if i = before.length then some last else before[i]? := by
  by_cases at_end : i = before.length
  · rw [if_pos at_end, at_end, List.getElem?_concat_length]
  · rw [if_neg at_end]
    by_cases within : i < before.length
    · rw [List.getElem?_append_left within]
    · rw [List.getElem?_eq_none (Nat.not_lt.mp within), List.getElem?_eq_none]
      rw [List.length_append, List.length_singleton]
      omega

/-- A change of an entry that a function does not see. -/
theorem map_set_same {i : Nat} {old new : β} {f : β → γ} (there : before[i]? = some old)
    (same : f new = f old) : (before.set i new).map f = before.map f := by
  obtain ⟨within, _⟩ := List.getElem?_eq_some_iff.mp there
  apply List.ext_getElem?
  intro j
  rw [List.map_set, List.getElem?_set]
  by_cases changed : i = j
  · rw [if_pos changed, ← changed, if_pos (by simpa using within), List.getElem?_map, there, same]
    rfl
  · rw [if_neg changed]

theorem map_modify {f : β → γ} {change : β → β} {change' : γ → γ}
    (same : ∀ entry, f (change entry) = change' (f entry)) (entries : List β) (i : Nat) :
    (entries.modify i change).map f = (entries.map f).modify i change' := by
  apply List.ext_getElem?
  intro j
  rw [List.getElem?_map, List.getElem?_modify, List.getElem?_modify, List.getElem?_map]
  cases entries[j]? with
  | none => rfl
  | some entry =>
    by_cases changed : i = j
    · simp [changed, same]
    · simp [changed]

end SnapshotEndpoint
