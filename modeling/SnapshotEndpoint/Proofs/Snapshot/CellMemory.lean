import Mathlib.Data.List.Perm.Basic
import SnapshotEndpoint.Proofs.Lists
import SnapshotEndpoint.Snapshot.CellHeap

/-!
The memory of one cell, step by step. Every handle names the cell, a value never changes where it
lies, and an update that is put in place changes the value of that moment. So what the cell holds
comes of all publications and updates, one after the other, and what was loaded stays.
-/
namespace SnapshotEndpoint

variable {α : Type}

/-- What an answer did to the value of the cell. -/
def HeapAnswer.effect : HeapAnswer α → Option (α → α)
  | .published value => some fun _ => value
  | .changed change => some change
  | _ => none

def HeapAnswer.begins : HeapAnswer α → Option (α → α)
  | .begun change => some change
  | _ => none

def HeapAnswer.completes : HeapAnswer α → Option (α → α)
  | .changed change => some change
  | _ => none

def HeapAnswer.clones : HeapAnswer α → Bool
  | .cloned => true
  | _ => false

/-- What comes of a value by changes, one after the other. -/
def changedBy (initial : α) (changes : List (α → α)) : α :=
  changes.foldl (fun value change => change value) initial

/-- The value that comes of the answers in their order. -/
def outcome (initial : α) (answers : List (HeapAnswer α)) : α :=
  changedBy initial (answers.filterMap HeapAnswer.effect)

namespace CellHeap

/-- A heap in which every handle names the one cell there is, which has the value. -/
structure Holds (value : α) (h : CellHeap α) : Prop where
  cell : ∃ address, h.cells = [address] ∧ h.values[address]? = some value
  handles : ∀ cell ∈ h.handles, cell = 0
  loaded : ∀ address ∈ h.loaded, address < h.values.length
  pending : ∀ update ∈ h.pending, update.cell = 0 ∧ update.seen < h.values.length

variable {value : α} {h : CellHeap α}

theorem holds_start (initial : α) : Holds initial (start initial) := by
  constructor
  · exact ⟨0, rfl, rfl⟩
  · simp [start]
  · simp [start]
  · simp [start]

theorem Holds.handle_cases (holds : Holds value h) (handle : Nat) :
    handle < h.handles.length ∧ h.handles[handle]? = some 0 ∧
        (∃ address, h.address handle = some address ∧ h.cells = [address] ∧
          h.values[address]? = some value) ∨
      h.handles.length ≤ handle ∧ h.handles[handle]? = none ∧ h.address handle = none := by
  unfold address
  by_cases there : handle < h.handles.length
  · have entry := List.getElem?_eq_getElem there
    rw [holds.handles _ (List.getElem_mem there)] at entry
    obtain ⟨address, cells, stored⟩ := holds.cell
    refine .inl ⟨there, entry, address, ?_, cells, stored⟩
    rw [entry, cells]
    rfl
  · have beyond := List.getElem?_eq_none (Nat.not_lt.mp there)
    refine .inr ⟨Nat.not_lt.mp there, beyond, ?_⟩
    rw [beyond]
    rfl

theorem Holds.seen_eq (holds : Holds value h) (handle : Nat) :
    h.seen handle = if handle < h.handles.length then some value else none := by
  unfold seen
  rcases holds.handle_cases handle with ⟨there, _, address, found, _, stored⟩ | ⟨beyond, _, none⟩
  · rw [if_pos there, found]
    exact stored
  · rw [if_neg (Nat.not_lt.mpr beyond), none]
    rfl

theorem Holds.put (holds : Holds value h) (next : α) : Holds next (h.put 0 next) := by
  obtain ⟨address, cells, _⟩ := holds.cell
  constructor
  · refine ⟨h.values.length, ?_, ?_⟩
    · unfold CellHeap.put
      rw [cells]
      rfl
    · unfold CellHeap.put
      simp
  · exact holds.handles
  · intro address member
    have within := holds.loaded address member
    simp only [CellHeap.put, List.length_append, List.length_singleton]
    omega
  · intro update member
    obtain ⟨cell, within⟩ := holds.pending update member
    simp only [CellHeap.put, List.length_append, List.length_singleton]
    omega

/-- An attempt puts an update in place or finds that the value is another, and starts over. -/
theorem Holds.attempt_cases (holds : Holds value h) (index : Nat) :
    h.pending[index]? = none ∧ h.attempt index = (h, .refused) ∨
    ∃ update address, h.pending[index]? = some update ∧ h.cells = [address] ∧
      h.values[address]? = some value ∧
      (address = update.seen ∧ h.attempt index =
          ({ h.put 0 (update.change value) with pending := h.pending.eraseIdx index },
            .changed update.change) ∨
        address ≠ update.seen ∧ h.attempt index =
          ({ h with pending := h.pending.set index { update with seen := address } },
            .retries)) := by
  unfold attempt
  cases there : h.pending[index]? with
  | none => exact .inl ⟨rfl, rfl⟩
  | some update =>
    obtain ⟨address, cells, stored⟩ := holds.cell
    obtain ⟨cell, within⟩ := holds.pending update (List.mem_of_getElem? there)
    have now : h.cells[update.cell]? = some address := by
      rw [cells, cell]
      rfl
    refine .inr ⟨update, address, rfl, cells, stored, ?_⟩
    dsimp only
    rw [now]
    by_cases same : address = update.seen
    · left
      rw [← same, stored]
      dsimp only
      rw [if_pos rfl, cell]
      exact ⟨rfl, rfl⟩
    · right
      rw [List.getElem?_eq_getElem within]
      dsimp only
      rw [if_neg same]
      exact ⟨same, rfl⟩

/-- All that a step can do. -/
inductive Does (value : α) (h : CellHeap α) : CellHeap α × HeapAnswer α → Prop
  | published (next : α) : Does value h (h.put 0 next, .published next)
  | begun (change : α → α) (address : Nat) (stored : h.values[address]? = some value) :
      Does value h ({ h with pending := h.pending ++ [⟨0, change, address⟩] }, .begun change)
  | changed (index : Nat) (update : PendingUpdate α) (there : h.pending[index]? = some update) :
      Does value h ({ h.put 0 (update.change value) with pending := h.pending.eraseIdx index },
        .changed update.change)
  | retries (index : Nat) (update : PendingUpdate α) (address : Nat)
      (there : h.pending[index]? = some update) (stored : h.values[address]? = some value) :
      Does value h ({ h with pending := h.pending.set index { update with seen := address } },
        .retries)
  | cloned : Does value h ({ h with handles := h.handles ++ [0] }, .cloned)
  | loaded (address : Nat) (stored : h.values[address]? = some value) :
      Does value h ({ h with loaded := h.loaded ++ [address] }, .loaded)
  | refused : Does value h (h, .refused)

theorem Holds.does (holds : Holds value h) (action : HeapStep α) :
    Does value h (h.step action) := by
  cases action with
  | publish handle next =>
    rcases holds.handle_cases handle with ⟨_, named, _⟩ | ⟨_, none, _⟩
    · simp only [CellHeap.step, named]
      exact .published next
    · simp only [CellHeap.step, none]
      exact .refused
  | update handle change =>
    rcases holds.handle_cases handle with ⟨_, named, address, found, _, stored⟩ | ⟨_, none, _⟩
    · simp only [CellHeap.step, named, found]
      exact .begun change address stored
    · simp only [CellHeap.step, none]
      exact .refused
  | attempt index =>
    show Does value h (h.attempt index)
    rcases holds.attempt_cases index with ⟨_, none⟩ |
      ⟨update, address, there, _, stored, ⟨_, placed⟩ | ⟨_, again⟩⟩
    · rw [none]
      exact .refused
    · rw [placed]
      exact .changed index update there
    · rw [again]
      exact .retries index update address there stored
  | clone handle =>
    rcases holds.handle_cases handle with ⟨_, named, _⟩ | ⟨_, none, _⟩
    · simp only [CellHeap.step, named]
      exact .cloned
    · simp only [CellHeap.step, none]
      exact .refused
  | load handle =>
    rcases holds.handle_cases handle with ⟨_, _, address, found, _, stored⟩ | ⟨_, _, none⟩
    · simp only [CellHeap.step, found]
      exact .loaded address stored
    · simp only [CellHeap.step, none]
      exact .refused

/-- The value after an answer. -/
def after (value : α) (answer : HeapAnswer α) : α :=
  match answer.effect with
  | some change => change value
  | none => value

theorem Does.holds {result : CellHeap α × HeapAnswer α} (does : Does value h result)
    (holds : Holds value h) : Holds (after value result.2) result.1 := by
  cases does with
  | published next => exact holds.put next
  | begun change address stored =>
    obtain ⟨within, _⟩ := List.getElem?_eq_some_iff.mp stored
    constructor
    · exact holds.cell
    · exact holds.handles
    · exact holds.loaded
    · intro update member
      rcases List.mem_append.mp member with earlier | latest
      · exact holds.pending update earlier
      · rw [List.mem_singleton.mp latest]
        exact ⟨rfl, within⟩
  | changed index update there =>
    have put := holds.put (update.change value)
    constructor
    · exact put.cell
    · exact put.handles
    · exact put.loaded
    · intro other member
      exact put.pending other (List.mem_of_mem_eraseIdx member)
  | retries index update address there stored =>
    obtain ⟨within, _⟩ := List.getElem?_eq_some_iff.mp stored
    constructor
    · exact holds.cell
    · exact holds.handles
    · exact holds.loaded
    · intro other member
      rcases List.mem_or_eq_of_mem_set member with earlier | same
      · exact holds.pending other earlier
      · rw [same]
        exact ⟨(holds.pending update (List.mem_of_getElem? there)).1, within⟩
  | cloned =>
    constructor
    · exact holds.cell
    · intro cell member
      rcases List.mem_append.mp member with earlier | latest
      · exact holds.handles cell earlier
      · exact List.mem_singleton.mp latest
    · exact holds.loaded
    · exact holds.pending
  | loaded address stored =>
    obtain ⟨within, _⟩ := List.getElem?_eq_some_iff.mp stored
    constructor
    · exact holds.cell
    · exact holds.handles
    · intro other member
      rcases List.mem_append.mp member with earlier | latest
      · exact holds.loaded other earlier
      · rw [List.mem_singleton.mp latest]
        exact within
    · exact holds.pending
  | refused => exact holds

/-- What a step leaves for later: no value and no loaded address is lost, handles come of clones
    only, and an update leaves those that wait when it is put in place. -/
structure Leaves (h : CellHeap α) (next : CellHeap α) (answers : List (HeapAnswer α)) : Prop where
  values : h.values <+: next.values
  loaded : h.loaded <+: next.loaded
  handles : next.handles.length = h.handles.length + answers.countP HeapAnswer.clones
  updates : (h.pending.map PendingUpdate.change ++ answers.filterMap HeapAnswer.begins).Perm
    (answers.filterMap HeapAnswer.completes ++ next.pending.map PendingUpdate.change)

theorem pending_erase {index : Nat} {update : PendingUpdate α}
    (there : h.pending[index]? = some update) : (h.pending.map PendingUpdate.change).Perm
      (update.change :: (h.pending.eraseIdx index).map PendingUpdate.change) := by
  obtain ⟨within, same⟩ := List.getElem?_eq_some_iff.mp there
  have moved := (List.getElem_cons_eraseIdx_perm within).map PendingUpdate.change
  rw [same] at moved
  exact moved.symm

theorem Does.leaves {result : CellHeap α × HeapAnswer α} (does : Does value h result) :
    Leaves h result.1 [result.2] := by
  cases does with
  | published next =>
    constructor
    · exact List.prefix_append _ _
    · exact List.prefix_rfl
    · rfl
    · simp [List.filterMap_cons, HeapAnswer.begins, HeapAnswer.completes, put]
  | begun change address stored =>
    constructor
    · exact List.prefix_rfl
    · exact List.prefix_rfl
    · rfl
    · simp [List.filterMap_cons, HeapAnswer.begins, HeapAnswer.completes]
  | changed index update there =>
    constructor
    · exact List.prefix_append _ _
    · exact List.prefix_rfl
    · rfl
    · simpa [List.filterMap_cons, HeapAnswer.begins, HeapAnswer.completes] using pending_erase there
  | retries index update address there stored =>
    have same : (h.pending.set index { update with seen := address }).map PendingUpdate.change =
        h.pending.map PendingUpdate.change := map_set_same there rfl
    constructor
    · exact List.prefix_rfl
    · exact List.prefix_rfl
    · rfl
    · simp only [same]
      simp [List.filterMap_cons, HeapAnswer.begins, HeapAnswer.completes]
  | cloned =>
    constructor
    · exact List.prefix_rfl
    · exact List.prefix_rfl
    · simp [HeapAnswer.clones]
    · simp [List.filterMap_cons, HeapAnswer.begins, HeapAnswer.completes]
  | loaded address stored =>
    constructor
    · exact List.prefix_rfl
    · exact List.prefix_append _ _
    · rfl
    · simp [List.filterMap_cons, HeapAnswer.begins, HeapAnswer.completes]
  | refused =>
    constructor
    · exact List.prefix_rfl
    · exact List.prefix_rfl
    · rfl
    · simp [List.filterMap_cons, HeapAnswer.begins, HeapAnswer.completes]

theorem Leaves.trans {next last : CellHeap α} {before after : List (HeapAnswer α)}
    (first : Leaves h next before) (second : Leaves next last after) :
    Leaves h last (before ++ after) := by
  constructor
  · exact first.values.trans second.values
  · exact first.loaded.trans second.loaded
  · rw [List.countP_append, second.handles, first.handles, Nat.add_assoc]
  · have begun := first.updates.append_right (after.filterMap HeapAnswer.begins)
    have ended := second.updates.append_left (before.filterMap HeapAnswer.completes)
    rw [List.append_assoc, List.append_assoc] at begun
    rw [List.filterMap_append, List.filterMap_append,
      List.append_assoc (before.filterMap HeapAnswer.completes)]
    exact begun.trans ended

theorem outcome_cons (initial : α) (answer : HeapAnswer α) (answers : List (HeapAnswer α)) :
    outcome initial (answer :: answers) = outcome (after initial answer) answers := by
  unfold outcome after
  rw [List.filterMap_cons]
  cases answer.effect with
  | none => rfl
  | some change => rfl

theorem Holds.run (holds : Holds value h) (actions : List (HeapStep α)) :
    Holds (outcome value (h.run actions).2) (h.run actions).1 := by
  induction actions generalizing h value with
  | nil => exact holds
  | cons first rest ih =>
    have later := ih ((holds.does first).holds holds)
    rw [← outcome_cons] at later
    exact later

theorem Holds.leaves (holds : Holds value h) (actions : List (HeapStep α)) :
    Leaves h (h.run actions).1 (h.run actions).2 := by
  induction actions generalizing h value with
  | nil =>
    constructor
    · exact List.prefix_rfl
    · exact List.prefix_rfl
    · rfl
    · simp [CellHeap.run]
  | cons first rest ih =>
    have does := holds.does first
    exact does.leaves.trans (ih (does.holds holds))

/-- What was loaded reads as it did, whatever has been published since. -/
theorem Leaves.viewed {next : CellHeap α} {answers : List (HeapAnswer α)}
    (leaves : Leaves h next answers) {index : Nat} {read : α}
    (before : h.viewed index = some read) : next.viewed index = some read := by
  unfold CellHeap.viewed at *
  obtain ⟨address, loaded, stored⟩ := Option.bind_eq_some_iff.mp before
  rw [entry_kept leaves.loaded loaded]
  exact entry_kept leaves.values stored

/-- What is loaded now is the last of what was loaded. -/
theorem viewed_load (h : CellHeap α) (address index : Nat) :
    CellHeap.viewed { h with loaded := h.loaded ++ [address] } index =
      if index = h.loaded.length then h.values[address]? else h.viewed index := by
  unfold viewed
  dsimp only
  rw [entry_concat]
  by_cases last : index = h.loaded.length
  · rw [if_pos last, if_pos last]
    rfl
  · rw [if_neg last, if_neg last]

theorem Holds.viewed_eq_none_iff (holds : Holds value h) (index : Nat) :
    h.viewed index = none ↔ h.loaded.length ≤ index := by
  unfold viewed
  constructor
  · intro none
    by_contra within
    have there : index < h.loaded.length := by omega
    have stored := holds.loaded _ (List.getElem_mem there)
    rw [List.getElem?_eq_getElem there, Option.bind_some, List.getElem?_eq_getElem stored] at none
    cases none
  · intro beyond
    rw [List.getElem?_eq_none beyond]
    rfl

/-- An attempt that comes too late has the value of now, and succeeds when it is made again. -/
theorem Holds.attempt_again (holds : Holds value h) {index : Nat} {update : PendingUpdate α}
    (there : h.pending[index]? = some update) :
    (h.attempt index).2 = .changed update.change ∨ (h.attempt index).2 = .retries ∧
      ((h.attempt index).1.attempt index).2 = .changed update.change := by
  rcases holds.attempt_cases index with ⟨none, _⟩ |
    ⟨same, address, found, cells, stored, ⟨_, placed⟩ | ⟨_, again⟩⟩
  · rw [there] at none
    cases none
  · obtain rfl := Option.some.inj (there.symm.trans found)
    rw [placed]
    exact .inl rfl
  · obtain rfl := Option.some.inj (there.symm.trans found)
    obtain ⟨within, _⟩ := List.getElem?_eq_some_iff.mp there
    obtain ⟨cell, _⟩ := holds.pending update (List.mem_of_getElem? there)
    rw [again]
    refine .inr ⟨rfl, ?_⟩
    simp [attempt, List.getElem?_set_self within, cell, cells, stored]

end CellHeap
end SnapshotEndpoint
