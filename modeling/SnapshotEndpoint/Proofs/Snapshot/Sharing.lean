import SnapshotEndpoint.Proofs.Snapshot.CellMemory
import SnapshotEndpoint.Snapshot.Wire

/-!
What the handles of a shared cell show. Publications and updates may come through any handle, and
updates may overlap: all handles show the text of the value that comes of all of them. Where no
two steps overlap, the memory tells what the cell tells.
-/
namespace SnapshotEndpoint

variable {α : Type}

namespace CellHeap

variable {value : α} {h : CellHeap α}

/-- A heap as it is read through its handles and by its loaded values, with nothing under way. -/
structure Mirrors (cell : SharedCell α) (h : CellHeap α) : Prop where
  holds : Holds cell.current h
  handles : h.handles.length = cell.handles
  idle : h.pending = []
  loaded : h.loaded.length = cell.views.length
  views : ∀ index, h.viewed index = cell.views[index]?

variable {cell : SharedCell α}

theorem mirrors_start (initial : α) : Mirrors (SharedCell.start initial) (start initial) := by
  constructor
  · exact holds_start initial
  · rfl
  · rfl
  · rfl
  · intro index
    rfl

/-- The steps of the memory for one step of the cell. -/
def expand (handle : Nat) : CellStep α → List (HeapStep α)
  | .publish value => [.publish handle value]
  | .update change => [.update handle change, .attempt 0]
  | .clone => [.clone handle]
  | .load => [.load handle]
  | .view _ => []

/-- What is read through a handle after a step of the cell. -/
def told (h : CellHeap α) (handle : Nat) : CellStep α → SharedCell.Answer α
  | .view index =>
      if handle < h.handles.length then
        match h.viewed index with
        | some value => .loaded value
        | none => .noView
      else .noHandle
  | _ =>
      match h.seen handle with
      | some value => .current value h.handles.length
      | none => .noHandle

def course (h : CellHeap α) : List (Nat × CellStep α) → List (SharedCell.Answer α)
  | [] => []
  | (handle, s) :: rest =>
      let next := (h.run (expand handle s)).1
      next.told handle s :: next.course rest

theorem Mirrors.views_of_leaves (mirrors : Mirrors cell h) {value : α} {next : CellHeap α}
    {answers : List (HeapAnswer α)} (leaves : Leaves h next answers) (holds : Holds value next)
    (same : next.loaded.length = h.loaded.length) (index : Nat) :
    next.viewed index = cell.views[index]? := by
  rw [← mirrors.views]
  cases before : h.viewed index with
  | some read => exact leaves.viewed before
  | none =>
    rw [holds.viewed_eq_none_iff, same]
    exact (mirrors.holds.viewed_eq_none_iff index).mp before

theorem Mirrors.update (mirrors : Mirrors cell h) {handle : Nat} (there : handle < cell.handles)
    (change : α → α) :
    (h.run (expand handle (.update change))).1 = h.put 0 (change cell.current) := by
  rcases mirrors.holds.handle_cases handle with ⟨_, named, address, found, cells, stored⟩ |
    ⟨beyond, _, _⟩
  · have first : h.step (.update handle change) =
        ({ h with pending := [⟨0, change, address⟩] }, .begun change) := by
      simp only [CellHeap.step, named, found, mirrors.idle, List.nil_append]
    have second : ({ h with pending := [⟨0, change, address⟩] } : CellHeap α).attempt 0 =
        (h.put 0 (change cell.current), .changed change) := by
      simp [attempt, cells, stored, put, mirrors.idle]
    simp only [expand, CellHeap.run, first]
    show (CellHeap.attempt _ 0).1 = _
    rw [second]
  · rw [mirrors.handles] at beyond
    omega

/-- The memory follows the cell, an update by one attempt that nothing comes before. -/
theorem Mirrors.stepped (mirrors : Mirrors cell h) {handle : Nat} (there : handle < cell.handles)
    (s : CellStep α) : Mirrors (cell.step s) (h.run (expand handle s)).1 := by
  have leaves := mirrors.holds.leaves (expand handle s)
  have holds := mirrors.holds.run (expand handle s)
  rcases mirrors.holds.handle_cases handle with ⟨_, named, address, found, cells, stored⟩ |
    ⟨beyond, _, _⟩
  · cases s with
    | publish value =>
      simp only [expand, CellHeap.run, CellHeap.step, named] at leaves holds ⊢
      constructor
      · exact holds
      · exact mirrors.handles
      · exact mirrors.idle
      · exact mirrors.loaded
      · exact mirrors.views_of_leaves leaves holds rfl
    | update change =>
      rw [mirrors.update there] at leaves holds ⊢
      have put := mirrors.holds.put (change cell.current)
      constructor
      · exact put
      · exact mirrors.handles
      · exact mirrors.idle
      · exact mirrors.loaded
      · exact mirrors.views_of_leaves leaves put rfl
    | clone =>
      simp only [expand, CellHeap.run, CellHeap.step, named] at leaves holds ⊢
      constructor
      · exact holds
      · simp [SharedCell.step, mirrors.handles]
      · exact mirrors.idle
      · exact mirrors.loaded
      · exact mirrors.views_of_leaves leaves holds rfl
    | load =>
      simp only [expand, CellHeap.run, CellHeap.step, found] at leaves holds ⊢
      constructor
      · exact holds
      · exact mirrors.handles
      · exact mirrors.idle
      · simp [SharedCell.step, mirrors.loaded]
      · intro index
        simp only [SharedCell.step]
        rw [viewed_load, entry_concat, stored, mirrors.views, mirrors.loaded]
    | view index => exact mirrors
  · rw [mirrors.handles] at beyond
    omega

theorem Mirrors.unmoved (mirrors : Mirrors cell h) {handle : Nat} (absent : cell.handles ≤ handle)
    (s : CellStep α) : (h.run (expand handle s)).1 = h := by
  rcases mirrors.holds.handle_cases handle with ⟨there, _, _⟩ | ⟨_, unnamed, unfound⟩
  · rw [mirrors.handles] at there
    omega
  · cases s with
    | publish value => simp [expand, CellHeap.run, CellHeap.step, unnamed]
    | update change => simp [expand, CellHeap.run, CellHeap.step, unnamed, attempt, mirrors.idle]
    | clone => simp [expand, CellHeap.run, CellHeap.step, unnamed]
    | load => simp [expand, CellHeap.run, CellHeap.step, unfound]
    | view index => rfl

theorem Mirrors.told_eq (mirrors : Mirrors cell h) {handle : Nat} (there : handle < cell.handles)
    (s : CellStep α) : h.told handle s =
      match s with
      | .view index =>
          match cell.views[index]? with
          | some value => .loaded value
          | none => .noView
      | _ => .current cell.current cell.handles := by
  have named : handle < h.handles.length := mirrors.handles ▸ there
  have seen := mirrors.holds.seen_eq handle
  rw [if_pos named] at seen
  cases s with
  | view index => simp only [told, named, mirrors.views, if_true]
  | publish value => simp only [told, seen, mirrors.handles]
  | update change => simp only [told, seen, mirrors.handles]
  | clone => simp only [told, seen, mirrors.handles]
  | load => simp only [told, seen, mirrors.handles]

theorem handles_le_step (cell : SharedCell α) (s : CellStep α) :
    cell.handles ≤ (cell.step s).handles := by
  cases s with
  | clone => exact Nat.le_succ _
  | publish value => exact Nat.le_refl _
  | update change => exact Nat.le_refl _
  | load => exact Nat.le_refl _
  | view index => exact Nat.le_refl _

theorem Mirrors.through (mirrors : Mirrors cell h) (handle : Nat) (s : CellStep α) :
    Mirrors (cell.stepThrough handle s).1 (h.run (expand handle s)).1 ∧
      (h.run (expand handle s)).1.told handle s = (cell.stepThrough handle s).2 := by
  unfold SharedCell.stepThrough
  by_cases there : handle < cell.handles
  · have next := mirrors.stepped there s
    have told := next.told_eq (Nat.lt_of_lt_of_le there (handles_le_step cell s)) s
    rw [if_pos there]
    cases s with
    | view index =>
      dsimp only at told ⊢
      split
      · rename_i value found
        rw [found] at told
        exact ⟨next, told⟩
      · rename_i none
        rw [none] at told
        exact ⟨next, told⟩
    | publish value => exact ⟨next, told⟩
    | update change => exact ⟨next, told⟩
    | clone => exact ⟨next, told⟩
    | load => exact ⟨next, told⟩
  · rw [if_neg there, mirrors.unmoved (Nat.not_lt.mp there)]
    refine ⟨mirrors, ?_⟩
    have unnamed : ¬ handle < h.handles.length := mirrors.handles ▸ there
    have unseen := mirrors.holds.seen_eq handle
    rw [if_neg unnamed] at unseen
    cases s with
    | view index => simp only [told, unnamed, if_false]
    | publish value => simp only [told, unseen]
    | update change => simp only [told, unseen]
    | clone => simp only [told, unseen]
    | load => simp only [told, unseen]

theorem Mirrors.course_eq (mirrors : Mirrors cell h) (sequence : List (Nat × CellStep α)) :
    h.course sequence = (cell.run sequence).2 := by
  induction sequence generalizing cell h with
  | nil => rfl
  | cons first rest ih =>
    obtain ⟨handle, s⟩ := first
    obtain ⟨next, told⟩ := mirrors.through handle s
    exact congrArg₂ List.cons told (ih next)

variable [Wire α]

/-- The text that is shown through a handle. -/
def text (h : CellHeap α) (handle : Nat) : Option String := (h.seen handle).map Wire.encode

def viewedText (h : CellHeap α) (index : Nat) : Option String := (h.viewed index).map Wire.encode

/-- What is true of the memory of a cell after the answers to the steps so far, and of the next
    steps. -/
structure Shares (initial : α) (h : CellHeap α) (answers : List (HeapAnswer α)) : Prop where
  shown : ∀ handle, h.text handle =
    if handle < h.handles.length then some (Wire.encode (outcome initial answers)) else none
  handles : h.handles.length = 1 + answers.countP HeapAnswer.clones
  unlost : (answers.filterMap HeapAnswer.begins).Perm
    (answers.filterMap HeapAnswer.completes ++ h.pending.map PendingUpdate.change)
  answered : ∀ handle, handle < h.handles.length →
    (∀ value, (h.step (.publish handle value)).2 = .published value) ∧
      (∀ change, (h.step (.update handle change)).2 = .begun change) ∧
      (h.step (.clone handle)).2 = .cloned
  attempted : ∀ index update, h.pending[index]? = some update →
    (h.attempt index).2 = .changed update.change ∨ (h.attempt index).2 = .retries ∧
      ((h.attempt index).1.attempt index).2 = .changed update.change
  loads : ∀ handle, handle < h.handles.length →
    (h.step (.load handle)).1.viewedText h.loaded.length = h.text handle
  kept : ∀ index text, h.viewedText index = some text →
    ∀ later, (h.run later).1.viewedText index = some text

theorem shares_run (initial : α) (actions : List (HeapStep α)) :
    Shares initial ((start initial).run actions).1 ((start initial).run actions).2 := by
  have holds := (holds_start initial).run actions
  have leaves := (holds_start initial).leaves actions
  generalize (start initial).run actions = course at *
  obtain ⟨h, answers⟩ := course
  dsimp only at *
  constructor
  · intro handle
    unfold text
    rw [holds.seen_eq]
    split
    · rfl
    · rfl
  · exact leaves.handles
  · exact leaves.updates
  · intro handle there
    rcases holds.handle_cases handle with ⟨_, named, address, found, _⟩ | ⟨beyond, _⟩
    · simp [CellHeap.step, named, found]
    · omega
  · intro index update there
    exact holds.attempt_again there
  · intro handle there
    have seen := holds.seen_eq handle
    rcases holds.handle_cases handle with ⟨_, _, address, found, _, stored⟩ | ⟨beyond, _⟩
    · unfold viewedText text
      rw [seen, if_pos there]
      simp only [CellHeap.step, found]
      rw [viewed_load, if_pos rfl, stored]
    · omega
  · intro index text shown later
    unfold viewedText at *
    obtain ⟨read, before, same⟩ := Option.map_eq_some_iff.mp shown
    rw [(holds.leaves later).viewed before, Option.map_some, same]

end CellHeap

def CellStep.change : CellStep α → Option (α → α)
  | .publish value => some fun _ => value
  | .update change => some change
  | _ => none

def CellStep.clones : CellStep α → Bool
  | .clone => true
  | _ => false

namespace SharedCell

/-- The steps that come through a handle that is there. -/
def accepted (handles : Nat) : List (Nat × CellStep α) → List (CellStep α)
  | [] => []
  | (handle, s) :: rest =>
      if handle < handles then s :: accepted (handles + [s].countP CellStep.clones) rest
      else accepted handles rest

theorem step_eq (cell : SharedCell α) (s : CellStep α) :
    (cell.step s).current = changedBy cell.current ([s].filterMap CellStep.change) ∧
      (cell.step s).handles = cell.handles + [s].countP CellStep.clones := by
  cases s with
  | publish value => exact ⟨rfl, rfl⟩
  | update change => exact ⟨rfl, rfl⟩
  | clone => exact ⟨rfl, rfl⟩
  | load => exact ⟨rfl, rfl⟩
  | view index => exact ⟨rfl, rfl⟩

theorem step_through_eq (cell : SharedCell α) (handle : Nat) (s : CellStep α) :
    (cell.stepThrough handle s).1 = if handle < cell.handles then cell.step s else cell := by
  unfold stepThrough
  by_cases there : handle < cell.handles
  · rw [if_pos there, if_pos there]
    cases s with
    | view index =>
      dsimp only
      split
      · rfl
      · rfl
    | publish value => rfl
    | update change => rfl
    | clone => rfl
    | load => rfl
  · rw [if_neg there, if_neg there]

theorem run_eq (cell : SharedCell α) (sequence : List (Nat × CellStep α)) :
    (cell.run sequence).1.current =
        changedBy cell.current ((accepted cell.handles sequence).filterMap CellStep.change) ∧
      (cell.run sequence).1.handles =
        cell.handles + (accepted cell.handles sequence).countP CellStep.clones := by
  induction sequence generalizing cell with
  | nil => exact ⟨rfl, rfl⟩
  | cons first rest ih =>
    obtain ⟨handle, s⟩ := first
    obtain ⟨current, handles⟩ := ih (cell.stepThrough handle s).1
    rw [step_through_eq] at current handles
    have stepped : (cell.run ((handle, s) :: rest)).1 =
        ((cell.stepThrough handle s).1.run rest).1 := rfl
    rw [stepped, step_through_eq]
    unfold accepted
    by_cases there : handle < cell.handles
    · obtain ⟨changed, more⟩ := cell.step_eq s
      rw [if_pos there] at current handles ⊢
      rw [if_pos there, ← List.singleton_append, List.filterMap_append, List.countP_append]
      rw [changed, more] at current
      rw [more] at handles
      refine ⟨?_, handles.trans (Nat.add_assoc _ _ _)⟩
      unfold changedBy at current ⊢
      rw [List.foldl_append]
      exact current
    · rw [if_neg there] at current handles ⊢
      rw [if_neg there]
      exact ⟨current, handles⟩

/-- Whatever is done through whichever handles of a cell, and however updates overlap, all handles
    show the text of the value that all changes make of the first one, in the order in which they
    were put in place; what was loaded keeps its text. Of steps that do not overlap that is what
    the cell itself says of each. -/
theorem handles_share [Wire α] (initial : α) :
    (∀ actions, CellHeap.Shares initial ((CellHeap.start initial).run actions).1
      ((CellHeap.start initial).run actions).2) ∧
    ∀ sequence, (CellHeap.start initial).course sequence = ((start initial).run sequence).2 ∧
      ((start initial).run sequence).1.current =
        changedBy initial ((accepted 1 sequence).filterMap CellStep.change) ∧
      ((start initial).run sequence).1.handles =
        1 + (accepted 1 sequence).countP CellStep.clones := by
  refine ⟨CellHeap.shares_run initial, ?_⟩
  intro sequence
  obtain ⟨current, handles⟩ := (start initial).run_eq sequence
  exact ⟨(CellHeap.mirrors_start initial).course_eq sequence, current, handles⟩

end SharedCell
end SnapshotEndpoint
