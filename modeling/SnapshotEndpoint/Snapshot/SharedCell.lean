/-!
A value that its owner publishes and others read through handles. All handles share the
value; a value once loaded stays as it was.
-/
namespace SnapshotEndpoint

structure SharedCell (α : Type) where
  current : α
  handles : Nat
  views : List α
  deriving Repr

inductive CellStep (α : Type) where
  | publish (value : α)
  | update (change : α → α)
  | clone
  | load
  | view (index : Nat)

namespace SharedCell

variable {α : Type}

def start (initial : α) : SharedCell α := ⟨initial, 1, []⟩

def step (cell : SharedCell α) : CellStep α → SharedCell α
  | .publish value => { cell with current := value }
  | .update change => { cell with current := change cell.current }
  | .clone => { cell with handles := cell.handles + 1 }
  | .load => { cell with views := cell.views ++ [cell.current] }
  | .view _ => cell

/-- What a step shows: the value and the number of handles after it, a loaded value, or that
    there is no such handle or loaded value. -/
inductive Answer (α : Type) where
  | current (value : α) (handles : Nat)
  | loaded (value : α)
  | noHandle
  | noView

def stepThrough (cell : SharedCell α) (handle : Nat) (s : CellStep α) :
    SharedCell α × Answer α :=
  if handle < cell.handles then
    let next := cell.step s
    match s with
    | .view index =>
        match next.views[index]? with
        | some value => (next, .loaded value)
        | none => (next, .noView)
    | _ => (next, .current next.current next.handles)
  else (cell, .noHandle)

def run (cell : SharedCell α) : List (Nat × CellStep α) → SharedCell α × List (Answer α)
  | [] => (cell, [])
  | (handle, s) :: rest =>
      let (next, answer) := cell.stepThrough handle s
      let (last, answers) := run next rest
      (last, answer :: answers)

end SharedCell
end SnapshotEndpoint
