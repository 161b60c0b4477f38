import SnapshotEndpoint.Snapshot.SharedCell

/-!
The memory behind a shared cell. A value is allocated once and never written again; a cell holds
the address of its value, a handle names a cell, and what was loaded is an address. An update
derives a new value from the one it has seen and puts it in place only if the cell still holds
the address it has seen. Otherwise it tries again from what the cell holds by then.
-/
namespace SnapshotEndpoint

/-- An update that has not been put in place. -/
structure PendingUpdate (α : Type) where
  cell : Nat
  change : α → α
  /-- The address of the value that the next attempt changes. -/
  seen : Nat

structure CellHeap (α : Type) where
  /-- The values by their addresses. What is no longer in use keeps its address here, as nobody
      who could mistake it for another has that address. -/
  values : List α
  /-- The address of the value of each cell. -/
  cells : List Nat
  /-- The cell of each handle. -/
  handles : List Nat
  /-- The addresses of the values that were loaded. -/
  loaded : List Nat
  pending : List (PendingUpdate α)

inductive HeapStep (α : Type) where
  | publish (handle : Nat) (value : α)
  | update (handle : Nat) (change : α → α)
  | attempt (index : Nat)
  | clone (handle : Nat)
  | load (handle : Nat)

inductive HeapAnswer (α : Type) where
  | published (value : α)
  | begun (change : α → α)
  | changed (change : α → α)
  | retries
  | cloned
  | loaded
  /-- There is no such handle or update. -/
  | refused

namespace CellHeap

variable {α : Type}

/-- The first handle of a cell with a value. -/
def start (initial : α) : CellHeap α := ⟨[initial], [0], [0], [], []⟩

/-- The address of the value that is read through a handle. -/
def address (h : CellHeap α) (handle : Nat) : Option Nat :=
  (h.handles[handle]?).bind fun cell => h.cells[cell]?

def seen (h : CellHeap α) (handle : Nat) : Option α :=
  (h.address handle).bind fun address => h.values[address]?

/-- A value that was loaded, as it reads now. -/
def viewed (h : CellHeap α) (index : Nat) : Option α :=
  (h.loaded[index]?).bind fun address => h.values[address]?

def put (h : CellHeap α) (cell : Nat) (value : α) : CellHeap α :=
  { h with values := h.values ++ [value], cells := h.cells.set cell h.values.length }

def attempt (h : CellHeap α) (index : Nat) : CellHeap α × HeapAnswer α :=
  match h.pending[index]? with
  | some update =>
      match h.cells[update.cell]?, h.values[update.seen]? with
      | some address, some value =>
          if address = update.seen then
            ({ h.put update.cell (update.change value) with pending := h.pending.eraseIdx index },
              .changed update.change)
          else
            ({ h with pending := h.pending.set index { update with seen := address } }, .retries)
      | _, _ => (h, .refused)
  | none => (h, .refused)

def step (h : CellHeap α) : HeapStep α → CellHeap α × HeapAnswer α
  | .publish handle value =>
      match h.handles[handle]? with
      | some cell => (h.put cell value, .published value)
      | none => (h, .refused)
  | .update handle change =>
      match h.handles[handle]?, h.address handle with
      | some cell, some address =>
          ({ h with pending := h.pending ++ [⟨cell, change, address⟩] }, .begun change)
      | _, _ => (h, .refused)
  | .attempt index => h.attempt index
  | .clone handle =>
      match h.handles[handle]? with
      | some cell => ({ h with handles := h.handles ++ [cell] }, .cloned)
      | none => (h, .refused)
  | .load handle =>
      match h.address handle with
      | some address => ({ h with loaded := h.loaded ++ [address] }, .loaded)
      | none => (h, .refused)

def run (h : CellHeap α) : List (HeapStep α) → CellHeap α × List (HeapAnswer α)
  | [] => (h, [])
  | first :: rest =>
      let (next, answer) := h.step first
      let (last, answers) := next.run rest
      (last, answer :: answers)

end CellHeap
end SnapshotEndpoint
