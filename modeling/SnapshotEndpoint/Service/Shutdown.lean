import SnapshotEndpoint.Service.Event

/-!
The signal that stops the service. Triggers are numbered; the channel keeps the last one
only, so a subscriber that missed some reads how many it missed and then the last one.
-/
namespace SnapshotEndpoint

/-- Triggers sent so far, and for each subscriber that is still there the number of the
    trigger it reads next. -/
structure Shutdown where
  sent : Nat
  dropped : Bool
  subscribers : List (Option Nat)
  deriving DecidableEq, Repr

inductive Reading where
  | signal
  | lagged (missed : Nat)
  | empty
  | closed
  | absent
  deriving DecidableEq, Repr

namespace Shutdown

def new : Shutdown := ⟨0, false, []⟩

def listeners (s : Shutdown) : Nat := s.subscribers.countP Option.isSome

def subscribe (s : Shutdown) : Shutdown :=
  { s with subscribers := s.subscribers ++ [some s.sent] }

/-- A trigger reaches every subscriber; without any it is not kept. -/
def trigger (s : Shutdown) : Shutdown :=
  if s.listeners = 0 then s else { s with sent := s.sent + 1 }

def unsubscribe (s : Shutdown) (i : Nat) : Shutdown :=
  { s with subscribers := s.subscribers.set i none }

def drop (s : Shutdown) : Shutdown := { s with dropped := true }

def position (s : Shutdown) (i : Nat) : Option Nat := (s.subscribers[i]?).join

def ready (s : Shutdown) (i : Nat) : Bool :=
  match s.position i with
  | some next => decide (next < s.sent) || s.dropped
  | none => false

def moveTo (s : Shutdown) (i next : Nat) : Shutdown :=
  { s with subscribers := s.subscribers.set i (some next) }

def receive (s : Shutdown) (i : Nat) : Shutdown × Reading :=
  match s.position i with
  | none => (s, .absent)
  | some next =>
      if next = s.sent then (s, if s.dropped then .closed else .empty)
      else if next + 1 = s.sent then (s.moveTo i s.sent, .signal)
      else (s.moveTo i (s.sent - 1), .lagged (s.sent - 1 - next))

inductive Step where
  | subscribe
  | trigger
  | unsubscribe (i : Nat)
  | receive (i : Nat)
  | drop
  deriving DecidableEq, Repr

inductive Answer where
  | subscribed (i : Nat)
  | triggered (listeners : Nat)
  | received (reading : Reading)
  | done
  /-- Nobody can subscribe or trigger once the signal is dropped. -/
  | noShutdown
  deriving DecidableEq, Repr

def step (s : Shutdown) : Step → Shutdown × Answer
  | .subscribe =>
      if s.dropped then (s, .noShutdown) else (s.subscribe, .subscribed s.subscribers.length)
  | .trigger => if s.dropped then (s, .noShutdown) else (s.trigger, .triggered s.listeners)
  | .unsubscribe i => (s.unsubscribe i, .done)
  | .receive i => let (next, reading) := s.receive i; (next, .received reading)
  | .drop => (s.drop, .done)

def Answer.events : Answer → List Event
  | triggered listeners => [.shutdownTriggered listeners]
  | _ => []

/-- A run of steps, with the state after each and its answer. -/
def run (s : Shutdown) : List Step → List (Shutdown × Answer)
  | [] => []
  | first :: rest =>
      let (next, answer) := s.step first
      (next, answer) :: run next rest

end Shutdown
end SnapshotEndpoint
