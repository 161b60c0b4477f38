import SnapshotEndpoint.Service.Listener

/-!
Calls that accept connections, several at a time. A call takes a permit first, or stands in line
for one; with its permit it waits for a client. It ends with a client, with a failure of the
listener, or because it is given up, and only the first keeps the permit. A permit that comes
back goes to the first call in line.
-/
namespace SnapshotEndpoint

inductive TroubleKind where
  | connectionRefused
  | connectionAborted
  | connectionReset
  | other
  deriving DecidableEq, Repr

/-- What the system may report to a call that asks for a client. -/
structure Trouble where
  kind : TroubleKind
  reason : String
  deriving DecidableEq, Repr

/-- Whether a single peer is to blame, and not the listener. -/
def Trouble.concernsPeer (trouble : Trouble) : Bool :=
  match trouble.kind with
  | .connectionRefused => true
  | .connectionAborted => true
  | .connectionReset => true
  | .other => false

/-- A listener and the calls to it that have not ended, by their numbers. -/
structure Reception where
  listener : Listener
  /-- The calls without a permit, the first in line first. -/
  queued : List Nat
  /-- The calls that have a permit and no client. -/
  holding : List Nat
  calls : Nat
  deriving DecidableEq, Repr

inductive CallAnswer where
  | accepted (client : Nat)
  | failed (failure : ListenFailure)
  | waits
  | ended
  deriving DecidableEq, Repr

namespace Reception

def opened (l : Listener) : Reception := ⟨l, [], [], 0⟩

def returnPermit (r : Reception) : Reception :=
  match r.queued with
  | [] => { r with listener := r.listener.givePermit }
  | call :: rest => { r with queued := rest, holding := r.holding ++ [call] }

/-- A call with a permit ends without a client. -/
def dismiss (r : Reception) (call : Nat) : Reception :=
  { r with holding := r.holding.erase call }.returnPermit

/-- A call with a permit asks for the client that has waited longest. The system may report
    trouble first; when a peer is to blame, the call asks again. -/
def ask (r : Reception) (call : Nat) : List Trouble → Reception × CallAnswer
  | [] =>
      match r.listener.takeClient with
      | some (client, next) =>
          ({ r with listener := next, holding := r.holding.erase call }, .accepted client)
      | none => (r, .waits)
  | trouble :: rest =>
      if trouble.concernsPeer then r.ask call rest
      else (r.dismiss call, .failed (.acceptFailed trouble.reason))

def start (r : Reception) (troubles : List Trouble) : Reception × CallAnswer :=
  match r.listener.takePermit with
  | some next =>
      { r with listener := next, holding := r.holding ++ [r.calls], calls := r.calls + 1 }.ask
        r.calls troubles
  | none => ({ r with queued := r.queued ++ [r.calls], calls := r.calls + 1 }, .waits)

/-- A call goes on where it was. -/
def resume (r : Reception) (call : Nat) (troubles : List Trouble) : Reception × CallAnswer :=
  if call ∈ r.holding then r.ask call troubles
  else (r, if call ∈ r.queued then .waits else .ended)

def giveUp (r : Reception) (call : Nat) : Reception :=
  if call ∈ r.holding then r.dismiss call else { r with queued := r.queued.erase call }

/-- The accepted connection with an index ends. -/
def release (r : Reception) (i : Nat) : Reception :=
  match r.listener.accepted[i]? with
  | some (client, true) =>
      { r with listener :=
          { r.listener with accepted := r.listener.accepted.set i (client, false) } }.returnPermit
  | _ => r

inductive Step where
  | connect
  | start (troubles : List Trouble)
  | resume (call : Nat) (troubles : List Trouble)
  | giveUp (call : Nat)
  | release (i : Nat)
  | bind
  deriving DecidableEq, Repr

inductive Answer where
  | call (answer : CallAnswer)
  | refused (failure : ListenFailure)
  | done
  deriving DecidableEq, Repr

def step (r : Reception) : Step → Reception × Answer
  | .connect => ({ r with listener := r.listener.connect }, .done)
  | .start troubles => let (next, answer) := r.start troubles; (next, .call answer)
  | .resume call troubles => let (next, answer) := r.resume call troubles; (next, .call answer)
  | .giveUp call => (r.giveUp call, .done)
  | .release i => (r.release i, .done)
  | .bind => (r, .refused (.addressInUse r.listener.address))

def run (r : Reception) : List Step → Reception × List Answer
  | [] => (r, [])
  | first :: rest =>
      let (next, answer) := r.step first
      let (last, answers) := next.run rest
      (last, answer :: answers)

end Reception
end SnapshotEndpoint
