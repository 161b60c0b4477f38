import SnapshotEndpoint.Service.Event

/-!
A listener that lets a bounded number of connections be open at once. Accepting takes a
permit first and then the client that has waited longest; a call that gets no client gives
its permit back.
-/
namespace SnapshotEndpoint

/-- Why a listener cannot serve. Every such failure is worth another attempt. -/
inductive ListenFailure where
  | addressInUse (address : String)
  | acceptFailed (reason : String)
  deriving DecidableEq, Repr

def ListenFailure.message : ListenFailure → String
  | addressInUse address =>
      "failed to bind " ++ address ++ ": Address already in use (os error 98)"
  | acceptFailed reason => "failed to accept: " ++ reason

def ListenFailure.worthRetry (_ : ListenFailure) : Bool := true

/-- The most permits a listener can have. -/
def permitLimit : Nat := 2305843009213693951

structure Listener where
  address : String
  free : Nat
  waiting : List Nat
  /-- The accepted clients in order, each with whether its connection is still open. -/
  accepted : List (Nat × Bool)
  clients : Nat
  deriving DecidableEq, Repr

namespace Listener

/-- A listener on a free address; above the limit of permits there is none. -/
def bind? (address : String) (maxConnections : Nat) : Option Listener :=
  if maxConnections ≤ permitLimit then some ⟨address, maxConnections, [], [], 0⟩ else none

def bindEvents (address : String) (maxConnections : Nat) : List Event :=
  [.listenerBound address maxConnections]

def connect (l : Listener) : Listener :=
  { l with waiting := l.waiting ++ [l.clients], clients := l.clients + 1 }

def takePermit (l : Listener) : Option Listener :=
  if l.free = 0 then none else some { l with free := l.free - 1 }

def givePermit (l : Listener) : Listener := { l with free := l.free + 1 }

def takeClient (l : Listener) : Option (Nat × Listener) :=
  match l.waiting with
  | [] => none
  | client :: rest =>
      some (client, { l with waiting := rest, accepted := l.accepted ++ [(client, true)] })

/-- A call that is given up when it would wait; the client it got, if any. -/
def accept (l : Listener) : Listener × Option Nat :=
  match l.takePermit with
  | none => (l, none)
  | some held =>
      match held.takeClient with
      | some (client, next) => (next, some client)
      | none => (held.givePermit, none)

/-- The accepted connection with an index ends and gives its permit back. -/
def release (l : Listener) (i : Nat) : Listener :=
  match l.accepted[i]? with
  | some (client, true) => { l with accepted := l.accepted.set i (client, false) }.givePermit
  | _ => l

def openCount (l : Listener) : Nat := l.accepted.countP fun c => c.2

inductive Step where
  | connect (reaches : Bool)
  | accept
  | release (i : Nat)
  | bind
  | close
  deriving DecidableEq, Repr

inductive Answer where
  | connected (succeeded : Bool)
  | accepted (client : Option Nat)
  | rebound (permits : Nat)
  | refused (error : ListenFailure)
  | done
  | noListener
  | tooMany
  deriving DecidableEq, Repr

def step (l : Listener) : Step → Option Listener × Answer
  | .connect reaches => (some (if reaches then l.connect else l), .connected reaches)
  | .accept => let (next, client) := l.accept; (some next, .accepted client)
  | .release i => (some (l.release i), .done)
  | .bind => (some l, .refused (.addressInUse l.address))
  | .close => (none, .done)

def stepClosed (address : String) (maxConnections : Nat) : Step → Answer
  | .connect _ => .connected false
  | .accept => .noListener
  | .release _ => .done
  | .bind =>
      match bind? address maxConnections with
      | some l => .rebound l.free
      | none => .tooMany
  | .close => .done

/-- A run of steps, with the listener after each and its answer. -/
def run (address : String) (maxConnections : Nat) :
    Option Listener → List Step → List (Option Listener × Answer)
  | _, [] => []
  | some l, s :: rest =>
      let (next, answer) := l.step s
      (next, answer) :: run address maxConnections next rest
  | none, s :: rest =>
      (none, stepClosed address maxConnections s) :: run address maxConnections none rest

def answerEvents (address : String) (maxConnections : Nat) : Answer → List Event
  | .rebound _ => bindEvents address maxConnections
  | .tooMany => bindEvents address maxConnections
  | _ => []

end Listener
end SnapshotEndpoint
