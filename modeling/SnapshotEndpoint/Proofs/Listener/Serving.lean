import SnapshotEndpoint.Proofs.Listener.GivenUp

/-!
What a bound listener gives out over any course of calls, clients and connections: to whom it
gives a client, which one, and what remains of a call that gets none. A course in which every call
that would wait is given up at once is a special case.
-/
namespace SnapshotEndpoint

namespace Reception

/-- The client that an answer hands out. -/
def Answer.client : Answer → Option Nat
  | .call (.accepted client) => some client
  | _ => none

/-- What is true of a reception after its steps and their answers, and of what is done next. -/
structure Serves (address : String) (permits : Nat) (actions : List Step) (r : Reception)
    (answers : List Answer) : Prop where
  balanced : r.listener.free + r.holding.length + r.listener.openCount = permits
  handed : r.listener.accepted.map (·.1) = answers.filterMap Answer.client
  ordered : answers.filterMap Answer.client ++ r.listener.waiting =
    List.range (actions.count .connect)
  starts : ∀ troubles client, (r.start troubles).2 = .accepted client ↔
    0 < r.listener.free ∧ (∀ trouble ∈ troubles, trouble.concernsPeer = true) ∧
      r.listener.waiting.head? = some client
  resumes : ∀ call troubles client, (r.resume call troubles).2 = .accepted client ↔
    call ∈ r.holding ∧ (∀ trouble ∈ troubles, trouble.concernsPeer = true) ∧
      r.listener.waiting.head? = some client
  fails : ∀ troubles failure, (r.start troubles).2 = .failed failure →
    (r.start troubles).1 = { r with calls := r.calls + 1 }
  fails_later : ∀ call troubles failure, (r.resume call troubles).2 = .failed failure →
    (r.resume call troubles).1 = r.giveUp call
  cancelled : ∀ troubles between, (r.start troubles).2 = .waits →
    (∀ action ∈ between, action.Spares r.calls) →
      ((r.start troubles).1.run between).2 = (r.run between).2 ∧
        ((r.start troubles).1.run between).1.giveUp r.calls =
          { (r.run between).1 with calls := r.calls + 1 }
  released : ∀ i, r.release i = r ∨ (r.release i).listener.waiting = r.listener.waiting ∧
    (r.release i).listener.openCount + 1 = r.listener.openCount
  refused : r.step .bind = (r, .refused (.addressInUse address))

variable {address : String} {permits owed : Nat} {r : Reception}

/-- The clients handed out so far and the number of those that came. -/
def served (r : Reception) : List Nat × Nat := (r.listener.accepted.map (·.1), r.listener.clients)

theorem run_append (r : Reception) (before after : List Step) :
    (r.run (before ++ after)).1 = ((r.run before).1.run after).1 := by
  induction before generalizing r with
  | nil => rfl
  | cons first rest ih => exact ih (r.step first).1

end Reception

namespace Listener

/-- What is true of a listener to which no call is made at the moment, and of the next call that
    is given up when it would wait. -/
structure Serves (permits : Nat) (l : Listener) : Prop where
  balanced : l.free + l.openCount = permits
  ordered : l.accepted.map (·.1) ++ l.waiting = List.range l.clients
  accepts : ∀ client, l.accept.2 = some client ↔ 0 < l.free ∧ l.waiting.head? = some client
  takes : ∀ client, l.accept.2 = some client →
    l.accept.1 = { l with
      free := l.free - 1
      waiting := l.waiting.tail
      accepted := l.accepted ++ [(client, true)] }
  blocked : l.accept.2 = none → l.accept.1 = l

variable {l next : Listener}

end Listener

end SnapshotEndpoint
