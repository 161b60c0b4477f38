import SnapshotEndpoint.Proofs.Lists
import SnapshotEndpoint.Proofs.Restart.Binding
import SnapshotEndpoint.Service.Reception

/-!
Permits and clients of a listener. Whatever calls, clients and connections come and go in whatever
order, every permit is free, held by a call or with an open connection, and clients are handed out
in the order of their arrival. A call that ends without a client leaves no trace.
-/
namespace SnapshotEndpoint

namespace Listener

variable (l : Listener)

theorem take_permit_cases : l.free = 0 ∧ l.takePermit = none ∨
    0 < l.free ∧ l.takePermit = some { l with free := l.free - 1 } := by
  unfold takePermit
  by_cases full : l.free = 0
  · exact .inl ⟨full, if_pos full⟩
  · exact .inr ⟨Nat.pos_of_ne_zero full, if_neg full⟩

theorem take_client_cases : l.waiting = [] ∧ l.takeClient = none ∨
    ∃ client rest, l.waiting = client :: rest ∧ l.takeClient = some (client,
      { l with waiting := rest, accepted := l.accepted ++ [(client, true)] }) := by
  unfold takeClient
  cases l.waiting with
  | nil => exact .inl ⟨rfl, rfl⟩
  | cons client rest => exact .inr ⟨client, rest, rfl, rfl⟩

/-- An open connection that ends is one open connection less. -/
theorem open_count_set {i client : Nat} (there : l.accepted[i]? = some (client, true)) :
    openCount { l with accepted := l.accepted.set i (client, false) } + 1 = l.openCount := by
  obtain ⟨within, same⟩ := List.getElem?_eq_some_iff.mp there
  have counted : 0 < l.accepted.countP fun c => c.2 :=
    List.countP_pos_iff.mpr ⟨(client, true), List.mem_of_getElem? there, rfl⟩
  unfold openCount
  rw [List.countP_set within, same]
  simp only [if_true, Bool.false_eq_true, if_false]
  omega

end Listener

namespace Reception

/-- The clients in the order in which the listener had them. -/
def order (r : Reception) : List Nat := r.listener.accepted.map (·.1) ++ r.listener.waiting

theorem return_permit_cases (r : Reception) :
    r.queued = [] ∧ r.returnPermit = { r with listener := r.listener.givePermit } ∨
      ∃ call rest, r.queued = call :: rest ∧
        r.returnPermit = { r with queued := rest, holding := r.holding ++ [call] } := by
  unfold returnPermit
  cases r.queued with
  | nil => exact .inl ⟨rfl, rfl⟩
  | cons call rest => exact .inr ⟨call, rest, rfl, rfl⟩

/-- What is true of a reception at any time: each permit is in one place, but for so many that are
    owed, no client is lost or doubled, and calls stand in line only while no permit is free. -/
structure Sound (address : String) (permits owed : Nat) (r : Reception) : Prop where
  address : r.listener.address = address
  balanced : r.listener.free + r.holding.length + r.listener.openCount + owed = permits
  ordered : r.order = List.range r.listener.clients
  patient : 0 < r.listener.free → r.queued = []
  known : ∀ call ∈ r.queued ++ r.holding, call < r.calls

variable {address : String} {permits owed : Nat} {r : Reception}

theorem Sound.returned (sound : Sound address permits (owed + 1) r) :
    Sound address permits owed r.returnPermit := by
  have balanced := sound.balanced
  rcases r.return_permit_cases with ⟨none, returned⟩ | ⟨call, rest, line, returned⟩
  · rw [returned]
    constructor
    · exact sound.address
    · simp only [Listener.givePermit, Listener.openCount] at balanced ⊢
      omega
    · exact sound.ordered
    · exact fun _ => none
    · exact sound.known
  · rw [returned]
    constructor
    · exact sound.address
    · simp only [List.length_append, List.length_singleton]
      omega
    · exact sound.ordered
    · intro free
      have empty := sound.patient free
      rw [line] at empty
      cases empty
    · intro other member
      apply sound.known
      rw [line]
      simp only [List.mem_append, List.mem_cons, List.not_mem_nil, or_false] at member ⊢
      tauto

theorem known_of_erased {call : Nat} (known : ∀ other ∈ r.queued ++ r.holding, other < r.calls) :
    ∀ other ∈ r.queued ++ r.holding.erase call, other < r.calls := by
  intro other member
  apply known
  rcases List.mem_append.mp member with line | held
  · exact List.mem_append_left _ line
  · exact List.mem_append_right _ (List.mem_of_mem_erase held)

/-- A call without its permit owes it. -/
theorem Sound.owing (sound : Sound address permits owed r) {call : Nat} (held : call ∈ r.holding) :
    Sound address permits (owed + 1) { r with holding := r.holding.erase call } := by
  have balanced := sound.balanced
  have length := List.length_erase_of_mem held
  have positive := List.length_pos_of_mem held
  constructor
  · exact sound.address
  · simp only [length]
    omega
  · exact sound.ordered
  · exact sound.patient
  · exact known_of_erased sound.known

theorem Sound.dismissed (sound : Sound address permits owed r) {call : Nat}
    (held : call ∈ r.holding) : Sound address permits owed (r.dismiss call) :=
  (sound.owing held).returned

theorem Sound.handed (sound : Sound address permits owed r) {call client : Nat}
    {rest : List Nat} (held : call ∈ r.holding) (first : r.listener.waiting = client :: rest) :
    Sound address permits owed
      { r with
        listener := { r.listener with
          waiting := rest, accepted := r.listener.accepted ++ [(client, true)] }
        holding := r.holding.erase call } := by
  have balanced := sound.balanced
  have length := List.length_erase_of_mem held
  have positive := List.length_pos_of_mem held
  have ordered := sound.ordered
  constructor
  · exact sound.address
  · simp only [Listener.openCount, List.countP_append, List.countP_singleton, length]
      at balanced ⊢
    simp only [if_true]
    omega
  · simp only [order, first] at ordered
    simp only [order, List.map_append, List.map_cons, List.map_nil, List.append_assoc,
      List.singleton_append]
    exact ordered
  · exact sound.patient
  · exact known_of_erased sound.known

theorem Sound.asked (sound : Sound address permits owed r) {call : Nat} (held : call ∈ r.holding)
    (troubles : List Trouble) : Sound address permits owed (r.ask call troubles).1 := by
  induction troubles with
  | nil =>
    unfold ask
    rcases r.listener.take_client_cases with ⟨_, none⟩ | ⟨client, rest, first, taken⟩
    · rw [none]
      exact sound
    · rw [taken]
      exact sound.handed held first
  | cons trouble troubles ih =>
    unfold ask
    split
    · exact ih
    · exact sound.dismissed held

theorem Sound.started (sound : Sound address permits owed r) (troubles : List Trouble) :
    Sound address permits owed (r.start troubles).1 := by
  have balanced := sound.balanced
  unfold start
  rcases r.listener.take_permit_cases with ⟨full, none⟩ | ⟨free, taken⟩
  · rw [none]
    constructor
    · exact sound.address
    · exact balanced
    · exact sound.ordered
    · simp only [full]
      omega
    · intro call member
      have earlier := sound.known call
      simp only [List.mem_append, List.mem_singleton] at member earlier
      rcases member with (line | rfl) | held
      · exact Nat.lt_succ_of_lt (earlier (.inl line))
      · exact Nat.lt_succ_self _
      · exact Nat.lt_succ_of_lt (earlier (.inr held))
  · rw [taken]
    apply Sound.asked
    · constructor
      · exact sound.address
      · simp only [Listener.openCount, List.length_append, List.length_singleton] at balanced ⊢
        omega
      · exact sound.ordered
      · exact fun _ => sound.patient free
      · intro call member
        have earlier := sound.known call
        simp only [List.mem_append, List.mem_singleton] at member earlier
        rcases member with line | held | rfl
        · exact Nat.lt_succ_of_lt (earlier (.inl line))
        · exact Nat.lt_succ_of_lt (earlier (.inr held))
        · exact Nat.lt_succ_self _
    · simp

theorem Sound.resumed (sound : Sound address permits owed r) (call : Nat)
    (troubles : List Trouble) : Sound address permits owed (r.resume call troubles).1 := by
  unfold resume
  split
  · rename_i held
    exact sound.asked held troubles
  · exact sound

theorem Sound.given_up (sound : Sound address permits owed r) (call : Nat) :
    Sound address permits owed (r.giveUp call) := by
  unfold giveUp
  split
  · rename_i held
    exact sound.dismissed held
  · constructor
    · exact sound.address
    · exact sound.balanced
    · exact sound.ordered
    · intro free
      rw [sound.patient free]
      rfl
    · intro other member
      apply sound.known
      rcases List.mem_append.mp member with line | held
      · exact List.mem_append_left _ (List.mem_of_mem_erase line)
      · exact List.mem_append_right _ held

/-- A connection that has ended owes its permit. -/
theorem Sound.ended (sound : Sound address permits owed r) {i client : Nat}
    (there : r.listener.accepted[i]? = some (client, true)) :
    Sound address permits (owed + 1) { r with
      listener := { r.listener with accepted := r.listener.accepted.set i (client, false) } } := by
  have balanced := sound.balanced
  have less := r.listener.open_count_set there
  have same : (r.listener.accepted.set i (client, false)).map (·.1) =
      r.listener.accepted.map (·.1) := map_set_same there rfl
  constructor
  · exact sound.address
  · simp only
    omega
  · have ordered := sound.ordered
    simp only [order] at ordered ⊢
    rw [same, ordered]
  · exact sound.patient
  · exact sound.known

theorem Sound.released (sound : Sound address permits owed r) (i : Nat) :
    Sound address permits owed (r.release i) := by
  unfold release
  split
  · rename_i client there
    exact (sound.ended there).returned
  · exact sound

theorem Sound.connected (sound : Sound address permits owed r) :
    Sound address permits owed { r with listener := r.listener.connect } := by
  constructor
  · exact sound.address
  · exact sound.balanced
  · have ordered := sound.ordered
    simp only [order, Listener.connect] at ordered ⊢
    rw [← List.append_assoc, ordered, List.range_succ]
  · exact sound.patient
  · exact sound.known

theorem Sound.stepped (sound : Sound address permits owed r) (action : Step) :
    Sound address permits owed (r.step action).1 := by
  cases action with
  | connect => exact sound.connected
  | start troubles => exact sound.started troubles
  | resume call troubles => exact sound.resumed call troubles
  | giveUp call => exact sound.given_up call
  | release i => exact sound.released i
  | bind => exact sound

theorem Sound.run (sound : Sound address permits owed r) (actions : List Step) :
    Sound address permits owed (r.run actions).1 := by
  induction actions generalizing r with
  | nil => exact sound
  | cons first rest ih => exact ih (sound.stepped first)

end Reception

end SnapshotEndpoint
