import SnapshotEndpoint.Proofs.Listener.Permits

/-!
A call that never gets a client. It may stand in line or hold a permit when it is given up. All
that others did in the meantime went as it would have gone without the call, and so what the call
leaves behind is what had been there without it, but for its number.
-/
namespace SnapshotEndpoint.Reception

variable {address : String} {permits owed : Nat} {r other : Reception}

/-- The steps that are not another call and not one of the call's own. -/
def Step.Spares (call : Nat) : Step → Prop
  | .connect | .release _ | .bind => True
  | .start _ => False
  | .resume c _ => c ≠ call
  | .giveUp c => c ≠ call

/-- The second reception is the first with one more call, in line or with a permit. -/
inductive Joined (r : Reception) : Reception → Prop
  | queued (full : r.listener.free = 0) :
      Joined r { r with queued := r.queued ++ [r.calls], calls := r.calls + 1 }
  | holding (held : List Nat) (free : 0 < r.listener.free) (member : r.calls ∈ held)
      (others : held.erase r.calls = r.holding) :
      Joined r { r with
        listener := { r.listener with free := r.listener.free - 1 }
        holding := held
        calls := r.calls + 1 }

theorem Sound.fresh (sound : Sound address permits owed r) :
    r.calls ∉ r.queued ∧ r.calls ∉ r.holding := by
  constructor
  · intro line
    exact Nat.lt_irrefl _ (sound.known _ (List.mem_append_left _ line))
  · intro held
    exact Nat.lt_irrefl _ (sound.known _ (List.mem_append_right _ held))

theorem erase_append_singleton {call : Nat} {held : List Nat} (fresh : call ∉ held) :
    (held ++ [call]).erase call = held := by
  rw [List.erase_append_right _ fresh]
  simp

theorem Joined.given_up (sound : Sound address permits owed r) (joined : Joined r other) :
    other.giveUp r.calls = { r with calls := r.calls + 1 } := by
  unfold giveUp
  cases joined with
  | queued full =>
    rw [if_neg sound.fresh.2]
    simp only [erase_append_singleton sound.fresh.1]
  | holding held free member others =>
    have free_again : r.listener.free - 1 + 1 = r.listener.free := by omega
    rw [if_pos member]
    simp only [dismiss, returnPermit, sound.patient free, others, Listener.givePermit, free_again]

/-- The permit that comes back goes to the added call only where nobody else would have got it. -/
theorem Joined.returned (sound : Sound address permits (owed + 1) r) (joined : Joined r other) :
    Joined r.returnPermit other.returnPermit := by
  cases joined with
  | queued full =>
    rcases r.return_permit_cases with ⟨none, returned⟩ | ⟨call, rest, line, returned⟩
    · have others := erase_append_singleton sound.fresh.2
      have next := Joined.holding (r := { r with listener := r.listener.givePermit })
        (r.holding ++ [r.calls]) (Nat.succ_pos _) (by simp) others
      rw [returned]
      simp only [returnPermit, none, List.nil_append, Listener.givePermit, Nat.add_sub_cancel]
        at next ⊢
      exact next
    · have next := Joined.queued
        (r := { r with queued := rest, holding := r.holding ++ [call] }) full
      rw [returned]
      simp only [returnPermit, line, List.cons_append] at next ⊢
      exact next
  | holding held free member others =>
    have empty := sound.patient free
    have next := Joined.holding (r := { r with listener := r.listener.givePermit }) held
      (Nat.succ_pos _) member others
    have free_again : r.listener.free - 1 + 1 = r.listener.free + 1 - 1 := by omega
    simp only [returnPermit, empty, Listener.givePermit, free_again] at next ⊢
    exact next

theorem Joined.owing (joined : Joined r other) {call : Nat} (spared : call ≠ r.calls) :
    Joined { r with holding := r.holding.erase call }
      { other with holding := other.holding.erase call } := by
  cases joined with
  | queued full => exact .queued full
  | holding held free member others =>
    apply Joined.holding (r := { r with holding := r.holding.erase call }) _ free
    · exact (List.mem_erase_of_ne spared.symm).mpr member
    · rw [List.erase_comm, others]

theorem Joined.dismissed (sound : Sound address permits owed r) (joined : Joined r other)
    {call : Nat} (spared : call ≠ r.calls) (held : call ∈ r.holding) :
    Joined (r.dismiss call) (other.dismiss call) :=
  (joined.owing spared).returned (sound.owing held)

theorem Joined.clients_eq (joined : Joined r other) :
    other.listener.address = r.listener.address ∧ other.listener.waiting = r.listener.waiting ∧
      other.listener.accepted = r.listener.accepted := by
  cases joined with
  | queued => exact ⟨rfl, rfl, rfl⟩
  | holding => exact ⟨rfl, rfl, rfl⟩

/-- What happens to the clients of both and has nothing to do with permits. -/
theorem Joined.altered (joined : Joined r other) {f : Listener → Listener}
    (keeps : ∀ l, (f l).free = l.free)
    (apart : ∀ l n, f { l with free := n } = { f l with free := n }) :
    Joined { r with listener := f r.listener } { other with listener := f other.listener } := by
  have free_eq := keeps r.listener
  cases joined with
  | queued full => exact Joined.queued (r := { r with listener := f r.listener }) (free_eq ▸ full)
  | holding held free member others =>
    have next := Joined.holding (r := { r with listener := f r.listener }) held (free_eq ▸ free)
      member others
    have taken := apart r.listener (r.listener.free - 1)
    simp only [free_eq] at next
    dsimp only at taken ⊢
    rw [taken]
    exact next

theorem Joined.asked (sound : Sound address permits owed r) (joined : Joined r other) {call : Nat}
    (spared : call ≠ r.calls) (held : call ∈ r.holding) (troubles : List Trouble) :
    (other.ask call troubles).2 = (r.ask call troubles).2 ∧
      Joined (r.ask call troubles).1 (other.ask call troubles).1 := by
  induction troubles with
  | nil =>
    unfold ask Listener.takeClient
    rw [joined.clients_eq.2.1]
    cases r.listener.waiting with
    | nil => exact ⟨rfl, joined⟩
    | cons client rest =>
      exact ⟨rfl, (joined.owing spared).altered (f := fun l =>
        { l with waiting := rest, accepted := l.accepted ++ [(client, true)] })
        (fun _ => rfl) fun _ _ => rfl⟩
  | cons trouble troubles ih =>
    unfold ask
    split
    · exact ih
    · exact ⟨rfl, joined.dismissed sound spared held⟩

theorem Joined.mem_iff (joined : Joined r other) {call : Nat} (spared : call ≠ r.calls) :
    (call ∈ other.holding ↔ call ∈ r.holding) ∧ (call ∈ other.queued ↔ call ∈ r.queued) := by
  cases joined with
  | queued full => simp [spared]
  | holding held free member others =>
    refine ⟨?_, Iff.rfl⟩
    rw [← others]
    exact (List.mem_erase_of_ne spared).symm

theorem Joined.resumed (sound : Sound address permits owed r) (joined : Joined r other)
    {call : Nat} (spared : call ≠ r.calls) (troubles : List Trouble) :
    (other.resume call troubles).2 = (r.resume call troubles).2 ∧
      Joined (r.resume call troubles).1 (other.resume call troubles).1 := by
  have there := joined.mem_iff spared
  unfold resume
  by_cases held : call ∈ r.holding
  · rw [if_pos held, if_pos (there.1.mpr held)]
    exact joined.asked sound spared held troubles
  · rw [if_neg held, if_neg (mt there.1.mp held)]
    refine ⟨?_, joined⟩
    simp only [there.2]

theorem Joined.also_given_up (sound : Sound address permits owed r) (joined : Joined r other)
    {call : Nat} (spared : call ≠ r.calls) : Joined (r.giveUp call) (other.giveUp call) := by
  have there := joined.mem_iff spared
  unfold giveUp
  by_cases held : call ∈ r.holding
  · rw [if_pos held, if_pos (there.1.mpr held)]
    exact joined.dismissed sound spared held
  · rw [if_neg held, if_neg (mt there.1.mp held)]
    cases joined with
    | queued full =>
      have next := Joined.queued (r := { r with queued := r.queued.erase call }) full
      by_cases line : call ∈ r.queued
      · rw [List.erase_append_left _ line]
        exact next
      · rw [List.erase_of_not_mem line] at next ⊢
        rw [List.erase_append_right _ line, List.erase_of_not_mem (by simp [spared])]
        exact next
    | holding held free member others =>
      exact Joined.holding (r := { r with queued := r.queued.erase call }) held free member others

theorem Joined.released (sound : Sound address permits owed r) (joined : Joined r other) (i : Nat) :
    Joined (r.release i) (other.release i) := by
  unfold release
  rw [joined.clients_eq.2.2]
  split
  · rename_i client there
    have closed := joined.altered (f := fun l =>
      { l with accepted := l.accepted.set i (client, false) }) (fun _ => rfl) fun _ _ => rfl
    rw [joined.clients_eq.2.2] at closed
    exact closed.returned (sound.ended there)
  · exact joined

/-- What others do goes as it does without the call, and leaves the call as the only difference. -/
theorem Joined.step (sound : Sound address permits owed r) (joined : Joined r other)
    {action : Step} (spares : action.Spares r.calls) :
    (other.step action).2 = (r.step action).2 ∧ Joined (r.step action).1 (other.step action).1 := by
  cases action with
  | connect => exact ⟨rfl, joined.altered (fun _ => rfl) fun _ _ => rfl⟩
  | start troubles => exact spares.elim
  | resume call troubles =>
    obtain ⟨answer, next⟩ := joined.resumed sound spares troubles
    exact ⟨congrArg Answer.call answer, next⟩
  | giveUp call => exact ⟨rfl, joined.also_given_up sound spares⟩
  | release i => exact ⟨rfl, joined.released sound i⟩
  | bind =>
    refine ⟨?_, joined⟩
    unfold Reception.step
    rw [joined.clients_eq.1]

theorem calls_return_permit (r : Reception) : r.returnPermit.calls = r.calls := by
  rcases r.return_permit_cases with ⟨_, returned⟩ | ⟨call, rest, _, returned⟩
  · rw [returned]
  · rw [returned]

theorem calls_ask (r : Reception) (call : Nat) (troubles : List Trouble) :
    (r.ask call troubles).1.calls = r.calls := by
  induction troubles with
  | nil =>
    unfold ask
    split
    · rfl
    · rfl
  | cons trouble troubles ih =>
    unfold ask
    split
    · exact ih
    · exact calls_return_permit _

/-- Only a new call has a new number. -/
theorem calls_step {action : Step} (spares : action.Spares r.calls) :
    (r.step action).1.calls = r.calls := by
  cases action with
  | connect => rfl
  | start troubles => exact spares.elim
  | resume call troubles =>
    show (r.resume call troubles).1.calls = r.calls
    unfold resume
    split
    · exact calls_ask r call troubles
    · rfl
  | giveUp call =>
    show (r.giveUp call).calls = r.calls
    unfold giveUp
    split
    · exact calls_return_permit _
    · rfl
  | release i =>
    show (r.release i).calls = r.calls
    unfold release
    split
    · exact calls_return_permit _
    · rfl
  | bind => rfl

theorem Joined.run (sound : Sound address permits owed r) (joined : Joined r other)
    {actions : List Step} (spares : ∀ action ∈ actions, action.Spares r.calls) :
    (other.run actions).2 = (r.run actions).2 ∧ (r.run actions).1.calls = r.calls ∧
      Joined (r.run actions).1 (other.run actions).1 := by
  induction actions generalizing r other with
  | nil => exact ⟨rfl, rfl, joined⟩
  | cons first rest ih =>
    have spares_first := spares first List.mem_cons_self
    have calls := calls_step spares_first
    obtain ⟨answer, next⟩ := joined.step sound spares_first
    have spares_rest : ∀ action ∈ rest, action.Spares (r.step first).1.calls := by
      intro action member
      rw [calls]
      exact spares action (List.mem_cons_of_mem _ member)
    obtain ⟨answers, calls_rest, last⟩ := ih (sound.stepped first) next spares_rest
    refine ⟨?_, calls_rest.trans calls, last⟩
    exact congrArg₂ List.cons answer answers

end SnapshotEndpoint.Reception
