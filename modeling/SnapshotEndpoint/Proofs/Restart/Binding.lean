import SnapshotEndpoint.Proofs.Config.Loaded
import SnapshotEndpoint.Proofs.Restart.Panic

/-!
The first free port. A listener has as many permits as the configuration asks for, up to a
limit that no check of the configuration knows. Above it the loop dies where it should begin
to serve, after it has announced the port.
-/
namespace SnapshotEndpoint

theorem Listener.bind_eq_some_iff {address : String} {permits : Nat} {l : Listener} :
    Listener.bind? address permits = some l ↔
      permits ≤ permitLimit ∧ l = ⟨address, permits, [], [], 0⟩ := by
  unfold Listener.bind?
  split
  · rename_i room
    simp [room, eq_comm]
  · rename_i many
    simp [many]

namespace Restart

/-- The attempt that finds the port free is announced, and the loop dies of it exactly if it asks
    for too many permits. -/
theorem dies_of_free_iff {r : Restart} {events : List TimedRestartEvent}
    (waits : r.backoff.Waits) (draws : r.Draws) (chronological : Chronological events) {fuel : Nat}
    {run : RetryRun Empty ListenFailure}
    (runs : (r.loop events).run fuel r.backoff [] (signals events) = run) {start : Nat}
    (started : start ∈ run.starts) (free : isHeld events start = false) :
    (start, .reported (.listenerBound r.address r.maxConnections)) ∈ run.trace ∧
      (run.outcome = .panicked ↔ permitLimit < r.maxConnections) := by
  obtain ⟨marks, last, tail, same, ends, rfl, announced⟩ :=
    ends_of_free (delay_at_pos waits draws) chronological (runs ▸ started) free
  rw [← runs, same]
  refine ⟨List.mem_append_right _ announced, ?_⟩
  rw [RetryRun.after_outcome, ends.panicked_iff]
  simp [free]

/-- What a loaded configuration makes of a free port: a listener with all its permits free and
    a loop that goes on, exactly if the permits are within the limit. -/
theorem bound_iff_of_loaded {config : Config} (loaded : config.Loaded) :
    0 < config.server.maxConnections ∧
      (∀ address, (∃ l, Listener.bind? address config.server.maxConnections = some l ∧
          l.address = address ∧ l.free = config.server.maxConnections) ↔
        config.server.maxConnections ≤ permitLimit) ∧
      (∀ env, Config.loadDefault env = .ok config → config.server.maxConnections ≤ permitLimit) ∧
      ∀ r : Restart, Configured config r → r.Draws → ∀ events, Chronological events →
        ∀ fuel run, (r.loop events).run fuel r.backoff [] (signals events) = run →
          ∀ start ∈ run.starts, isHeld events start = false →
            (start, .reported (.listenerBound r.address config.server.maxConnections)) ∈
                run.trace ∧
              (run.outcome = .panicked ↔ permitLimit < config.server.maxConnections) := by
  have accepted := loaded.accepted
  refine ⟨Nat.pos_of_ne_zero accepted.connections, ?_, ?_, ?_⟩
  · intro address
    constructor
    · rintro ⟨l, bound, _⟩
      exact (Listener.bind_eq_some_iff.mp bound).1
    · intro room
      exact ⟨_, Listener.bind_eq_some_iff.mpr ⟨room, rfl⟩, rfl, rfl⟩
  · intro env default
    rw [Config.max_connections_of_load_default default]
    decide
  · intro r configured draws events chronological fuel run runs start started free
    have waits : r.backoff.Waits := configured.backoff ▸ waits_of_accepted accepted
    rw [← configured.permits]
    exact dies_of_free_iff waits draws chronological runs started free

/-- A file that asks for one permit more than a listener can have. -/
def crowdedText : String := "[server]\nmax_connections = 2305843009213693952\n"

def crowded : Config :=
  { Config.default with
    server := { ServerSection.default with maxConnections := permitLimit + 1 } }

/-- A loop under it, on a port that is free from the start. -/
def crowdedLoop : Restart where
  address := "0.0.0.0:61678"
  maxConnections := permitLimit + 1
  backoff := Backoff.ofConfig crowded.backoff
  factor _ := Binary64.one

theorem bound_iff_of_loaded_crowded :
    Config.load (.bytes crowdedText.toUTF8) (fun _ => none) = .ok crowded ∧
      Listener.bind? crowdedLoop.address crowded.server.maxConnections = none ∧
      ((crowdedLoop.loop [(0, .release)]).run 1 crowdedLoop.backoff []
        (signals [(0, .release)])).outcome = .panicked := by
  have loaded : Config.load (.bytes crowdedText.toUTF8) (fun _ => none) = .ok crowded :=
    Config.eq_ok_of_to_option (by decide +kernel)
  obtain ⟨_, bound_iff, _, dies⟩ := bound_iff_of_loaded (.file loaded)
  have draws : crowdedLoop.Draws := fun k => Or.inr (Backoff.default_allows_one k)
  have chronological : Chronological [(0, .release)] := List.pairwise_singleton _ _
  obtain ⟨_, panicked_iff⟩ :=
    dies crowdedLoop ⟨rfl, rfl⟩ draws _ chronological 1 _ rfl 0 (by decide +kernel) rfl
  refine ⟨loaded, ?_, panicked_iff.mpr (by decide)⟩
  rw [Option.eq_none_iff_forall_ne_some]
  rintro l bound
  obtain ⟨_, rfl⟩ := Listener.bind_eq_some_iff.mp bound
  have room := (bound_iff crowdedLoop.address).mp ⟨_, bound, rfl, rfl⟩
  exact absurd room (by decide)

end Restart
end SnapshotEndpoint
