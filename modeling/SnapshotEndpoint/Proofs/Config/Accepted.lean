import SnapshotEndpoint.Config.Violation
import SnapshotEndpoint.Service.Endpoint

/-!
What a configuration without violations is like.
-/
namespace SnapshotEndpoint

theorem unless_ok_eq_nil {ok : Bool} {violation : Violation} :
    unlessOk ok violation = [] ↔ ok = true := by
  cases ok <;> simp [unlessOk]

namespace Config

structure Accepted (config : Config) : Prop where
  address : (SocketAddress.parse? config.server.bindAddress).isSome = true
  readTimeout : config.server.readTimeoutSecs ≠ 0
  writeTimeout : config.server.writeTimeoutSecs ≠ 0
  connections : config.server.maxConnections ≠ 0
  initialDelay : config.backoff.initialDelayMs ≠ 0
  delayOrder : config.backoff.initialDelayMs ≤ config.backoff.maxDelayMs
  multiplier : Binary64.le Binary64.one config.backoff.multiplier = true
  jitter : Binary64.le Binary64.zero config.backoff.jitter = true ∧
    Binary64.lt config.backoff.jitter Binary64.one = true

theorem violations_eq_nil_iff {config : Config} :
    config.violations = [] ↔ config.Accepted := by
  simp only [violations, ServerSection.violations, BackoffSection.violations,
    List.append_eq_nil_iff, unless_ok_eq_nil, bne_iff_ne, decide_eq_true_eq, Bool.and_eq_true]
  constructor
  · rintro ⟨⟨⟨⟨address, read⟩, write⟩, connections⟩, ⟨⟨initial, order⟩, multiplier⟩, jitter⟩
    exact ⟨address, read, write, connections, initial, order, multiplier, jitter⟩
  · rintro ⟨address, read, write, connections, initial, order, multiplier, jitter⟩
    exact ⟨⟨⟨⟨address, read⟩, write⟩, connections⟩, ⟨⟨initial, order⟩, multiplier⟩, jitter⟩

theorem Accepted.endpoint {config : Config} (accepted : config.Accepted) :
    ∃ endpoint, Endpoint.ofConfig config = .ok endpoint := by
  obtain ⟨address, parsed⟩ := Option.isSome_iff_exists.mp accepted.address
  exact ⟨⟨address, config.server.maxConnections, config.backoff⟩, by rw [Endpoint.ofConfig, parsed]⟩

end Config
end SnapshotEndpoint
