import SnapshotEndpoint.Proofs.Address.Canonical
import SnapshotEndpoint.Proofs.Config.Loading

/-!
The check of a configuration and the server built from it agree on the address: both take just the
texts that spell one. A server can be built again at the text of its own address, and is then the
same: that text spells the address it was written for, and is written for it again.
-/
namespace SnapshotEndpoint

open SocketAddress

namespace Config

/-- A configuration with another text for the address. -/
def boundTo (config : Config) (text : String) : Config :=
  { config with server := { config.server with bindAddress := text } }

/-- The text for the address is reported just when no server is made of it. Else it spells the
    address of the server, and the text of that address does as well in its place. -/
structure AgreesOnAddress (config : Config) : Prop where
  reported : ∀ text, .bindAddress text ∈ config.violations ↔
    Endpoint.ofConfig config = .error ⟨text⟩
  refused : (∃ error, Endpoint.ofConfig config = .error error) ↔
    ∀ address, ¬ Spells config.server.bindAddress.toList address
  spelled : ∀ address, (∃ endpoint, Endpoint.ofConfig config = .ok endpoint ∧
    endpoint.address = address) ↔ Spells config.server.bindAddress.toList address
  again : ∀ endpoint, Endpoint.ofConfig config = .ok endpoint →
    (∀ text, .bindAddress text ∉ (config.boundTo endpoint.address.text).violations) ∧
      Endpoint.ofConfig (config.boundTo endpoint.address.text) = .ok endpoint
  written : ∀ address : SocketAddress, ∃ endpoint,
    Endpoint.ofConfig (config.boundTo address.text) = .ok endpoint ∧ endpoint.address = address

variable {config : Config}

theorem of_config_eq_ok_iff {endpoint : Endpoint} : Endpoint.ofConfig config = .ok endpoint ↔
    Spells config.server.bindAddress.toList endpoint.address ∧
      endpoint = ⟨endpoint.address, config.server.maxConnections, config.backoff⟩ := by
  rw [← parse_eq_some_iff, Endpoint.ofConfig]
  cases parse? config.server.bindAddress with
  | none => simp
  | some address =>
    constructor
    · intro made
      cases made
      exact ⟨rfl, rfl⟩
    · rintro ⟨same, whole⟩
      rw [whole, ← Option.some.inj same]

theorem of_config_eq_error_iff {error : AddressError} : Endpoint.ofConfig config = .error error ↔
    parse? config.server.bindAddress = none ∧ error = ⟨config.server.bindAddress⟩ := by
  rw [Endpoint.ofConfig]
  cases parse? config.server.bindAddress with
  | none => simp [eq_comm]
  | some address => simp

theorem bind_address_mem_iff {text : String} : .bindAddress text ∈ config.violations ↔
    Endpoint.ofConfig config = .error ⟨text⟩ := by
  rw [mem_violations_iff, of_config_eq_error_iff, AddressError.mk.injEq]
  constructor
  · intro breaks
    cases breaks with
    | address unparsed => exact ⟨unparsed, rfl⟩
  · rintro ⟨unparsed, rfl⟩
    exact .address unparsed

theorem of_config_bound_to (config : Config) (address : SocketAddress) :
    Endpoint.ofConfig (config.boundTo address.text) =
      .ok ⟨address, config.server.maxConnections, config.backoff⟩ :=
  of_config_eq_ok_iff.mpr ⟨spells_text address, rfl⟩

/-- What is checked of an address and what is served at are the same, for every spelling of it. -/
theorem agrees_on_address (config : Config) : config.AgreesOnAddress where
  reported := fun _ => bind_address_mem_iff
  refused := by
    simp only [of_config_eq_error_iff, exists_and_left, exists_eq, and_true,
      Option.eq_none_iff_forall_ne_some, Ne, parse_eq_some_iff]
  spelled := by
    intro address
    constructor
    · rintro ⟨endpoint, made, rfl⟩
      exact (of_config_eq_ok_iff.mp made).1
    · intro spells
      exact ⟨⟨address, _, _⟩, of_config_eq_ok_iff.mpr ⟨spells, rfl⟩, rfl⟩
  again := by
    intro endpoint made
    have rebuilt := config.of_config_bound_to endpoint.address
    rw [← (of_config_eq_ok_iff.mp made).2] at rebuilt
    refine ⟨?_, rebuilt⟩
    intro text reported
    rw [bind_address_mem_iff, rebuilt] at reported
    cases reported
  written := fun address => ⟨_, config.of_config_bound_to address, rfl⟩

/-- An address in other words than its own: zeros left out where there are few, octets at the end,
    capitals, and zeros in front of the scope and the port. -/
example : (parse? "[0:0:0::FFFF:192.0.2.1%007]:00080").map text =
    some "[::ffff:192.0.2.1%7]:80" := by decide +kernel

end Config
end SnapshotEndpoint
