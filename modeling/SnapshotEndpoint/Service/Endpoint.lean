import SnapshotEndpoint.Config
import SnapshotEndpoint.SocketAddress
import SnapshotEndpoint.Text.Quoted

/-!
What a server keeps of its configuration: where it listens and how it restarts.
-/
namespace SnapshotEndpoint

structure Endpoint where
  address : SocketAddress
  maxConnections : Nat
  backoff : BackoffSection
  deriving DecidableEq, Repr

structure AddressError where
  address : String
  deriving DecidableEq, Repr

def AddressError.message (error : AddressError) : String :=
  "invalid bind address " ++ Text.quoted error.address ++ ": invalid socket address syntax"

def Endpoint.ofConfig (config : Config) : Except AddressError Endpoint :=
  match SocketAddress.parse? config.server.bindAddress with
  | some address => .ok ⟨address, config.server.maxConnections, config.backoff⟩
  | none => .error ⟨config.server.bindAddress⟩

end SnapshotEndpoint
