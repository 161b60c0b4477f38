import SnapshotEndpoint.Config
import SnapshotEndpoint.SocketAddress
import SnapshotEndpoint.Text.Quoted

/-!
What can be wrong with a configuration, in the order in which it is checked. Every
violation is reported.
-/
namespace SnapshotEndpoint

inductive Deadline where
  | read
  | write
  deriving DecidableEq, Repr

def Deadline.name : Deadline → String
  | read => "read_timeout_secs"
  | write => "write_timeout_secs"

inductive Violation where
  | bindAddress (text : String)
  | zeroTimeout (deadline : Deadline)
  | zeroConnections
  | zeroInitialDelay
  | delayOrder (initial max : Nat)
  | multiplier (value : Binary64)
  | jitter (value : Binary64)
  deriving DecidableEq, Repr

def Violation.message : Violation → String
  | bindAddress text => "server.bind_address " ++ Text.quoted text ++ " is not a socket address"
  | zeroTimeout deadline => "server." ++ deadline.name ++ " must be greater than zero"
  | zeroConnections => "server.max_connections must be greater than zero"
  | zeroInitialDelay => "backoff.initial_delay_ms must be greater than zero"
  | delayOrder initial max =>
      "backoff.initial_delay_ms (" ++ toString initial ++ ") exceeds backoff.max_delay_ms (" ++
        toString max ++ ")"
  | multiplier value => "backoff.multiplier must be at least 1.0, got " ++ value.text
  | jitter value => "backoff.jitter must be within [0.0, 1.0), got " ++ value.text

def unlessOk (ok : Bool) (violation : Violation) : List Violation :=
  if ok then [] else [violation]

def ServerSection.violations (server : ServerSection) : List Violation :=
  unlessOk (SocketAddress.parse? server.bindAddress).isSome (.bindAddress server.bindAddress) ++
    unlessOk (server.readTimeoutSecs != 0) (.zeroTimeout .read) ++
    unlessOk (server.writeTimeoutSecs != 0) (.zeroTimeout .write) ++
    unlessOk (server.maxConnections != 0) .zeroConnections

def BackoffSection.violations (backoff : BackoffSection) : List Violation :=
  unlessOk (backoff.initialDelayMs != 0) .zeroInitialDelay ++
    unlessOk (decide (backoff.initialDelayMs ≤ backoff.maxDelayMs))
      (.delayOrder backoff.initialDelayMs backoff.maxDelayMs) ++
    unlessOk (Binary64.le Binary64.one backoff.multiplier) (.multiplier backoff.multiplier) ++
    unlessOk (Binary64.le Binary64.zero backoff.jitter && Binary64.lt backoff.jitter Binary64.one)
      (.jitter backoff.jitter)

def Config.violations (config : Config) : List Violation :=
  config.server.violations ++ config.backoff.violations

end SnapshotEndpoint
