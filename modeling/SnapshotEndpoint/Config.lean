import SnapshotEndpoint.Binary64.Shortest

/-!
The configuration of the endpoint and its defaults.
-/
namespace SnapshotEndpoint

structure ServerSection where
  enabled : Bool
  bindAddress : String
  /-- Deadline for reading the head of a request, in seconds. -/
  readTimeoutSecs : Nat
  writeTimeoutSecs : Nat
  maxConnections : Nat
  deriving DecidableEq, Repr

structure BackoffSection where
  initialDelayMs : Nat
  maxDelayMs : Nat
  multiplier : Binary64
  jitter : Binary64
  deriving DecidableEq, Repr

inductive LogFormat where
  | pretty
  | json
  deriving DecidableEq, Repr

structure LogSection where
  logLevel : String
  logFormat : LogFormat
  deriving DecidableEq, Repr

structure Config where
  server : ServerSection
  backoff : BackoffSection
  observability : LogSection
  deriving DecidableEq, Repr

def ServerSection.default : ServerSection := ⟨true, "0.0.0.0:61678", 5, 5, 64⟩

def BackoffSection.default : BackoffSection :=
  ⟨1000, 60000, Binary64.ofNat 2, Binary64.ofDecimal false 2 (-1)⟩

def LogSection.default : LogSection := ⟨"info", .pretty⟩

def Config.default : Config :=
  ⟨ServerSection.default, BackoffSection.default, LogSection.default⟩

instance : Inhabited Config := ⟨Config.default⟩

end SnapshotEndpoint
