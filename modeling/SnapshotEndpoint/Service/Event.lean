import SnapshotEndpoint.Service.Duration

/-!
What happens in the service, and the log record of each event.
-/
namespace SnapshotEndpoint

/-- How much a record matters, from the most to the least. -/
inductive Level where
  | error
  | warn
  | info
  | debug
  | trace
  deriving DecidableEq, Repr

def Level.name : Level → String
  | error => "ERROR"
  | warn => "WARN"
  | info => "INFO"
  | debug => "DEBUG"
  | trace => "TRACE"

/-- The value of a field: a text as it is, a text that lines show in quotes, or a number. -/
inductive FieldValue where
  | text (value : String)
  | quoted (value : String)
  | number (value : Nat)
  deriving DecidableEq, Repr

/-- A log record; the target names the part of the program it comes from. -/
structure Record where
  level : Level
  target : String
  message : String
  fields : List (String × FieldValue)
  deriving DecidableEq, Repr

inductive Event where
  | programStarting (version : String)
  | introspectionDisabled
  | configurationLoaded (bindAddress : String) (maxConnections readTimeout writeTimeout : Nat)
  | serverStarting (address : String)
  | listenerBound (address : String) (maxConnections : Nat)
  | serveFailed (address error : String)
  | backingOff (delay : Nat)
  | serverStopped
  | requestHandled (method remote uri : String)
  | snapshotFailed (path error : String)
  | signalReceived
  | shutdownTriggered (listeners : Nat)
  | shutdownComplete
  deriving DecidableEq, Repr

namespace Event

def programTarget : String := "ipamd_introspect"

def partTarget (path : String) : String := programTarget ++ "::" ++ path

def record : Event → Record
  | programStarting version =>
      ⟨.info, programTarget, "ipamd-introspect v" ++ version ++ " starting", []⟩
  | introspectionDisabled => ⟨.info, programTarget, "Introspection disabled by configuration", []⟩
  | configurationLoaded bindAddress maxConnections readTimeout writeTimeout =>
      ⟨.info, programTarget, "Configuration loaded",
        [("bind_address", .text bindAddress), ("max_connections", .number maxConnections),
         ("read_timeout_secs", .number readTimeout),
         ("write_timeout_secs", .number writeTimeout)]⟩
  | serverStarting address =>
      ⟨.info, partTarget "http::server", "Introspection server starting",
        [("address", .text address)]⟩
  | listenerBound address maxConnections =>
      ⟨.info, partTarget "net::listener", "Listener bound",
        [("address", .text address), ("max_connections", .number maxConnections)]⟩
  | serveFailed address error =>
      ⟨.error, partTarget "http::server", "Error running http api",
        [("address", .text address), ("error", .text error)]⟩
  | backingOff delay =>
      ⟨.debug, partTarget "resilience::retries", "Backing off before next attempt",
        [("delay", .text (Duration.text delay))]⟩
  | serverStopped => ⟨.info, partTarget "http::server", "Introspection server stopped", []⟩
  | requestHandled method remote uri =>
      ⟨.info, partTarget "http::middleware::request_log", "Handling http request",
        [("method", .text method), ("from", .text remote), ("uri", .text uri)]⟩
  | snapshotFailed path error =>
      ⟨.error, partTarget "http::routes", "Failed to marshal snapshot",
        [("path", .quoted path), ("error", .text error)]⟩
  | signalReceived => ⟨.info, partTarget "lifecycle::signals", "Shutdown signal received", []⟩
  | shutdownTriggered listeners =>
      ⟨.info, partTarget "lifecycle::shutdown", "Shutdown triggered",
        [("listeners", .number listeners)]⟩
  | shutdownComplete => ⟨.info, programTarget, "Shutdown complete", []⟩

end Event
end SnapshotEndpoint
