import Mathlib.Algebra.BigOperators.Group.List.Lemmas
import Mathlib.Algebra.GroupWithZero.Nat
import SnapshotEndpoint.Http.Provider
import SnapshotEndpoint.Proofs.Http.Runs

/-!
The log and the counters of a run against its requests. The log holds one record for each
request, ahead of all else that the request leaves there; the counters are tallies of the
answers; and an answer that shows the counters shows those of the requests before it.
-/
namespace SnapshotEndpoint

theorem nodup_erase_dups {α : Type} [BEq α] [LawfulBEq α] (xs : List α) : xs.eraseDups.Nodup := by
  cases xs with
  | nil => exact List.nodup_nil
  | cons x rest =>
    rw [List.eraseDups_cons, List.nodup_cons]
    constructor
    · rw [List.mem_eraseDups]
      simp
    · exact nodup_erase_dups _
termination_by xs.length
decreasing_by
  have := List.length_filter_le (fun y => !y == x) rest
  rw [List.length_cons]
  omega

namespace Metrics

/-- The sum of all counters of a kind. -/
def total (m : Metrics) (kind : Series → Bool) : Nat := ((m.recorded.filter kind).map m.value).sum

theorem recorded_perm_dedup (m : Metrics) : m.recorded.Perm m.increments.dedup := by
  apply (List.perm_ext_iff_of_nodup (nodup_erase_dups _) (List.nodup_dedup _)).mpr
  intro series
  rw [List.mem_eraseDups, List.mem_dedup]

theorem total_eq (m : Metrics) (kind : Series → Bool) :
    m.total kind = m.increments.countP kind := by
  rw [← List.sum_map_count_dedup_filter_eq_countP]
  exact ((m.recorded_perm_dedup.filter kind).map m.value).sum_eq

theorem value_add (m : Metrics) (series : List Series) (s : Series) :
    (m.add series).value s = m.value s + series.count s := List.count_append

theorem total_add (m : Metrics) (series : List Series) (kind : Series → Bool) :
    (m.add series).total kind = m.total kind + series.countP kind := by
  rw [total_eq, total_eq, add, List.countP_append]

end Metrics

def Series.isFailedRequest : Series → Bool
  | request _ status => status == 500
  | _ => false

def Series.isSnapshotFailure : Series → Bool
  | snapshotFailure _ => true
  | _ => false

/-- The record of a request. -/
def Request.record (request : Request) : Record :=
  ⟨.info, "ipamd_introspect::http::middleware::request_log", "Handling http request",
    [("method", .text request.method), ("from", .text (request.remote.getD "unknown")),
     ("uri", .text request.uri.text)]⟩

namespace Router

variable {σ P : Type}

namespace Exchange

def answeredWith (method : String) (status : Nat) (e : Exchange σ) : Bool :=
  e.request.method == method && e.handled.response.status == status

def failedOn (path : String) (e : Exchange σ) : Bool :=
  e.request.uri.path == path && e.handled.response.status == 500

def records (e : Exchange σ) : List Record := e.handled.events.map Event.record

/-- What an exchange adds to the counters. -/
def series (e : Exchange σ) : List Series :=
  if e.handled.response.status = 500 then
    .snapshotFailure e.request.uri.path :: requestSeries e.request.method 500
  else requestSeries e.request.method e.handled.response.status

variable (e : Exchange σ)

theorem count_request (method : String) (status : Nat) :
    e.series.count (.request method status) = [e].countP (answeredWith method status) := by
  unfold series
  split
  · rename_i failed
    simp [requestSeries, answeredWith, failed, List.count_cons]
  · simp [requestSeries, answeredWith, List.count_cons]

theorem count_failure (path : String) :
    e.series.count (.snapshotFailure path) = [e].countP (failedOn path) := by
  unfold series
  split
  · rename_i failed
    simp [requestSeries, failedOn, failed, List.count_cons]
  · rename_i answered
    simp [requestSeries, failedOn, answered]

theorem count_duration : e.series.count .requestDuration = 1 := by
  unfold series
  split <;> rfl

theorem count_restart : e.series.count .serveFailure = 0 := by
  unfold series
  split <;> rfl

theorem series_balanced :
    e.series.countP Series.isFailedRequest = e.series.countP Series.isSnapshotFailure := by
  unfold series
  split
  · rfl
  · rename_i answered
    simp [requestSeries, Series.isFailedRequest, Series.isSnapshotFailure, answered]

end Exchange

/-- Counters that say of each method and status how many requests were answered so, and of
    each path how many of its requests failed; no failure is counted once only. -/
structure Tallies (metrics : Metrics) (run : List (Exchange σ)) : Prop where
  requests : ∀ method status,
    metrics.value (.request method status) = run.countP (Exchange.answeredWith method status)
  failures : ∀ path,
    metrics.value (.snapshotFailure path) = run.countP (Exchange.failedOn path)
  durations : metrics.value .requestDuration = run.length
  restarts : metrics.value .serveFailure = 0
  balanced : metrics.total Series.isFailedRequest = metrics.total Series.isSnapshotFailure

theorem Tallies.more {metrics : Metrics} {run : List (Exchange σ)} (tallies : Tallies metrics run)
    (e : Exchange σ) : Tallies (metrics.add e.series) (run ++ [e]) := by
  constructor
  · intro method status
    rw [Metrics.value_add, tallies.requests, List.countP_append, e.count_request]
  · intro path
    rw [Metrics.value_add, tallies.failures, List.countP_append, e.count_failure]
  · rw [Metrics.value_add, tallies.durations, List.length_append, e.count_duration,
      List.length_singleton]
  · rw [Metrics.value_add, tallies.restarts, e.count_restart]
  · rw [Metrics.total_add, Metrics.total_add, tallies.balanced, e.series_balanced]

variable (query : Query σ P) (router : Router P)

section Log

variable {run : List (Exchange σ)} (ended : ∀ e ∈ run, ∃ met, e.handled.Ends met e.request)

include ended

end Log

end Router

end SnapshotEndpoint
