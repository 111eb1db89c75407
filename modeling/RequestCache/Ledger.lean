/-
# Metrics

A recorder counts what one stage does; copies of it count together.  All recorders also count
into a ledger by the names of their requests, where recorders of one name cannot be told apart.
-/
import RequestCache.Time.Instant

namespace RequestCache

/-- A recorder: its own number, and the kind of request it is named for. -/
structure Recorder where
  /-- Recorders of one number share their counts. -/
  serial : Nat
  /-- The name of the kind of request. -/
  request : String
deriving DecidableEq, Repr

/-- What a recorder is told. -/
inductive Measure where
  /-- A response came from the cache. -/
  | hit
  /-- A response came from further down. -/
  | miss
  /-- An entry of the target was removed. -/
  | eviction (target : String)
  /-- An operation came to its end. -/
  | finished (operation : String)
deriving DecidableEq, Repr

/-- The counts of one recorder. -/
structure Counts where
  hits : Nat := 0
  misses : Nat := 0
  evictions : Nat := 0
deriving DecidableEq, Repr, Inhabited

namespace Counts

/-- The counts after `times` times the same measure. -/
def add (c : Counts) (m : Measure) (times : Nat) : Counts :=
  match m with
  | .hit => { c with hits := c.hits + times }
  | .miss => { c with misses := c.misses + times }
  | .eviction _ => { c with evictions := c.evictions + times }
  | .finished _ => c

/-- The share of hits among hits and misses; zero if there were none of both. -/
def hitShare (c : Counts) : Float :=
  let hits := c.hits.toUInt64.toFloat
  let total := hits + c.misses.toUInt64.toFloat
  if total == 0.0 then 0.0 else hits / total

end Counts

/-- A counter of the ledger. -/
inductive Counter where
  | hits (request : String)
  | misses (request : String)
  | evictions (request target : String)
deriving DecidableEq, Repr

/-- The name of a counter with its labels. -/
def Counter.label : Counter → String
  | hits request => "pipecache_cache_hits_total|request=" ++ request
  | misses request => "pipecache_cache_misses_total|request=" ++ request
  | evictions request target =>
    "pipecache_cache_invalidations_total|request=" ++ request ++ "|target=" ++ target

/-- A row of measured durations in the ledger. -/
structure Histogram where
  operation : String
  request : String
deriving DecidableEq, Repr

/-- The name of a row of durations with its labels. -/
def Histogram.label (h : Histogram) : String :=
  "pipecache_cache_operation_seconds|operation=" ++ h.operation ++ "|request=" ++ h.request

/-- Whether a metric counts or measures. -/
inductive MetricKind where
  | counter
  | histogram
deriving DecidableEq, Repr

/-- The description of a metric. -/
structure Description where
  name : String
  kind : MetricKind
  text : String
deriving DecidableEq, Repr

/-- The metrics of the cache, described. -/
def descriptions : List Description :=
  [⟨"pipecache_cache_hits_total", .counter, "Total number of cache hits"⟩,
    ⟨"pipecache_cache_misses_total", .counter, "Total number of cache misses"⟩,
    ⟨"pipecache_cache_invalidations_total", .counter,
      "Total number of cache entries removed by invalidating requests"⟩,
    ⟨"pipecache_cache_operation_seconds", .histogram, "Time spent on cache operations"⟩]

/-- A value under a key of a list of pairs, changed; a new key goes to the end. -/
def alterPair {κ α : Type} [DecidableEq κ] (key : κ) (start : α) (f : α → α) :
    List (κ × α) → List (κ × α)
  | [] => [(key, f start)]
  | (k, a) :: ps => if k = key then (k, f a) :: ps else (k, a) :: alterPair key start f ps

/-- All that was counted: by recorder, and by name. -/
structure Ledger where
  /-- The counts of the recorders, by their numbers. -/
  counts : List (Nat × Counts) := []
  /-- The counters that were touched. -/
  counters : List (Counter × Nat) := []
  /-- The durations that were measured, the first one first. -/
  durations : List (Histogram × Span) := []
  /-- The metrics that were described. -/
  described : List Description := []

namespace Ledger

/-- The counts of a recorder. -/
def countsOf (l : Ledger) (r : Recorder) : Counts := (l.counts.lookup r.serial).getD {}

/-- Writes down `times` times the same measure; `elapsed` is how long a finished operation
took. -/
def record (l : Ledger) (r : Recorder) (m : Measure) (times : Nat) (elapsed : Span) : Ledger :=
  if times = 0 then l
  else
    let l := { l with counts := alterPair r.serial {} (·.add m times) l.counts }
    match m with
    | .finished operation =>
      { l with
        durations := l.durations ++ List.replicate times (⟨operation, r.request⟩, elapsed) }
    | .hit => { l with counters := alterPair (.hits r.request) 0 (· + times) l.counters }
    | .miss => { l with counters := alterPair (.misses r.request) 0 (· + times) l.counters }
    | .eviction target =>
      { l with counters := alterPair (.evictions r.request target) 0 (· + times) l.counters }

/-- The counters by their labels.  Counters with one label cannot be told apart. -/
def totals (l : Ledger) : List (String × Nat) :=
  l.counters.foldl (fun ts c => alterPair c.1.label 0 (· + c.2) ts) []

/-- The durations by their labels, the first one first. -/
def samples (l : Ledger) : List (String × List Span) :=
  let labelled := l.durations.map fun d => (d.1.label, d.2)
  (labelled.map Prod.fst).eraseDups.map fun label =>
    (label, (labelled.filter fun d => d.1 = label).map Prod.snd)

/-- Describes the metrics of the cache. -/
def describe (l : Ledger) : Ledger := { l with described := descriptions }

end Ledger

end RequestCache
