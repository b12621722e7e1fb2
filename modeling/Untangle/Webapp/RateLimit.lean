import Mathlib.Data.List.MinMax
import Untangle.Lib.Binary64
import Untangle.Lib.Files

/-!
# `Webapp.RateLimit` — the rate limit of the upload paths

Model of the rate limit in `safety_middleware` in `webapp/app.py`. The times are the doubles of `time.monotonic()`, so
that a difference of two is rounded.
-/

namespace Untangle

open Lib

/-- `_RATE_WINDOW_SECONDS`. -/
def rateWindowSeconds : ℚ := 60

/-- `_RATE_LIMIT`. -/
def rateLimit : Nat := 20

/-- The hard cap on the number of clients. -/
def maxBuckets : Nat := 4096

/-- `_RATE_BUCKETS`. -/
abbrev RateBuckets := Dict String (List ℚ)

/-- `now - t < _RATE_WINDOW_SECONDS`. -/
def inWindow (now t : ℚ) : Bool := nearest (now - t) < rateWindowSeconds

namespace RateBuckets

/-- `min(_RATE_BUCKETS, key=lambda key: _RATE_BUCKETS[key][-1])`, or nothing where that raises an exception. -/
def oldest (buckets : RateBuckets) : Option String :=
  if buckets.items.any fun entry => entry.2.isEmpty then none
  else (buckets.items.argmin fun entry => entry.2.getLastD 0).map Prod.fst

/-- `del _RATE_BUCKETS[client]`. -/
def remove (buckets : RateBuckets) (client : String) : RateBuckets := Files.unlink buckets client

/-- Room for a client that has no bucket. -/
def evict (buckets : RateBuckets) (client : String) : Option RateBuckets :=
  if maxBuckets ≤ buckets.items.length ∧ client ∉ buckets.keys then buckets.oldest.map buckets.remove else some buckets

/-- The buckets that have been written to lately, where there are too many. -/
def purge (buckets : RateBuckets) (now : ℚ) : RateBuckets :=
  if maxBuckets < buckets.items.length then
    { items := buckets.items.filter fun entry => entry.2.getLast?.any (inWindow now)
      nodup := buckets.nodup.sublist (List.filter_sublist.map _) }
  else buckets

/-- A visit of a client: the buckets afterwards, and whether it is let through. The others are answered with 429. -/
def letThrough (buckets : RateBuckets) (client : String) (now : ℚ) : Option (RateBuckets × Bool) :=
  (buckets.evict client).map fun buckets =>
    let buckets := buckets.purge now
    let recent := ((buckets.get? client).getD []).filter (inWindow now)
    if rateLimit ≤ recent.length then (buckets.insert client recent, false)
    else (buckets.insert client (recent ++ [now]), true)

end RateBuckets

end Untangle
