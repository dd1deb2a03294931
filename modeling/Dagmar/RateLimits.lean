import Dagmar.Schema
import Mathlib.Algebra.Order.Ring.Rat

/-! The limits of the integration interface. Each bucket holds the times of the calls
that it has let through in the last minute, the oldest first; a bucket that is absent
is empty. The clock is read once in a call. -/

namespace Dagmar.RateLimits

def windowSeconds : Rat := 60

structure Request where
  /-- `request.state.integration_rate_key`, where that is a text. -/
  integrationRateKey : Option String
  realIp : Option String
  clientHost : Option String
deriving DecidableEq

def Request.sourceIp (request : Request) : String :=
  match request.realIp.filter (· ≠ "") with
  | some address => address
  | none => request.clientHost.getD "unknown"

def Request.clientKey (request : Request) : String :=
  match request.integrationRateKey.filter (· ≠ "") with
  | some key => key
  | none => "ip:" ++ request.sourceIp

abbrev Buckets := String → List Rat

def cleanup (now : Rat) : List Rat → List Rat
  | [] => []
  | first :: bucket => if windowSeconds ≤ now - first then cleanup now bucket else first :: bucket

def rateLimited : ApiError := .api 429 "rate_limited" "Byl překročen limit požadavků." []

def enforceRateLimit (request : Request) (bucketNamespace : String) (limitPerMinute : Int) (now : Rat) (buckets : Buckets) :
    Buckets × Api Unit :=
  if limitPerMinute ≤ 0 then (buckets, .ok ())
  else
    let bucketKey := bucketNamespace ++ ":" ++ request.clientKey
    let bucket := cleanup now (buckets bucketKey)
    if limitPerMinute ≤ bucket.length then (Function.update buckets bucketKey bucket, .error rateLimited)
    else (Function.update buckets bucketKey (bucket ++ [now]), .ok ())

section Runs

structure Call where
  request : Request
  bucketNamespace : String
  now : Rat
deriving DecidableEq

def Call.bucketKey (call : Call) : String := call.bucketNamespace ++ ":" ++ call.request.clientKey

/-- The buckets, and the calls that they have let through. -/
structure Served where
  buckets : Buckets
  accepted : List Call

variable (limits : String → Int)

def Call.enforce (call : Call) (buckets : Buckets) : Buckets × Api Unit :=
  enforceRateLimit call.request call.bucketNamespace (limits call.bucketNamespace) call.now buckets

def serve (served : Served) (call : Call) : Served where
  buckets := (call.enforce limits served.buckets).1
  accepted := if (call.enforce limits served.buckets).2.isOk then served.accepted ++ [call] else served.accepted

def served (calls : List Call) : Served := calls.foldl (serve limits) ⟨fun _ => [], []⟩

end Runs

end Dagmar.RateLimits
