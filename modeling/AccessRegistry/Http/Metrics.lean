/-!
# AccessRegistry.Http.Metrics

Counts of requests by method, path and status, and their text for scrapers. A request to no known
path counts under `unmatched`.
-/

namespace AccessRegistry
namespace Http

/-- One counted request. -/
structure Sample where
  method : String
  path : String
  status : Nat
deriving DecidableEq, Repr

/-- The counted requests, the latest first. -/
abbrev Metrics := List Sample

namespace Metrics

def unmatched : String := "unmatched"

def totalName : String := "isp_http_requests_total"

def durationName : String := "isp_http_request_duration_seconds"

/-- One label with its value. -/
def label (name value : String) : String := name ++ "=\"" ++ value ++ "\""

/-- A line of the text: a name, labels, and a count. -/
def line (name : String) (labels : List String) (n : Nat) : String :=
  name ++ "\x7b" ++ ",".intercalate labels ++ "\x7d " ++ toString n

def totalLine (m : Metrics) (s : Sample) : String :=
  line totalName
    [label "method" s.method, label "path" s.path, label "status" (toString s.status)]
    (m.filter fun x => x = s).length

def durationLine (m : Metrics) (s : Sample) : String :=
  line (durationName ++ "_count") [label "method" s.method, label "path" s.path]
    (m.filter fun x => x.method = s.method ∧ x.path = s.path).length

/-- The lines on types and counts, in ascending order. A series appears with its first request. -/
def lines (m : Metrics) : List String :=
  let types :=
    if m.isEmpty then []
    else ["# TYPE " ++ durationName ++ " summary", "# TYPE " ++ totalName ++ " counter"]
  let all := types ++ m.map (durationLine m) ++ m.map (totalLine m)
  (all.mergeSort fun a b => decide (a ≤ b)).eraseDups

end Metrics

end Http
end AccessRegistry
