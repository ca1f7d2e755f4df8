import AccessRegistry.Http.Document
import AccessRegistry.Http.Metrics

/-!
# AccessRegistry.Http.Service

One request to the service, from its path to the answer. Besides the operations there are the
description of the interface, two probes, and the counts of requests, if they are kept.
-/

namespace AccessRegistry
namespace Http

/-- What lives at a path. -/
inductive Resource where
  | operation (e : Endpoint)
  | document
  | liveness
  | readiness
  | metrics

namespace Resource

/-- The resources other than operations. -/
def fixed : List (String × Resource) :=
  [("/openapi.json", .document), ("/health/liveness", .liveness),
    ("/health/readiness", .readiness), ("/metrics", .metrics)]

def all : List (String × Resource) :=
  fixed ++ Endpoint.all.map fun e => (e.path, .operation e)

/-- The resource at a path; a path matches as a whole. -/
def at? (path : String) : Option Resource := (all.find? fun r => r.1 == path).map (·.2)

/-- Whether the resource is there to be read. -/
def isReadable : Resource → Bool
  | .operation _ => false
  | _ => true

/-- Whether the resource has the method. What can be read with `GET` has `HEAD` as well. -/
def hasMethod (r : Resource) (method : String) : Bool :=
  if r.isReadable then method == "GET" || method == "HEAD" else method == "POST"

/-- Whether requests to the resource are counted. Probes and the counts themselves are not. -/
def isCounted : Resource → Bool
  | .operation _ | .document => true
  | _ => false

end Resource

/-- The path of a request, without a query and a fragment. -/
def Request.path (r : Request) : String :=
  String.ofList (r.target.toList.takeWhile fun c => c != '?' && c != '#')

/-- Whether the storage answers. -/
def probeStorage : Program (Effect Port) Answer := do
  match ← Program.request (.call .ping) with
  | .ok _ => return ⟨200, .text "ready"⟩
  | .error _ => return ⟨503, .text "database unreachable"⟩

/-- The answer of a resource that has the method of the request. -/
def Resource.answer (kept : Option Metrics) (r : Request) : Resource → Program (Effect Port) Answer
  | .operation e => e.handle r
  | .document => pure ⟨200, .document⟩
  | .liveness => pure ⟨200, .text "ok"⟩
  | .readiness => probeStorage
  | .metrics =>
    match kept with
    | some m => pure ⟨200, .lines m.lines⟩
    | none => pure ⟨404, .text "metrics disabled"⟩

/-- An answer to `HEAD` keeps its status only. -/
def Answer.forMethod (method : String) (a : Answer) : Answer :=
  if method = "HEAD" then ⟨a.status, .text ""⟩ else a

/-- The answer to a request, before it is counted. -/
def answer (kept : Option Metrics) (r : Request) : Program (Effect Port) Answer :=
  match Resource.at? r.path with
  | none => pure ⟨404, .text ""⟩
  | some resource =>
    if resource.hasMethod r.method then do
      return (← resource.answer kept r).forMethod r.method
    else pure ⟨405, .text ""⟩

/-- The path under which a request is counted, if it is. -/
def countedPath (r : Request) : Option String :=
  match Resource.at? r.path with
  | none => some Metrics.unmatched
  | some resource => if resource.isCounted then some r.path else none

/-- The counts after a request. -/
def count (r : Request) (a : Answer) (m : Metrics) : Metrics :=
  match countedPath r with
  | some path => ⟨r.method, path, a.status⟩ :: m
  | none => m

/-- Answers a request and counts it, if counts are kept. -/
def serve (r : Request) (kept : Option Metrics) :
    Program (Effect Port) (Answer × Option Metrics) := do
  let a ← answer kept r
  return (a, kept.map (count r a))

end Http
end AccessRegistry
