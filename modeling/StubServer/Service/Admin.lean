import StubServer.Http.Target
import StubServer.Service.Basic
import StubServer.Service.Document

/-!
# Status pages

Two pages for the operator, on a listener of their own: how the service is doing, and the behaviors that can
still answer. Their paths are compared as they are sent, without decoding, and only reading is allowed.
-/

namespace StubServer

/-- The release of the program. -/
def version : String := "0.1.0"

namespace Service

/-- The state of the reloads as a document. -/
def logDocument (log : ReloadLog) : Document :=
  .object [("at", .ofText? (log.last.map (·.time.timestamp))), ("success", .boolean log.succeeded),
    ("error", .ofText? log.errorText), ("attempts", .number log.attempts),
    ("failures", .number log.failures)]

/-- A service is operational while its last reload succeeded. -/
def health (log : ReloadLog) : String :=
  if log.succeeded then "operational" else "degraded"

/-- The page on the state of the service. -/
def statusPage (s : Service) : Document :=
  .object [("version", .text version), ("status", .text (health s.log)),
    ("generation", .number s.registry.generation), ("active_behaviors", .number s.registry.size),
    ("has_default", .boolean s.registry.fallback.isSome), ("last_reload", logDocument s.log)]

/-- A behavior in the list of behaviors. -/
def summaryDocument (summary : RouteSummary) : Document :=
  .object [("method", .text summary.method.text), ("url", .text summary.path),
    ("remaining", .ofNumber? summary.remaining)]

/-- The page on the behaviors that can still answer. -/
def behaviorsPage (s : Service) : Document :=
  .object [("generation", .number s.registry.generation),
    ("has_default", .boolean s.registry.fallback.isSome),
    ("behaviors", .list (s.registry.summaries.map summaryDocument))]

/-- The page at a raw path. -/
def page? (s : Service) (path : String) : Option Document :=
  if path = "/admin/status" then some s.statusPage
  else if path = "/admin/behaviors" then some s.behaviorsPage
  else none

/-- Answers a request to the operator's listener with a status and a body. -/
def admin (s : Service) (method target : String) : Nat × String :=
  match (Http.rawPath? target.toList).bind fun path => s.page? (String.ofList path) with
  | none => (404, "")
  | some page =>
    if method = Http.Method.get.text then (200, page.render)
    else if method = Http.Method.head.text then (200, "")
    else (405, "")

end Service

end StubServer
