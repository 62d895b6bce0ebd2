import FirewallRollout.Api.Message
import FirewallRollout.Api.Query
import FirewallRollout.Api.Route
import FirewallRollout.Rebuild.Request

/-!
# Handling requests

The answer to each request, and the orchestrator after it. A name in the path is decoded first, then
the query, then the body; only then is the orchestrator asked. Reading changes nothing.
-/
namespace FirewallRollout.Api
open Rebuild (State)

/-- The response to a name in the path that is not text. -/
def undecodable (parameter : String) : Response :=
  { status := 400, payload := .text ("Invalid URL: Invalid UTF-8 in \x60" ++ parameter ++ "\x60") }

/-- The decoded name of a segment, or the response that it has none. -/
def nameOf (parameter segment : String) : Except Response String :=
  (Text.Percent.decode? segment).elim (.error (undecodable parameter)) .ok

/-- A script preview. -/
def script (s : State) (server query : String) : Except Error Payload := do
  let q ← Query.read ["format", "all"] query
  let all ← q.flag "all"
  let format ← match q.name? "format" with
    | some name => Script.Format.parse name
    | none => .ok .plain
  let script ← s.scriptFor server (!all) format
  .ok (.script script)

/-- A page of the listing. -/
def listing (s : State) (query : String) : Except Error Payload := do
  let q ← Query.read ["serverId", "status", "limit", "offset"] query
  let limit ← q.number? "limit"
  let offset ← q.number? "offset"
  let status ← (q.name? "status").mapM Status.parse
  let filter : Registry.Filter := { server := q.name? "serverId", status }
  let limit := Registry.pageSize (limit.getD 0)
  let offset := offset.getD 0
  let (tasks, total) := s.registry.list filter limit offset
  .ok (.page { tasks, total, limit, offset })

def stats (s : State) (query : String) : Except Error Payload := do
  let q ← Query.read ["serverId"] query
  let census ← s.census (q.name? "serverId")
  .ok (.census census)

/-- The response to a reading request. -/
def read (s : State) (route : Route) (query : String) : Response :=
  let named (parameter segment : String) (f : String → Except Error Payload) : Response :=
    match nameOf parameter segment with
    | .ok name => .ofExcept 200 (f name)
    | .error response => response
  match route with
  | .health => { status := 200, payload := .health s.registry.activeCount }
  | .serverRules segment =>
    named "server_id" segment fun server => (s.rulesFor server).map .rules
  | .serverScript segment => named "server_id" segment fun server => script s server query
  | .tasks => .ofExcept 200 (listing s query)
  | .task segment => named "task_id" segment fun id => (s.registry.get id).map .task
  | .stats => .ofExcept 200 (stats s query)
  | .serverRebuild _ | .taskCancel _ => { status := 405, payload := .nothing }

/-- The greatest number of octets of a body that is read. -/
def maxBodyOctets : Nat := 2 * 1024 * 1024

/-- The response to a body that is longer. -/
def oversized : Response :=
  { status := 413,
    payload := .text "Failed to buffer the request body: length limit exceeded" }

/-- Whether a body asks for a forced rebuild, or the response to a body that cannot be read. -/
def readBody (body : List UInt8) : Except Response Bool :=
  if maxBodyOctets < body.length then .error oversized else (forceOf body).mapError .ofError

/-- Ask for a rebuild under a fresh identifier. -/
def rebuild (s : State) (server : String) (body : List UInt8) (fresh : String) (now : Int64) :
    Response × State :=
  match readBody body with
  | .error response => (response, s)
  | .ok force =>
    match s.trigger server force fresh now with
    | (result, s) => (.ofExcept 202 (result.map .task), s)

/-- The response to an acting request, and the orchestrator after it. -/
def act (s : State) (route : Route) (body : List UInt8) (fresh : String) (now : Int64) :
    Response × State :=
  match route with
  | .serverRebuild segment =>
    match nameOf "server_id" segment with
    | .ok server => rebuild s server body fresh now
    | .error response => (response, s)
  | .taskCancel segment =>
    match nameOf "task_id" segment with
    | .ok id =>
      match s.cancel id now with
      | (result, s) => (.ofExcept 200 (result.map .task), s)
    | .error response => (response, s)
  | _ => ({ status := 405, payload := .nothing }, s)

/-- The response to a request, and the orchestrator after it. -/
def handle (s : State) (r : Request) (fresh : String) (now : Int64) : Response × State :=
  let (path, query) := Route.splitTarget r.target
  match r.method, Route.ofPath? path with
  | "OPTIONS", _ => ({ status := 200, payload := .nothing }, s)
  | _, none => ({ status := 404, payload := .nothing }, s)
  | method, some route =>
    match route.access, method with
    | .read, "GET" => (read s route query, s)
    | .read, "HEAD" => ({ read s route query with headersOnly := true }, s)
    | .act, "POST" => act s route r.body fresh now
    | _, _ => ({ status := 405, payload := .nothing }, s)

end FirewallRollout.Api
