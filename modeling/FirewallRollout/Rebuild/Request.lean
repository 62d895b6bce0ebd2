import FirewallRollout.Rebuild.State

/-!
# Requests to the orchestrator

What callers ask for: a rebuild, a cancellation, a shutdown. A rebuild that is refused leaves no task
and no lease behind. A slot whose holder has ended is taken over, even while the holder's worker is
still in flight.
-/
namespace FirewallRollout.Rebuild.State

/-- Why the slot of a server is not given to a task: another rebuild holds it. -/
def conflict (holder server : String) : Error :=
  .conflict s!"rebuild {holder} is already in progress for server {server}"

/-- The task that keeps a new one from a server, if there is one. -/
def holder? (s : State) (server : String) : Option String :=
  if s.settings.allowConcurrent then none
  else (s.leases.lookup server).filter fun holder => !s.hasEnded holder

/-- Register a task, and give it its server's slot unless rebuilds may be concurrent. -/
def register (s : State) (t : Task) : Except Error Task × State :=
  match s.holder? t.server with
  | some holder => (.error (conflict holder t.server), s)
  | none =>
    match s.registry.create t with
    | (.error e, registry) => (.error e, { s with registry })
    | (.ok t, registry) =>
      if s.settings.allowConcurrent then (.ok t, { s with registry })
      else (.ok t, { s with registry, leases := Assoc.put s.leases t.server t.id })

/-- Whether a script's commands are those last applied to its server. -/
def isUnchanged (s : State) (script : Script) : Bool :=
  s.fingerprints.lookup script.server == some script.fingerprint

/-- Ask for a rebuild under a fresh identifier. -/
def trigger (s : State) (server : String) (force : Bool) (id : String) (now : Int64) :
    Except Error Task × State :=
  if s.shuttingDown then (.error (.invalidOperation "service is shutting down"), s)
  else
    match s.scriptFor server true .plain with
    | .error e => (.error e, s)
    | .ok script =>
      match Text.word32? script.lines.length with
      | none => (.error (.internal "rule count overflows u32"), s)
      | some total =>
        match s.register (.create id server total force now) with
        | (.error e, s) => (.error e, s)
        | (.ok task, s) =>
          let worker : Worker := { task, script, unchanged := !force && s.isUnchanged script }
          (.ok task, { s with workers := s.workers ++ [worker] })

/-- Cancel a task. The task has failed at once; its worker finds out by its token. -/
def cancel (s : State) (id : String) (now : Int64) : Except Error Task × State :=
  let result := s.registry.update id fun t =>
    match t.cancel now with
    | (.ok (), t) => (.ok t, t)
    | (.error refusal, t) => (.error refusal.error, t)
  match result with
  | (.error e, _) => (.error e, s)
  | (.ok t, registry) =>
    (.ok t, withWorker { s with registry } id fun w => { w with cancelled := true })

/-- Begin a shutdown: no more rebuilds, and every worker is cancelled. -/
def shutDown (s : State) : State :=
  { s with shuttingDown := true, workers := s.workers.map fun w => { w with cancelled := true } }

end FirewallRollout.Rebuild.State
