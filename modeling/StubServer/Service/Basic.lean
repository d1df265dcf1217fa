import StubServer.Behavior.Compile
import StubServer.Dispatch.Registry
import StubServer.Disk
import StubServer.Metrics

/-!
# The running service

The state that requests and reloads share: the registry, the metrics, and the account of past reloads. Every
change to the registry goes through `publish` or `dispatch`, which keep the metrics in step with it: the
gauge shows the size of the registry after each change, and the counter of exhausted behaviors grows with
each behavior that leaves it.
-/

namespace StubServer

open BehaviorFile (DuplicatePolicy ReadError)

/-- Why a behavior file could not be taken over. -/
inductive ReloadError
  | opening (path : String) (error : SystemError)
  | reading (error : ReadError)
  | compiling (error : CompileError)
  deriving DecidableEq, Repr

/-- The wording of a reload error. -/
def ReloadError.message : ReloadError → String
  | opening path error => s!"failed to open behavior file {path}: {error.message}"
  | reading error => s!"failed to parse behavior file: {error.message}"
  | compiling error => s!"failed to build behavior set: {error.message}"

/-- A past reload: when it was, and what stopped it if anything did. -/
structure ReloadRecord where
  time : Time.Instant
  error : Option ReloadError
  deriving DecidableEq, Repr

/-- The last reload, and how many there were and failed. -/
structure ReloadLog where
  last : Option ReloadRecord := none
  attempts : Nat := 0
  failures : Nat := 0
  deriving DecidableEq, Repr

namespace ReloadLog

/-- Whether the last reload succeeded; no reload is no success. -/
def succeeded (log : ReloadLog) : Bool :=
  match log.last with
  | some record => record.error.isNone
  | none => false

/-- The wording of what stopped the last reload. -/
def errorText (log : ReloadLog) : Option String :=
  (log.last.bind (·.error)).map ReloadError.message

/-- The log after one more reload. -/
def record (log : ReloadLog) (time : Time.Instant) (error : Option ReloadError) : ReloadLog where
  last := some ⟨time, error⟩
  attempts := log.attempts + 1
  failures := log.failures + if error.isSome then 1 else 0

end ReloadLog

structure Service where
  registry : Registry := {}
  metrics : Metrics := {}
  log : ReloadLog := {}
  deriving DecidableEq, Repr

namespace Service

/-- The service after the publication of a set. -/
def publish (s : Service) (set : BehaviorSet) : Service :=
  let registry := s.registry.publish set
  { s with registry, metrics := s.metrics.setActive registry.size }

/-- The answer to a request, and the service afterwards. -/
def dispatch (s : Service) (method path : String) : Dispatch × Service :=
  let outcome := s.registry.dispatch method path
  let metrics :=
    if outcome.retired then (s.metrics.setActive outcome.registry.size).bump .exhausted else s.metrics
  (outcome.answer, { s with registry := outcome.registry, metrics })

/-! ## Reloads -/

/-- A summary of a behavior set that was taken over. -/
structure Loaded where
  generation : Nat
  behaviors : Nat
  hasFallback : Bool
  deriving DecidableEq, Repr

/-- The behavior set of a file that can be opened. -/
def load (policy : DuplicatePolicy) (now : Time.Instant) : Node → Except ReloadError BehaviorSet
  | .directory => .error (.reading (.system .isADirectory))
  | .file content =>
    match BehaviorFile.ofBytes policy content with
    | .error e => .error (.reading e)
    | .ok sections =>
      match BehaviorSet.compile now sections with
      | .error e => .error (.compiling e)
      | .ok set => .ok set

/-- The behavior set of the file at a path. -/
def loadFrom (policy : DuplicatePolicy) (now : Time.Instant) (disk : Disk) (path : String) :
    Except ReloadError BehaviorSet :=
  match disk.find path with
  | .error e => .error (.opening path e)
  | .ok node => load policy now node

/-- Takes the behavior file over. The set is published only when it is complete; if it is not, the service
goes on with the set that it has and only takes note of the failure. -/
def reload (policy : DuplicatePolicy) (now : Time.Instant) (disk : Disk) (path : String) (s : Service) :
    Except ReloadError Loaded × Service :=
  match loadFrom policy now disk path with
  | .error e =>
    (.error e,
      { s with metrics := s.metrics.bump (.reload false), log := s.log.record now (some e) })
  | .ok set =>
    let published := s.publish set
    (.ok ⟨published.registry.generation, set.behaviors.length, set.fallback.isSome⟩,
      { published with
        metrics := published.metrics.bump (.reload true)
        log := published.log.record now none })

end Service

end StubServer
