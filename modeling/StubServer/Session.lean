import StubServer.Service.Admin
import StubServer.Service.Request

/-!
# Sessions

A session is a service together with its surroundings: the disk that holds the behavior file, the clock, and
whether the file is being watched. `step` carries out one action and gives its outcome. Writing the file
changes nothing but the disk, until the service reloads it; an edit of a watched file leads to a reload.

The watcher reloads in the background, out of reach of the session's recorder: such a reload changes the
registry and the log like any other, but the session's metrics show only what the session did itself.
-/

namespace StubServer

open BehaviorFile (DuplicatePolicy ReadError Section)

/-- Behaviors given for publication without the detour over the file. -/
inductive Source
  | text (text : String)
  | bytes (bytes : List UInt8)
  | sections (sections : List Section)
  deriving DecidableEq, Repr

/-- What does not change during a session. -/
structure Setup where
  policy : DuplicatePolicy := .keepApart
  timeLimit : Nat := 30
  path : String := "behaviors.ini"
  now : Time.Instant := .epoch
  freshId : String
  deriving DecidableEq, Repr

structure Session where
  service : Service := {}
  disk : Disk := {}
  watching : Bool := false
  deriving DecidableEq, Repr

inductive Action
  | publish (source : Source) (now : Time.Instant)
  | write (content : List UInt8)
  | remove
  | makeDirectory
  | reload
  | status
  | watch
  | edit (content : List UInt8)
  | dispatch (method path : String)
  | request (request : Request)
  | size
  | snapshot
  | admin (method target : String)
  | metrics
  deriving DecidableEq, Repr

/-- Why a source could not be published. -/
inductive SourceError
  | reading (error : ReadError)
  | compiling (error : CompileError)
  deriving DecidableEq, Repr

inductive Outcome
  | done
  | published (generation : Nat)
  | refused (error : SourceError)
  | reloaded (result : Except ReloadError Service.Loaded)
  | status (log : ReloadLog)
  | dispatched (answer : Dispatch)
  | replied (exchange : Exchange)
  | size (size generation : Nat)
  | snapshot (registry : Registry)
  | page (status : Nat) (body : String)
  | metrics (listing : List (String × Nat))

/-- The sections of a source. -/
def Source.read (policy : DuplicatePolicy) : Source → Except ReadError (List Section)
  | .text t => BehaviorFile.ofText policy t
  | .bytes bs => BehaviorFile.ofBytes policy bs
  | .sections list => .ok list

/-- The behavior set of a source. -/
def Source.compile (policy : DuplicatePolicy) (now : Time.Instant) (source : Source) :
    Except SourceError BehaviorSet :=
  match source.read policy with
  | .error e => .error (.reading e)
  | .ok list =>
    match BehaviorSet.compile now list with
    | .error e => .error (.compiling e)
    | .ok set => .ok set

namespace Session

/-- Reloads the behavior file. -/
def reload (setup : Setup) (s : Session) : Except ReloadError Service.Loaded × Session :=
  let (result, service) := s.service.reload setup.policy setup.now s.disk setup.path
  (result, { s with service })

/-- Reloads the behavior file in the background, if it is being watched. -/
def reloadWatched (setup : Setup) (s : Session) : Session :=
  if s.watching then
    let after := (s.reload setup).2
    { after with service := { after.service with metrics := s.service.metrics } }
  else s

/-- The session with something at the place of the behavior file. -/
def place (setup : Setup) (s : Session) (node : Node) : Session :=
  { s with disk := s.disk.put setup.path node }

/-- Carries out one action. -/
def step (setup : Setup) (s : Session) : Action → Outcome × Session
  | .publish source now =>
    match source.compile setup.policy now with
    | .error e => (.refused e, s)
    | .ok set =>
      let service := s.service.publish set
      (.published service.registry.generation, { s with service })
  | .write content => (.done, s.place setup (.file content))
  | .remove => (.done, { s with disk := s.disk.remove setup.path })
  | .makeDirectory => (.done, s.place setup .directory)
  | .reload =>
    let (result, s) := s.reload setup
    (.reloaded result, s)
  | .status => (.status s.service.log, s)
  | .watch =>
    let (_, s) := s.reload setup
    (.status s.service.log, { s with watching := true })
  | .edit content =>
    let s := (s.place setup (.file content)).reloadWatched setup
    (.status s.service.log, s)
  | .dispatch method path =>
    let (answer, service) := s.service.dispatch method path
    (.dispatched answer, { s with service })
  | .request request =>
    let (exchange, service) := s.service.request setup.timeLimit setup.freshId request
    (.replied exchange, { s with service })
  | .size => (.size s.service.registry.size s.service.registry.generation, s)
  | .snapshot => (.snapshot s.service.registry, s)
  | .admin method target =>
    let (status, body) := s.service.admin method target
    (.page status body, s)
  | .metrics => (.metrics s.service.metrics.listing, s)

/-- Carries out a sequence of actions. -/
def run (setup : Setup) (s : Session) : List Action → List Outcome × Session
  | [] => ([], s)
  | action :: rest =>
    let (outcome, s) := s.step setup action
    let (outcomes, s) := s.run setup rest
    (outcome :: outcomes, s)

end Session

end StubServer
