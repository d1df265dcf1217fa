import StubServer.Disk
import StubServer.Settings.Basic
import StubServer.Toml.Document

/-!
# Where the settings come from

A settings file is a TOML document with a table for each group of settings. What it does not mention keeps
its default, and what it mentions beyond the settings is ignored. A group may also be given as an array of
its settings in order. The command line overrides single settings; it is checked for itself, because the
settings of the file were checked before.
-/

namespace StubServer

open Toml (Value)

/-- Why there are no settings. -/
inductive SettingsError
  | system (error : SystemError)
  | syntaxError
  | invalid (faults : List SettingsFault)
  | listenAddress (value : String)
  deriving DecidableEq, Repr

/-- The wording of an error. -/
def SettingsError.message : SettingsError → String
  | system error => s!"IO error: {error.message}"
  | syntaxError => "Parse error: not a settings file"
  | invalid faults => "Validation failed: " ++ ", ".intercalate (faults.map SettingsFault.message)
  | listenAddress value => s!"invalid listen address {Text.quoted value}, expected [host]:port"

/-! ## From a document -/

/-- A text. -/
def Toml.Value.toText? : Value → Option String
  | .text s => some s
  | _ => none

/-- A truth value. -/
def Toml.Value.toBool? : Value → Option Bool
  | .boolean b => some b
  | _ => none

/-- An integer that is not negative. -/
def Toml.Value.toNat? : Value → Option Nat
  | .integer n => if 0 ≤ n then some n.toNat else none
  | _ => none

/-- A named part of a record, and how to set it from a value. -/
structure Member (α : Type) where
  name : String
  set : α → Value → Option α

namespace Member

/-- A record with the members that a table names. -/
def ofTable {α : Type} (entries : Toml.Table) : List (Member α) → α → Option α
  | [], record => some record
  | m :: rest, record =>
    match entries.get? m.name with
    | none => ofTable entries rest record
    | some v => (m.set record v).bind (ofTable entries rest)

/-- A record with its first members set from a list of values. -/
def ofList {α : Type} : List (Member α) → List Value → α → Option α
  | m :: rest, v :: vs, record => (m.set record v).bind (ofList rest vs)
  | _, _, record => some record

/-- A record from a value: a table by name, an array by position. A date counts as a table that names no
member. -/
def read {α : Type} (members : List (Member α)) (default : α) : Value → Option α
  | .table _ entries => ofTable entries members default
  | .list vs => ofList members vs default
  | .tables items => ofList members (items.map (.table .header)) default
  | .moment _ => some default
  | _ => none

end Member

namespace Settings

def listenerMembers : List (Member ListenerSettings) :=
  [⟨"bind_address", fun s v => v.toText?.map fun address => { s with address }⟩]

def behaviorMembers : List (Member BehaviorSettings) :=
  [⟨"poll_interval_ms", fun s v => v.toNat?.map fun pollMillis => { s with pollMillis }⟩,
    ⟨"allow_duplicate_sections", fun s v =>
      v.toBool?.map fun keepDuplicates => { s with keepDuplicates }⟩]

def timeoutMembers : List (Member TimeoutSettings) :=
  [⟨"request_secs", fun s v => v.toNat?.map fun requestSeconds => { s with requestSeconds }⟩,
    ⟨"shutdown_grace_secs", fun s v => v.toNat?.map fun graceSeconds => { s with graceSeconds }⟩]

def observabilityMembers : List (Member ObservabilitySettings) :=
  [⟨"log_level", fun s v => v.toText?.map fun logLevel => { s with logLevel }⟩,
    ⟨"metrics_enabled", fun s v => v.toBool?.map fun metricsEnabled => { s with metricsEnabled }⟩,
    ⟨"metrics_address", fun s v => v.toText?.map fun metricsAddress => { s with metricsAddress }⟩]

def adminMembers : List (Member AdminSettings) :=
  [⟨"enabled", fun s v => v.toBool?.map fun enabled => { s with enabled }⟩,
    ⟨"bind_address", fun s v => v.toText?.map fun address => { s with address }⟩]

/-- The groups of the settings. -/
def members : List (Member Settings) :=
  [⟨"listener", fun s v => (Member.read listenerMembers {} v).map fun listener => { s with listener }⟩,
    ⟨"behaviors", fun s v =>
      (Member.read behaviorMembers {} v).map fun behaviors => { s with behaviors }⟩,
    ⟨"timeouts", fun s v => (Member.read timeoutMembers {} v).map fun timeouts => { s with timeouts }⟩,
    ⟨"observability", fun s v =>
      (Member.read observabilityMembers {} v).map fun observability => { s with observability }⟩,
    ⟨"admin", fun s v => (Member.read adminMembers {} v).map fun admin => { s with admin }⟩]

/-- The settings that a document describes, whether they are valid or not. -/
def decode? (text : String) : Option Settings :=
  (Toml.parse? text).bind fun entries => Member.ofTable entries members {}

/-- The settings that a document describes. -/
def ofText (text : String) : Except SettingsError Settings :=
  match decode? text with
  | none => .error .syntaxError
  | some s => if s.faults.isEmpty then .ok s else .error (.invalid s.faults)

/-- The settings of a file. -/
def load (disk : Disk) (path : String) : Except SettingsError Settings :=
  match disk.readText path with
  | .error e => .error (.system e)
  | .ok text => ofText text

end Settings

/-! ## With the command line -/

/-- The settings that the command line overrides. -/
structure Overrides where
  listen : Option String := none
  pollMillis : Option Nat := none
  mergeDuplicates : Bool := false
  deriving DecidableEq, Repr

namespace Settings

/-- The settings with another address to listen on. -/
def withListen (listen : Option String) (s : Settings) : Settings :=
  match listen with
  | some address => { s with listener := { s.listener with address } }
  | none => s

/-- The settings with another polling interval, which must not be zero. -/
def withPolling (pollMillis : Option Nat) (s : Settings) : Except SettingsError Settings :=
  match pollMillis with
  | some 0 => .error (.invalid [.zero .pollMillis])
  | some n => .ok { s with behaviors := { s.behaviors with pollMillis := n } }
  | none => .ok s

/-- The settings with repeated sections merged, if that is asked for. -/
def withMerging (mergeDuplicates : Bool) (s : Settings) : Settings :=
  if mergeDuplicates then { s with behaviors := { s.behaviors with keepDuplicates := false } } else s

/-- The settings with what the command line overrides, and the address to listen on. -/
def override (overrides : Overrides) (s : Settings) : Except SettingsError (Settings × Net.Address) := do
  let s := s.withListen overrides.listen
  let s ← s.withPolling overrides.pollMillis
  let s := s.withMerging overrides.mergeDuplicates
  match Net.Address.toListen? s.listener.address with
  | some address => .ok (s, address)
  | none => .error (.listenAddress s.listener.address)

/-- The settings to run with: those of the file, if one is named, with what the command line overrides. -/
def resolve (disk : Disk) (file : Option String) (overrides : Overrides) :
    Except SettingsError (Settings × Net.Address) := do
  let s ← match file with
    | some path => load disk path
    | none => .ok {}
  s.override overrides

end Settings

end StubServer
