import StubServer.Net.Address
import StubServer.Text.Quoted

/-!
# Settings of the server

How the server runs, apart from what it answers. Every setting has a default. `faults` lists what is wrong
with a collection of settings, all of it and in a fixed order; the addresses of parts that are switched off
may be anything.
-/

namespace StubServer

structure ListenerSettings where
  address : String := "0.0.0.0:3000"
  deriving DecidableEq, Repr

structure BehaviorSettings where
  pollMillis : Nat := 1000
  keepDuplicates : Bool := true
  deriving DecidableEq, Repr

structure TimeoutSettings where
  requestSeconds : Nat := 30
  graceSeconds : Nat := 15
  deriving DecidableEq, Repr

structure ObservabilitySettings where
  logLevel : String := "info"
  metricsEnabled : Bool := false
  metricsAddress : String := "127.0.0.1:9090"
  deriving DecidableEq, Repr

structure AdminSettings where
  enabled : Bool := false
  address : String := "127.0.0.1:8081"
  deriving DecidableEq, Repr

structure Settings where
  listener : ListenerSettings := {}
  behaviors : BehaviorSettings := {}
  timeouts : TimeoutSettings := {}
  observability : ObservabilitySettings := {}
  admin : AdminSettings := {}
  deriving DecidableEq, Repr

/-! ## Validation -/

/-- A setting that can have a value it must not have. -/
inductive Setting
  | listenAddress
  | metricsAddress
  | adminAddress
  | pollMillis
  | graceSeconds
  deriving DecidableEq, Repr

/-- The name of a setting, with the group that it is in. -/
def Setting.name : Setting → String
  | listenAddress => "listener.bind_address"
  | metricsAddress => "observability.metrics_address"
  | adminAddress => "admin.bind_address"
  | pollMillis => "behaviors.poll_interval_ms"
  | graceSeconds => "timeouts.shutdown_grace_secs"

inductive SettingsFault
  | address (setting : Setting) (value : String)
  | zero (setting : Setting)
  | logLevel (value : String)
  deriving DecidableEq, Repr

/-- The wording of a fault. -/
def SettingsFault.message : SettingsFault → String
  | address setting value => s!"{setting.name}: invalid socket address {Text.quoted value}"
  | zero setting => s!"{setting.name} must be greater than zero"
  | logLevel value => s!"observability.log_level: unknown level {Text.quoted value}"

/-- The levels of the log, from the most to the least talkative. -/
def logLevels : List String :=
  ["trace", "debug", "info", "warn", "error"]

/-- Whether a word is the name of a level, in any mix of cases. -/
def isLogLevel (s : String) : Bool :=
  logLevels.any fun level => s.toList.map Char.toLower == level.toList

namespace Settings

/-- A fault that is there under a condition. -/
def faultIf (condition : Bool) (fault : SettingsFault) : Option SettingsFault :=
  if condition then some fault else none

/-- What is wrong with the settings. -/
def faults (s : Settings) : List SettingsFault :=
  [faultIf (Net.Address.toListen? s.listener.address).isNone
      (.address .listenAddress s.listener.address),
    faultIf (s.observability.metricsEnabled &&
        (Net.Address.ofText? s.observability.metricsAddress.toList).isNone)
      (.address .metricsAddress s.observability.metricsAddress),
    faultIf (s.admin.enabled && (Net.Address.ofText? s.admin.address.toList).isNone)
      (.address .adminAddress s.admin.address),
    faultIf (s.behaviors.pollMillis == 0) (.zero .pollMillis),
    faultIf (s.timeouts.graceSeconds == 0) (.zero .graceSeconds),
    faultIf (!isLogLevel s.observability.logLevel) (.logLevel s.observability.logLevel)].filterMap id

/-- The filter of the log at a level: the level holds for the server and for its HTTP layer. -/
def logFilter (level : String) : String :=
  s!"mockserve={level},tower_http={level}"

end Settings

end StubServer
