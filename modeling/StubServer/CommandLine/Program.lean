import StubServer.BehaviorFile.Path
import StubServer.CommandLine.Help
import StubServer.CommandLine.Report
import StubServer.Service.Admin

/-!
# The two programs

The server serves a behavior file, and the inspector asks a running server or checks a file. Both first
read their command line; a mistake there ends them with code 2, and every later failure with code 1
and a report of its cause. What they see of the world is a `Host`: its files, and which addresses can be
bound.
-/

namespace StubServer.CommandLine

/-- What a program leaves behind. -/
structure Exit where
  code : Nat
  output : String := ""
  errors : String := ""
  deriving DecidableEq, Repr

/-- The surroundings of a program. -/
structure Host where
  disk : Disk := {}
  bind : Net.Address → Except SystemError Unit

/-- The end of a program that prints a text. -/
def Exit.printing (text : String) : Exit :=
  { code := 0, output := text }

/-- The end of a program that failed. -/
def Exit.failing (report : String) : Exit :=
  { code := 1, errors := "Error: " ++ report ++ "\n" }

/-- The end of a program whose command line was wrong. -/
def Exit.misused (page : HelpPage) : Exit :=
  { code := 2, errors := "error: invalid command line\n\nUsage: " ++ page.usage ++ "\n" }

/-- Binding on a host that is its own only neighbour: just the loopback and the unspecified address are its
own, and the ports below 1024 are reserved. -/
def bindLocally (a : Net.Address) : Except SystemError Unit :=
  if 0 < a.port ∧ a.port < 1024 then .error .permissionDenied
  else
    match a.ip with
    | .v4 first second third fourth =>
      if first = 127 ∨ (first, second, third, fourth) = (0, 0, 0, 0) then .ok ()
      else .error .addressNotAvailable
    | .v6 groups =>
      match groups.toList with
      | [0, 0, 0, 0, 0, 0, 0, last] => if last ≤ 1 then .ok () else .error .addressNotAvailable
      | _ => .error .addressNotAvailable

/-! ## Serving -/

/-- The command line of the server. -/
structure ServeOptions where
  path : Option String := none
  config : Option String := none
  overrides : Overrides := {}
  deriving DecidableEq, Repr

/-- The options of the server. -/
def serveSpecs : List OptionSpec :=
  [{ long := "listen"
     short := some 'l'
     kind := .value "LISTEN"
     description := "Address to listen on: \x60:PORT\x60, \x60localhost:PORT\x60 or \x60IP:PORT\x60 " ++
       "[default: :3000, or the settings file's listener.bind_address]" },
    { long := "config"
      short := some 'c'
      kind := .value "CONFIG"
      description := "Server settings file (TOML)" },
    { long := "poll-interval-ms"
      kind := .value "POLL_INTERVAL_MS"
      description := "How often to check the behavior file for changes" },
    { long := "merge-duplicate-sections"
      description := "Merge repeated section headers into the first occurrence" },
    helpOption,
    { long := "version", short := some 'V', kind := .version, description := "Print version" }]

/-- The help page of the server. -/
def servePage : HelpPage where
  about := "Serve fake HTTP endpoints from an INI behavior file"
  usage := "mockserve [OPTIONS] <PATH>"
  operands := [("<PATH>", "Path to the behavior file (*.ini)")]
  options := serveSpecs

/-- The options with one more item; nothing may be given twice, and the path must lead to a behavior file. -/
def ServeOptions.add? (disk : Disk) (o : ServeOptions) : Item → Option ServeOptions
  | .operand path =>
    if o.path.isNone && BehaviorFile.isAt disk path then some { o with path := some path } else none
  | .option "listen" (some value) =>
    if o.overrides.listen.isNone then
      some { o with overrides := { o.overrides with listen := some value } }
    else none
  | .option "config" (some value) =>
    if o.config.isNone && !value.isEmpty then some { o with config := some value } else none
  | .option "poll-interval-ms" (some value) =>
    if o.overrides.pollMillis.isNone then
      (Text.word? 64 value.toList).map fun n =>
        { o with overrides := { o.overrides with pollMillis := some n } }
    else none
  | .option "merge-duplicate-sections" none =>
    if o.overrides.mergeDuplicates then none
    else some { o with overrides := { o.overrides with mergeDuplicates := true } }
  | .option .. => none

/-- A server that is ready to serve. -/
structure Ready where
  path : String
  settings : Settings
  address : Net.Address
  deriving DecidableEq, Repr

/-- Binds an address, or fails. -/
def Host.listen (host : Host) (address : Net.Address) : Except Exit Unit :=
  match host.bind address with
  | .ok () => .ok ()
  | .error e =>
    .error (.failing (namedTerm "Bind" [("address", address.text), ("source", e.report)]))

/-- Binds the listener of the status pages, if they are switched on. -/
def Host.listenForAdmin (host : Host) (admin : AdminSettings) : Except Exit Unit :=
  if admin.enabled then
    match Net.Address.ofText? admin.address.toList with
    | some address => host.listen address
    | none => .error (.failing (term "Config" (SettingsError.listenAddress admin.address).report))
  else .ok ()

/-- Starts the server with the options of its command line. -/
def start (host : Host) (path : String) (o : ServeOptions) : Except Exit Ready :=
  match Settings.resolve host.disk o.config o.overrides with
  | .error e => .error (.failing (term "Config" e.report))
  | .ok (settings, address) => do
    host.listenForAdmin settings.admin
    host.listen address
    .ok ⟨path, settings, address⟩

/-- Runs the server up to the point where it serves. -/
def serve (host : Host) (arguments : List String) : Except Exit Ready :=
  let s := scan serveSpecs false arguments
  match s.items.foldlM (ServeOptions.add? host.disk) {} with
  | none => .error (.misused servePage)
  | some o =>
    match s.stop with
    | .help => .error (.printing servePage.text)
    | .version => .error (.printing ("mockserve " ++ version ++ "\n"))
    | .done =>
      match o.path with
      | some path => start host path o
      | none => .error (.misused servePage)
    | _ => .error (.misused servePage)

/-! ## Checking -/

/-- A behavior in the report on a file. -/
def behaviorLine (b : Behavior) : String :=
  let count := match b.repetitions with
    | some n => s!" (repeat {n})"
    | none => ""
  s!"  {b.method.text} {b.path}{count}\n"

/-- The report on a file that can be served. -/
def checkReport (path : String) (set : BehaviorSet) : String :=
  let fallback := if set.fallback.isSome then "set" else "unset"
  s!"{path}: ok ({set.behaviors.length} behaviors, default {fallback})\n" ++
    String.join (set.behaviors.map behaviorLine)

/-- Checks a behavior file. -/
def check (host : Host) (policy : BehaviorFile.DuplicatePolicy) (now : Time.Instant) (path : String) :
    Exit :=
  match Service.loadFrom policy now host.disk path with
  | .ok set => .printing (checkReport path set)
  | .error (.opening _ e) => .failing e.report
  | .error (.reading e) => .failing e.report
  | .error (.compiling e) => .failing e.report

/-- The command line of a check. -/
structure CheckOptions where
  path : Option String := none
  merge : Bool := false
  deriving DecidableEq, Repr

/-- The options of a check. -/
def checkSpecs : List OptionSpec :=
  [{ long := "merge-duplicate-sections"
     description := "Merge repeated section headers into the first occurrence" },
    helpOption]

/-- The help page of a check. -/
def checkPage : HelpPage where
  about := "Parse and compile a behavior file without serving it"
  usage := "mockserve-cli check [OPTIONS] <PATH>"
  operands := [("<PATH>", "")]
  options := checkSpecs

/-- The options with one more item; nothing may be given twice. -/
def CheckOptions.add? (o : CheckOptions) : Item → Option CheckOptions
  | .operand path => if o.path.isNone && !path.isEmpty then some { o with path := some path } else none
  | .option "merge-duplicate-sections" none => if o.merge then none else some { o with merge := true }
  | .option .. => none

/-- Runs a check. -/
def runCheck (host : Host) (now : Time.Instant) (arguments : List String) : Exit :=
  let s := scan checkSpecs false arguments
  match s.items.foldlM CheckOptions.add? {} with
  | none => .misused checkPage
  | some o =>
    match s.stop, o.path with
    | .help, _ => .printing checkPage.text
    | .done, some path => check host (if o.merge then .merge else .keepApart) now path
    | _, _ => .misused checkPage

/-! ## Inspecting -/

/-- The address of the status pages, unless the command line gives another. -/
def defaultUrl : String := "http://127.0.0.1:8081"

/-- The options of the inspector. -/
def inspectSpecs : List OptionSpec :=
  [{ long := "url"
     short := some 'u'
     kind := .value "URL"
     description := "Admin API base URL [default: " ++ defaultUrl ++ "]" },
    helpOption]

/-- The help page of the inspector. -/
def inspectPage : HelpPage where
  about := "Inspect a running mockserve or check a behavior file"
  usage := "mockserve-cli [OPTIONS] <COMMAND>"
  commands := [("status", "Server version, active generation and last reload result"),
    ("behaviors", "Active behaviors with their remaining repeat budget"),
    ("check", checkPage.about), ("help", "Print this message or the help of the given subcommand(s)")]
  options := inspectSpecs

/-- The help page of a command that fetches a page. -/
def fetchPage (name about : String) : HelpPage where
  about := about
  usage := "mockserve-cli " ++ name
  options := [helpOption]

/-- What the inspector does: it ends, or fetches a page. -/
inductive Inspection
  | ended (exit : Exit)
  | fetch (url : String)
  deriving DecidableEq, Repr

/-- Runs a command that fetches a page of the server. -/
def runFetch (url page : String) (help : HelpPage) (arguments : List String) : Inspection :=
  match scan [helpOption] false arguments with
  | ⟨[], .done⟩ => .fetch (url ++ page)
  | ⟨[], .help⟩ => .ended (.printing help.text)
  | _ => .ended (.misused help)

/-- The help page of the command that prints help pages. -/
def helpPage (about : String) : HelpPage where
  about := about
  usage := "mockserve-cli help [COMMAND]..."
  operands := [("[COMMAND]...", "Print help for the subcommand(s)")]

/-- The help page of a command. -/
def commandPage? (name : String) : Option HelpPage :=
  (inspectPage.commands.lookup name).map fun about =>
    if name = "check" then checkPage else if name = "help" then helpPage about else fetchPage name about

/-- Runs a command of the inspector. -/
def runCommand (host : Host) (now : Time.Instant) (url name : String) (arguments : List String) :
    Inspection :=
  match name, commandPage? name with
  | "check", _ => .ended (runCheck host now arguments)
  | "status", some page => runFetch url "/admin/status" page arguments
  | "behaviors", some page => runFetch url "/admin/behaviors" page arguments
  | "help", _ =>
    match arguments with
    | [] => .ended (.printing inspectPage.text)
    | [name] =>
      match commandPage? name with
      | some page => .ended (.printing page.text)
      | none => .ended (.misused inspectPage)
    | _ => .ended (.misused inspectPage)
  | _, _ => .ended (.misused inspectPage)

/-- The address that the items before the command give; it may be given once. -/
def urlOf? : List Item → Option String
  | [] => some defaultUrl
  | [.option "url" (some url)] => some url
  | _ => none

/-- Runs the inspector. -/
def inspect (host : Host) (now : Time.Instant) (arguments : List String) : Inspection :=
  let s := scan inspectSpecs true arguments
  match urlOf? s.items, s.stop with
  | none, _ => .ended (.misused inspectPage)
  | some _, .help => .ended (.printing inspectPage.text)
  | some url, .command name rest => runCommand host now url name rest
  | some _, _ => .ended (.misused inspectPage)

end StubServer.CommandLine
