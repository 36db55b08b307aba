import RatingServer.Accounts
import RatingServer.CommandLine.Grammar
import RatingServer.Flow.Document
import RatingServer.Settings

/-!
# Options of the server

What a server is launched with: a configuration file, if there is one, and the
options of the command line laid over it.
-/

namespace RatingServer

open Wire

/-- What a server is launched with. -/
structure LaunchConfig where
  /-- The configuration of the server. -/
  server : ServerConfig := .default
  /-- The accounts. -/
  accounts : List AccountConfig := []
  /-- The names of the evaluators. -/
  evaluators : List String := []
  /-- Whether the server starts at once. -/
  autoStart : Bool := true
  deriving DecidableEq, Repr

namespace LaunchConfig

/-- The format of a launch configuration; each field has its default. -/
def format : Format LaunchConfig :=
  ((Fields.one (.defaulted "server" ServerConfig.format .default)).and <|
    (Fields.one (.defaulted "accounts" (.list AccountConfig.format) [])).and <|
    (Fields.one (.defaulted "evaluators" (.list .string) [])).and <|
    Fields.one (.defaulted "auto_start" .bool true)).map
    (fun (a, b, c, d) => ⟨a, b, c, d⟩)
    (fun c => (c.server, c.accounts, c.evaluators, c.autoStart)) |>.format

/-- The launch configuration that a configuration file holds: a record whose
members may be repeated, where the last one counts. -/
def ofText? (text : String) : Option LaunchConfig :=
  (Flow.parse? text.toList).bind fun d => (format.ofDocument .settings d.lastMembers).toOption

end LaunchConfig

namespace CommandLine

/-- The options of a server. -/
structure ServerOptions where
  /-- The path of the configuration file. -/
  configFile : Option String := none
  /-- The host. -/
  host : Option String := none
  /-- The port from which the others follow. -/
  basePort : Option UInt16 := none
  /-- The port of the control socket. -/
  socketControlPort : Option UInt16 := none
  /-- Seconds between two runs of the periodic tasks. -/
  tasksPeriod : Option UInt64 := none
  /-- Seconds after which an idle session ends. -/
  timeout : Option UInt64 := none
  /-- Whether clients must ask for the status. -/
  pullModeRequired : Bool := false
  /-- The name of an account with all privileges. -/
  adminAccount : Option String := none
  /-- The password of that account. -/
  adminPassword : Option String := none
  /-- Whether the server waits until it is told to start. -/
  noAutoStart : Bool := false
  /-- Whether more is logged. -/
  debug : Bool := false
  deriving DecidableEq, Repr

/-- Reads a port. -/
def port? (cs : List Char) : Option UInt16 := do
  let n ← Text.integer? cs
  if 0 ≤ n && n < UInt16.size then some (UInt16.ofNat n.toNat) else none

/-- Reads a number of seconds. -/
def seconds? (cs : List Char) : Option UInt64 := (Text.naturalBelow? UInt64.size cs).map UInt64.ofNat

/-- The option that asks for the help text of a command or of the whole program. -/
def helpOption (command : Option String) : String × Effect α :=
  ("help", .halt 'h' (.help command))

namespace ServerOptions

/-- What the command line of a server may hold. -/
def grammar : Grammar ServerOptions where
  options :=
    [("config-file", .value <| path fun v o => { o with configFile := v }),
      ("host", .value <| text fun v o => { o with host := v }),
      ("base-port", .value <| reading port? fun v o => { o with basePort := v }),
      ("socket-control-port",
        .value <| reading port? fun v o => { o with socketControlPort := v }),
      ("server-tasks-period", .value <| reading seconds? fun v o => { o with tasksPeriod := v }),
      ("server-timeout", .value <| reading seconds? fun v o => { o with timeout := v }),
      ("pull-mode-required", .flag fun o => { o with pullModeRequired := true }),
      ("admin-account", .value <| text fun v o => { o with adminAccount := v }),
      ("admin-password", .value <| text fun v o => { o with adminPassword := v }),
      ("no-auto-start", .flag fun o => { o with noAutoStart := true }),
      ("debug", .flag fun o => { o with debug := true }),
      helpOption none,
      ("version", .halt 'V' .version)]

/-- The options of a command line. The account with all privileges and its
password go together. -/
def read (words : List String) : Except Usage ServerOptions := do
  let o ← grammar.read {} words
  if o.adminAccount.isSome = o.adminPassword.isSome then return o else throw .missingArgument

/-- The ports of a server, after the options. -/
def ports (o : ServerOptions) (p : ServicePorts) : ServicePorts :=
  let p := (o.basePort.map ServicePorts.ofBase).getD p
  { p with socketControl := o.socketControlPort.getD p.socketControl }

/-- The configuration of a server, after the options. -/
def server (o : ServerOptions) (c : ServerConfig) : ServerConfig where
  host := o.host.getD c.host
  ports := o.ports c.ports
  tasksPeriod := o.tasksPeriod.getD c.tasksPeriod
  timeout := o.timeout.getD c.timeout
  pullModeRequired := o.pullModeRequired || c.pullModeRequired

/-- The accounts, after the options: the account with all privileges takes the
place of those of its name. -/
def accounts (o : ServerOptions) (known : List AccountConfig) : List AccountConfig :=
  match o.adminAccount, o.adminPassword with
  | some name, some password =>
    known.filter (fun a => a.name ≠ name) ++ [⟨name, password, .admin ||| .evaluate⟩]
  | _, _ => known

/-- The launch configuration, after the options. -/
def apply (o : ServerOptions) (c : LaunchConfig) : LaunchConfig where
  server := o.server c.server
  accounts := o.accounts c.accounts
  evaluators := c.evaluators
  autoStart := c.autoStart && !o.noAutoStart

/-- What the server is launched with, given the text of its configuration file. If
there is no file, the defaults stand for it. -/
def launch? (o : ServerOptions) (file : Option String) : Option LaunchConfig :=
  match file with
  | none => some (o.apply {})
  | some text => (LaunchConfig.ofText? text).map o.apply

end ServerOptions

end CommandLine

end RatingServer
