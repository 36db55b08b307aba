import RatingServer.Text.Basic
import RatingServer.Wire.Record

/-!
# Settings and server configuration

Settings are named texts, as clients may see them. A server configuration has a
host, its ports and its periods; five of its values are shown as settings, and
settings of these names can be laid over a configuration.
-/

namespace RatingServer

open Wire

/-- Named texts. -/
abbrev Settings := Table String String

namespace Settings

/-- The format of settings. -/
def format : Format Settings := .table .string

end Settings

/-- The ports of a server. -/
structure ServicePorts where
  /-- Port of the service. -/
  server : UInt16
  /-- Port of the listeners. -/
  listener : UInt16
  /-- Port on which listeners are exported. -/
  listenerExport : UInt16
  /-- Port of the balancer. -/
  balancer : UInt16
  /-- Port on which the balancer is exported. -/
  balancerExport : UInt16
  /-- Port of the control socket. -/
  socketControl : UInt16
  /-- Port of the evaluators. -/
  evaluator : UInt16
  deriving DecidableEq, Repr

namespace ServicePorts

/-- A port some places above another, but not above the last one. -/
def above (base : UInt16) (places : Nat) : UInt16 :=
  UInt16.ofNat (min (base.toNat + places) 65535)

/-- The ports that follow a base port. -/
def ofBase (base : UInt16) : ServicePorts :=
  ⟨base, above base 1, above base 2, above base 3, above base 4, above base 5, above base 7⟩

/-- The ports of a server that is told no other. -/
def default : ServicePorts := ofBase 10151

/-- The fields of ports; each has its default. -/
def fields : Fields ServicePorts :=
  let port name (value : ServicePorts → UInt16) :=
    Fields.one (Field.defaulted name .uint16 (value default))
  ((port "server" server).and <| (port "listener" listener).and <|
    (port "listener_export" listenerExport).and <| (port "balancer" balancer).and <|
    (port "balancer_export" balancerExport).and <| (port "socket_control" socketControl).and <|
    port "evaluator" evaluator).map
    (fun (a, b, c, d, e, f, g) => ⟨a, b, c, d, e, f, g⟩)
    (fun p => (p.server, p.listener, p.listenerExport, p.balancer, p.balancerExport,
      p.socketControl, p.evaluator))

/-- The format of ports. -/
def format : Format ServicePorts := fields.format

end ServicePorts

/-- The configuration of a server. -/
structure ServerConfig where
  /-- The host that the server runs on. -/
  host : String
  /-- The ports of the server. -/
  ports : ServicePorts
  /-- Seconds between two runs of the periodic tasks; zero for no runs. -/
  tasksPeriod : UInt64
  /-- Seconds after which an idle session ends; zero for never. -/
  timeout : UInt64
  /-- Whether clients must ask for the status because no one calls them. -/
  pullModeRequired : Bool
  deriving DecidableEq, Repr

/-- A setting whose text does not read as its type. -/
structure InvalidSetting where
  /-- The name of the setting. -/
  key : String
  /-- Its text. -/
  value : String
  deriving DecidableEq, Repr

/-- The text of the fault. -/
def InvalidSetting.message (e : InvalidSetting) : String :=
  "invalid value for " ++ e.key ++ ": " ++ e.value

namespace ServerConfig

/-- The configuration of a server that is told no other. -/
def default : ServerConfig := ⟨"localhost", .default, 300, 1800, false⟩

instance : Inhabited ServerConfig := ⟨default⟩

/-- The default configuration with the ports that follow a base port. -/
def ofBasePort (base : UInt16) : ServerConfig := { default with ports := .ofBase base }

/-- Seconds between two runs of the periodic tasks. -/
def tasksEvery? (c : ServerConfig) : Option UInt64 :=
  if c.tasksPeriod = 0 then none else some c.tasksPeriod

/-- Seconds after which an idle session ends. -/
def idleLimit? (c : ServerConfig) : Option UInt64 :=
  if c.timeout = 0 then none else some c.timeout

/-- The fields of a configuration; each has its default. -/
def fields : Fields ServerConfig :=
  ((Fields.one (.defaulted "host" .string default.host)).and <|
    (Fields.one (.defaulted "ports" ServicePorts.format default.ports)).and <|
    (Fields.one (.defaulted "server_tasks_period" .uint64 default.tasksPeriod)).and <|
    (Fields.one (.defaulted "server_timeout" .uint64 default.timeout)).and <|
    Fields.one (.defaulted "pull_mode_required" .bool default.pullModeRequired)).map
    (fun (a, b, c, d, e) => ⟨a, b, c, d, e⟩)
    (fun c => (c.host, c.ports, c.tasksPeriod, c.timeout, c.pullModeRequired))

/-- The format of a configuration. -/
def format : Format ServerConfig := fields.format

/-- The text of a truth value. -/
def truthText (b : Bool) : String := if b then "true" else "false"

/-- The settings that clients may see. -/
def toSettings (c : ServerConfig) : Settings :=
  .ofList [("server_port", c.ports.server.toNat.repr),
    ("server_tasks_period", c.tasksPeriod.toNat.repr),
    ("server_timeout", c.timeout.toNat.repr),
    ("socket_control_port", c.ports.socketControl.toNat.repr),
    ("pull_mode_required", truthText c.pullModeRequired)]

/-- The value of a setting, if it is there. -/
def setting (s : Settings) (key : String) (read : String → Option α) :
    Except InvalidSetting (Option α) :=
  match s.get? key with
  | none => .ok none
  | some text =>
    match read text with
    | some a => .ok (some a)
    | none => .error ⟨key, text⟩

/-- Reads a natural number of some bits. -/
def readWord (bits : Nat) (ofNat : Nat → α) (text : String) : Option α :=
  (Text.naturalBelow? (Nat.pow 2 bits) text.toList).map ofNat

/-- The configuration with the settings of known names laid over it. -/
def overlay (c : ServerConfig) (s : Settings) : Except InvalidSetting ServerConfig := do
  let server ← setting s "server_port" (readWord 16 UInt16.ofNat)
  let period ← setting s "server_tasks_period" (readWord 64 UInt64.ofNat)
  let timeout ← setting s "server_timeout" (readWord 64 UInt64.ofNat)
  let control ← setting s "socket_control_port" (readWord 16 UInt16.ofNat)
  let pull ← setting s "pull_mode_required" Text.truth?
  return { c with
    ports := { c.ports with
      server := server.getD c.ports.server
      socketControl := control.getD c.ports.socketControl }
    tasksPeriod := period.getD c.tasksPeriod
    timeout := timeout.getD c.timeout
    pullModeRequired := pull.getD c.pullModeRequired }

end ServerConfig

end RatingServer
