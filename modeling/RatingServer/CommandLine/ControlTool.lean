import RatingServer.Cluster.Network
import RatingServer.CommandLine.ClientOptions

/-!
# The control tool

A program that sends one command or one query to a server. Commands go over the
control socket, with the credentials inside; queries go over a session of the
service. A result is printed as data text.
-/

namespace RatingServer.CommandLine

/-- What the tool does. -/
inductive Task where
  /-- It sends a command. -/
  | control (command : ControlCommand)
  /-- It sends a query. -/
  | query (body : Body)
  deriving DecidableEq

/-- The arguments of the tool's commands. -/
structure TaskArguments where
  /-- A user. -/
  user : Int32 := 0
  /-- The most items to return; zero for all. -/
  limit : Int32 := 10
  /-- A name. -/
  name : String := ""
  deriving DecidableEq, Repr

/-- A command of the tool. -/
structure TaskForm where
  /-- The name. -/
  name : String
  /-- What the command is for. -/
  about : String
  /-- The words after the name, as a help page names them. -/
  words : List String := []
  /-- The options after the name, as a help page shows them. -/
  options : List HelpEntry := []
  /-- What follows the name. -/
  grammar : Grammar TaskArguments := { options := [helpOption (some name)] }
  /-- What the tool does. -/
  task : TaskArguments → Task

/-- Reads an integer of 32 bits. -/
def int32? (cs : List Char) : Option Int32 := do
  let n ← Text.integer? cs
  if Int32.minValue.toInt ≤ n && n ≤ Int32.maxValue.toInt then some (Int32.ofInt n) else none

namespace TaskForm

/-- A command without arguments. -/
def plain (name about : String) (task : Task) : TaskForm :=
  { name, about, task := fun _ => task }

/-- A command with one word after its name. -/
def withWord (name about word : String) (take : TakeWord TaskArguments)
    (task : TaskArguments → Task) : TaskForm :=
  { name, about, task
    words := [word]
    grammar := { options := [helpOption (some name)], words := [take] } }

/-- The word for a user. -/
def userWord : TakeWord TaskArguments := reading int32? fun v a => { a with user := v }

/-- The command that recommends items. -/
def recommend : TaskForm where
  name := "recommend"
  about := "Recommend items for a stored user"
  words := ["<USER_ID>"]
  options := [⟨"--max <MAX>", "Most items to return; 0 for all [default: 10]"⟩]
  grammar :=
    { options := [("max", .value <| reading int32? fun v a => { a with limit := v }),
        helpOption (some "recommend")]
      words := [userWord] }
  task a := .query (.operation (.recommendUser a.user a.limit))

/-- The commands of the tool. -/
def all : List TaskForm :=
  [plain "start" "Start the server" (.control .start),
    plain "stop" "Stop the server" (.control .stop),
    plain "pause" "Pause a started server" (.control .pause),
    plain "resume" "Resume a paused server" (.control .resume),
    plain "exit" "Shut the server down for good" (.control .exit),
    plain "users" "List known user ids" (.query (.operation (.ids .user))),
    plain "items" "List known item ids" (.query (.operation (.ids .item))),
    withWord "user-rating" "Show one user's ratings" "<USER_ID>" userWord
      (fun a => .query (.operation (.ratingsOf .user a.user))),
    recommend,
    plain "config" "Show the server's data configuration" (.query (.operation .settings)),
    plain "snapshot" "Show a snapshot of the stored data" (.query (.operation .snapshot)),
    plain "evaluators" "List the evaluators the server hosts"
      (.query (.operation .evaluatorNames)),
    withWord "attribute" "Read an attribute of this session" "<NAME>"
      (text fun v a => { a with name := v }) (fun a => .query (.sessionAttribute a.name))]

/-- The command of a name. -/
def ofName? (name : String) : Option TaskForm := all.find? (·.name = name)

end TaskForm

/-- The command that asks for help. -/
def helpCommand : HelpEntry :=
  ⟨"help", "Print this message or the help of the given subcommand(s)"⟩

/-- The options before the command of the tool. -/
structure ToolOptions where
  /-- The options of the client. -/
  client : ClientOptions := {}
  /-- Whether more is logged. -/
  debug : Bool := false
  deriving DecidableEq, Repr

namespace ToolOptions

/-- What the command line of the tool may hold. -/
def grammar : Grammar ToolOptions where
  options :=
    ClientOptions.options (fun f o => { o with client := f o.client }) ++
      [("debug", .flag fun o => { o with debug := true }), helpOption none]
  commands := TaskForm.all.map TaskForm.name ++ [helpCommand.form]

end ToolOptions

/-- What a command of the tool says, given the words after its name. -/
def readTask (name : String) (words : List String) : Except Usage Task :=
  match TaskForm.ofName? name with
  | some form => do return form.task (← form.grammar.read {} words)
  | none =>
    match words with
    | [] => .error (.help none)
    | [word] =>
      .error (if word ∈ ToolOptions.grammar.commands then .help (some word) else .unknownCommand)
    | _ => .error .unknownCommand

/-- What the command line of the tool says. -/
def readTool (words : List String) : Except Usage (ClientOptions × Task) := do
  let g := ToolOptions.grammar
  match ← g.readWords (g.start {}) words with
  | (r, []) =>
    let _ ← r.settle
    throw .missingArgument
  | (r, name :: words) =>
    let task ← readTask name words
    return ((← r.finish).client, task)

/-- The name of the tool. -/
def toolName : String := "reco-ctl"

/-- The help page of a command. -/
def TaskForm.helpPage (form : TaskForm) : HelpPage where
  about := form.about
  usage := " ".intercalate
    ([toolName, form.name] ++ (if form.options.isEmpty then [] else ["[OPTIONS]"]) ++ form.words)
  arguments := form.words.map fun word => ⟨word, ""⟩
  options := form.options
  letters := [HelpPage.helpLetter]

/-- The help page of the tool, or that of one of its commands. -/
def helpPage : Option String → HelpPage
  | none =>
    { about := "Control and query a recommendation server"
      usage := toolName ++ " [OPTIONS] <COMMAND>"
      commands := TaskForm.all.map (fun form => ⟨form.name, form.about⟩) ++ [helpCommand]
      options := ClientOptions.helpEntries ++ [⟨"--debug", "Enable debug logging"⟩]
      letters := [HelpPage.helpLetter] }
  | some name =>
    match TaskForm.ofName? name with
    | some form => form.helpPage
    | none =>
      { about := helpCommand.about
        usage := " ".intercalate [toolName, helpCommand.form, "[COMMAND]..."]
        arguments := [⟨"[COMMAND]...", "Print help for the subcommand(s)"⟩] }

/-- How a program ends. -/
structure Report where
  /-- The code. -/
  exitCode : Nat
  /-- What it printed. -/
  output : String
  deriving DecidableEq, Repr

namespace Report

/-- The program did what it was asked. -/
def success (output : String) : Report := ⟨0, output ++ "\n"⟩

/-- The program could not do what it was asked. -/
def failed : Report := ⟨1, ""⟩

/-- The program does not carry out its command line. -/
def ofUsage (u : Usage) : Report :=
  match u with
  | .help command => .success (helpPage command).text
  | u => ⟨u.exitCode, ""⟩

end Report

variable {ℓ : Type}

/-- Sends a command. -/
def sendCommand [Listener ℓ] (o : ClientOptions) (c : ControlCommand) (n : Network ℓ) :
    Report × Network ℓ :=
  match OneShot.control Network.dial Network.serve ⟨o.controlAddress⟩ c o.account o.password n with
  | (.ok true, n) => (.success (c.name ++ ": ok"), n)
  | (_, n) => (.failed, n)

/-- Sends a query over a session of its own. The tool is a process of its own, in
which no gateway is registered. -/
def sendQuery [Listener ℓ] (o : ClientOptions) (body : Body) (n : Network ℓ) :
    Report × Network ℓ :=
  match o.connectInfo.endpoint with
  | .ok ⟨.socket, _, _, _⟩ =>
    match Connection.openFor Network.dial Network.serve o.connectInfo n with
    | (.error _, n) => (.failed, n)
    | (.ok connection, n) =>
      let (response, connection, n) := connection.send Network.serve (.of body) n
      let (_, n) := connection.close Network.serve n
      match response.bind (·.toResult) with
      | .ok response => (.success (Response.format.toJson response).pretty, n)
      | .error _ => (.failed, n)
  | _ => (.failed, n)

/-- Runs the tool. -/
def runTool [Listener ℓ] (words : List String) (n : Network ℓ) : Report × Network ℓ :=
  match readTool words with
  | .error u => (.ofUsage u, n)
  | .ok (o, .control c) => sendCommand o c n
  | .ok (o, .query body) => sendQuery o body n

end RatingServer.CommandLine
