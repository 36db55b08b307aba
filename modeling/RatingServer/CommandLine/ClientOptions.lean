import RatingServer.CommandLine.ServerOptions
import RatingServer.Endpoint

/-!
# Options of a client

What a client is told about the server that it talks to, and the page that a program
prints when it is asked for help: what it is for, how it is called, and lists of its
commands, arguments and options. The entries of a list stand in two columns, unless
the second one would be too narrow for its texts; then every text stands in a line of
its own.
-/

namespace RatingServer.CommandLine

/-- An entry of a help page. -/
structure HelpEntry where
  /-- How it is written on a command line. -/
  form : String
  /-- What it is for. -/
  about : String := ""
  deriving DecidableEq, Repr

/-- A help page. -/
structure HelpPage where
  /-- What the program or command is for. -/
  about : String
  /-- How it is called. -/
  usage : String
  /-- The commands. -/
  commands : List HelpEntry := []
  /-- The words that stand for themselves. -/
  arguments : List HelpEntry := []
  /-- The options. -/
  options : List HelpEntry := []
  /-- The options that a letter after one dash stands for. -/
  letters : List (Char × HelpEntry) := []
  deriving DecidableEq, Repr

namespace HelpEntry

/-- The width of a page. -/
def pageWidth : Nat := 100

/-- The width of the widest form. -/
def formWidth (entries : List HelpEntry) : Nat :=
  entries.foldl (fun n e => max n e.form.length) 0

/-- Whether the second column is too narrow: the first one takes more than two fifths of
the page and leaves too little for some text. -/
def isNarrow (entries : List HelpEntry) : Bool :=
  let taken := formWidth entries + 12
  2 * pageWidth < 5 * taken && taken ≤ pageWidth &&
    entries.any fun e => pageWidth - taken < e.about.length

/-- A text with blanks after it up to a width. -/
def padded (width : Nat) (s : String) : String :=
  s ++ String.ofList (List.replicate (width - s.length) ' ')

/-- The lines of a list of entries with what stands before each. -/
def lines (entries : List (String × HelpEntry)) : List String :=
  let all := entries.map (·.2)
  let width := formWidth all
  entries.flatMap fun (lead, e) =>
    if isNarrow all then [lead ++ e.form, "          " ++ e.about]
    else [lead ++ padded width e.form ++ "  " ++ e.about]

/-- The lines of a list with a title, and none if it is empty. -/
def titled (title : String) (entries : List (String × HelpEntry)) : List String :=
  if entries.isEmpty then [] else "" :: (title ++ ":") :: lines entries

end HelpEntry

namespace HelpPage

/-- The text of a page. -/
def text (p : HelpPage) : String :=
  let options := p.options.map (fun e => ("      ", e)) ++
    p.letters.map fun (c, e) => ("  -" ++ c.toString ++ ", ", e)
  "\n".intercalate <|
    [p.about, "", "Usage: " ++ p.usage] ++
      HelpEntry.titled "Commands" (p.commands.map fun e => ("  ", e)) ++
      HelpEntry.titled "Arguments" (p.arguments.map fun e => ("  ", e)) ++
      HelpEntry.titled "Options" options

/-- The option that asks for help. -/
def helpLetter : Char × HelpEntry := ('h', ⟨"--help", "Print help"⟩)

end HelpPage

/-- The options of a client. -/
structure ClientOptions where
  /-- The address of the service. -/
  connectUri : String := "hdp://localhost:10151"
  /-- The address of the control socket. -/
  controlAddress : String := "localhost:10156"
  /-- The account. -/
  account : String := "admin"
  /-- The password. -/
  password : String := "admin"
  /-- Seconds after which an answer is given up. -/
  timeout : UInt64 := 30
  deriving DecidableEq, Repr

namespace ClientOptions

/-- The options of a client, for a record that holds them. -/
def options (set : (ClientOptions → ClientOptions) → α → α) : List (String × Effect α) :=
  [("connect-uri", .value <| text fun v => set fun o => { o with connectUri := v }),
    ("control-address", .value <| text fun v => set fun o => { o with controlAddress := v }),
    ("account", .value <| text fun v => set fun o => { o with account := v }),
    ("password", .value <| text fun v => set fun o => { o with password := v }),
    ("timeout-secs", .value <| reading seconds? fun v => set fun o => { o with timeout := v })]

/-- What the command line of a client may hold. -/
def grammar : Grammar ClientOptions where
  options := options id ++ [helpOption none]

/-- The options of a command line. -/
def read (words : List String) : Except Usage ClientOptions := grammar.read {} words

/-- An option of a client on a help page, with its default value. -/
def helpEntry (name about value : String) : HelpEntry :=
  ⟨"--" ++ name ++ " <" ++ name ++ ">", about ++ " [default: " ++ value ++ "]"⟩

/-- The options of a client on a help page. -/
def helpEntries : List HelpEntry :=
  let o : ClientOptions := {}
  [helpEntry "connect-uri" "Server URI: hdp://host:port for the socket protocol" o.connectUri,
    helpEntry "control-address" "host:port of the server's control socket" o.controlAddress,
    helpEntry "account" "Account name" o.account,
    helpEntry "password" "Account password [env: RECO_PASSWORD=]" o.password,
    helpEntry "timeout-secs" "Socket timeout in seconds" o.timeout.toNat.repr]

/-- How the client connects. -/
def connectInfo (o : ClientOptions) : ConnectInfo :=
  { connectUri := o.connectUri, account := o.account, password := o.password
    timeout := 1000 * o.timeout.toNat }

end ClientOptions

end RatingServer.CommandLine
