import RatingServer.Proofs.Channel.Schemes
import RatingServer.Proofs.Server.Calls

/-!
# Commands over the socket of control

A command may be given over a stream of its own, with the credentials inside the request.
What its sender is told is what a caller in the process of the server would be told: that
the credentials are refused, that the command was carried out, or the very reason for which
the server rejects it. The server changes as by the same call in its own process, whatever
other clients do before and after. Only a command whose line is too long is not read, and
then nothing happens.
-/

namespace RatingServer

open Wire Json

variable {ℓ : Type}

/-- The request for a command with credentials. -/
def Request.ofCommand (c : ControlCommand) (account password : String) : Request :=
  .of (.control c (some account) (some password))

/-- A line is longer than any text that is a field of its request. -/
theorem Request.length_lt_encode {r : Request} {name text : String}
    (h : (name, .str text) ∈ r.body.written.2) :
    text.toList.length < (utf8 r.encode).length := by
  have hmember : (name, .str text) ∈ (actionField, Json.str r.body.action) :: r.body.written.2 ++
      if r.binary then [(binaryField, Json.bool true)] else [] :=
    List.mem_append_left _ (List.mem_cons_of_mem _ h)
  have hline : r.encode.toList = '\x7b' :: memberChars ((actionField, .str r.body.action) ::
      r.body.written.2 ++ if r.binary then [(binaryField, .bool true)] else []) ++ ['\x7d'] :=
    toList_encode r
  have hchars := length_le_memberChars hmember
  have htext := length_lt_textOf text
  have hbytes := length_le_utf8 r.encode
  rw [hline, List.length_append, List.length_cons] at hbytes
  rw [chars] at hchars
  omega

/-- So it is longer than the account of a command. -/
theorem Request.length_lt_command (c : ControlCommand) (account password : String) :
    account.toList.length < (utf8 (ofCommand c account password).encode).length :=
  length_lt_encode (List.mem_cons_of_mem _ List.mem_cons_self)

/-- A command carries no floating-point number. -/
theorem Request.not_carries_command (c : ControlCommand) (account password : String) (x : Double) :
    ¬ (ofCommand c account password).Carries x := by
  rw [carries_iff]
  rintro ⟨m, hm, hx⟩
  change m ∈ [_, _, _] at hm
  simp only [List.mem_cons, List.not_mem_nil, or_false] at hm
  rcases hm with rfl | rfl | rfl <;> cases hx

namespace Server

variable [Listener ℓ]

/-- What a command with credentials comes to at a server: what its sender is told, and the
server afterwards. -/
inductive Obeys (v : Server ℓ) (c : ControlCommand) (account password : String) :
    Except CallError Bool → Server ℓ → Prop where
  /-- The credentials are not those of an administrator. Nothing happens. -/
  | refused : v.admitsControl account password = false → Obeys v c account password (.ok false) v
  /-- The server carries the command out. -/
  | accepted (w : Server ℓ) : v.admitsControl account password = true →
    v.control c = (.ok (), w) → Obeys v c account password (.ok true) w
  /-- The server rejects the command, for a reason that its sender is told. -/
  | rejected (e : LifecycleError) (w : Server ℓ) : v.admitsControl account password = true →
    v.control c = (.error (.lifecycle e), w) →
      Obeys v c account password (.error (.lifecycle e)) w

omit [Listener ℓ] in
/-- A server refuses a change of its state only for a reason that lies in the state. -/
theorem Refuses.lifecycle {v : Server ℓ} {t : Transition} {e : CallError} (h : v.Refuses t e) :
    ∃ r, e = .lifecycle r := by
  cases h with
  | rejected _ => exact ⟨_, rfl⟩
  | startFails _ hstart => cases hstart

/-- A command is carried out, or rejected for a reason that lies in the state. -/
theorem control_cases (v : Server ℓ) (c : ControlCommand) :
    (∃ w, v.control c = (.ok (), w)) ∨ ∃ e, v.control c = (.error (.lifecycle e), v) := by
  by_cases h : ∃ e, v.Refuses c.transition e
  · obtain ⟨e, he⟩ := h
    obtain ⟨r, rfl⟩ := Refuses.lifecycle he
    exact .inr ⟨r, call_of_refuses he⟩
  · exact .inl ⟨_, call_of_not_refuses fun e he => h ⟨e, he⟩⟩

end Server

namespace Session

variable [Listener ℓ] {s : Session}

/-- On the socket of control a command counts with its own credentials. -/
theorem answer_command (hkind : s.kind = .control) (v : Server ℓ) (c : ControlCommand)
    (account password : String) :
    s.answer v (.ofCommand c account password) =
      if v.admitsControl account password then ((command v c).1, s, (command v c).2)
      else (.result .flag false, s, v) := by
  unfold answer
  rw [hkind]
  rfl

/-- Over a stream to a session on the socket of control, a command comes to what it comes
to at the server. -/
theorem exchange_command (hkind : s.kind = .control) {c : ControlCommand}
    {account password : String}
    (hlength : (utf8 (Request.ofCommand c account password).encode).length ≤ maxLineLength)
    (v : Server ℓ) :
    ∃ response w, s.stream.exchange ServedConnection.peer (.ofCommand c account password) v =
        (.ok response, s.stream, w) ∧
      v.Obeys c account password (response.toAnswer .flag) w := by
  have hback : ∀ x, (Request.ofCommand c account password).Carries x → ReadsBack x :=
    fun x hx => absurd hx (Request.not_carries_command c account password x)
  have hexchange {response : Response} {w : Server ℓ}
      (hanswer : s.answer v (.ofCommand c account password) = (response, s, w))
      (hsend : response.Sendable false) :
      s.stream.exchange ServedConnection.peer (.ofCommand c account password) v =
        (.ok response.reset, s.stream, w) := exchange_answer hback hlength hanswer hsend
  have hanswer := answer_command hkind v c account password
  cases hadmits : v.admitsControl account password with
  | false =>
    rw [hadmits, if_neg Bool.false_ne_true] at hanswer
    exact ⟨_, _, hexchange hanswer (Response.sendable_flag false false), .refused hadmits⟩
  | true =>
    rw [hadmits, if_pos rfl] at hanswer
    obtain ⟨w, hcontrol⟩ | ⟨e, hcontrol⟩ := v.control_cases c
    · have hcommand : command v c = (.result .flag true, w) := by
        rw [command, hcontrol]
      rw [hcommand] at hanswer
      exact ⟨_, _, hexchange hanswer (Response.sendable_flag true false),
        .accepted w hadmits hcontrol⟩
    · have hcommand : command v c = (.failure (.lifecycle e), v) := by
        rw [command, hcontrol]
        rfl
      rw [hcommand] at hanswer
      exact ⟨_, _, hexchange hanswer (Response.sendable_lifecycle e false),
        .rejected e v hadmits hcontrol⟩

end Session

namespace Network

/-- A server of a network listens for commands at an address. -/
structure Commandable (n : Network ℓ) (address : String) (place : Nat) : Prop where
  /-- The address is that of its socket of control. -/
  socket : n.sockets.get? address = some ⟨place, .control⟩
  /-- The server is there. -/
  here : place < n.cluster.servers.length

/-- So there is a server that listens. -/
theorem Commandable.exists_server {n : Network ℓ} {address : String} {place : Nat}
    (h : n.Commandable address place) : ∃ v, n.cluster.servers[place]? = some v :=
  ⟨_, List.getElem?_eq_getElem h.here⟩

/-- The session of a new connection on the socket of control. -/
def controlSession (n : Network ℓ) : Session := { n.newSession with kind := .control }

variable [Listener ℓ] {n : Network ℓ} {address : String} {place : Nat}

/-- A command over a stream of its own is exchanged with a new session of the server. -/
theorem control_eq (h : n.Commandable address place) {v : Server ℓ}
    (hv : n.cluster.servers[place]? = some v) (c : ControlCommand) (account password : String) :
    OneShot.control dial serve ⟨address⟩ c account password n =
      ((n.controlSession.stream.exchange ServedConnection.peer
          (.ofCommand c account password) v).1.bind (·.toAnswer .flag),
        n.counted.withServer place (n.controlSession.stream.exchange ServedConnection.peer
          (.ofCommand c account password) v).2.2) := by
  have hdial : dial address n = (.ok ⟨place, { session := n.controlSession }⟩, n.counted) := by
    unfold dial
    rw [h.socket]
    rfl
  have hself : n.counted.withServer place v = n.counted := withServer_self hv
  have hstream : n.controlSession.stream.map (ServedBy.mk place) =
      { peer := some ⟨place, { session := n.controlSession }⟩ } := rfl
  have hrequest : Request.of (.control c (some account) (some password)) =
      .ofCommand c account password := rfl
  have hexchange := Stream.exchange_map (serve_isPart n.counted h.here)
    (.ofCommand c account password) n.controlSession.stream v
  rw [hself, hstream] at hexchange
  unfold OneShot.control OneShot.send
  dsimp only
  rw [hdial]
  dsimp only
  rw [hrequest, hexchange]

/-- A command whose line is short enough comes to what it comes to at the server. -/
theorem control_obeyed (h : n.Commandable address place) {v : Server ℓ}
    (hv : n.cluster.servers[place]? = some v) {c : ControlCommand} {account password : String}
    (hlength : (utf8 (Request.ofCommand c account password).encode).length ≤ maxLineLength) :
    ∃ w, (OneShot.control dial serve ⟨address⟩ c account password n).2 =
        n.counted.withServer place w ∧
      v.Obeys c account password
        (OneShot.control dial serve ⟨address⟩ c account password n).1 w := by
  have hkind : n.controlSession.kind = .control := rfl
  obtain ⟨response, w, hexchange, hobeys⟩ := Session.exchange_command hkind hlength v
  refine ⟨w, ?_⟩
  rw [control_eq h hv, hexchange]
  exact ⟨rfl, hobeys⟩

/-- A command whose line is too long is not read, and nothing happens. -/
theorem control_long (h : n.Commandable address place) {c : ControlCommand}
    {account password : String}
    (hlength : maxLineLength < (utf8 (Request.ofCommand c account password).encode).length) :
    OneShot.control dial serve ⟨address⟩ c account password n =
      (.error .closedByPeer, n.counted) := by
  obtain ⟨v, hv⟩ := h.exists_server
  have hself : n.counted.withServer place v = n.counted := withServer_self hv
  rw [control_eq h hv, Session.exchange_long _ _ hlength, hself]
  rfl

/-- Something that happens at a network. -/
inductive Event (ℓ : Type) where
  /-- A command is given with credentials, over a stream of its own. -/
  | command (c : ControlCommand) (account password : String)
  /-- A client opens a stream to an address. -/
  | dial (address : String)
  /-- Bytes arrive over a stream of a client, whatever was sent over it before. -/
  | arrive (p : ServedBy) (bs : Bytes)
  /-- Someone in the process of a server does anything to it. -/
  | work (place : Nat) (work : Server ℓ → Server ℓ)

/-- The command and the credentials of an event, if it is a command. -/
def Event.sent? : Event ℓ → Option (ControlCommand × String × String)
  | command c account password => some (c, account, password)
  | _ => none

/-- A command that was given. -/
structure Given (ℓ : Type) where
  /-- The network before. -/
  before : Network ℓ
  /-- The command. -/
  command : ControlCommand
  /-- The account of the credentials. -/
  account : String
  /-- The password of the credentials. -/
  password : String
  /-- What the sender is told. -/
  told : Except CallError Bool
  /-- The network afterwards. -/
  after : Network ℓ

namespace Given

/-- The command and its credentials. -/
def sent (g : Given ℓ) : ControlCommand × String × String := (g.command, g.account, g.password)

/-- The line of the command is short enough to be read. -/
def IsShort (g : Given ℓ) : Prop :=
  (utf8 (Request.ofCommand g.command g.account g.password).encode).length ≤ maxLineLength

/-- The command came to what it comes to at the server at a place, and nothing else
happened but that a session was counted. -/
def Obeyed (g : Given ℓ) (place : Nat) : Prop :=
  ∃ v w, g.before.cluster.servers[place]? = some v ∧
    g.after = g.before.counted.withServer place w ∧
    v.Obeys g.command g.account g.password g.told w

end Given

/-- What happens at a network whose commands are sent to an address. -/
def meet (address : String) (n : Network ℓ) : Event ℓ → Option (Given ℓ) × Network ℓ
  | .command c account password =>
    let (told, after) := OneShot.control dial serve ⟨address⟩ c account password n
    (some ⟨n, c, account, password, told, after⟩, after)
  | .dial address => (none, (dial address n).2)
  | .arrive p bs => (none, (serve bs p n).2.2)
  | .work place work => (none, (n.onCluster fun c => c.onServer place (fun v => ((), work v)) ()).2)

/-- The commands that are given while events happen one after another. -/
def commands (address : String) (n : Network ℓ) : List (Event ℓ) → List (Given ℓ)
  | [] => []
  | e :: es => (n.meet address e).1.toList ++ commands address (n.meet address e).2 es

omit [Listener ℓ] in
/-- Work on a server leaves the server of commands where it is. -/
theorem Commandable.onServer {α : Type} (h : n.Commandable address place) (place' : Nat)
    (work : Server ℓ → α × Server ℓ) (absent : α) :
    (n.onCluster fun c => c.onServer place' work absent).2.Commandable address place := by
  refine ⟨h.socket, ?_⟩
  show place < (n.cluster.onServer place' work absent).2.servers.length
  unfold Cluster.onServer
  split
  · exact h.here
  · rw [List.length_set]
    exact h.here

/-- So does everything that happens. -/
theorem Commandable.meet (h : n.Commandable address place) (e : Event ℓ) :
    (n.meet address e).2.Commandable address place := by
  cases e with
  | command c account password =>
    obtain ⟨v, hv⟩ := h.exists_server
    show (OneShot.control dial serve ⟨address⟩ c account password n).2.Commandable address place
    rw [control_eq h hv]
    refine ⟨h.socket, ?_⟩
    rw [withServer, List.length_set]
    exact h.here
  | dial address' =>
    show (dial address' n).2.Commandable address place
    unfold dial
    split
    · exact h
    · exact ⟨h.socket, h.here⟩
  | arrive p bs =>
    show (serve bs p n).2.2.Commandable address place
    exact h.onServer p.server (fun v =>
      (((p.connection.receive v bs).1, (p.connection.receive v bs).2.1),
        (p.connection.receive v bs).2.2)) ([], none)
  | work place' work => exact h.onServer place' (fun v => ((), work v)) ()

/-- A command that was given is obeyed, or not read if its line is too long. -/
theorem meet_obeyed (h : n.Commandable address place) {e : Event ℓ} {g : Given ℓ}
    (hg : (n.meet address e).1 = some g) :
    (g.IsShort → g.Obeyed place) ∧
      (¬ g.IsShort → g.told = .error .closedByPeer ∧ g.after = g.before.counted) := by
  cases e with
  | dial address' => cases hg
  | arrive p bs => cases hg
  | work place' work => cases hg
  | command c account password =>
    cases hg
    refine ⟨fun hshort => ?_, fun hlong => ?_⟩
    · obtain ⟨v, hv⟩ := h.exists_server
      obtain ⟨w, hafter, hobeys⟩ := control_obeyed h hv hshort
      exact ⟨v, w, hv, hafter, hobeys⟩
    · have hcontrol := control_long h (Nat.lt_of_not_le hlong)
      exact ⟨congrArg Prod.fst hcontrol, congrArg Prod.snd hcontrol⟩

/-- The commands that are given are those among the events, in their order. -/
theorem sent_commands (n : Network ℓ) (address : String) (events : List (Event ℓ)) :
    (n.commands address events).map Given.sent = events.filterMap Event.sent? := by
  induction events generalizing n with
  | nil => rfl
  | cons e es ih =>
    have hmeet : (n.meet address e).1.toList.map Given.sent = e.sent?.toList := by
      cases e <;> rfl
    rw [commands, List.map_append, hmeet, ih, List.filterMap_cons]
    cases e.sent? <;> rfl

/-- **Commands over the socket of control.** Whatever the accounts of the server and
whatever happens in between, every command whose line is not too long comes to what it
comes to at the server. Without the credentials of an administrator its sender is told no
and nothing happens. With them the server changes as by the same call in its own process,
and the sender is told yes if the server carries the command out, and the reason if it
rejects it. A command whose line is too long is not read: its sender is told that the
connection was closed, and nothing happens. -/
theorem commands_obeyed (h : n.Commandable address place) (events : List (Event ℓ)) :
    (n.commands address events).map Given.sent = events.filterMap Event.sent? ∧
      ∀ g ∈ n.commands address events,
        (g.IsShort → g.Obeyed place) ∧
          (¬ g.IsShort → g.told = .error .closedByPeer ∧ g.after = g.before.counted) := by
  refine ⟨sent_commands n address events, ?_⟩
  induction events generalizing n with
  | nil => exact fun g hg => absurd hg List.not_mem_nil
  | cons e es ih =>
    intro g hg
    rw [commands, List.mem_append, Option.mem_toList] at hg
    obtain hg | hg := hg
    · exact meet_obeyed h hg
    · exact ih (h.meet e) g hg

/-- A network with one server, which has one administrator and listens for commands. -/
def ruled : Network ExitSignal where
  cluster := { servers := [.of { accounts := Table.empty.insert "root" ⟨"secret", .admin⟩ }] }
  sockets := Table.empty.insert "h:1" ⟨0, .control⟩

/-- Its server listens at the address. -/
theorem commandable_ruled : ruled.Commandable "h:1" 0 where
  socket := by decide +kernel
  here := by decide

/-- Someone who guesses the password, the administrator twice, and a client in between. -/
def attempts : List (Event ExitSignal) :=
  [.command .start "root" "guess", .command .start "root" "secret", .dial "h:1",
    .command .start "root" "secret"]

/-- All three commands come to what they come to at the server. -/
theorem commands_obeyed_attempts :
    (ruled.commands "h:1" attempts).length = 3 ∧
      ∀ g ∈ ruled.commands "h:1" attempts, g.Obeyed 0 := by
  obtain ⟨hsent, hobeyed⟩ := commands_obeyed commandable_ruled attempts
  have hlist : attempts.filterMap Event.sent? =
      [(.start, "root", "guess"), (.start, "root", "secret"), (.start, "root", "secret")] := rfl
  rw [hlist] at hsent
  refine ⟨?_, fun g hg => (hobeyed g hg).1 ?_⟩
  · rw [← List.length_map (f := Given.sent), hsent]
    rfl
  · have hmem : g.sent ∈ (ruled.commands "h:1" attempts).map Given.sent :=
      List.mem_map_of_mem hg
    rw [hsent] at hmem
    obtain ⟨before, c, account, password, told, after⟩ := g
    simp only [Given.sent, List.mem_cons, List.not_mem_nil, or_false, Prod.mk.injEq] at hmem
    unfold Given.IsShort
    dsimp only
    rcases hmem with ⟨rfl, rfl, rfl⟩ | ⟨rfl, rfl, rfl⟩ | ⟨rfl, rfl, rfl⟩ <;> decide +kernel

/-- Nobody is told no whose name makes the line of a command too long. -/
theorem not_obeyed_of_long {account : String} (h : maxLineLength ≤ account.toList.length) :
    ¬ ∀ g ∈ ruled.commands "h:1" [.command .start account "pw"], g.Obeyed 0 := by
  intro hall
  have hlong : maxLineLength < (utf8 (Request.ofCommand .start account "pw").encode).length :=
    Nat.lt_of_le_of_lt h (Request.length_lt_command .start account "pw")
  have hmeet : (ruled.meet "h:1" (.command .start account "pw")).1 =
      some ⟨ruled, .start, account, "pw", .error .closedByPeer, ruled.counted⟩ := by
    rw [meet, control_long commandable_ruled hlong]
  have hgiven := hall ⟨ruled, .start, account, "pw", .error .closedByPeer, ruled.counted⟩ (by
    rw [commands, hmeet]
    exact List.mem_append_left _ List.mem_cons_self)
  obtain ⟨v, w, -, -, hobeys⟩ := hgiven
  cases hobeys

/-- A name of as many letters as a line may have bytes. -/
def longName : String := String.ofList (List.replicate maxLineLength 'x')

/-- Not every command comes to what it comes to at the server: who has a name that is too
long for a line is not told no. -/
theorem not_obeyed_longName :
    ¬ ∀ g ∈ ruled.commands "h:1" [.command .start longName "pw"], g.Obeyed 0 := by
  have hlength : longName.toList.length = maxLineLength := by
    rw [longName, String.toList_ofList, List.length_replicate]
  exact not_obeyed_of_long (Nat.le_of_eq hlength.symm)

end Network

end RatingServer
