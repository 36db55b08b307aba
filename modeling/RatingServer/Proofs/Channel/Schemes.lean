import RatingServer.Proofs.Channel.Transparency
import RatingServer.Proofs.Connection.Relocation
import RatingServer.Proofs.Connection.Transmissions

/-!
# The service by either scheme

A server may be reached by a socket and through a gateway of the same process. By both
schemes the same accounts are let in, and what they ask for has the same effect. The
answers differ in one point: a connection over a socket logs in with the privilege to
use the service and no other, a binding also with the privilege to use evaluators if the
account has it. So who may use evaluators is refused them over a socket.
-/

namespace RatingServer

open Wire Json

variable {ℓ : Type}

namespace Network

/-- The network with another server at a place. -/
def withServer (n : Network ℓ) (place : Nat) (v : Server ℓ) : Network ℓ :=
  { n with cluster := { n.cluster with servers := n.cluster.servers.set place v } }

/-- A network has the server that it has. -/
theorem withServer_self {n : Network ℓ} {place : Nat} {v : Server ℓ}
    (h : n.cluster.servers[place]? = some v) : n.withServer place v = n := by
  have hset : n.cluster.servers.set place v = n.cluster.servers := by
    rw [List.getElem?_eq_some_iff] at h
    obtain ⟨hlt, rfl⟩ := h
    exact List.set_getElem_self hlt
  unfold withServer
  rw [hset]

/-- Work on the server at a place. -/
theorem onCluster_onServer {α : Type} (n : Network ℓ) {place : Nat}
    (h : place < n.cluster.servers.length) (v : Server ℓ) (work : Server ℓ → α × Server ℓ)
    (absent : α) :
    ((n.withServer place v).onCluster fun c => c.onServer place work absent) =
      ((work v).1, n.withServer place (work v).2) := by
  have hget : (n.withServer place v).cluster.servers[place]? = some v :=
    List.getElem?_set_self h
  have hset : (n.withServer place v).cluster.servers.set place (work v).2 =
      n.cluster.servers.set place (work v).2 := List.set_set ..
  unfold onCluster Cluster.onServer
  dsimp only
  rw [hget]
  dsimp only
  rw [hset]
  rfl

/-- A server of a network serves its connections as it does alone. -/
theorem serve_isPart [Listener ℓ] (n : Network ℓ) {place : Nat}
    (h : place < n.cluster.servers.length) :
    (ServedConnection.peer : Peer ServedConnection (Server ℓ)).IsPart serve (ServedBy.mk place)
      (n.withServer place) := by
  intro bs p v
  unfold serve
  dsimp only
  rw [onCluster_onServer n h]
  rfl

/-- So it does with what is bound to it. -/
theorem boundService_isPart (n : Network ℓ) {place : Nat}
    (h : place < n.cluster.servers.length) :
    (Server.runningService : Service (Server ℓ)).IsPart (boundService place)
      (n.withServer place) :=
  fun op v => onCluster_onServer n h v (Server.runningService op) (.error .notConnected)

/-- A server of a network that runs and is reached by either scheme. -/
structure Reached (n : Network ℓ) (place : Nat) (host : String) (port : UInt16)
    (v : Server ℓ) : Prop where
  /-- The server is there. -/
  here : n.cluster.servers[place]? = some v
  /-- It runs. -/
  running : v.isRunning = true
  /-- It listens for the service at a socket. -/
  socket : n.sockets.get? (Endpoint.gateway .socket host port).socketAddress =
    some ⟨place, .service⟩
  /-- A gateway leads to it. -/
  gateway : ∃ g, n.cluster.lookup (Endpoint.gateway .inProcess host port).text = .ok g ∧
    n.cluster.target? g = some place

/-- The network after one more session. -/
def counted (n : Network ℓ) : Network ℓ := { n with sessions := n.sessions + 1 }

end Network

namespace Network

variable {n : Network ℓ} {place : Nat} {host : String} {port : UInt16} {v : Server ℓ}
variable {info : ConnectInfo} {path : Option String}

/-- The request by which a connection over a socket logs in. -/
def loginOf (info : ConnectInfo) : Request :=
  .of (.operation (.validateAccount info.account info.password .access))

/-- The session of a new connection over a socket. -/
def newSession (n : Network ℓ) : Session where
  id := n.sessions.repr
  kind := .service
  peer := .loopback 0

/-- The session of a connection over a socket that was logged in. -/
def sessionOf (n : Network ℓ) (info : ConnectInfo) : Session :=
  { n.newSession with
    caller := some ((Caller.ofSession n.sessions.repr info.account .access).setAttribute
      Caller.peerAddressAttribute (SocketAddress.loopback 0).text) }

/-- The client over a socket that was logged in. -/
def socketOf (n : Network ℓ) (place : Nat) (info : ConnectInfo) : Client :=
  .socket ((Connection.attached (n.sessionOf info)).map (ServedBy.mk place))

/-- The binding to a server, with the privilege to use evaluators if the account has it. -/
def bindingOf (n : Network ℓ) (info : ConnectInfo) (v : Server ℓ) : LocalBinding where
  caller := .ofSession n.sessions.repr info.account
    (boundPrivileges (v.accounts.validate info.account info.password .evaluate))

/-- The account may use the service, and the login is not too long for a line. -/
def LetsIn (v : Server ℓ) (info : ConnectInfo) : Prop :=
  v.accounts.validate info.account info.password .access = true ∧
    (utf8 (loginOf info).encode).length ≤ maxLineLength

/-- A new session lets an account in that has the password and may use the service. -/
theorem authenticate_newSession (n : Network ℓ) (info : ConnectInfo) (accounts : Accounts) :
    n.newSession.authenticate accounts info.account info.password
        (.access ||| n.newSession.kind.privileges) =
      if accounts.validate info.account info.password .access then (true, n.sessionOf info)
      else (false, n.newSession) := by
  have hasked : Privileges.access ||| n.newSession.kind.privileges = .access := by
    show Privileges.access ||| Privileges.access = .access
    decide
  rw [hasked]
  rfl

/-- A new connection over a socket leads to a new session of the server. -/
theorem dial_socket (h : n.Reached place host port v) :
    Connection.connect dial (Endpoint.gateway .socket host port).socketAddress n =
      (.ok ((Connection.ofPeer { session := n.newSession }).map (ServedBy.mk place)),
        n.counted) := by
  unfold Connection.connect dial
  rw [h.socket]
  rfl

variable [Listener ℓ]

/-- Whoever is let in is logged in on a new connection. -/
theorem authenticate_of_letsIn (h : LetsIn v info) (n : Network ℓ) :
    (Connection.ofPeer { session := n.newSession }).authenticate ServedConnection.peer
      info.account info.password .access v = (.ok (), Connection.attached (n.sessionOf info), v) := by
  rw [Connection.authenticate_session (s := n.newSession) rfl h.2, authenticate_newSession,
    if_pos h.1]
  rfl

/-- Whoever is not let in is not logged in on it. -/
theorem authenticate_of_not_letsIn (h : ¬ LetsIn v info) (n : Network ℓ) :
    ∃ e c, (Connection.ofPeer { session := n.newSession }).authenticate ServedConnection.peer
      info.account info.password .access v = (.error e, c, v) ∧ c.authenticated = false := by
  by_cases hlength : (utf8 (loginOf info).encode).length ≤ maxLineLength
  · have hinvalid : ¬ v.accounts.validate info.account info.password .access = true :=
      fun hvalid => h ⟨hvalid, hlength⟩
    rw [Connection.authenticate_session (s := n.newSession) rfl hlength, authenticate_newSession,
      if_neg hinvalid]
    exact ⟨_, _, rfl, rfl⟩
  · rw [Connection.authenticate_long (s := n.newSession) rfl (Nat.lt_of_not_le hlength)]
    exact ⟨_, _, rfl, rfl⟩

/-- The login of a new connection over a socket is that of its session. -/
theorem login_socket (h : n.Reached place host port v) {outcome : Except CallError Unit}
    {c : Connection ServedConnection}
    (hlogin : (Connection.ofPeer { session := n.newSession }).authenticate ServedConnection.peer
      info.account info.password .access v = (outcome, c, v)) :
    ((Connection.ofPeer { session := n.newSession }).map (ServedBy.mk place)).authenticate serve
      info.account info.password .access n.counted =
        (outcome, c.map (ServedBy.mk place), n.counted) := by
  have hself : n.counted.withServer place v = n.counted := withServer_self h.here
  have hplace : place < n.counted.cluster.servers.length :=
    (List.getElem?_eq_some_iff.mp h.here).1
  have hnetwork := Connection.authenticate_map (serve_isPart n.counted hplace) info.account
    info.password .access (.ofPeer { session := n.newSession }) v
  rw [hself, hlogin, hself] at hnetwork
  exact hnetwork

/-- A connection over a socket is opened by a login. If that fails it is closed, without a
farewell as it is not logged in. -/
theorem connect_socket (h : n.Reached place host port v)
    (hinfo : info.endpoint = .ok ⟨.socket, host, port, path⟩)
    {outcome : Except CallError Unit} {c : Connection ServedConnection}
    (hlogin : (Connection.ofPeer { session := n.newSession }).authenticate ServedConnection.peer
      info.account info.password .access v = (outcome, c, v))
    (hfailed : ∀ e, outcome = .error e → c.authenticated = false) :
    n.connect info = (outcome.map fun _ => .socket (c.map (ServedBy.mk place)), n.counted) := by
  have haddress : (⟨.socket, host, port, path⟩ : Endpoint).socketAddress =
      (Endpoint.gateway .socket host port).socketAddress := rfl
  have hopen : Connection.openFor dial serve info n =
      (outcome.map fun _ => c.map (ServedBy.mk place), n.counted) := by
    unfold Connection.openFor
    rw [hinfo]
    dsimp only
    rw [haddress, dial_socket h]
    dsimp only
    rw [login_socket h hlogin]
    cases outcome with
    | ok _ => rfl
    | error e =>
      have hclose := Connection.world_close serve (c.map (ServedBy.mk place)) n.counted
      have hauth : (c.map (ServedBy.mk place)).authenticated = false := hfailed e rfl
      rw [hauth, if_neg Bool.false_ne_true] at hclose
      dsimp only
      rw [hclose]
      rfl
  unfold connect
  rw [hinfo]
  dsimp only
  rw [hopen]
  cases outcome <;> rfl

/-- Over a socket an account is let in that may use the service. -/
theorem connect_socket_of_letsIn (h : n.Reached place host port v)
    (hinfo : info.endpoint = .ok ⟨.socket, host, port, path⟩) (hin : LetsIn v info) :
    n.connect info = (.ok (n.socketOf place info), n.counted) :=
  connect_socket h hinfo (authenticate_of_letsIn hin n) nofun

/-- Through a gateway an account is let in if it has the password and may use the
service. -/
theorem connect_inProcess (h : n.Reached place host port v)
    (hinfo : info.endpoint = .ok ⟨.inProcess, host, port, path⟩) :
    n.connect info =
      if v.accounts.validate info.account info.password .access then
        (.ok (.bound place (n.bindingOf info v)), n.counted)
      else (.error (.gatewayRefused (Endpoint.gateway .inProcess host port).text info.account),
        n) := by
  obtain ⟨g, hlookup, htarget⟩ := h.gateway
  have hplace : place < n.cluster.servers.length := (List.getElem?_eq_some_iff.mp h.here).1
  have huse : n.cluster.remoteService? g info.account info.password =
      if v.accounts.validate info.account info.password .access then some place else none := by
    unfold Cluster.remoteService?
    rw [htarget, Option.filter, h.here]
    simp only [Option.any, Server.admitsUse, h.running, Bool.and_true]
  have hprobe : boundService place (.validateAccount info.account info.password .evaluate) n =
      (.ok (v.accounts.validate info.account info.password .evaluate), n) := by
    have hpart := boundService_isPart n hplace
      (.validateAccount info.account info.password .evaluate) v
    rw [withServer_self h.here] at hpart
    exact hpart.trans (congrArg _ (withServer_self h.here))
  unfold connect bindService
  rw [hinfo]
  dsimp only
  rw [hlookup]
  dsimp only
  rw [huse]
  cases v.accounts.validate info.account info.password .access with
  | false => rfl
  | true =>
    simp only [if_true]
    rw [hprobe]
    rfl

end Network

/-- What an operation that needs the privilege for evaluators leaves of a store: all. -/
theorem Store.perform_evaluate {op : Operation} (h : (Body.operation op).required = .evaluate)
    (s : Store) : (Store.perform op s).2 = s := by
  rw [Body.required_operation_eq] at h
  cases op with
  | evaluator name => rfl
  | evaluatorNames => rfl
  | validateAccount account password privileges => exact absurd h (by decide : Privileges.none ≠ _)
  | _ => exact absurd h (by decide : Privileges.access ≠ _)

/-- Such an operation does not fail. -/
theorem Store.ofAnswer_evaluate_ne {op : Operation}
    (h : (Body.operation op).required = .evaluate) (s : Store) (f : Failure) :
    Response.ofAnswer op.kind (Store.perform op s).1 ≠ .failure f := by
  rw [Body.required_operation_eq] at h
  cases op with
  | evaluator name =>
    show Response.ofOption .evaluator (s.evaluators.get? name) ≠ _
    cases s.evaluators.get? name <;> nofun
  | evaluatorNames => nofun
  | validateAccount account password privileges => exact absurd h (by decide : Privileges.none ≠ _)
  | _ => exact absurd h (by decide : Privileges.access ≠ _)

namespace Server

/-- What a running server answers the holder of privileges. -/
def servedFor (v : Server ℓ) (privileges : Privileges) (op : Operation) : Response × Server ℓ :=
  if privileges.contains (Body.operation op).required then v.served op
  else (.failure .permissionDenied, v)

/-- An operation has the same effect for someone who may use the service and for someone
who may use evaluators as well, since no operation on evaluators has one. The responses
differ just where the privilege for evaluators is needed and held. -/
theorem servedFor_access (v : Server ℓ) {op : Operation}
    (hop : ∀ account password privileges, op ≠ .validateAccount account password privileges)
    (mayEvaluate : Bool) :
    (v.servedFor .access op).2 = (v.servedFor (Network.boundPrivileges mayEvaluate) op).2 ∧
      ((v.servedFor .access op).1 = (v.servedFor (Network.boundPrivileges mayEvaluate) op).1 ↔
        ¬ ((Body.operation op).required = .evaluate ∧ mayEvaluate = true)) := by
  obtain haccess | hevaluate := Body.required_operation hop
  · have hbound : (Network.boundPrivileges mayEvaluate).contains .access = true := by
      cases mayEvaluate <;> decide
    have hown : Privileges.contains .access .access = true := by decide
    have hother : Privileges.access ≠ .evaluate := by decide
    unfold servedFor
    rw [haccess, if_pos hown, if_pos hbound]
    exact ⟨rfl, fun _ h => hother h.1, fun _ => rfl⟩
  · have hown : ¬ Privileges.contains .access .evaluate = true := by decide
    have hkept : (v.served op).2 = v := by
      show { v with store := (Store.perform op v.store).2 } = v
      rw [Store.perform_evaluate hevaluate]
    unfold servedFor
    rw [hevaluate, if_neg hown]
    cases mayEvaluate with
    | false =>
      have hbound : ¬ (Network.boundPrivileges false).contains .evaluate = true := by decide
      rw [if_neg hbound]
      exact ⟨rfl, fun _ h => Bool.false_ne_true h.2, fun _ => rfl⟩
    | true =>
      have hbound : (Network.boundPrivileges true).contains .evaluate = true := by decide
      rw [if_pos hbound]
      refine ⟨hkept.symm, fun h => ?_, fun h => absurd ⟨rfl, rfl⟩ h⟩
      exact absurd h.symm (Store.ofAnswer_evaluate_ne hevaluate v.store _)

end Server

/-- A request for an operation and what the server answers pass over a connection as they
are: they are not too long, and their numbers read back. -/
structure Operation.PassesOver (op : Operation) (r : Request) (v : Server ℓ) : Prop where
  /-- The numbers of the request read back. -/
  reads : ∀ x, r.Carries x → ReadsBack x
  /-- The request is not too long for a line. -/
  fits : (utf8 r.encode).length ≤ maxLineLength
  /-- The response can be sent. -/
  answered : (v.served op).1.Sendable r.binary

namespace Client

variable [Listener ℓ] {m : Network ℓ} {place : Nat} {v : Server ℓ} {r : Request} {op : Operation}

/-- What is asked over a socket for is what the session has the privileges for. -/
theorem send_socket {s : Session} {caller : Caller} (hkind : s.kind = .service)
    (hcaller : s.caller = some caller) (hhere : m.cluster.servers[place]? = some v)
    (hrunning : v.isRunning = true) (hbody : r.body = .operation op)
    (hop : ∀ account password privileges, op ≠ .validateAccount account password privileges)
    (hpasses : op.PassesOver r v) :
    send r (.socket ((Connection.attached s).map (ServedBy.mk place))) m =
      (.ok (v.servedFor caller.privileges op).1,
        .socket ((Connection.attached s).map (ServedBy.mk place)),
        m.withServer place (v.servedFor caller.privileges op).2) := by
  have hplace : place < m.cluster.servers.length := (List.getElem?_eq_some_iff.mp hhere).1
  have hquit : r.body ≠ .quit := by
    rw [hbody]
    nofun
  have hanswer : s.answer v r = ((v.servedFor caller.privileges op).1, s,
      (v.servedFor caller.privileges op).2) := by
    rw [Session.answer_service hbody hop hkind hcaller, if_pos hrunning, hbody]
    rfl
  have hsend : (v.servedFor caller.privileges op).1.Sendable r.binary := by
    unfold Server.servedFor
    split
    · exact hpasses.answered
    · exact Response.sendable_denied r.binary
  have hreset : (v.servedFor caller.privileges op).1.reset = (v.servedFor caller.privileges op).1 := by
    unfold Server.servedFor
    split
    · exact Store.reset_ofAnswer_perform op v.store
    · rfl
  have hlocal := Connection.send_attached hquit hpasses.reads hpasses.fits hanswer hsend
  have hnetwork := Connection.send_map (Network.serve_isPart m hplace) r (Connection.attached s) v
  rw [Network.withServer_self hhere, hlocal, hreset] at hnetwork
  unfold send
  dsimp only
  rw [hnetwork]

/-- What is asked over a binding for is what its caller has the privileges for. -/
theorem send_bound {b : LocalBinding} (hopen : b.isOpen = true)
    (hhere : m.cluster.servers[place]? = some v) (hrunning : v.isRunning = true)
    (hbody : r.body = .operation op)
    (hop : ∀ account password privileges, op ≠ .validateAccount account password privileges) :
    send r (.bound place b) m =
      (.ok (v.servedFor b.caller.privileges op).1, .bound place b,
        m.withServer place (v.servedFor b.caller.privileges op).2) := by
  have hplace : place < m.cluster.servers.length := (List.getElem?_eq_some_iff.mp hhere).1
  have hlocal : b.send Server.runningService r v =
      (.ok (v.servedFor b.caller.privileges op).1, b, (v.servedFor b.caller.privileges op).2) := by
    rw [LocalBinding.send_service hbody hop hopen, if_pos hrunning, hbody]
    rfl
  have hnetwork := LocalBinding.send_put (Network.boundService_isPart m hplace) r b v
  rw [Network.withServer_self hhere, hlocal] at hnetwork
  unfold send
  dsimp only
  rw [hnetwork]

end Client

/-- A running server lets the same accounts in by either scheme, but for a login over a
socket that is too long for a line. To both clients, on any network in which the server
still runs, every operation but a login has the same effect. The clients stay as they are,
and they get the same response unless the operation is one on evaluators and the account
had the privilege for it. The request and its answer are to pass over a connection as they
are. -/
theorem Network.service_by_either_scheme [Listener ℓ] {n : Network ℓ} {place : Nat}
    {host : String} {port : UInt16} {v : Server ℓ} (hreached : n.Reached place host port v)
    {overSocket inProcess : ConnectInfo} {path path' : Option String}
    (hsocket : overSocket.endpoint = .ok ⟨.socket, host, port, path⟩)
    (hlocal : inProcess.endpoint = .ok ⟨.inProcess, host, port, path'⟩)
    (haccount : overSocket.account = inProcess.account)
    (hpassword : overSocket.password = inProcess.password) :
    ((n.connect overSocket).1.isOk = true ↔
      (n.connect inProcess).1.isOk = true ∧
        (utf8 (loginOf overSocket).encode).length ≤ maxLineLength) ∧
    ∀ c b n₁ n₂, n.connect overSocket = (.ok c, n₁) → n.connect inProcess = (.ok b, n₂) →
      n₁ = n₂ ∧
      ∀ (m : Network ℓ) (w : Server ℓ) (r : Request) (op : Operation),
        m.cluster.servers[place]? = some w → w.isRunning = true → r.body = .operation op →
        (∀ account password privileges, op ≠ .validateAccount account password privileges) →
        op.PassesOver r w →
          (Client.send r c m).2.1 = c ∧ (Client.send r b m).2.1 = b ∧
          (Client.send r c m).2.2 = (Client.send r b m).2.2 ∧
          ((Client.send r c m).1 = (Client.send r b m).1 ↔
            ¬ (r.body.required = .evaluate ∧
              v.accounts.validate inProcess.account inProcess.password .evaluate = true)) := by
  have hbinding := connect_inProcess hreached hlocal
  by_cases hin : LetsIn v overSocket
  · have hconnection := connect_socket_of_letsIn hreached hsocket hin
    have hvalid := hin.1
    rw [haccount, hpassword] at hvalid
    rw [if_pos hvalid] at hbinding
    rw [hconnection, hbinding]
    refine ⟨⟨fun _ => ⟨rfl, hin.2⟩, fun _ => rfl⟩, ?_⟩
    rintro c b n₁ n₂ hc hb
    cases hc
    cases hb
    refine ⟨rfl, fun m w r op hhere hrunning hbody hop hpasses => ?_⟩
    rw [socketOf, Client.send_socket rfl rfl hhere hrunning hbody hop hpasses,
      Client.send_bound rfl hhere hrunning hbody hop]
    obtain ⟨hserver, hresponse⟩ := w.servedFor_access hop
      (v.accounts.validate inProcess.account inProcess.password .evaluate)
    refine ⟨rfl, rfl, congrArg (m.withServer place) hserver, ?_⟩
    rw [hbody, ← hresponse]
    exact ⟨Except.ok.inj, congrArg Except.ok⟩
  · obtain ⟨e, c, hlogin, hauth⟩ := authenticate_of_not_letsIn hin n
    have hconnection := connect_socket hreached hsocket hlogin fun _ _ => hauth
    rw [hconnection]
    refine ⟨⟨nofun, fun ⟨hok, hlength⟩ => absurd ⟨?_, hlength⟩ hin⟩, fun _ _ _ _ hc => ?_⟩
    · rw [haccount, hpassword]
      refine Decidable.byContradiction fun hinvalid => ?_
      rw [hbinding, if_neg hinvalid] at hok
      cases hok
    · cases hc

namespace Network

/-- A running server with one evaluator and one account, which may use evaluators. -/
def scoring : Server ExitSignal :=
  ((Server.of { accounts := Table.empty.insert "scorer" ⟨"pw", .evaluate⟩,
                evaluators := .ofNames ["rmse"] "localhost" 10158 }).control .start).2

/-- A network in which the server is reached by either scheme. -/
def scoringNetwork : Network ExitSignal where
  cluster := { servers := [scoring],
               registry := Table.empty.insert "local://h:1/gateway" (.server 0) }
  sockets := Table.empty.insert "h:1" ⟨0, .service⟩

/-- The way to the server of the holder of the account. -/
def scorerAt (uri : String) : ConnectInfo :=
  { account := "scorer", password := "pw", connectUri := uri }

/-- The server is reached. -/
theorem reached_scoring : scoringNetwork.Reached 0 "h" 1 scoring where
  here := rfl
  running := by decide +kernel
  socket := by decide +kernel
  gateway := ⟨.server 0, rfl, rfl⟩

/-- The holder of the account is let in. -/
theorem letsIn_scoring : LetsIn scoring (scorerAt "hdp://h:1") :=
  ⟨by decide +kernel, by decide +kernel⟩

/-- The holder of the account asks by either scheme for the users. -/
theorem service_by_either_scheme_sample :
    ∃ c b n₁, scoringNetwork.connect (scorerAt "hdp://h:1") = (.ok c, n₁) ∧
      scoringNetwork.connect (scorerAt "local://h:1") = (.ok b, n₁) ∧
      (Client.send (.of (.operation (.ids .user))) c scoringNetwork).1 =
        (Client.send (.of (.operation (.ids .user))) b scoringNetwork).1 := by
  have hsocket : (scorerAt "hdp://h:1").endpoint = .ok ⟨.socket, "h", 1, none⟩ := rfl
  have hlocal : (scorerAt "local://h:1").endpoint = .ok ⟨.inProcess, "h", 1, none⟩ := rfl
  have hpasses : (Operation.ids .user).PassesOver (.of (.operation (.ids .user))) scoring := by
    refine ⟨nofun, by decide +kernel, ?_⟩
    exact Response.sendable_empty false
  obtain ⟨-, hboth⟩ := service_by_either_scheme reached_scoring hsocket hlocal rfl rfl
  have hconnection := connect_socket_of_letsIn reached_scoring hsocket letsIn_scoring
  have hbinding := connect_inProcess reached_scoring hlocal
  rw [if_pos (by decide +kernel)] at hbinding
  obtain ⟨-, hask⟩ := hboth _ _ _ _ hconnection hbinding
  obtain ⟨-, -, -, hresponse⟩ := hask scoringNetwork scoring (.of (.operation (.ids .user)))
    (.ids .user) rfl (by decide +kernel) rfl nofun hpasses
  exact ⟨_, _, _, hconnection, hbinding, hresponse.mpr fun h => absurd h.1 (by decide)⟩

/-- The holder of the account asks by either scheme for the names of the evaluators. Over
the socket this is refused. -/
theorem schemes_differ :
    ¬ ∀ (n : Network ExitSignal) (place : Nat) (host : String) (port : UInt16)
      (v : Server ExitSignal) (overSocket inProcess : ConnectInfo) (path path' : Option String),
        n.Reached place host port v →
        overSocket.endpoint = .ok ⟨.socket, host, port, path⟩ →
        inProcess.endpoint = .ok ⟨.inProcess, host, port, path'⟩ →
        overSocket.account = inProcess.account → overSocket.password = inProcess.password →
          ∀ c b n₁ n₂, n.connect overSocket = (.ok c, n₁) → n.connect inProcess = (.ok b, n₂) →
            ∀ (m : Network ExitSignal) (w : Server ExitSignal) (r : Request) (op : Operation),
              m.cluster.servers[place]? = some w → w.isRunning = true →
              r.body = .operation op →
              (∀ account password privileges, op ≠ .validateAccount account password privileges) →
              op.PassesOver r w → (Client.send r c m).1 = (Client.send r b m).1 := by
  intro hall
  have hsocket : (scorerAt "hdp://h:1").endpoint = .ok ⟨.socket, "h", 1, none⟩ := rfl
  have hlocal : (scorerAt "local://h:1").endpoint = .ok ⟨.inProcess, "h", 1, none⟩ := rfl
  have hrunning := reached_scoring.running
  have hop : ∀ account password privileges,
      Operation.evaluatorNames ≠ .validateAccount account password privileges := nofun
  have hpasses : Operation.evaluatorNames.PassesOver (.of (.operation .evaluatorNames)) scoring :=
    ⟨nofun, by decide +kernel, by decide +kernel, nofun⟩
  have hconnection := connect_socket_of_letsIn reached_scoring hsocket letsIn_scoring
  have hbinding := connect_inProcess reached_scoring hlocal
  rw [if_pos (by decide +kernel)] at hbinding
  have hsame := hall _ _ _ _ _ _ _ _ _ reached_scoring hsocket hlocal rfl rfl _ _ _ _ hconnection
    hbinding scoringNetwork scoring (.of (.operation .evaluatorNames)) .evaluatorNames rfl hrunning
    rfl hop hpasses
  rw [socketOf, Client.send_socket rfl rfl rfl hrunning rfl hop hpasses,
    Client.send_bound rfl rfl hrunning rfl hop] at hsame
  exact (scoring.servedFor_access hop (scoring.accounts.validate "scorer" "pw" .evaluate)).2.mp
    (Except.ok.inj hsame) ⟨rfl, by decide +kernel⟩

end Network

end RatingServer
