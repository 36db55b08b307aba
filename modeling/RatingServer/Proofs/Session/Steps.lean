import RatingServer.Proofs.Server.Calls
import RatingServer.Session

/-!
# What one line can do

A line changes the session that handles it only if it asks for a login, and then as
the login ends. It changes the server either by a command of someone who may give it,
or only in the data of its store.
-/

namespace RatingServer

/-- What a request to validate an account asks for. -/
structure Login where
  /-- The account. -/
  account : String
  /-- The password. -/
  password : String
  /-- The privileges that are asked for. -/
  asked : Privileges
  deriving DecidableEq

namespace Login

/-- The login that a request asks for. -/
def ofRequest? (r : Request) : Option Login :=
  match r.body with
  | .operation (.validateAccount account password asked) => some ⟨account, password, asked⟩
  | _ => none

/-- The login that a line asks for. -/
def ofLine? (line : String) : Option Login :=
  match Request.decode line with
  | .ok r => ofRequest? r
  | .error _ => none

end Login

namespace Server

variable {ℓ : Type}

/-- What an operation answers a caller that has the privileges for it, on a server that
runs. -/
def served (v : Server ℓ) (op : Operation) : Response × Server ℓ :=
  (.ofAnswer op.kind (Store.perform op v.store).1,
    { v with store := (Store.perform op v.store).2 })

/-- An operation that is run against the store of a server is refused if the caller
lacks a privilege. -/
theorem dispatch_bareService {caller : Caller} {r : Request} {op : Operation}
    (hbody : r.body = .operation op) (v : Server ℓ) :
    dispatch bareService caller r v =
      if caller.privileges.contains r.body.required then v.served op
      else (.failure .permissionDenied, v) := by
  unfold dispatch
  rw [hbody]
  rfl

/-- To count an operation while it is worked on changes nothing of it. -/
theorem whileActive_dispatch {caller : Caller} {r : Request} {op : Operation}
    (hbody : r.body = .operation op) (v : Server ℓ) :
    v.whileActive (dispatch bareService caller r) = dispatch bareService caller r v := by
  unfold whileActive
  rw [dispatch_bareService hbody, dispatch_bareService hbody]
  by_cases h : caller.privileges.contains r.body.required = true
  · rw [if_pos h, if_pos h]
    rfl
  · rw [if_neg h, if_neg h]
    rfl

/-- What an operation answers a caller on the socket of the service: the server asks
first whether it runs, and then whether the caller has the privileges. -/
def worked (v : Server ℓ) (c : Caller) (op : Operation) : Response × Server ℓ :=
  if v.isRunning then
    if c.privileges.contains (Body.operation op).required then v.served op
    else (.failure .permissionDenied, v)
  else (.failure .notRunning, v)

/-- An operation that is worked on changes only the data of the store. -/
theorem worked_frame (v : Server ℓ) (c : Caller) (op : Operation) :
    ∃ data, (v.worked c op).2 = { v with store := { v.store with data } } := by
  unfold worked
  split
  · split
    · refine ⟨(Store.perform op v.store).2.data, ?_⟩
      rw [served, Store.perform_frame]
    · exact ⟨_, rfl⟩
  · exact ⟨_, rfl⟩

end Server

namespace Session

variable {ℓ : Type}

/-- The holder of a session, or the credentials in a command, may give the command:
the session is that of an administrator, or it is logged in on the socket of control,
or there the credentials are those of an administrator. -/
def MayCommand (s : Session) (v : Server ℓ) (account password : Option String) : Prop :=
  (∃ c, s.caller = some c ∧ (s.kind = .control ∨ c.privileges.isAdmin = true)) ∨
    (s.kind = .control ∧ ∃ a p, account = some a ∧ password = some p ∧
      v.admitsControl a p = true)

variable [Listener ℓ]

/-- A request for a login is answered by the login, on both sockets. -/
theorem answer_login {s : Session} {v : Server ℓ} {r : Request} {l : Login}
    (h : Login.ofRequest? r = some l) :
    s.answer v r = s.login v l.account l.password l.asked := by
  obtain ⟨body, binary⟩ := r
  unfold Login.ofRequest? at h
  split at h
  · rename_i account password asked hbody
    cases h
    unfold answer answerService answerControl
    rw [hbody]
    dsimp only
    cases s.kind <;> rfl
  · cases h

/-- The response to a command that ends in some way. -/
def ended : Except CallError Unit → Response
  | .ok () => .result .flag true
  | .error e => .failure e.toFailure

/-- A command is carried out by a call, and answered as the call ends. -/
theorem command_eq (v : Server ℓ) (c : ControlCommand) :
    command v c = (ended (v.call c.transition).1, (v.call c.transition).2) := by
  unfold command Server.control
  split <;> rename_i hcall <;> rw [hcall] <;> rfl

/-- An operation of someone who is logged in on the socket of the service is worked on. -/
theorem answerCaller_operation {r : Request} {op : Operation} (hbody : r.body = .operation op)
    (c : Caller) (v : Server ℓ) : answerCaller v c r = v.worked c op := by
  have hdispatch : dispatch Server.bareService c r v = _ := Server.dispatch_bareService hbody v
  rw [← Server.whileActive_dispatch hbody] at hdispatch
  unfold answerCaller Server.worked
  rw [hbody] at hdispatch ⊢
  dsimp only
  rw [hdispatch]

/-- The ways in which a session has a request answered, whatever the server. -/
inductive Route (ℓ : Type) [Listener ℓ] (s : Session) (r : Request) : Prop where
  /-- The session answers by itself. -/
  | idle (a : Response) : (∀ v : Server ℓ, s.answer v r = (a, s, v)) → Route ℓ s r
  /-- It asks the accounts for a login. -/
  | login (l : Login) : Login.ofRequest? r = some l →
    (∀ v : Server ℓ, s.answer v r = s.login v l.account l.password l.asked) → Route ℓ s r
  /-- On the socket of the service it has an operation of its caller worked on. -/
  | work (c : Caller) (op : Operation) : s.kind = .service → s.caller = some c →
    (∀ v : Server ℓ, s.answer v r = ((v.worked c op).1, s, (v.worked c op).2)) → Route ℓ s r
  /-- It gives a command of its caller, who may give it. -/
  | command (c : ControlCommand) (account password : Option String) (caller : Caller) :
    r.body = .control c account password → s.caller = some caller →
    s.kind = .control ∨ caller.privileges.isAdmin = true →
    (∀ v : Server ℓ, s.answer v r = ((command v c).1, s, (command v c).2)) → Route ℓ s r
  /-- On the socket of control it gives a command with credentials, if they are those of
  an administrator. -/
  | credentials (c : ControlCommand) (account password : String) :
    r.body = .control c (some account) (some password) → s.kind = .control →
    (∀ v : Server ℓ, s.answer v r =
      if v.admitsControl account password then ((command v c).1, s, (command v c).2)
      else (.result .flag false, s, v)) → Route ℓ s r

/-- Who answers a request of someone who is logged in on the socket of the service. -/
theorem route_caller {s : Session} {r : Request} {c : Caller} (hkind : s.kind = .service)
    (hcaller : s.caller = some c) (hquit : r.body ≠ .quit)
    (hanswer : ∀ v : Server ℓ, s.answer v r = ((answerCaller v c r).1, s, (answerCaller v c r).2)) :
    Route ℓ s r := by
  cases hbody : r.body with
  | quit => contradiction
  | operation op =>
    refine .work c op hkind hcaller fun v => ?_
    rw [hanswer, answerCaller_operation hbody]
  | control command account password =>
    unfold answerCaller at hanswer
    rw [hbody] at hanswer
    by_cases hadmin : c.privileges.isAdmin = true
    · refine .command command account password c hbody hcaller (.inr hadmin) fun v => ?_
      rw [hanswer]
      dsimp only
      rw [if_pos hadmin]
    · refine .idle (.failure .permissionDenied) fun v => ?_
      rw [hanswer]
      dsimp only
      rw [if_neg hadmin]
  | sessionAttribute name =>
    -- The answer is taken from the caller alone.
    unfold answerCaller dispatch at hanswer
    rw [hbody] at hanswer
    by_cases hmay : c.privileges.contains (Body.sessionAttribute name).required = true
    · refine .idle (.ofOption .text (c.attribute? name)) fun v => ?_
      rw [hanswer]
      dsimp only
      rw [if_pos hmay]
    · refine .idle (.failure .permissionDenied) fun v => ?_
      rw [hanswer]
      dsimp only
      rw [if_neg hmay]

/-- Who answers a request that is no login on the socket of the service. -/
theorem route_service {s : Session} {r : Request} (hkind : s.kind = .service)
    (hlogin : Login.ofRequest? r = none) (hquit : r.body ≠ .quit) : Route ℓ s r := by
  have hanswer : ∀ v : Server ℓ, s.answer v r =
      s.caller.elim (.failure .notAuthenticated, s, v)
        fun c => ((answerCaller v c r).1, s, (answerCaller v c r).2) := by
    intro v
    unfold answer answerService
    rw [hkind]
    split
    · contradiction
    · dsimp only
      split
      · rename_i hbody
        unfold Login.ofRequest? at hlogin
        rw [hbody] at hlogin
        cases hlogin
      · cases s.caller <;> rfl
  cases hcaller : s.caller with
  | none =>
    rw [hcaller] at hanswer
    exact .idle _ hanswer
  | some c =>
    rw [hcaller] at hanswer
    exact route_caller hkind hcaller hquit hanswer

/-- Who answers a request that is no login on the socket of control. -/
theorem route_control {s : Session} {r : Request} (hkind : s.kind = .control)
    (hlogin : Login.ofRequest? r = none) (hquit : r.body ≠ .quit) : Route ℓ s r := by
  have hanswer : ∀ v : Server ℓ, s.answer v r = s.answerControl v r := by
    intro v
    unfold answer
    rw [hkind]
    split
    · contradiction
    · rfl
  unfold answerControl at hanswer
  cases hbody : r.body with
  | quit => contradiction
  | sessionAttribute name =>
    rw [hbody] at hanswer
    exact .idle _ hanswer
  | operation op =>
    unfold Login.ofRequest? at hlogin
    rw [hbody] at hanswer hlogin
    cases op with
    | validateAccount account password asked => cases hlogin
    | _ => exact .idle _ hanswer
  | control c account password =>
    rw [hbody] at hanswer
    -- Unless the command brings both credentials, the session must be logged in.
    cases hcaller : s.caller with
    | none =>
      rw [hcaller] at hanswer
      cases account with
      | none => exact .idle _ hanswer
      | some a =>
        cases password with
        | none => exact .idle _ hanswer
        | some p => exact .credentials c a p hbody hkind hanswer
    | some caller =>
      rw [hcaller] at hanswer
      cases account with
      | none => exact .command c _ _ caller hbody hcaller (.inl hkind) hanswer
      | some a =>
        cases password with
        | none => exact .command c _ _ caller hbody hcaller (.inl hkind) hanswer
        | some p => exact .credentials c a p hbody hkind hanswer

/-- Every request is answered in one of these ways. -/
theorem route (s : Session) (r : Request) : Route ℓ s r := by
  cases hlogin : Login.ofRequest? r with
  | some l => exact .login l hlogin fun v => answer_login hlogin
  | none =>
    by_cases hquit : r.body = .quit
    · refine .idle .empty fun v => ?_
      unfold answer
      rw [hquit]
    · cases hkind : s.kind with
      | service => exact route_service hkind hlogin hquit
      | control => exact route_control hkind hlogin hquit

/-- Requests that are no login leave the session as it is. -/
theorem answer_session {s : Session} {v : Server ℓ} {r : Request}
    (h : Login.ofRequest? r = none) : (s.answer v r).2.1 = s := by
  cases route (ℓ := ℓ) s r with
  | idle a hanswer => rw [hanswer]
  | login l hlogin hanswer =>
    rw [h] at hlogin
    cases hlogin
  | work c op _ _ hanswer => rw [hanswer]
  | command c account password caller _ _ _ hanswer => rw [hanswer]
  | credentials c account password _ _ hanswer =>
    rw [hanswer]
    split <;> rfl

/-- A request changes the server by a command of someone who may give it, or only in
the data of its store. -/
theorem answer_server (s : Session) (v : Server ℓ) (r : Request) :
    (∃ c account password, r.body = .control c account password ∧
      s.MayCommand v account password ∧ (s.answer v r).2.2 = (v.control c).2) ∨
        ∃ data, (s.answer v r).2.2 = { v with store := { v.store with data } } := by
  have hcommand : ∀ c, (command v c).2 = (v.control c).2 :=
    fun c => congrArg Prod.snd (command_eq v c)
  cases route (ℓ := ℓ) s r with
  | idle a hanswer =>
    rw [hanswer]
    exact .inr ⟨_, rfl⟩
  | login l _ hanswer =>
    rw [hanswer]
    exact .inr ⟨_, rfl⟩
  | work c op _ _ hanswer =>
    rw [hanswer]
    exact .inr (v.worked_frame c op)
  | command c account password caller hbody hcaller hmay hanswer =>
    rw [hanswer]
    exact .inl ⟨c, account, password, hbody, .inl ⟨caller, hcaller, hmay⟩, hcommand c⟩
  | credentials c account password hbody hkind hanswer =>
    rw [hanswer]
    by_cases hadmits : v.admitsControl account password = true
    · rw [if_pos hadmits]
      exact .inl ⟨c, some account, some password, hbody,
        .inr ⟨hkind, account, password, rfl, rfl, hadmits⟩, hcommand c⟩
    · rw [if_neg hadmits]
      exact .inr ⟨_, rfl⟩

/-- A request keeps the accounts of the server. -/
theorem answer_accounts (s : Session) (v : Server ℓ) (r : Request) :
    (s.answer v r).2.2.accounts = v.accounts := by
  rcases answer_server s v r with ⟨c, account, password, -, -, h⟩ | ⟨data, h⟩
  · rw [h]
    exact Server.call_accounts v c.transition
  · rw [h]
    rfl

end Session

end RatingServer
