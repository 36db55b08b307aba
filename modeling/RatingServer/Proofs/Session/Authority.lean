import RatingServer.Launch
import RatingServer.Proofs.Request.Lines
import RatingServer.Proofs.Session.Steps

/-!
# What sessions may do

Any number of sessions on the two sockets of one server handle lines in any order. A
session that is logged in then holds exactly what its last login asked for and its
account has, a failed login leaves it logged out, and only an administrator changes
the lifecycle of the server.
-/

namespace RatingServer

/-- The privileges of a mask are among those of a mask that is made with it. -/
theorem Privileges.contains_union (p q : Privileges) : (p ||| q).contains q = true := by
  have hbits : (p.bits ||| q.bits) &&& q.bits = q.bits := by
    rw [← UInt32.toBitVec_inj, UInt32.toBitVec_and, UInt32.toBitVec_or]
    ext i
    rw [BitVec.getElem_and, BitVec.getElem_or]
    cases p.bits.toBitVec[i] <;> cases q.bits.toBitVec[i] <;> rfl
  exact decide_eq_true hbits

namespace Session

variable {ℓ : Type}

/-- Whoever is logged in on a session is explained by a login: the account has the
password and all privileges of the session, and these are the privileges that were
asked for and those of the socket. -/
def ExplainedBy (s : Session) (accounts : Accounts) (last : Option Login) : Prop :=
  ∀ c, s.caller = some c → ∃ l, last = some l ∧ c.account = l.account ∧
    c.privileges = l.asked ||| s.kind.privileges ∧
      accounts.validate l.account l.password c.privileges = true

/-- After a login the session is explained by it. -/
theorem explainedBy_login (s : Session) (v : Server ℓ) (l : Login) :
    (s.login v l.account l.password l.asked).2.1.ExplainedBy v.accounts (some l) := by
  intro c hc
  unfold login authenticate at hc ⊢
  by_cases hvalid : v.accounts.validate l.account l.password (l.asked ||| s.kind.privileges) = true
  · rw [if_pos hvalid] at hc ⊢
    cases hc
    exact ⟨l, rfl, rfl, rfl, hvalid⟩
  · rw [if_neg hvalid] at hc
    cases hc

/-- A login that is not answered with true leaves the session logged out. -/
theorem caller_failed_login {s : Session} {v : Server ℓ} {l : Login}
    (h : (s.login v l.account l.password l.asked).1 ≠ .result .flag true) :
    (s.login v l.account l.password l.asked).2.1.caller = none := by
  unfold login authenticate at h ⊢
  by_cases hvalid : v.accounts.validate l.account l.password (l.asked ||| s.kind.privileges) = true
  · rw [if_pos hvalid] at h
    exact absurd rfl h
  · rw [if_neg hvalid]

/-- Whoever may give a command on a session that is explained by a login is an
administrator, or gives the credentials of one on the socket of control. -/
theorem MayCommand.admin {s : Session} {v : Server ℓ} {last : Option Login}
    {account password : Option String} (h : s.MayCommand v account password)
    (hs : s.ExplainedBy v.accounts last) :
    (∃ c, s.caller = some c ∧ c.privileges.isAdmin = true) ∨
      (s.kind = .control ∧ ∃ a p, account = some a ∧ password = some p ∧
        v.accounts.validate a p .admin = true) := by
  rcases h with ⟨c, hc, hkind | hadmin⟩ | h
  · obtain ⟨l, -, -, hprivileges, -⟩ := hs c hc
    refine .inl ⟨c, hc, ?_⟩
    rw [hprivileges, hkind]
    exact Privileges.contains_union l.asked .admin
  · exact .inl ⟨c, hc, hadmin⟩
  · exact .inr h

variable [Listener ℓ]

/-- A line that asks for a login is handled by the login. -/
theorem handleLine_login {s : Session} {v : Server ℓ} {line : String} {l : Login}
    (h : Login.ofLine? line = some l) :
    (s.handleLine v line).2 = (s.login v l.account l.password l.asked).2 := by
  unfold Login.ofLine? at h
  unfold handleLine
  split at h
  · rename_i r hr
    rw [hr]
    dsimp only
    rw [answer_login h]
  · cases h

/-- Other lines leave the session as it is. -/
theorem handleLine_session {s : Session} {v : Server ℓ} {line : String}
    (h : Login.ofLine? line = none) : (s.handleLine v line).2.1 = s := by
  unfold Login.ofLine? at h
  unfold handleLine
  split at h
  · rename_i r hr
    rw [hr]
    exact answer_session h
  · rename_i e he
    rw [he]

/-- A line keeps the accounts of the server. -/
theorem handleLine_accounts (s : Session) (v : Server ℓ) (line : String) :
    (s.handleLine v line).2.2.accounts = v.accounts := by
  unfold handleLine
  split
  · rfl
  · exact answer_accounts s v _

end Session

/-- A server with the sessions on its sockets. -/
structure Attended (ℓ : Type) where
  /-- The server. -/
  server : Server ℓ
  /-- The sessions. -/
  sessions : List Session

/-- A line that comes in on the session of a place. -/
structure Incoming where
  /-- The place of the session. -/
  place : Nat
  /-- The line. -/
  line : String
  deriving DecidableEq, Repr

/-- The login that the last of some lines on a session asked for which asked for one. -/
def lastLogin (place : Nat) (incoming : List Incoming) : Option Login :=
  incoming.reverse.findSome? fun e => if e.place = place then Login.ofLine? e.line else none

namespace Attended

variable {ℓ : Type}

/-- The invariant: the accounts are those of the beginning, and every session is
explained by its last login. -/
structure Lawful (accounts : Accounts) (incoming : List Incoming) (a : Attended ℓ) : Prop where
  /-- The accounts have not changed. -/
  accounts_eq : a.server.accounts = accounts
  /-- Who is logged in is explained by the last login. -/
  explained : ∀ (place : Nat) (s : Session), a.sessions[place]? = some s →
    s.ExplainedBy accounts (lastLogin place incoming)

/-- A server whose sessions are all new fulfils the invariant. -/
theorem lawful_of_new {a : Attended ℓ} (hnew : ∀ s ∈ a.sessions, s.caller = none) :
    a.Lawful a.server.accounts [] where
  accounts_eq := rfl
  explained place s hs c hc := by
    rw [hnew s (List.mem_of_getElem? hs)] at hc
    cases hc

variable [Listener ℓ]

/-- Handles a line that comes in. -/
def handle (a : Attended ℓ) (e : Incoming) : Attended ℓ :=
  match a.sessions[e.place]? with
  | none => a
  | some s =>
    let (_, s, server) := s.handleLine a.server e.line
    { server, sessions := a.sessions.set e.place s }

/-- Handles lines in the order in which they come in. -/
def run (a : Attended ℓ) (incoming : List Incoming) : Attended ℓ := incoming.foldl handle a

/-- A line keeps the accounts of the server. -/
theorem handle_accounts (a : Attended ℓ) (e : Incoming) :
    (a.handle e).server.accounts = a.server.accounts := by
  unfold handle
  split
  · rfl
  · exact Session.handleLine_accounts _ a.server e.line

/-- The session that a line comes in on is the one that handles it; the others stay as
they are. -/
theorem sessions_handle {a : Attended ℓ} {e : Incoming} {place : Nat} {s : Session}
    (h : (a.handle e).sessions[place]? = some s) :
    (∃ s', a.sessions[e.place]? = some s' ∧ place = e.place ∧
      s = (s'.handleLine a.server e.line).2.1) ∨
        (place ≠ e.place ∧ a.sessions[place]? = some s) ∨
          (a.sessions[e.place]? = none ∧ a.sessions[place]? = some s) := by
  unfold handle at h
  split at h
  · rename_i hnone
    exact .inr (.inr ⟨hnone, h⟩)
  · rename_i s' hs'
    dsimp only at h
    by_cases hplace : e.place = place
    · subst hplace
      have hlength := (List.getElem?_eq_some_iff.mp hs').1
      rw [List.getElem?_set_self hlength] at h
      exact .inl ⟨s', hs', rfl, (Option.some.inj h).symm⟩
    · rw [List.getElem?_set_ne hplace] at h
      exact .inr (.inl ⟨fun heq => hplace heq.symm, h⟩)

/-- A line keeps the invariant. -/
theorem Lawful.handle {accounts : Accounts} {incoming : List Incoming} {a : Attended ℓ}
    (h : a.Lawful accounts incoming) (e : Incoming) :
    (a.handle e).Lawful accounts (incoming ++ [e]) where
  accounts_eq := (handle_accounts a e).trans h.accounts_eq
  explained place s hs := by
    have hlast : lastLogin place (incoming ++ [e]) =
        (if e.place = place then Login.ofLine? e.line else none).or (lastLogin place incoming) := by
      unfold lastLogin
      rw [List.reverse_append, List.reverse_singleton, List.singleton_append,
        List.findSome?_cons]
      cases (if e.place = place then Login.ofLine? e.line else none) <;> rfl
    rw [hlast]
    rcases sessions_handle hs with ⟨s', hs', rfl, rfl⟩ | ⟨hplace, hs'⟩ | ⟨hnone, hs'⟩
    · rw [if_pos rfl]
      cases hlogin : Login.ofLine? e.line with
      | none =>
        rw [Session.handleLine_session hlogin, Option.none_or]
        exact h.explained e.place s' hs'
      | some l =>
        rw [Session.handleLine_login hlogin, Option.some_or, ← h.accounts_eq]
        exact Session.explainedBy_login s' a.server l
    · rw [if_neg fun heq => hplace heq.symm, Option.none_or]
      exact h.explained place s hs'
    · have hplace : e.place ≠ place := fun heq => by
        rw [heq, hs'] at hnone
        cases hnone
      rw [if_neg hplace, Option.none_or]
      exact h.explained place s hs'

/-- Lines keep the invariant. -/
theorem Lawful.run {accounts : Accounts} {before : List Incoming} {a : Attended ℓ}
    (h : a.Lawful accounts before) (incoming : List Incoming) :
    (a.run incoming).Lawful accounts (before ++ incoming) := by
  induction incoming generalizing before a with
  | nil =>
    rw [List.append_nil]
    exact h
  | cons e incoming ih =>
    have hrest := ih (h.handle e)
    rw [List.append_assoc, List.singleton_append] at hrest
    exact hrest

/-- A line that changes the lifecycle of the server is a command of an administrator. -/
theorem Lawful.lifecycle_changed {accounts : Accounts} {incoming : List Incoming}
    {a : Attended ℓ} (h : a.Lawful accounts incoming) {e : Incoming}
    (hchanged : (a.handle e).server.lifecycle ≠ a.server.lifecycle) :
    ∃ s r command account password, a.sessions[e.place]? = some s ∧
      Request.decode e.line = .ok r ∧ r.body = .control command account password ∧
        ((∃ c, s.caller = some c ∧ c.privileges.isAdmin = true) ∨
          (s.kind = .control ∧ ∃ a p, account = some a ∧ password = some p ∧
            accounts.validate a p .admin = true)) := by
  unfold Attended.handle at hchanged
  split at hchanged
  · exact absurd rfl hchanged
  · rename_i s hs
    dsimp only at hchanged
    unfold Session.handleLine at hchanged
    split at hchanged
    · exact absurd rfl hchanged
    · rename_i r hr
      dsimp only at hchanged
      rcases Session.answer_server s a.server r with
        ⟨command, account, password, hbody, hmay, -⟩ | ⟨data, hdata⟩
      · have hexplained := h.explained e.place s hs
        rw [← h.accounts_eq] at hexplained ⊢
        exact ⟨s, r, command, account, password, hs, hr, hbody,
          hmay.admin hexplained⟩
      · rw [hdata] at hchanged
        exact absurd rfl hchanged

/-- The authority of sessions. New sessions on the sockets of one server handle any
lines in any order. Then whoever is logged in on a session has the account that the
last login on it asked for, with that password, and the privileges of the session
are those that the login asked for and those of the socket, which the account all
has. A login that is not answered with true leaves its session logged out. A line
changes the lifecycle only as a command, on a session with the privileges of an
administrator, or on the socket of control with the credentials of one. -/
theorem authority (a : Attended ℓ) (hnew : ∀ s ∈ a.sessions, s.caller = none)
    (incoming : List Incoming) :
    (∀ place s c, (a.run incoming).sessions[place]? = some s → s.caller = some c →
      ∃ l account, lastLogin place incoming = some l ∧ c.account = l.account ∧
        a.server.accounts.get? l.account = some account ∧ account.password = l.password ∧
          account.privileges.contains c.privileges = true ∧
            c.privileges = l.asked ||| s.kind.privileges) ∧
    (∀ place line s r l, (a.run incoming).sessions[place]? = some s →
      Request.decode line = .ok r → Login.ofRequest? r = some l →
        (s.answer (a.run incoming).server r).1 ≠ .result .flag true →
          ∃ s', ((a.run incoming).handle ⟨place, line⟩).sessions[place]? = some s' ∧
            s'.caller = none) ∧
    (∀ e, ((a.run incoming).handle e).server.lifecycle ≠ (a.run incoming).server.lifecycle →
      ∃ s r command account password, (a.run incoming).sessions[e.place]? = some s ∧
        Request.decode e.line = .ok r ∧ r.body = .control command account password ∧
          ((∃ c, s.caller = some c ∧ c.privileges.isAdmin = true) ∨
            (s.kind = .control ∧ ∃ name word, account = some name ∧ password = some word ∧
              a.server.accounts.validate name word .admin = true))) := by
  have hlawful := (lawful_of_new hnew).run incoming
  rw [List.nil_append] at hlawful
  refine ⟨?_, ?_, fun e => hlawful.lifecycle_changed⟩
  · intro place s c hs hc
    obtain ⟨l, hl, haccount, hprivileges, hvalid⟩ := hlawful.explained place s hs c hc
    obtain ⟨account, hget, hpassword, hcontains⟩ := Accounts.validate_iff.mp hvalid
    exact ⟨l, account, hl, haccount, hget, hpassword, hcontains, hprivileges⟩
  · intro place line s r l hs hr hl hfailed
    have hlength := (List.getElem?_eq_some_iff.mp hs).1
    have hline : Login.ofLine? line = some l := by
      unfold Login.ofLine?
      rw [hr]
      exact hl
    refine ⟨(s.handleLine (a.run incoming).server line).2.1, ?_, ?_⟩
    · unfold handle
      dsimp only
      rw [hs]
      exact List.getElem?_set_self hlength
    · rw [Session.handleLine_login hline]
      rw [Session.answer_login hl] at hfailed
      exact Session.caller_failed_login hfailed

/-- A stopped server with an administrator, and new sessions on both sockets. -/
def sample : Attended ExitSignal where
  server := .of { accounts := Table.empty.insert "root" ⟨"secret", .admin ||| .evaluate⟩ }
  sessions :=
    [{ id := "0", kind := .service, peer := .loopback 0 },
      { id := "1", kind := .control, peer := .loopback 1 }]

/-- A login of the administrator with a password. -/
def sampleLogin (password : String) : Request :=
  .of (.operation (.validateAccount "root" password .admin))

/-- The administrator logs in on the socket of the service, fails to do so once more,
or starts the server from there. -/
theorem authority_sample :
    (∃ l account, lastLogin 0 [⟨0, (sampleLogin "secret").encode⟩] = some l ∧
      sample.server.accounts.get? l.account = some account ∧ account.password = l.password) ∧
    (∃ s, ((sample.run [⟨0, (sampleLogin "secret").encode⟩]).handle
      ⟨0, (sampleLogin "wrong").encode⟩).sessions[0]? = some s ∧ s.caller = none) ∧
    (∃ r command account password,
      Request.decode (Request.of (.control .start none none)).encode = .ok r ∧
        r.body = .control command account password) := by
  have hnew : ∀ s ∈ sample.sessions, s.caller = none := by decide
  obtain ⟨hheld, hfailed, hchanged⟩ :=
    authority sample hnew [⟨0, (sampleLogin "secret").encode⟩]
  have hcaller : ((sample.run [⟨0, (sampleLogin "secret").encode⟩]).sessions[0]?.bind
      Session.caller).isSome = true := by decide +kernel
  obtain ⟨c, hc⟩ := Option.isSome_iff_exists.mp hcaller
  obtain ⟨s, hs, hc⟩ := Option.bind_eq_some_iff.mp hc
  refine ⟨?_, ?_, ?_⟩
  · obtain ⟨l, account, hl, -, hget, hpassword, -⟩ := hheld 0 s c hs hc
    exact ⟨l, account, hl, hget, hpassword⟩
  · have hdecode : Request.decode (sampleLogin "wrong").encode = .ok (sampleLogin "wrong") :=
      Request.decode_encode fun x hx => by
        have hnumbers : (sampleLogin "wrong").toJson.numbers = [.integer 3] := by decide +kernel
        rw [Request.Carries, Wire.Holds, hnumbers] at hx
        cases List.mem_singleton.mp hx
    have hrejected : sample.server.accounts.validate "root" "wrong" (.admin ||| s.kind.privileges) =
        false := by cases s.kind <;> decide +kernel
    refine hfailed 0 _ s _ ⟨"root", "wrong", .admin⟩ hs hdecode rfl ?_
    rw [Session.answer_login (l := ⟨"root", "wrong", .admin⟩) rfl]
    have haccounts := ((lawful_of_new hnew).run [⟨0, (sampleLogin "secret").encode⟩]).accounts_eq
    unfold Session.login Session.authenticate
    rw [haccounts]
    dsimp only
    rw [hrejected]
    simp
  · have hstate : ((sample.run [⟨0, (sampleLogin "secret").encode⟩]).handle
        ⟨0, (Request.of (.control .start none none)).encode⟩).server.lifecycle.state ≠
          (sample.run [⟨0, (sampleLogin "secret").encode⟩]).server.lifecycle.state := by
      decide +kernel
    obtain ⟨-, r, command, account, password, -, hr, hbody, -⟩ := hchanged
      ⟨0, (Request.of (.control .start none none)).encode⟩ fun heq => hstate (by rw [heq])
    exact ⟨r, command, account, password, hr, hbody⟩

end Attended

end RatingServer
