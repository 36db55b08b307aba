import RatingServer.Proofs.Server.Calls
import RatingServer.Proofs.Session.FrontDoors
import RatingServer.Proofs.Session.Steps

/-!
# What sessions can learn

Two servers with the same accounts, the same configuration and the same state may have
different data, and may have learned different things from them. On the socket of
control, before a login, and while the server does not run, no line tells them apart,
and none changes their data. While it runs, the evaluators of a server are told only to
those who have the privilege for them.
-/

namespace RatingServer

/-- An operation that needs no privilege for evaluators does not depend on them. -/
theorem Store.perform_evaluators {op : Operation} (h : (Body.operation op).required ≠ .evaluate)
    (s : Store) (evaluators : EvaluatorDirectory) :
    perform op { s with evaluators } =
      ((perform op s).1, { (perform op s).2 with evaluators }) := by
  cases op with
  | evaluator name => exact absurd rfl h
  | evaluatorNames => exact absurd rfl h
  | _ => rfl

namespace Server

variable {ℓ : Type}

/-- Two servers that agree on who may do what, on how they work and on where they are. They
may have different data and evaluators, and may have learned different things. -/
structure Alike (v w : Server ℓ) : Prop where
  /-- They have the same accounts. -/
  accounts : v.accounts = w.accounts
  /-- They have the same configuration. -/
  config : v.lifecycle.config = w.lifecycle.config
  /-- They are in the same state. -/
  state : v.state = w.state

/-- The server with other evaluators. -/
def withEvaluators (v : Server ℓ) (evaluators : EvaluatorDirectory) : Server ℓ :=
  { v with store := { v.store with evaluators } }

/-- An operation that needs no privilege for evaluators is served whatever they are. -/
theorem served_withEvaluators {op : Operation} (h : (Body.operation op).required ≠ .evaluate)
    (v : Server ℓ) (evaluators : EvaluatorDirectory) :
    (v.withEvaluators evaluators).served op =
      ((v.served op).1, (v.served op).2.withEvaluators evaluators) := by
  have hperform := Store.perform_evaluators h v.store evaluators
  unfold served withEvaluators
  dsimp only
  rw [hperform]

/-- An operation of someone without the privilege for evaluators is worked on whatever
they are. -/
theorem worked_withEvaluators {c : Caller} (hlacks : c.privileges.contains .evaluate = false)
    (v : Server ℓ) (op : Operation) (evaluators : EvaluatorDirectory) :
    (v.withEvaluators evaluators).worked c op =
      ((v.worked c op).1, (v.worked c op).2.withEvaluators evaluators) := by
  have hrunning : (v.withEvaluators evaluators).isRunning = v.isRunning := rfl
  unfold worked
  rw [hrunning]
  by_cases hrun : v.isRunning = true
  · rw [if_pos hrun, if_pos hrun]
    by_cases hmay : c.privileges.contains (Body.operation op).required = true
    · have hother : (Body.operation op).required ≠ .evaluate := by
        intro heq
        rw [heq, hlacks] at hmay
        cases hmay
      rw [if_pos hmay, if_pos hmay]
      exact served_withEvaluators hother v evaluators
    · rw [if_neg hmay, if_neg hmay]
  · rw [if_neg hrun, if_neg hrun]

/-- A server that does not run works on no operation. -/
theorem worked_of_still {v : Server ℓ} (hstill : v.isRunning = false) (c : Caller)
    (op : Operation) : v.worked c op = (.failure .notRunning, v) := by
  rw [worked, hstill]
  rfl

/-- Of servers that are alike both run or none. -/
theorem Alike.still {v w : Server ℓ} (h : v.Alike w) (hstill : v.isRunning = false) :
    w.isRunning = false := by
  rw [isRunning, ← h.state]
  exact hstill

/-- What happens during a change of the state does not depend on evaluators. -/
theorem notice_withEvaluators (v : Server ℓ) (n : Notice ℓ) (evaluators : EvaluatorDirectory) :
    (v.withEvaluators evaluators).notice n = (v.notice n).withEvaluators evaluators := by
  cases n with
  | hook h => cases h <;> rfl
  | told id listener event => rfl

variable [Listener ℓ]

/-- A call does not depend on evaluators. -/
theorem call_withEvaluators (v : Server ℓ) (t : Transition) (evaluators : EvaluatorDirectory) :
    (v.withEvaluators evaluators).call t =
      ((v.call t).1, (v.call t).2.withEvaluators evaluators) := by
  have hlifecycle : (v.withEvaluators evaluators).lifecycle = v.lifecycle := rfl
  unfold call
  rw [hlifecycle]
  split
  · rfl
  · rename_i notices lifecycle _
    have hnotices : notices.foldl notice (({ v with lifecycle } : Server ℓ).withEvaluators
        evaluators) = (notices.foldl notice { v with lifecycle }).withEvaluators evaluators :=
      List.foldl_hom (fun v => v.withEvaluators evaluators)
        fun v n => notice_withEvaluators v n evaluators
    exact congrArg (Prod.mk _) hnotices

/-- Servers that are alike meet a call alike. -/
theorem Alike.call {v w : Server ℓ} (h : v.Alike w) (t : Transition) :
    (v.call t).1 = (w.call t).1 ∧ (v.call t).2.Alike (w.call t).2 := by
  by_cases hr : ∃ e, v.Refuses t e
  · obtain ⟨e, hr⟩ := hr
    have hr' : w.Refuses t e := by
      rw [Refuses, ← h.state]
      exact hr
    rw [call_of_refuses hr, call_of_refuses hr']
    exact ⟨rfl, h⟩
  · have hno : ∀ e, ¬ v.Refuses t e := not_exists.mp hr
    have hno' : ∀ e, ¬ w.Refuses t e := by
      intro e
      rw [Refuses, ← h.state]
      exact hno e
    refine ⟨?_, ?_, ?_, ?_⟩
    · rw [call_of_not_refuses hno, call_of_not_refuses hno']
    · rw [call_accounts, call_accounts, h.accounts]
    · rw [config_call_of_not_refuses hno, config_call_of_not_refuses hno', h.config]
    · rw [state_call_of_not_refuses hno, state_call_of_not_refuses hno', h.state]

end Server

namespace Session

variable {ℓ : Type} [Listener ℓ]

/-- What two servers make of one line or request cannot be told apart from outside, and
neither changes its data. -/
structure Indistinct {α : Type} (v w : Server ℓ) (a b : α × Session × Server ℓ) : Prop where
  /-- They answer the same. -/
  answer : a.1 = b.1
  /-- They leave the session the same. -/
  session : a.2.1 = b.2.1
  /-- They stay alike. -/
  alike : a.2.2.Alike b.2.2
  /-- The one keeps its data. -/
  data : a.2.2.store.data = v.store.data
  /-- So does the other. -/
  data' : b.2.2.store.data = w.store.data

omit [Listener ℓ] in
/-- Servers that give one answer and do nothing cannot be told apart. -/
theorem Indistinct.idle {α : Type} {v w : Server ℓ} (h : v.Alike w) (a : α) (s : Session) :
    Indistinct v w (a, s, v) (a, s, w) := ⟨rfl, rfl, h, rfl, rfl⟩

variable {v w : Server ℓ}

/-- A command is carried out alike. -/
theorem indistinct_command (h : v.Alike w) (s : Session) (c : ControlCommand) :
    Indistinct v w ((command v c).1, s, (command v c).2) ((command w c).1, s, (command w c).2) := by
  obtain ⟨hanswer, halike⟩ := h.call c.transition
  rw [command_eq, command_eq]
  exact ⟨congrArg ended hanswer, rfl, halike, Server.call_data v _, Server.call_data w _⟩

omit [Listener ℓ] in
/-- A login is answered alike. -/
theorem indistinct_login (h : v.Alike w) (s : Session) (l : Login) :
    Indistinct v w (s.login v l.account l.password l.asked)
      (s.login w l.account l.password l.asked) := by
  unfold login
  rw [h.accounts]
  exact .idle h _ _

/-- A request is answered alike on the socket of control, before a login, and by
servers that do not run. -/
theorem indistinct_answer (h : v.Alike w) {s : Session}
    (hgate : s.kind = .control ∨ s.caller = none ∨ v.isRunning = false) (r : Request) :
    Indistinct v w (s.answer v r) (s.answer w r) := by
  cases route (ℓ := ℓ) s r with
  | idle a hanswer =>
    rw [hanswer, hanswer]
    exact .idle h a s
  | login l _ hanswer =>
    rw [hanswer, hanswer]
    exact indistinct_login h s l
  | work c op hkind hcaller hanswer =>
    have hstill : v.isRunning = false := by
      rcases hgate with hcontrol | hnone | hstill
      · rw [hkind] at hcontrol
        cases hcontrol
      · rw [hcaller] at hnone
        cases hnone
      · exact hstill
    rw [hanswer, hanswer, Server.worked_of_still hstill, Server.worked_of_still (h.still hstill)]
    exact .idle h _ s
  | command c _ _ _ _ _ _ hanswer =>
    rw [hanswer, hanswer]
    exact indistinct_command h s c
  | credentials c account password _ _ hanswer =>
    have hadmits : v.admitsControl account password = w.admitsControl account password := by
      unfold Server.admitsControl
      rw [h.accounts]
    rw [hanswer, hanswer, hadmits]
    by_cases hadmin : w.admitsControl account password = true
    · rw [if_pos hadmin, if_pos hadmin]
      exact indistinct_command h s c
    · rw [if_neg hadmin, if_neg hadmin]
      exact .idle h _ s

/-- So is a line. -/
theorem indistinct_handleLine (h : v.Alike w) {s : Session}
    (hgate : s.kind = .control ∨ s.caller = none ∨ v.isRunning = false) (line : String) :
    Indistinct v w (s.handleLine v line) (s.handleLine w line) := by
  unfold handleLine
  cases Request.decode line with
  | error f => exact .idle h _ s
  | ok r =>
    obtain ⟨hanswer, hsession, halike, hdata, hdata'⟩ := indistinct_answer h hgate r
    exact ⟨congrArg (fun response => Reply.of response r.binary (r.body = .quit)) hanswer,
      hsession, halike, hdata, hdata'⟩

/-- What a server makes of something, with other evaluators. -/
def withEvaluators {α : Type} (evaluators : EvaluatorDirectory) (a : α × Session × Server ℓ) :
    α × Session × Server ℓ := (a.1, a.2.1, a.2.2.withEvaluators evaluators)

/-- A command does not depend on evaluators. -/
theorem command_withEvaluators (v : Server ℓ) (c : ControlCommand)
    (evaluators : EvaluatorDirectory) :
    command (v.withEvaluators evaluators) c =
      ((command v c).1, (command v c).2.withEvaluators evaluators) := by
  rw [command_eq, command_eq, Server.call_withEvaluators]

/-- A request of someone without the privilege for evaluators is answered whatever they
are. -/
theorem answer_withEvaluators {s : Session}
    (hlacks : ∀ c, s.caller = some c → c.privileges.contains .evaluate = false)
    (v : Server ℓ) (r : Request) (evaluators : EvaluatorDirectory) :
    s.answer (v.withEvaluators evaluators) r = withEvaluators evaluators (s.answer v r) := by
  cases route (ℓ := ℓ) s r with
  | idle a hanswer =>
    rw [hanswer, hanswer]
    rfl
  | login l _ hanswer =>
    rw [hanswer, hanswer]
    rfl
  | work c op _ hcaller hanswer =>
    rw [hanswer, hanswer, Server.worked_withEvaluators (hlacks c hcaller)]
    rfl
  | command c _ _ _ _ _ _ hanswer =>
    rw [hanswer, hanswer, command_withEvaluators]
    rfl
  | credentials c account password _ _ hanswer =>
    have hadmits : (v.withEvaluators evaluators).admitsControl account password =
        v.admitsControl account password := rfl
    rw [hanswer, hanswer, hadmits, command_withEvaluators]
    by_cases hadmin : v.admitsControl account password = true
    · rw [if_pos hadmin, if_pos hadmin]
      rfl
    · rw [if_neg hadmin, if_neg hadmin]
      rfl

/-- So is a line. -/
theorem handleLine_withEvaluators {s : Session}
    (hlacks : ∀ c, s.caller = some c → c.privileges.contains .evaluate = false)
    (v : Server ℓ) (line : String) (evaluators : EvaluatorDirectory) :
    s.handleLine (v.withEvaluators evaluators) line =
      withEvaluators evaluators (s.handleLine v line) := by
  unfold handleLine
  cases Request.decode line with
  | error f => rfl
  | ok r =>
    dsimp only
    rw [answer_withEvaluators hlacks]
    rfl

/-- The law of secrecy. Two servers with the same accounts, the same configuration and in
the same state may differ in their data, in what they have learned and in their
evaluators. On the socket of control, before a login, and while the servers do not run,
every line is answered the same, leaves the session the same and neither changes the
data, and the servers stay alike. In any state, servers that differ only in their
evaluators answer every line of a session the same, and leave it the same and differ in
nothing else afterwards, if its privileges lack a bit of the one for evaluators. -/
theorem no_data_without_login {v w : Server ℓ} (h : v.Alike w) (s : Session) (line : String) :
    ((s.kind = .control ∨ s.caller = none ∨ v.isRunning = false) →
      Indistinct v w (s.handleLine v line) (s.handleLine w line)) ∧
    ((∀ c, s.caller = some c → c.privileges.contains .evaluate = false) →
      ∀ evaluators, s.handleLine (v.withEvaluators evaluators) line =
        withEvaluators evaluators (s.handleLine v line)) :=
  ⟨fun hgate => indistinct_handleLine h hgate line,
    fun hlacks evaluators => handleLine_withEvaluators hlacks v line evaluators⟩

/-- A server over a store with one rating, which is stopped. -/
def rated : Server ExitSignal :=
  .of { data := { ratings := RatingRows.put .empty ⟨7, 1⟩ ⟨4.5, none⟩ } }

/-- The same server while it runs. -/
def serving : Server ExitSignal := (rated.control .start).2

/-- A session on the socket of the service before a login. -/
def unknown : Session := { FrontDoors.session FrontDoors.reader with caller := none }

/-- The request for the users who have ratings, as a line. -/
def askUsers : String := (Request.of (.operation (.ids .user))).encode

/-- The request for the names of the evaluators, as a line. -/
def askEvaluators : String := FrontDoors.evaluators.encode

/-- An evaluator. -/
def mean : EvaluatorDirectory := .ofNames ["mean"] "localhost" 7000

/-- Before a login a stopped server does not tell whether there are ratings, and a running
one does not tell a reader whether there are evaluators. -/
theorem no_data_without_login_rated :
    (Server.of {} : Server ExitSignal).Alike rated ∧
      Indistinct (.of {}) rated (unknown.handleLine (.of {}) askUsers)
        (unknown.handleLine rated askUsers) ∧
      (FrontDoors.session FrontDoors.reader).handleLine (serving.withEvaluators mean)
          askEvaluators =
        withEvaluators mean
          ((FrontDoors.session FrontDoors.reader).handleLine serving askEvaluators) := by
  have halike : (Server.of {} : Server ExitSignal).Alike rated := ⟨rfl, rfl, rfl⟩
  have hsame : serving.Alike serving := ⟨rfl, rfl, rfl⟩
  have hlacks : ∀ c, (FrontDoors.session FrontDoors.reader).caller = some c →
      c.privileges.contains .evaluate = false := by
    rintro c ⟨⟩
    rfl
  exact ⟨halike, (no_data_without_login halike unknown askUsers).1 (.inr (.inl rfl)),
    (no_data_without_login hsame _ askEvaluators).2 hlacks mean⟩

end Session

end RatingServer
