import RatingServer.Proofs.Lifecycle.Calls

/-!
# Runs of a lifecycle

A lifecycle meets demands one after another: calls, with a hook for the start that may
fail anew each time, and registrations of listeners, which may fail at any event. The
events that it emits tell its whole way: replayed from the stopped state they lead
along allowed changes to the state that it is in. A refused call leaves no trace, and
after the server has left every call is refused.
-/

namespace RatingServer

namespace State

/-- The state after an event, if the event may come in a state. -/
def along : State → ServerStatus → Option State
  | stopped, .started => some started
  | started, .paused => some paused
  | resumed, .paused => some paused
  | paused, .resumed => some resumed
  | started, .stopped => some stopped
  | paused, .stopped => some stopped
  | resumed, .stopped => some stopped
  | stopped, .configured => some stopped
  | stopped, .exit => some exited
  | _, _ => none

/-- The state after some events, if each of them may come where it comes. -/
def replay (s : State) (events : List StatusEvent) : Option State :=
  events.foldlM (fun s e => s.along e.status) s

/-- Events are replayed one part after another. -/
theorem replay_append (s : State) (es fs : List StatusEvent) :
    s.replay (es ++ fs) = (s.replay es).bind fun s => s.replay fs := List.foldlM_append

/-- The events of a call that is not rejected lead to its target. -/
theorem replay_events {s : State} {t : Transition} (h : ∀ r, ¬ Rejected s t r) :
    s.replay (t.events s) = some (t.target s) := by
  have hnone := Lifecycle.rejection?_eq_none h
  cases s <;> cases t <;> first | rfl | cases hnone

end State

/-- A listener that never fails. -/
structure Observer where
  deriving DecidableEq, Repr

instance : Listener Observer := ⟨fun x _ => some x⟩

/-- The event that a notice tells. -/
def Notice.event? {ℓ : Type} : Notice ℓ → Option StatusEvent
  | hook _ => none
  | told _ _ e => some e

namespace Lifecycle

variable {ℓ : Type}

/-- The lifecycle with a listener that never fails in place of its own. -/
def observed (l : Lifecycle ℓ) : Lifecycle Observer where
  state := l.state
  config := l.config
  listeners := [(0, {})]
  nextId := l.nextId

/-- The events that a call emits are those that a listener is told which never fails. -/
def emitted (l : Lifecycle ℓ) (start : ServerConfig → Except CallError Unit) (t : Transition) :
    List StatusEvent :=
  (l.observed.call start t).1.filterMap Notice.event?

/-- A listener that never fails is told all events. -/
theorem event?_tellings (es : List StatusEvent) :
    (tellings [(0, ({} : Observer))] es).filterMap Notice.event? = es := by
  induction es with
  | nil => rfl
  | cons e es ih => exact congrArg (e :: ·) ih

/-- A listener that never fails is told the events of a call that is carried out. -/
theorem event?_happening (l : Lifecycle ℓ) (t : Transition) :
    (l.observed.happening t).filterMap Notice.event? = t.events l.state := by
  have hhook : ∀ h : Option Hook,
      ((h.map Notice.hook).toList : List (Notice Observer)).filterMap Notice.event? = [] := by
    intro h
    cases h <;> rfl
  unfold happening
  rw [List.filterMap_append, hhook]
  exact event?_tellings (t.events l.state)

end Lifecycle

/-- What is asked of a lifecycle. -/
inductive Demand (ℓ : Type) where
  /-- A call, with the way in which the hook for the start ends. -/
  | call (start : ServerConfig → Except CallError Unit) (t : Transition)
  /-- To register a listener. -/
  | add (listener : ℓ)
  /-- To end a registration. -/
  | remove (id : Nat)

/-- A demand, and how it was met. -/
structure Episode (ℓ : Type) where
  /-- The lifecycle before. -/
  before : Lifecycle ℓ
  /-- The demand. -/
  demand : Demand ℓ
  /-- What happened. -/
  notices : List (Notice ℓ)
  /-- How it ended. -/
  outcome : Except CallError Unit
  /-- The lifecycle afterwards. -/
  after : Lifecycle ℓ

namespace Episode

variable {ℓ : Type}

/-- The events that were emitted. -/
def emitted (e : Episode ℓ) : List StatusEvent :=
  match e.demand with
  | .call start t => e.before.emitted start t
  | .add _ => []
  | .remove _ => []

/-- Nothing was emitted, nothing happened, and nothing changed. -/
structure Idle (e : Episode ℓ) : Prop where
  /-- No event. -/
  emitted : e.emitted = []
  /-- No hook was called, and no listener was told of anything. -/
  notices : e.notices = []
  /-- The state, the configuration, the listeners and their identifiers are the same. -/
  after : e.after = e.before

/-- The law of a call. -/
structure Call [Listener ℓ] (e : Episode ℓ) (start : ServerConfig → Except CallError Unit)
    (t : Transition) : Prop where
  /-- It is refused exactly for a reason, with the error of the reason. -/
  refused_iff : ∀ x, e.outcome = .error x ↔ Refusal e.before.state (start e.before.config) t x
  /-- A refused call emits nothing and changes nothing. It calls no hook but that for
  the start, and this only if the server is to start and is stopped. -/
  refused : ∀ x, e.outcome = .error x → e.emitted = [] ∧ e.after = e.before ∧
    e.notices =
      if t = .start ∧ e.before.state = .stopped then [.hook (.start e.before.config)] else []
  /-- Any other call emits exactly its own events. Its hook is called, the listeners
  are told of the events, and its state is entered. -/
  accepted : e.outcome = .ok () → e.emitted = t.events e.before.state ∧
    e.after = e.before.after t ∧ e.notices = e.before.happening t

/-- The server leaves for good. -/
def Leaves (e : Episode ℓ) : Prop :=
  ∃ start shutdownHook, e.demand = .call start (.exit shutdownHook) ∧ e.outcome = .ok ()

/-- The lifecycle has come to its end: the demand is refused for that reason, unless it
is to end a registration, of which there is none. -/
structure Late (e : Episode ℓ) : Prop where
  /-- Nothing happens. -/
  idle : e.Idle
  /-- The error says that the server has left. -/
  outcome : (∀ id, e.demand ≠ .remove id) → e.outcome = .error (.lifecycle .exited)

end Episode

namespace Lifecycle

variable {ℓ : Type} [Listener ℓ]

/-- Meets a demand. A lifecycle that refuses a call stays what it is. -/
def episode (l : Lifecycle ℓ) (d : Demand ℓ) : Episode ℓ :=
  match d with
  | .call start t =>
    match l.call start t with
    | (notices, .ok l') => ⟨l, d, notices, .ok (), l'⟩
    | (notices, .error e) => ⟨l, d, notices, .error e, l⟩
  | .add listener =>
    match l.add listener with
    | .ok (_, l') => ⟨l, d, [], .ok (), l'⟩
    | .error e => ⟨l, d, [], .error e, l⟩
  | .remove id => ⟨l, d, [], .ok (), (l.remove id).2⟩

/-- The episodes of demands that are met one after another. -/
def episodes (l : Lifecycle ℓ) : List (Demand ℓ) → List (Episode ℓ)
  | [] => []
  | d :: ds => l.episode d :: (l.episode d).after.episodes ds

/-- The lifecycle after demands. -/
def run (l : Lifecycle ℓ) (ds : List (Demand ℓ)) : Lifecycle ℓ :=
  ds.foldl (fun l d => (l.episode d).after) l

omit [Listener ℓ] in
/-- A call that there is a reason to refuse emits nothing. -/
theorem emitted_of_refusal {l : Lifecycle ℓ} {t : Transition} {e : CallError}
    {start : ServerConfig → Except CallError Unit}
    (h : Refusal l.state (start l.config) t e) : l.emitted start t = [] := by
  unfold emitted
  rw [call_of_refusal (l := l.observed) h]
  dsimp only
  split <;> rfl

omit [Listener ℓ] in
/-- Any other call emits its own events. -/
theorem emitted_of_not_refusal {l : Lifecycle ℓ} {t : Transition}
    {start : ServerConfig → Except CallError Unit}
    (h : ∀ e, ¬ Refusal l.state (start l.config) t e) : l.emitted start t = t.events l.state := by
  unfold emitted
  rw [call_of_not_refusal (l := l.observed) h]
  exact event?_happening l t

/-- The demand of an episode is the one that is met. -/
theorem demand_episode (l : Lifecycle ℓ) (d : Demand ℓ) : (l.episode d).demand = d := by
  unfold episode
  split
  · split <;> rfl
  · split <;> rfl
  · rfl

/-- How a call is met that there is a reason to refuse. -/
theorem episode_of_refusal {l : Lifecycle ℓ} {t : Transition} {e : CallError}
    {start : ServerConfig → Except CallError Unit} (h : Refusal l.state (start l.config) t e) :
    l.episode (.call start t) =
      ⟨l, .call start t,
        if t = .start ∧ l.state = .stopped then [.hook (.start l.config)] else [], .error e, l⟩ := by
  unfold episode
  dsimp only
  rw [call_of_refusal h]

/-- How any other call is met. -/
theorem episode_of_not_refusal {l : Lifecycle ℓ} {t : Transition}
    {start : ServerConfig → Except CallError Unit}
    (h : ∀ e, ¬ Refusal l.state (start l.config) t e) :
    l.episode (.call start t) = ⟨l, .call start t, l.happening t, .ok (), l.after t⟩ := by
  unfold episode
  dsimp only
  rw [call_of_not_refusal h]

/-- The law of a call holds of every call. -/
theorem call_episode (l : Lifecycle ℓ) (start : ServerConfig → Except CallError Unit)
    (t : Transition) : (l.episode (.call start t)).Call start t := by
  by_cases h : ∃ e, Refusal l.state (start l.config) t e
  · obtain ⟨e, h⟩ := h
    rw [episode_of_refusal h]
    refine ⟨fun x => ⟨?_, ?_⟩, fun x _ => ⟨emitted_of_refusal h, rfl, rfl⟩, nofun⟩
    · rintro ⟨⟩
      exact h
    · intro hx
      rw [refusal_unique hx h]
  · have hno : ∀ e, ¬ Refusal l.state (start l.config) t e := not_exists.mp h
    rw [episode_of_not_refusal hno]
    exact ⟨fun x => ⟨nofun, fun hx => absurd hx (hno x)⟩, nofun,
      fun _ => ⟨emitted_of_not_refusal hno, rfl, rfl⟩⟩

/-- The events of an episode lead from its first state to its last. -/
theorem replay_episode (l : Lifecycle ℓ) (d : Demand ℓ) :
    l.state.replay (l.episode d).emitted = some (l.episode d).after.state := by
  cases d with
  | call start t =>
    by_cases h : ∃ e, Refusal l.state (start l.config) t e
    · obtain ⟨e, h⟩ := h
      rw [episode_of_refusal h]
      show l.state.replay (l.emitted start t) = _
      rw [emitted_of_refusal h]
      rfl
    · have hno : ∀ e, ¬ Refusal l.state (start l.config) t e := not_exists.mp h
      rw [episode_of_not_refusal hno]
      show l.state.replay (l.emitted start t) = _
      rw [emitted_of_not_refusal hno, State.replay_events fun r hr => hno _ (.rejected hr)]
      rfl
  | add listener =>
    unfold episode add
    dsimp only
    by_cases hs : l.state = .exited
    · rw [if_pos hs]
      rfl
    · rw [if_neg hs]
      rfl
  | remove id => rfl

/-- The events of a run lead from its first state to its last. -/
theorem replay_episodes (l : Lifecycle ℓ) (ds : List (Demand ℓ)) :
    l.state.replay ((l.episodes ds).flatMap Episode.emitted) = some (l.run ds).state := by
  induction ds generalizing l with
  | nil => rfl
  | cons d ds ih =>
    rw [episodes, List.flatMap_cons, State.replay_append, replay_episode, Option.bind_some]
    exact ih (l.episode d).after

/-- Every episode of a run meets one of the demands. -/
theorem episode_of_mem {l : Lifecycle ℓ} {ds : List (Demand ℓ)} {e : Episode ℓ}
    (h : e ∈ l.episodes ds) : ∃ (l' : Lifecycle ℓ) (d : Demand ℓ), e = l'.episode d := by
  induction ds generalizing l with
  | nil => cases h
  | cons d ds ih =>
    rcases List.mem_cons.mp h with rfl | h
    · exact ⟨l, d, rfl⟩
    · exact ih h

/-- After the server has left every demand comes too late, and leaves it so. -/
theorem late_episode {l : Lifecycle ℓ} (hs : l.state = .exited) (hl : l.listeners = [])
    (d : Demand ℓ) : (l.episode d).Late ∧ (l.episode d).after = l := by
  cases d with
  | call start t =>
    have h : Refusal l.state (start l.config) t (.lifecycle .exited) := .rejected (.exited t hs)
    have hsilent : ¬ (t = .start ∧ l.state = .stopped) := by
      rw [hs]
      rintro ⟨-, ⟨⟩⟩
    rw [episode_of_refusal h, if_neg hsilent]
    exact ⟨⟨⟨emitted_of_refusal h, rfl, rfl⟩, fun _ => rfl⟩, rfl⟩
  | add listener =>
    unfold episode add
    dsimp only
    rw [if_pos hs]
    exact ⟨⟨⟨rfl, rfl, rfl⟩, fun _ => rfl⟩, rfl⟩
  | remove id =>
    have hremove : (l.remove id).2 = l := by
      obtain ⟨state, config, listeners, nextId⟩ := l
      cases hl
      rfl
    exact ⟨⟨⟨rfl, rfl, hremove⟩, fun h => absurd rfl (h id)⟩, hremove⟩

/-- After the server has left every demand of a run comes too late. -/
theorem late_episodes {l : Lifecycle ℓ} (hs : l.state = .exited) (hl : l.listeners = [])
    (ds : List (Demand ℓ)) : ∀ e ∈ l.episodes ds, e.Late := by
  induction ds with
  | nil =>
    intro e he
    cases he
  | cons d ds ih =>
    obtain ⟨hlate, hafter⟩ := late_episode hs hl d
    intro e he
    rw [episodes, hafter] at he
    rcases List.mem_cons.mp he with rfl | he
    · exact hlate
    · exact ih e he

/-- Demands after which the server leaves come too late. -/
theorem pairwise_late (l : Lifecycle ℓ) (ds : List (Demand ℓ)) :
    (l.episodes ds).Pairwise fun e later => e.Leaves → later.Late := by
  induction ds generalizing l with
  | nil => exact .nil
  | cons d ds ih =>
    refine List.pairwise_cons.mpr ⟨?_, ih (l.episode d).after⟩
    rintro later hlater ⟨start, shutdownHook, hd, hok⟩
    rw [demand_episode] at hd
    subst hd
    obtain ⟨-, hafter, -⟩ := (call_episode l start (.exit shutdownHook)).accepted hok
    rw [hafter] at hlater
    exact late_episodes rfl rfl ds later hlater

/-- The law of runs. A new lifecycle meets any demands, with a hook for the start that
may fail at any call, and listeners that may fail at any event. The events that it
emits, replayed from the stopped state, lead along allowed changes to the state that it
is in. Every call obeys the law of calls: it is refused exactly for a reason, with the
error of the reason, and then nothing is emitted and nothing changes; or it emits
exactly its own events. Once the server has left for good, all later demands come too
late. -/
theorem run_law (config : ServerConfig) (ds : List (Demand ℓ)) :
    State.replay .stopped ((episodes { config } ds).flatMap Episode.emitted) =
        some (run { config } ds).state ∧
      (∀ e ∈ episodes { config } ds, ∀ start t, e.demand = .call start t → e.Call start t) ∧
        (episodes { config } ds).Pairwise fun e later => e.Leaves → later.Late := by
  refine ⟨replay_episodes { config } ds, ?_, pairwise_late { config } ds⟩
  intro e he start t hd
  obtain ⟨l, d, rfl⟩ := episode_of_mem he
  rw [demand_episode] at hd
  subst hd
  exact call_episode l start t

/-- A server that starts is told to go on, which is refused. It pauses and leaves, and
then does not start again. -/
example (config : ServerConfig) :
    ((episodes ({ config } : Lifecycle ℓ)
        ([.start, .resume, .pause, .exit false, .start].map (.call fun _ => .ok ()))).flatMap
      Episode.emitted).map (·.status) = [.started, .paused, .stopped, .exit] := rfl

end Lifecycle

end RatingServer
