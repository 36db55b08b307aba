import RatingServer.Lifecycle

/-!
# What a call of a lifecycle does

A call is refused for one of eight reasons, each with an error of its own, or it is
carried out. What it then does of itself depends on the call, the state and the
configuration alone: it calls at most one hook and emits one event, or two if it makes
a started server leave. The listeners only decide who is told of the events.
-/

namespace RatingServer

/-- The reasons that lie in a state to reject a call, with their errors. -/
inductive Rejected (s : State) : Transition → LifecycleError → Prop where
  /-- The server has left for good. -/
  | exited (t : Transition) : s = .exited → Rejected s t .exited
  /-- It is to start and is started. -/
  | alreadyStarted : s.isStarted = true → Rejected s .start .alreadyStarted
  /-- It is to pause and is stopped. -/
  | pauseStopped : s = .stopped → Rejected s .pause .notStarted
  /-- It is to pause and is paused. -/
  | pausePaused : s = .paused → Rejected s .pause .notRunning
  /-- It is to go on and is not paused. -/
  | notPaused : s ≠ .exited → s ≠ .paused → Rejected s .resume .notPaused
  /-- It is to stop and is not started. -/
  | notStarted : s ≠ .exited → s.isStarted = false → Rejected s .stop .notStarted
  /-- It is to take a configuration and is started. -/
  | configWhileStarted (config : ServerConfig) : s.isStarted = true →
    Rejected s (.configure config) .configWhileStarted

/-- The reasons to refuse a call, with their errors: the state rejects it, or it is a
start and the hook for it, which ends as `opening` says, fails. -/
inductive Refusal (s : State) (opening : Except CallError Unit) : Transition → CallError → Prop where
  /-- The state rejects the call. -/
  | rejected {t : Transition} {r : LifecycleError} : Rejected s t r →
    Refusal s opening t (.lifecycle r)
  /-- The hook for the start fails. -/
  | startFails {e : CallError} : s = .stopped → opening = .error e → Refusal s opening .start e

namespace Transition

/-- The state that a call leads to. -/
def target (s : State) : Transition → State
  | start => .started
  | pause => .paused
  | resume => .resumed
  | stop => .stopped
  | exit _ => .exited
  | configure _ => s

/-- The configuration after a call. -/
def configAfter (config : ServerConfig) : Transition → ServerConfig
  | configure config => config
  | _ => config

/-- The hook that a call calls. -/
def hook? (s : State) (config : ServerConfig) : Transition → Option Hook
  | start => some (.start config)
  | pause => some .pause
  | resume => some (.resume config)
  | stop => some .stop
  | exit _ => if s.isStarted then some .stop else none
  | configure config => some (.configure config)

/-- The events that are a call's own. -/
def events (s : State) : Transition → List StatusEvent
  | start => [.of .started]
  | pause => [.of .paused]
  | resume => [.of .resumed]
  | stop => [.of .stopped]
  | exit shutdownHook =>
    (if s.isStarted then [.of .stopped] else []) ++ [{ StatusEvent.of .exit with shutdownHook }]
  | configure _ => [.of .configured]

end Transition

namespace Lifecycle

variable {ℓ : Type}

/-- What listeners are told of events, one event after another. Those that fail at an
event hear nothing of the next one. -/
def tellings [Listener ℓ] (listeners : List (Nat × ℓ)) : List StatusEvent → List (Notice ℓ)
  | [] => []
  | e :: es =>
    (listeners.map fun (id, x) => .told id x e) ++ tellings (survivors e listeners) es

/-- The listeners that fail at none of some events. -/
def survivorsOf [Listener ℓ] (listeners : List (Nat × ℓ)) (es : List StatusEvent) :
    List (Nat × ℓ) :=
  es.foldl (fun listeners e => survivors e listeners) listeners

/-- The lifecycle after a call that is carried out. To leave ends all registrations. -/
def after [Listener ℓ] (l : Lifecycle ℓ) (t : Transition) : Lifecycle ℓ where
  state := t.target l.state
  config := t.configAfter l.config
  listeners :=
    match t with
    | .exit _ => []
    | t => survivorsOf l.listeners (t.events l.state)
  nextId := l.nextId

/-- What happens during a call that is carried out: the hook first, then the events. -/
def happening [Listener ℓ] (l : Lifecycle ℓ) (t : Transition) : List (Notice ℓ) :=
  ((t.hook? l.state l.config).map Notice.hook).toList ++ tellings l.listeners (t.events l.state)

/-- A state rejects a call exactly for the reasons that lie in it. -/
theorem rejection?_eq_some_iff {s : State} {t : Transition} {r : LifecycleError} :
    rejection? s t = some r ↔ Rejected s t r := by
  constructor
  · intro h
    cases s <;> cases t <;> cases h <;> constructor <;> simp [State.isStarted]
  · intro h
    cases h with
    | exited t hs => rw [hs]; rfl
    | alreadyStarted hs => cases s <;> first | rfl | cases hs
    | pauseStopped hs => rw [hs]; rfl
    | pausePaused hs => rw [hs]; rfl
    | notPaused hne hs => cases s <;> first | rfl | contradiction
    | notStarted hne hs => cases s <;> first | rfl | contradiction
    | configWhileStarted config hs => cases s <;> first | rfl | cases hs

/-- A state does not reject a call if no reason lies in it. -/
theorem rejection?_eq_none {s : State} {t : Transition} (h : ∀ r, ¬ Rejected s t r) :
    rejection? s t = none :=
  Option.eq_none_iff_forall_ne_some.mpr fun r hr => h r (rejection?_eq_some_iff.mp hr)

/-- To carry out a call is to call its hook, to tell its events and to enter its state. -/
theorem perform_eq [Listener ℓ] (l : Lifecycle ℓ) (t : Transition) :
    l.perform t = (l.happening t, l.after t) := by
  cases t with
  | exit shutdownHook =>
    unfold perform happening after
    cases hs : l.state.isStarted with
    | true =>
      simp [halt, depart, enter, Transition.hook?, Transition.events, Transition.target,
        Transition.configAfter, tellings, hs]
    | false =>
      simp [depart, enter, Transition.hook?, Transition.events, Transition.target,
        Transition.configAfter, tellings, hs]
  | _ =>
    simp [perform, halt, enter, happening, after, Transition.hook?, Transition.events,
      Transition.target, Transition.configAfter, tellings, survivorsOf]

/-- There is one reason at most to refuse a call. -/
theorem refusal_unique {s : State} {opening : Except CallError Unit} {t : Transition}
    {e e' : CallError} (h : Refusal s opening t e) (h' : Refusal s opening t e') : e = e' := by
  have hstart : ∀ r, s = .stopped → ¬ Rejected s .start r := by
    rintro r rfl hr
    cases hr <;> contradiction
  cases h with
  | rejected hr =>
    cases h' with
    | rejected hr' =>
      rw [← rejection?_eq_some_iff] at hr hr'
      rw [hr] at hr'
      cases hr'
      rfl
    | startFails hs _ => exact absurd hr (hstart _ hs)
  | startFails hs he =>
    cases h' with
    | rejected hr' => exact absurd hr' (hstart _ hs)
    | startFails _ he' =>
      rw [he] at he'
      cases he'
      rfl

/-- A call that there is a reason to refuse ends with the error of the reason. Nothing
happens, but for the call of the hook for the start if the server is to start and is
stopped. -/
theorem call_of_refusal [Listener ℓ] {l : Lifecycle ℓ} {t : Transition} {e : CallError}
    {start : ServerConfig → Except CallError Unit} (h : Refusal l.state (start l.config) t e) :
    l.call start t =
      (if t = .start ∧ l.state = .stopped then [.hook (.start l.config)] else [], .error e) := by
  cases h with
  | rejected hr =>
    have hsilent : ¬ (t = .start ∧ l.state = .stopped) := by
      rintro ⟨rfl, hs⟩
      rw [hs] at hr
      cases hr <;> contradiction
    unfold call
    rw [rejection?_eq_some_iff.mpr hr, if_neg hsilent]
  | startFails hs he =>
    have hfault : startFault? start l.config .start = some e := by
      unfold startFault?
      rw [he]
    unfold call
    rw [if_pos ⟨rfl, hs⟩, hs, hfault]
    rfl

/-- A call that there is no reason to refuse is carried out. -/
theorem call_of_not_refusal [Listener ℓ] {l : Lifecycle ℓ} {t : Transition}
    {start : ServerConfig → Except CallError Unit}
    (h : ∀ e, ¬ Refusal l.state (start l.config) t e) :
    l.call start t = (l.happening t, .ok (l.after t)) := by
  have hreject : rejection? l.state t = none :=
    rejection?_eq_none fun r hr => h _ (.rejected hr)
  have hfault : startFault? start l.config t = none := by
    unfold startFault?
    split
    · split
      · rfl
      · rename_i e he
        have hs : l.state = .stopped := by
          cases hs : l.state <;> first | rfl | (rw [hs] at hreject; cases hreject)
        exact absurd (.startFails hs he) (h e)
    · rfl
  unfold call
  rw [hreject]
  dsimp only
  rw [hfault]
  dsimp only
  rw [perform_eq]

end Lifecycle

end RatingServer
