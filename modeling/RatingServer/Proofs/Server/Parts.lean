import RatingServer.Launch
import RatingServer.Proofs.Server.Calls

/-!
# The parts of a server

The store, the timer of the periodic tasks and the signal for the end of a server are
parts of their own, which only hooks and notices bring along with the lifecycle. They
stay in step with it whatever the server is asked to do: the store is open while the
server is started, the timer runs while the server is running and its configuration has
a period, the service tells the settings of the configuration, and the signal is set
exactly when the end has come.
-/

namespace RatingServer

/-- What a server is asked to do. -/
inductive Errand (ℓ : Type) where
  /-- To change its state or its configuration. -/
  | call (t : Transition)
  /-- To leave because the process shuts down. -/
  | shutdown
  /-- To register a listener. -/
  | add (listener : ℓ)
  /-- To end a registration. -/
  | remove (id : Nat)
  /-- To perform an operation. -/
  | work (op : Operation)
  /-- To run its periodic tasks. -/
  | tick

/-- A call that tells of the end of the server leads to it. -/
theorem Transition.target_of_exit {t : Transition} {s : State} {e : StatusEvent}
    (he : e ∈ t.events s) (hexit : e.status = .exit) : t.target s = .exited := by
  have hother : ∀ status, e = .of status → status = .exit := by
    rintro status rfl
    exact hexit
  cases t with
  | exit shutdownHook => rfl
  | start => cases hother .started (List.mem_singleton.mp he)
  | pause => cases hother .paused (List.mem_singleton.mp he)
  | resume => cases hother .resumed (List.mem_singleton.mp he)
  | stop => cases hother .stopped (List.mem_singleton.mp he)
  | configure config => cases hother .configured (List.mem_singleton.mp he)

/-- The events of a call end with one, and only that may tell of the end. -/
theorem Transition.exists_events (t : Transition) (s : State) :
    ∃ early last, t.events s = early ++ [last] ∧ (∀ e ∈ early, e.status ≠ .exit) ∧
      (t.target s = .exited → s ≠ .exited → last.status = .exit) := by
  cases t with
  | exit shutdownHook =>
    refine ⟨_, _, rfl, fun e he => ?_, fun _ _ => rfl⟩
    split at he
    · rw [List.mem_singleton.mp he]
      exact nofun
    · cases he
  | configure config => exact ⟨[], _, rfl, List.forall_mem_nil _, fun h hne => absurd h hne⟩
  | start | pause | resume | stop =>
    exact ⟨[], _, rfl, List.forall_mem_nil _, fun h => by cases h⟩

/-- A kind of listeners that none of them leaves before the end: told of anything else, a
listener of the kind becomes one of the kind. -/
def Lasting {ℓ : Type} [Listener ℓ] (P : ℓ → Prop) : Prop :=
  ∀ x, P x → ∀ e : StatusEvent, e.status ≠ .exit → ∃ y, Listener.react x e = some y ∧ P y

namespace Lifecycle

variable {ℓ : Type} [Listener ℓ]

/-- A listener is registered, and it is of a kind. -/
structure Keeps (listeners : List (Nat × ℓ)) (id : Nat) (P : ℓ → Prop) : Prop where
  /-- There is one under its identifier. -/
  registered : ∃ x, (id, x) ∈ listeners
  /-- None of another kind is under it. -/
  kind : ∀ x, (id, x) ∈ listeners → P x

/-- A listener that an event leaves was there before under its identifier. -/
theorem mem_of_mem_survivors {listeners : List (Nat × ℓ)} {e : StatusEvent} {id : Nat} {y : ℓ}
    (h : (id, y) ∈ survivors e listeners) :
    ∃ x, (id, x) ∈ listeners ∧ Listener.react x e = some y := by
  obtain ⟨⟨_, x⟩, hx, hreact⟩ := List.mem_filterMap.mp h
  obtain ⟨_, hy, heq⟩ := Option.map_eq_some_iff.mp hreact
  cases heq
  exact ⟨x, hx, hy⟩

/-- A listener that events leave was there before under its identifier. -/
theorem mem_of_mem_survivorsOf {listeners : List (Nat × ℓ)} {es : List StatusEvent} {id : Nat}
    {y : ℓ} (h : (id, y) ∈ survivorsOf listeners es) : ∃ x, (id, x) ∈ listeners := by
  induction es generalizing listeners with
  | nil => exact ⟨y, h⟩
  | cons e es ih =>
    obtain ⟨z, hz⟩ := ih h
    obtain ⟨x, hx, -⟩ := mem_of_mem_survivors hz
    exact ⟨x, hx⟩

/-- A listener of a lasting kind stays after an event that does not tell of the end. -/
theorem Keeps.survivors {listeners : List (Nat × ℓ)} {id : Nat} {P : ℓ → Prop}
    (h : Keeps listeners id P) (hP : Lasting P) {e : StatusEvent} (he : e.status ≠ .exit) :
    Keeps (survivors e listeners) id P where
  registered := by
    obtain ⟨x, hx⟩ := h.registered
    obtain ⟨y, hy, -⟩ := hP x (h.kind x hx) e he
    exact ⟨y, List.mem_filterMap.mpr ⟨(id, x), hx, congrArg (Option.map _) hy⟩⟩
  kind y hy := by
    obtain ⟨x, hx, hreact⟩ := mem_of_mem_survivors hy
    obtain ⟨z, hz, hkind⟩ := hP x (h.kind x hx) e he
    rw [hreact] at hz
    exact Option.some_inj.mp hz ▸ hkind

/-- A listener of a lasting kind stays after all such events. -/
theorem Keeps.survivorsOf {listeners : List (Nat × ℓ)} {id : Nat} {P : ℓ → Prop}
    (h : Keeps listeners id P) (hP : Lasting P) {es : List StatusEvent}
    (hes : ∀ e ∈ es, e.status ≠ .exit) : Keeps (survivorsOf listeners es) id P := by
  induction es generalizing listeners with
  | nil => exact h
  | cons e es ih =>
    exact ih (h.survivors hP (hes e List.mem_cons_self))
      fun e' he' => hes e' (List.mem_cons_of_mem _ he')

/-- What is told of events is told, of one of them, under identifiers of listeners that are
registered before. -/
theorem mem_of_told_mem_tellings {listeners : List (Nat × ℓ)} {es : List StatusEvent} {id : Nat}
    {x : ℓ} {e : StatusEvent} (h : .told id x e ∈ tellings listeners es) :
    e ∈ es ∧ ∃ y, (id, y) ∈ listeners := by
  induction es generalizing listeners with
  | nil => cases h
  | cons e' es ih =>
    rcases List.mem_append.mp h with h | h
    · obtain ⟨⟨_, y⟩, hy, heq⟩ := List.mem_map.mp h
      cases heq
      exact ⟨List.mem_cons_self, x, hy⟩
    · obtain ⟨he, z, hz⟩ := ih h
      obtain ⟨y, hy, -⟩ := mem_of_mem_survivors hz
      exact ⟨List.mem_cons_of_mem _ he, y, hy⟩

/-- Only listeners of a lasting kind are told under an identifier that one of them has. -/
theorem Keeps.told {listeners : List (Nat × ℓ)} {id : Nat} {P : ℓ → Prop}
    (h : Keeps listeners id P) (hP : Lasting P) {es : List StatusEvent}
    (hes : ∀ e ∈ es, e.status ≠ .exit) {x : ℓ} {e : StatusEvent}
    (htold : .told id x e ∈ tellings listeners es) : P x := by
  induction es generalizing listeners with
  | nil => cases htold
  | cons e' es ih =>
    rcases List.mem_append.mp htold with htold | htold
    · obtain ⟨⟨_, y⟩, hy, heq⟩ := List.mem_map.mp htold
      cases heq
      exact h.kind x hy
    · exact ih (h.survivors hP (hes e' List.mem_cons_self))
        (fun e'' he'' => hes e'' (List.mem_cons_of_mem _ he'')) htold

/-- Of the last of some events, those are told who stay after the others. -/
theorem tellings_concat (listeners : List (Nat × ℓ)) (es : List StatusEvent) (last : StatusEvent) :
    tellings listeners (es ++ [last]) = tellings listeners es ++
      (Lifecycle.survivorsOf listeners es).map fun (id, x) => .told id x last := by
  induction es generalizing listeners with
  | nil => exact List.append_nil _
  | cons e es ih =>
    rw [List.cons_append, tellings, tellings, ih, List.append_assoc]
    rfl

end Lifecycle

namespace Server

variable {ℓ : Type}

/-- Whether a listener was told that the server left. -/
def toldExit (v : Server ℓ) (id : Nat) : Bool := (v.eventsFor id).any (·.status = .exit)

/-- Someone was told under an identifier that the server left. -/
theorem toldExit_iff (v : Server ℓ) (id : Nat) :
    v.toldExit id = true ↔ ∃ e ∈ v.journal, e.id = id ∧ e.event.status = .exit := by
  unfold toldExit eventsFor
  rw [List.any_map, List.any_eq_true]
  constructor
  · rintro ⟨e, he, hexit⟩
    obtain ⟨hmem, hid⟩ := List.mem_filter.mp he
    exact ⟨e, hmem, of_decide_eq_true hid, of_decide_eq_true hexit⟩
  · rintro ⟨e, hmem, hid, hexit⟩
    exact ⟨e, List.mem_filter.mpr ⟨hmem, decide_eq_true hid⟩, decide_eq_true hexit⟩

variable [Listener ℓ]

/-- The server after an errand. -/
def meet (v : Server ℓ) : Errand ℓ → Server ℓ
  | .call t => (v.call t).2
  | .shutdown => v.shutdown
  | .add listener => (v.addListener listener).2
  | .remove id => (v.removeListener id).2
  | .work op => (bareService op v).2
  | .tick => v.tick

/-- The server after errands that it meets one after another. -/
def meetAll (v : Server ℓ) (errands : List (Errand ℓ)) : Server ℓ := errands.foldl meet v

/-- Where a server may be for a call not to be refused. -/
inductive Ready : State → Transition → Prop where
  /-- It starts from the stopped state. -/
  | start : Ready .stopped .start
  /-- It pauses while it runs. -/
  | pause {s : State} : s.isRunning = true → Ready s .pause
  /-- It goes on after a pause. -/
  | resume : Ready .paused .resume
  /-- It stops if it is started. -/
  | stop {s : State} : s.isStarted = true → Ready s .stop
  /-- It leaves from the stopped state. -/
  | exit (shutdownHook : Bool) : Ready .stopped (.exit shutdownHook)
  /-- It leaves by stopping first. -/
  | stopAndExit {s : State} (shutdownHook : Bool) : s.isStarted = true →
    Ready s (.exit shutdownHook)
  /-- It takes a configuration while it is stopped. -/
  | configure (config : ServerConfig) : Ready .stopped (.configure config)

omit [Listener ℓ] in
/-- A call that is not refused finds the server ready for it. -/
theorem ready_of_not_refuses {v : Server ℓ} {t : Transition} (h : ∀ e, ¬ v.Refuses t e) :
    Ready v.state t := by
  have hreject := Lifecycle.rejection?_eq_none fun r hr => h _ (.rejected hr)
  cases hs : v.state <;> rw [hs] at hreject <;> cases t <;>
    first
    | cases hreject; done
    | exact .start
    | exact .pause rfl
    | exact .resume
    | exact .stop rfl
    | exact .exit _
    | exact .stopAndExit _ rfl
    | exact .configure _

/-- A server whose parts are in step with its lifecycle. -/
structure InStep (v : Server ℓ) : Prop where
  /-- The store is open while the server is started. -/
  isOpen : v.store.isOpen = v.state.isStarted
  /-- The timer runs with the period of the configuration while the server runs. -/
  timer : v.timer = if v.state.isRunning then .start v.lifecycle.config.taskPeriod? else .stop
  /-- The store has the configuration of the server. -/
  config : v.store.config = v.lifecycle.config
  /-- Nobody was told that the server left before it did. -/
  journal : v.state ≠ .exited → ∀ e ∈ v.journal, e.event.status ≠ .exit
  /-- The next identifier is above those of the listeners. -/
  registered : ∀ r ∈ v.lifecycle.listeners, r.1 < v.lifecycle.nextId
  /-- It is above those under which anything was told. -/
  told : ∀ e ∈ v.journal, e.id < v.lifecycle.nextId

omit [Listener ℓ] in
/-- A stopped server over a closed store is in step. -/
theorem inStep_of {store : Store} (hclosed : store.isOpen = false) :
    (Server.of store : Server ℓ).InStep where
  isOpen := hclosed
  timer := rfl
  config := rfl
  journal _ := List.forall_mem_nil _
  registered := List.forall_mem_nil _
  told := List.forall_mem_nil _

/-- What listeners are told in a call are events of the call, under identifiers that are
registered. -/
theorem mem_of_mem_entries {v : Server ℓ} {t : Transition} {e : JournalEntry ℓ}
    (h : e ∈ v.entries t) :
    e.event ∈ t.events v.state ∧ ∃ x, (e.id, x) ∈ v.lifecycle.listeners := by
  obtain ⟨n, hn, he⟩ := List.mem_filterMap.mp h
  cases n with
  | hook => cases he
  | told id x event =>
    cases he
    exact Lifecycle.mem_of_told_mem_tellings hn

/-- The hook of a call brings the store and the timer to where the lifecycle goes. -/
theorem InStep.runHook? {v : Server ℓ} (h : v.InStep) {t : Transition} (hready : Ready v.state t) :
    let w := ({ v with lifecycle := v.lifecycle.after t } : Server ℓ).runHook?
      (t.hook? v.state v.lifecycle.config)
    w.store.isOpen = (t.target v.state).isStarted ∧
      w.timer = (if (t.target v.state).isRunning
        then .start (t.configAfter v.lifecycle.config).taskPeriod? else .stop) ∧
      w.store.config = t.configAfter v.lifecycle.config := by
  obtain ⟨hopen, htimer, hconfig, -, -, -⟩ := h
  -- The cases of `Ready` fix the state, so it must be a variable of its own.
  obtain ⟨⟨s, config, listeners, nextId⟩, store, measure, timer, journal⟩ := v
  change Ready s t at hready
  change store.isOpen = s.isStarted at hopen
  change timer = if s.isRunning then _ else _ at htimer
  change store.config = config at hconfig
  cases hready with
  | start => exact ⟨rfl, rfl, rfl⟩
  | pause hs =>
    have hstarted : s.isStarted = true := by cases s <;> first | rfl | cases hs
    exact ⟨hopen.trans hstarted, rfl, hconfig⟩
  | resume => exact ⟨hopen, rfl, hconfig⟩
  | stop hs => exact ⟨rfl, rfl, hconfig⟩
  | exit shutdownHook => exact ⟨hopen, htimer, hconfig⟩
  | stopAndExit shutdownHook hs =>
    cases s <;> first | exact ⟨rfl, rfl, hconfig⟩ | cases hs
  | configure config' => exact ⟨hopen, htimer, rfl⟩

/-- The lifecycle of a server after a call that is not refused. -/
theorem lifecycle_call_of_not_refuses {v : Server ℓ} {t : Transition}
    (h : ∀ e, ¬ v.Refuses t e) : (v.call t).2.lifecycle = v.lifecycle.after t := by
  rw [call_of_not_refuses h]
  exact lifecycle_runHook? _ _

/-- After a call, listeners are registered under identifiers that they had before. -/
theorem mem_of_mem_after {l : Lifecycle ℓ} {t : Transition} {r : Nat × ℓ}
    (h : r ∈ (l.after t).listeners) : ∃ x, (r.1, x) ∈ l.listeners := by
  cases t with
  | exit shutdownHook => cases h
  | start | pause | resume | stop | configure config => exact Lifecycle.mem_of_mem_survivorsOf h

/-- A call keeps the parts in step. -/
theorem InStep.call {v : Server ℓ} (h : v.InStep) (t : Transition) : (v.call t).2.InStep := by
  by_cases hr : ∃ e, v.Refuses t e
  · obtain ⟨e, hr⟩ := hr
    rw [call_of_refuses hr]
    exact h
  · have hno : ∀ e, ¬ v.Refuses t e := not_exists.mp hr
    have hready := ready_of_not_refuses hno
    have hlive : v.state ≠ .exited := fun hs => hno _ (.rejected (.exited t hs))
    have hstate := state_call_of_not_refuses hno
    have hconfig := config_call_of_not_refuses hno
    obtain ⟨hopen, htimer, hstore⟩ := h.runHook? hready
    refine ⟨?_, ?_, ?_, ?_, ?_, ?_⟩
    · rw [hstate, call_of_not_refuses hno]
      exact hopen
    · rw [hstate, hconfig, call_of_not_refuses hno]
      exact htimer
    · rw [hconfig, call_of_not_refuses hno]
      exact hstore
    · intro hs e he
      rw [hstate] at hs
      rw [call_of_not_refuses hno] at he
      rcases List.mem_append.mp he with he | he
      · exact h.journal hlive e he
      · exact fun hexit => hs (Transition.target_of_exit (mem_of_mem_entries he).1 hexit)
    · rw [lifecycle_call_of_not_refuses hno]
      intro r hr
      obtain ⟨x, hx⟩ := mem_of_mem_after hr
      exact h.registered (r.1, x) hx
    · rw [lifecycle_call_of_not_refuses hno, call_of_not_refuses hno]
      intro e he
      rcases List.mem_append.mp he with he | he
      · exact h.told e he
      · obtain ⟨x, hx⟩ := (mem_of_mem_entries he).2
        exact h.registered _ hx

/-- What a server does while a listener of a kind waits for its end: it keeps the listener,
and has told it of the end, and of nothing else after that, when the end has come. -/
structure Awaited (v : Server ℓ) (id : Nat) (P : ℓ → Prop) : Prop where
  /-- The listener is registered while the server is there. -/
  live : v.state ≠ .exited → Lifecycle.Keeps v.lifecycle.listeners id P
  /-- No other listener will have its identifier. -/
  issued : id < v.lifecycle.nextId
  /-- It was always of the kind when it was told of something. -/
  kind : ∀ e ∈ v.journal, e.id = id → P e.listener
  /-- What it was told of last is the end, if that has come. -/
  ended : v.state = .exited →
    ∃ e, v.journal.reverse.find? (·.id = id) = some e ∧ e.event.status = .exit

/-- The entries of the journal when each of some listeners is told of an event. -/
def entriesOf (listeners : List (Nat × ℓ)) (e : StatusEvent) : List (JournalEntry ℓ) :=
  listeners.map fun (id, x) => ⟨id, x, e⟩

/-- During a call, the listeners are told of all events but the last, and then those that are
left of the last one. -/
theorem entries_eq {v : Server ℓ} {t : Transition} {early : List StatusEvent}
    {last : StatusEvent} (h : t.events v.state = early ++ [last]) :
    v.entries t = (Lifecycle.tellings v.lifecycle.listeners early).filterMap Notice.entry? ++
      entriesOf (Lifecycle.survivorsOf v.lifecycle.listeners early) last := by
  rw [entries, h, Lifecycle.tellings_concat, List.filterMap_append, List.filterMap_map,
    entriesOf, ← List.filterMap_eq_map']
  rfl

omit [Listener ℓ] in
/-- What was told last under an identifier was told under it. -/
theorem mem_of_find?_reverse {journal : List (JournalEntry ℓ)} {id : Nat} {e : JournalEntry ℓ}
    (h : journal.reverse.find? (·.id = id) = some e) : e ∈ journal ∧ e.id = id := by
  have hid := List.find?_some h
  exact ⟨List.mem_reverse.mp (List.mem_of_find?_eq_some h), of_decide_eq_true hid⟩

omit [Listener ℓ] in
/-- A listener that is told of an event was told of nothing after it. -/
theorem find?_reverse_append {listeners : List (Nat × ℓ)} {id : Nat}
    (h : ∃ x, (id, x) ∈ listeners) (journal : List (JournalEntry ℓ)) (last : StatusEvent) :
    ∃ e, (journal ++ entriesOf listeners last).reverse.find? (·.id = id) = some e ∧
      e.event = last := by
  obtain ⟨x, hx⟩ := h
  have hsome : ((entriesOf listeners last).reverse.find? (·.id = id)).isSome = true :=
    List.find?_isSome.mpr ⟨⟨id, x, last⟩, List.mem_reverse.mpr (List.mem_map.mpr ⟨_, hx, rfl⟩),
      decide_eq_true rfl⟩
  obtain ⟨e, he⟩ := Option.isSome_iff_exists.mp hsome
  refine ⟨e, ?_, ?_⟩
  · rw [List.reverse_append, List.find?_append, he]
    rfl
  · obtain ⟨_, -, rfl⟩ := List.mem_map.mp (List.mem_reverse.mp (List.mem_of_find?_eq_some he))
    rfl

/-- A call keeps a listener of a lasting kind, or tells it of the end. -/
theorem Awaited.call {v : Server ℓ} {id : Nat} {P : ℓ → Prop} (hP : Lasting P)
    (h : v.Awaited id P) (t : Transition) : (v.call t).2.Awaited id P := by
  by_cases hr : ∃ e, v.Refuses t e
  · obtain ⟨e, hr⟩ := hr
    rw [call_of_refuses hr]
    exact h
  · have hno : ∀ e, ¬ v.Refuses t e := not_exists.mp hr
    have hlive : v.state ≠ .exited := fun hs => hno _ (.rejected (.exited t hs))
    have hkeeps := h.live hlive
    obtain ⟨early, last, hevents, hearly, hlast⟩ := t.exists_events v.state
    have hleft := hkeeps.survivorsOf hP hearly
    have hjournal : (v.call t).2.journal = v.journal ++ v.entries t := by
      rw [call_of_not_refuses hno]
    rw [entries_eq hevents, ← List.append_assoc] at hjournal
    refine ⟨?_, ?_, ?_, ?_⟩
    · intro hs
      rw [state_call_of_not_refuses hno] at hs
      rw [lifecycle_call_of_not_refuses hno]
      have hlive' : ∀ e ∈ t.events v.state, e.status ≠ .exit := fun e he hexit =>
        hs (Transition.target_of_exit he hexit)
      cases t with
      | exit shutdownHook => exact absurd rfl hs
      | start | pause | resume | stop | configure config => exact hkeeps.survivorsOf hP hlive'
    · rw [lifecycle_call_of_not_refuses hno]
      exact h.issued
    · rw [hjournal]
      intro e he hid
      rcases List.mem_append.mp he with he | he
      · rcases List.mem_append.mp he with he | he
        · exact h.kind e he hid
        · obtain ⟨n, hn, heq⟩ := List.mem_filterMap.mp he
          cases n with
          | hook => cases heq
          | told id' x event =>
            cases heq
            cases hid
            exact hkeeps.told hP hearly hn
      · obtain ⟨⟨_, x⟩, hx, rfl⟩ := List.mem_map.mp he
        cases hid
        exact hleft.kind x hx
    · intro hs
      rw [state_call_of_not_refuses hno] at hs
      rw [hjournal]
      obtain ⟨e, he, hevent⟩ := find?_reverse_append hleft.registered _ last
      exact ⟨e, he, hevent ▸ hlast hs hlive⟩

omit [Listener ℓ] in
/-- After the end nobody is registered. -/
theorem addListener_of_exited {v : Server ℓ} (hs : v.lifecycle.state = .exited) (x : ℓ) :
    v.addListener x = (.error (.lifecycle .exited), v) := by
  have hadd : v.lifecycle.add x = .error (.lifecycle .exited) := if_pos hs
  unfold addListener
  rw [hadd]

omit [Listener ℓ] in
/-- Before the end a listener is registered under the next identifier. -/
theorem addListener_of_live {v : Server ℓ} (hs : v.lifecycle.state ≠ .exited) (x : ℓ) :
    v.addListener x = (.ok v.lifecycle.nextId, { v with lifecycle := { v.lifecycle with
      listeners := v.lifecycle.listeners ++ [(v.lifecycle.nextId, x)]
      nextId := v.lifecycle.nextId + 1 } }) := by
  have hadd : v.lifecycle.add x = .ok (v.lifecycle.nextId, { v.lifecycle with
      listeners := v.lifecycle.listeners ++ [(v.lifecycle.nextId, x)]
      nextId := v.lifecycle.nextId + 1 }) := if_neg hs
  unfold addListener
  rw [hadd]

omit [Listener ℓ] in
/-- An operation keeps the parts in step. -/
theorem InStep.work {v : Server ℓ} (h : v.InStep) (op : Operation) : (bareService op v).2.InStep := by
  have hframe := Store.perform_frame op v.store
  refine ⟨?_, h.timer, ?_, h.journal, h.registered, h.told⟩
  · show (Store.perform op v.store).2.isOpen = v.state.isStarted
    rw [hframe]
    exact h.isOpen
  · show (Store.perform op v.store).2.config = v.lifecycle.config
    rw [hframe]
    exact h.config

/-- Every errand keeps the parts in step. -/
theorem InStep.meet {v : Server ℓ} (h : v.InStep) (errand : Errand ℓ) : (v.meet errand).InStep := by
  cases errand with
  | call t => exact h.call t
  | shutdown => exact h.call (.exit true)
  | add x =>
    by_cases hs : v.lifecycle.state = .exited
    · rw [Server.meet, addListener_of_exited hs]
      exact h
    · rw [Server.meet, addListener_of_live hs]
      refine ⟨h.isOpen, h.timer, h.config, h.journal, fun r hr => ?_, fun e he => ?_⟩
      · rcases List.mem_append.mp hr with hr | hr
        · exact Nat.lt_succ_of_lt (h.registered r hr)
        · rw [List.mem_singleton.mp hr]
          exact Nat.lt_succ_self _
      · exact Nat.lt_succ_of_lt (h.told e he)
  | remove id =>
    exact ⟨h.isOpen, h.timer, h.config, h.journal,
      fun r hr => h.registered r (List.mem_filter.mp hr).1, h.told⟩
  | work op => exact h.work op
  | tick =>
    show (v.tick).InStep
    unfold tick
    split
    · exact ⟨h.isOpen, h.timer, h.config, h.journal, h.registered, h.told⟩
    · exact h

/-- So do all of them. -/
theorem InStep.meetAll {v : Server ℓ} (h : v.InStep) (errands : List (Errand ℓ)) :
    (v.meetAll errands).InStep := by
  induction errands generalizing v with
  | nil => exact h
  | cons errand errands ih => exact ih (h.meet errand)

omit [Listener ℓ] in
/-- A listener of a kind that has just been registered is awaited. -/
theorem InStep.awaited {v w : Server ℓ} (hv : v.InStep) {id : Nat} {x : ℓ} {P : ℓ → Prop}
    (hx : P x) (h : v.addListener x = (.ok id, w)) : w.Awaited id P := by
  by_cases hs : v.lifecycle.state = .exited
  · rw [addListener_of_exited hs] at h
    cases h
  · rw [addListener_of_live hs] at h
    cases h
    refine ⟨fun _ => ⟨⟨x, List.mem_append_right _ (List.mem_singleton_self _)⟩, fun y hy => ?_⟩,
      Nat.lt_succ_self _, fun e he hid => ?_, fun hexited => absurd hexited hs⟩
    · rcases List.mem_append.mp hy with hy | hy
      · exact absurd (hv.registered _ hy) (Nat.lt_irrefl _)
      · obtain ⟨-, rfl⟩ := Prod.mk.inj (List.mem_singleton.mp hy)
        exact hx
    · exact absurd (hid ▸ hv.told e he) (Nat.lt_irrefl _)

/-- Any errand but to end its registration leaves a listener of a lasting kind awaited. -/
theorem Awaited.meet {v : Server ℓ} {id : Nat} {P : ℓ → Prop} (hP : Lasting P)
    (h : v.Awaited id P) {errand : Errand ℓ} (hkeep : errand ≠ .remove id) :
    (v.meet errand).Awaited id P := by
  cases errand with
  | call t => exact h.call hP t
  | shutdown => exact h.call hP (.exit true)
  | add y =>
    by_cases hs : v.lifecycle.state = .exited
    · rw [Server.meet, addListener_of_exited hs]
      exact h
    · rw [Server.meet, addListener_of_live hs]
      refine ⟨fun hlive => ⟨?_, fun z hz => ?_⟩, Nat.lt_succ_of_lt h.issued, h.kind, h.ended⟩
      · obtain ⟨x, hx⟩ := (h.live hlive).registered
        exact ⟨x, List.mem_append_left _ hx⟩
      · rcases List.mem_append.mp hz with hz | hz
        · exact (h.live hlive).kind z hz
        · have hid : id = v.lifecycle.nextId := congrArg Prod.fst (List.mem_singleton.mp hz)
          exact absurd h.issued (hid ▸ Nat.lt_irrefl _)
  | remove id' =>
    have hother : id ≠ id' := fun heq => hkeep (congrArg Errand.remove heq.symm)
    refine ⟨fun hlive => ⟨?_, fun z hz => ?_⟩, h.issued, h.kind, h.ended⟩
    · obtain ⟨x, hx⟩ := (h.live hlive).registered
      exact ⟨x, List.mem_filter.mpr ⟨hx, decide_eq_true hother⟩⟩
    · exact (h.live hlive).kind z (List.mem_filter.mp hz).1
  | work op => exact ⟨h.live, h.issued, h.kind, h.ended⟩
  | tick =>
    show (v.tick).Awaited id P
    unfold tick
    split
    · exact ⟨h.live, h.issued, h.kind, h.ended⟩
    · exact h

/-- So do all of them. -/
theorem Awaited.meetAll {v : Server ℓ} {id : Nat} {P : ℓ → Prop} (hP : Lasting P)
    (h : v.Awaited id P) {errands : List (Errand ℓ)} (hkeep : .remove id ∉ errands) :
    (v.meetAll errands).Awaited id P := by
  induction errands generalizing v with
  | nil => exact h
  | cons errand errands ih =>
    rw [List.mem_cons, not_or] at hkeep
    exact ih (h.meet hP fun heq => hkeep.1 heq.symm) hkeep.2

omit [Listener ℓ] in
/-- A listener that is awaited has been told of the end exactly when it has come. -/
theorem Awaited.toldExit_iff {v : Server ℓ} (hv : v.InStep) {id : Nat} {P : ℓ → Prop}
    (h : v.Awaited id P) : v.toldExit id = true ↔ v.state = .exited := by
  rw [Server.toldExit_iff]
  constructor
  · rintro ⟨e, he, -, hexit⟩
    exact Decidable.byContradiction fun hlive => hv.journal hlive e he hexit
  · intro hs
    obtain ⟨e, he, hexit⟩ := h.ended hs
    obtain ⟨hmem, hid⟩ := mem_of_find?_reverse he
    exact ⟨e, hmem, hid, hexit⟩

/-- A way to tell the signals among listeners: told of an event, a signal becomes one, as
signals do. -/
def ShowsSignals (signal? : ℓ → Option ExitSignal) : Prop :=
  ∀ x s, signal? x = some s → ∀ e, ∃ y, Listener.react x e = some y ∧
    signal? y = Listener.react s e

/-- Signals that are not set last. -/
theorem ShowsSignals.lasting {signal? : ℓ → Option ExitSignal} (h : ShowsSignals signal?) :
    Lasting fun x => signal? x = some {} := by
  intro x hx e he
  obtain ⟨y, hy, hsignal⟩ := h x {} hx e
  exact ⟨y, hy, hsignal.trans (congrArg some (if_neg he))⟩

/-- A signal that is awaited is set exactly when the end has come. -/
theorem Awaited.isSet_iff {v : Server ℓ} (hv : v.InStep) {id : Nat}
    {signal? : ℓ → Option ExitSignal} (hsignals : ShowsSignals signal?)
    (h : v.Awaited id fun x => signal? x = some {}) :
    ((v.became? id).bind signal?).any (·.isSet) = true ↔ v.state = .exited := by
  have hbecame : ∀ e, v.journal.reverse.find? (·.id = id) = some e →
      (v.became? id).bind signal? =
        some (if e.event.status = .exit then { isSet := true } else {}) := by
    intro e he
    obtain ⟨hmem, hid⟩ := mem_of_find?_reverse he
    obtain ⟨y, hy, hsignal⟩ := hsignals e.listener {} (h.kind e hmem hid) e.event
    rw [became?, he, Option.bind_some, hy, Option.bind_some, hsignal]
    rfl
  constructor
  · intro hset
    refine Decidable.byContradiction fun hlive => ?_
    cases hlast : v.journal.reverse.find? (·.id = id) with
    | none =>
      rw [became?, hlast] at hset
      cases hset
    | some e =>
      have hearlier := hv.journal hlive e (mem_of_find?_reverse hlast).1
      rw [hbecame e hlast, if_neg hearlier] at hset
      cases hset
  · intro hs
    obtain ⟨e, he, hexit⟩ := h.ended hs
    rw [hbecame e he, if_pos hexit]
    rfl

/-- What can be seen of the parts of a server that are in step with its lifecycle. -/
structure Coupled (v : Server ℓ) : Prop where
  /-- The store is open exactly in the states from the start to the stop. -/
  isOpen_iff : v.store.isOpen = true ↔ v.state = .started ∨ v.state = .paused ∨ v.state = .resumed
  /-- The timer runs exactly in the states in which requests are answered, if the
  configuration has a period. -/
  timer_iff : v.timer.isRunning = true ↔
    (v.state = .started ∨ v.state = .resumed) ∧ v.lifecycle.config.tasksPeriod ≠ 0
  /-- The service tells the settings of the configuration. -/
  settings : (bareService .settings v).1 = .ok (some v.lifecycle.config.toSettings)

omit [Listener ℓ] in
/-- Parts that are in step can be seen to be. -/
theorem InStep.coupled {v : Server ℓ} (h : v.InStep) : v.Coupled where
  isOpen_iff := by
    rw [h.isOpen]
    cases v.state <;> simp [State.isStarted]
  timer_iff := by
    have hperiod : v.lifecycle.config.taskPeriod?.isSome = true ↔
        v.lifecycle.config.tasksPeriod ≠ 0 := by
      unfold ServerConfig.taskPeriod? ServerConfig.tasksEvery?
      split <;> rename_i hzero <;> simp [hzero]
    rw [h.timer, ← hperiod]
    cases v.state <;> simp [State.isRunning, Timer.isRunning, Timer.start, Timer.stop]
  settings := by
    show Except.ok (some v.store.config.toSettings) = _
    rw [h.config]

/-- The law of the parts. A server is made over a closed store with the configuration of
the store, and meets any errands, with listeners that may fail at any event. Afterwards
its store and its timer are as its state and its configuration say, and its service
tells the settings of this configuration. A listener that never fails may be registered
at any time: unless it is removed, it has been told of the end exactly when the server
has left. A signal for the end that is registered and not removed is set exactly when the
server has left. -/
theorem parts_in_step {store : Store} (hclosed : store.isOpen = false)
    (errands : List (Errand ℓ)) :
    ((of store).meetAll errands).Coupled ∧
      (∀ (x : ℓ) (id : Nat) (v : Server ℓ), (∀ e, Listener.react x e = some x) →
        ((of store).meetAll errands).addListener x = (.ok id, v) →
        ∀ later : List (Errand ℓ), .remove id ∉ later →
          ((v.meetAll later).toldExit id = true ↔ (v.meetAll later).state = .exited)) ∧
      ∀ (signal? : ℓ → Option ExitSignal), ShowsSignals signal? →
        ∀ (x : ℓ) (id : Nat) (v : Server ℓ), signal? x = some {} →
          ((of store).meetAll errands).addListener x = (.ok id, v) →
          ∀ later : List (Errand ℓ), .remove id ∉ later →
            ((((v.meetAll later).became? id).bind signal?).any (·.isSet) = true ↔
              (v.meetAll later).state = .exited) := by
  have hstep : ((of store).meetAll errands : Server ℓ).InStep := (inStep_of hclosed).meetAll errands
  have hadded : ∀ {x : ℓ} {id : Nat} {v : Server ℓ},
      ((of store).meetAll errands).addListener x = (.ok id, v) → v.InStep := by
    intro x id v hadd
    have hmeet := hstep.meet (.add x)
    rw [Server.meet, hadd] at hmeet
    exact hmeet
  refine ⟨hstep.coupled, ?_, ?_⟩
  · intro x id v hx hadd later hkeep
    have hlasting : Lasting (· = x) := by
      rintro _ rfl e -
      exact ⟨_, hx e, rfl⟩
    have hawaited : v.Awaited id (· = x) := hstep.awaited rfl hadd
    exact (hawaited.meetAll hlasting hkeep).toldExit_iff ((hadded hadd).meetAll later)
  · intro signal? hsignals x id v hx hadd later hkeep
    have hawaited : v.Awaited id fun x => signal? x = some {} := hstep.awaited hx hadd
    exact (hawaited.meetAll hsignals.lasting hkeep).isSet_iff ((hadded hadd).meetAll later) hsignals

/-- A server without data that waits for its own end. -/
def waiting : Server ExitSignal := ((of {}).meetAll [.add {}])

/-- It starts, pauses, and leaves because the process shuts down. -/
def lifetime : List (Errand ExitSignal) := [.call .start, .call .pause, .shutdown]

/-- The store of a server without data is closed, and its signal is set exactly when it has
left. -/
theorem parts_in_step_lifetime :
    ({} : Store).isOpen = false ∧
      (((((waiting.meetAll lifetime).became? 0).bind some).any (·.isSet) = true ↔
        (waiting.meetAll lifetime).state = .exited)) ∧
      (waiting.meetAll lifetime).state = .exited := by
  have hadd : ((of {}).meetAll []).addListener {} = (.ok 0, waiting) := rfl
  have hkeep : Errand.remove 0 ∉ lifetime := by
    unfold lifetime
    simp
  have hsignals : ShowsSignals (some : ExitSignal → Option ExitSignal) := by
    intro x s hx e
    cases hx
    exact ⟨_, rfl, rfl⟩
  exact ⟨rfl, (parts_in_step rfl []).2.2 some hsignals {} 0 waiting rfl hadd lifetime hkeep, rfl⟩

end Server

end RatingServer
