import RatingServer.Proofs.Lifecycle.Polls
import RatingServer.Proofs.Lifecycle.Records

/-!
# Polls and listeners tell the same

A server is polled now and then. If it moves no more than once between two polls, what
follows from the polls is what the listeners were told: only a new configuration does not
show, and of a started server that leaves it does not show that it stopped before.
-/

namespace RatingServer

/-- What a poll tells of a server in a state. -/
def State.polled (s : State) : PolledState := ⟨s.isStarted, s.isPaused⟩

/-- A poll of a server at a moment. -/
def Poll.ofState (s : State) : Poll := ⟨.ok (s ≠ .exited), .ok s.polled⟩

/-- The calls that make the server leave. -/
def Transition.leaves : Transition → Bool
  | exit _ => true
  | _ => false

/-- The changes that polls can show of the events of a call: no new configuration, and not
that a server stops which leaves. -/
def Transition.shown (t : Transition) (es : List StatusEvent) : List ServerStatus :=
  (es.map (·.status)).filter fun s => s ≠ .configured && !(s = .stopped && t.leaves)

/-- A call that is carried out leads to the end exactly if it makes the server leave. -/
theorem Transition.target_eq_exited_iff {s : State} {t : Transition}
    (h : ∀ r, ¬Rejected s t r) : t.target s = .exited ↔ t.leaves = true := by
  cases t with
  | configure config =>
    refine iff_of_false (fun hs => ?_) nofun
    exact h _ (.exited _ hs)
  | exit shutdownHook => exact iff_of_true rfl rfl
  | start | pause | resume | stop => exact iff_of_false nofun nofun

/-- Two polls, before and after a call that is carried out, tell of its changes. -/
theorem Transition.changes_target {s : State} {t : Transition} (h : ∀ r, ¬Rejected s t r)
    (hstays : t.leaves = false) :
    s.polled.changes (t.target s).polled = t.shown (t.events s) := by
  have hnone := Lifecycle.rejection?_eq_none h
  cases t with
  | exit shutdownHook => cases hstays
  | start | pause | resume | stop | configure => cases s <;> first | rfl | cases hnone

/-- Of a call that makes the server leave, polls show this alone. -/
theorem Transition.shown_of_leaves {s : State} {t : Transition} (h : t.leaves = true) :
    t.shown (t.events s) = [.exit] := by
  cases t <;> cases h
  cases s <;> rfl

/-- The event that a notice tells to whom an identifier stands for. -/
def Notice.heardBy? {ℓ : Type} (id : Nat) : Notice ℓ → Option StatusEvent
  | .hook _ => none
  | .told id' _ e => if id' = id then some e else none

namespace Episode

variable {ℓ : Type}

/-- The accepted call, if there is one that is not for a new configuration. -/
def move? (e : Episode ℓ) : Option Transition :=
  match e.demand, e.outcome with
  | .call _ (.configure _), _ => none
  | .call _ t, .ok () => some t
  | _, _ => none

/-- The changes that polls can show of an episode. -/
def shown (e : Episode ℓ) : List ServerStatus :=
  match e.demand with
  | .call _ t => t.shown e.emitted
  | _ => []

end Episode

namespace Lifecycle

variable {ℓ : Type} [Listener ℓ]

/-- Demands that are met one part after another. -/
theorem episodes_append (l : Lifecycle ℓ) (ds ds' : List (Demand ℓ)) :
    l.episodes (ds ++ ds') = l.episodes ds ++ (l.run ds).episodes ds' := by
  induction ds generalizing l with
  | nil => rfl
  | cons d ds ih => exact congrArg (l.episode d :: ·) (ih (l.episode d).after)

/-- An episode without a move leaves the state, and nothing is to be seen. -/
theorem still_episode {l : Lifecycle ℓ} {d : Demand ℓ} (h : (l.episode d).move? = none) :
    (l.episode d).after.state = l.state ∧ (l.episode d).shown = [] := by
  cases d with
  | call start t =>
    by_cases hr : ∃ e, Refusal l.state (start l.config) t e
    · obtain ⟨e, hr⟩ := hr
      rw [episode_of_refusal hr]
      refine ⟨rfl, ?_⟩
      show t.shown (l.emitted start t) = []
      rw [emitted_of_refusal hr]
      rfl
    · have hno := not_exists.mp hr
      rw [episode_of_not_refusal hno] at h ⊢
      cases t with
      | configure config =>
        refine ⟨rfl, ?_⟩
        show Transition.shown _ (l.emitted start (.configure config)) = []
        rw [emitted_of_not_refusal hno]
        rfl
      | start | pause | resume | stop | exit => cases h
  | add x =>
    refine ⟨?_, ?_⟩
    · by_cases hs : l.state = .exited
      · rw [(marks_add_of_exited hs x).1]
      · rw [(marks_add hs x).1]
    · rw [Episode.shown, demand_episode]
  | remove id => exact ⟨rfl, rfl⟩

/-- An episode with a move enters its state and shows what can be seen of its events. -/
theorem move_episode {l : Lifecycle ℓ} {d : Demand ℓ} {t : Transition}
    (h : (l.episode d).move? = some t) :
    (∀ r, ¬Rejected l.state t r) ∧ (l.episode d).after.state = t.target l.state ∧
      (l.episode d).shown = t.shown (t.events l.state) := by
  cases d with
  | call start t' =>
    by_cases hr : ∃ e, Refusal l.state (start l.config) t' e
    · obtain ⟨e, hr⟩ := hr
      rw [episode_of_refusal hr] at h
      cases t' <;> cases h
    · have hno := not_exists.mp hr
      rw [episode_of_not_refusal hno] at h ⊢
      have ht : t' = t := by
        cases t' with
        | configure config => cases h
        | start | pause | resume | stop | exit => exact Option.some.inj h
      subst ht
      refine ⟨fun r hr => hno _ (.rejected hr), rfl, ?_⟩
      show t'.shown (l.emitted start t') = _
      rw [emitted_of_not_refusal hno]
  | add x =>
    rw [Episode.move?, demand_episode] at h
    cases h
  | remove id => cases h

/-- A stretch without a move leaves the state, and nothing is to be seen. -/
theorem still_stretch {l : Lifecycle ℓ} {ds : List (Demand ℓ)}
    (h : (l.episodes ds).filterMap Episode.move? = []) :
    (l.run ds).state = l.state ∧ (l.episodes ds).flatMap Episode.shown = [] := by
  induction ds generalizing l with
  | nil => exact ⟨rfl, rfl⟩
  | cons d ds ih =>
    rw [episodes, List.filterMap_eq_nil_iff, List.forall_mem_cons] at h
    obtain ⟨hstate, hshown⟩ := still_episode h.1
    obtain ⟨hrest, hshows⟩ := ih (List.filterMap_eq_nil_iff.mpr h.2)
    rw [episodes, List.flatMap_cons, hshown, hshows]
    exact ⟨hrest.trans hstate, rfl⟩

/-- A stretch with one move at most leaves the state, or it enters that of the move and
shows what can be seen of its events. -/
theorem stretch_cases {l : Lifecycle ℓ} {ds : List (Demand ℓ)}
    (h : ((l.episodes ds).filterMap Episode.move?).length ≤ 1) :
    ((l.run ds).state = l.state ∧ (l.episodes ds).flatMap Episode.shown = []) ∨
      ∃ t : Transition, (∀ r, ¬Rejected l.state t r) ∧ (l.run ds).state = t.target l.state ∧
        (l.episodes ds).flatMap Episode.shown = t.shown (t.events l.state) := by
  induction ds generalizing l with
  | nil => exact .inl ⟨rfl, rfl⟩
  | cons d ds ih =>
    rw [episodes, List.filterMap_cons] at h
    rw [episodes, List.flatMap_cons]
    cases hd : (l.episode d).move? with
    | none =>
      obtain ⟨hstate, hshown⟩ := still_episode hd
      rw [hd] at h
      have hrest := ih h
      rw [hstate] at hrest
      rw [hshown]
      exact hrest
    | some t =>
      obtain ⟨hno, hstate, hshown⟩ := move_episode hd
      rw [hd] at h
      have hnil := List.length_eq_zero_iff.mp (Nat.le_zero.mp (Nat.le_of_succ_le_succ h))
      obtain ⟨hrest, hshows⟩ := still_stretch hnil
      rw [hshown, hshows, List.append_nil]
      exact .inr ⟨t, hno, hrest.trans hstate, rfl⟩

/-- Of a server that has left nothing is to be seen any more. -/
theorem shown_of_exited {l : Lifecycle ℓ} (hs : l.state = .exited) (ds : List (Demand ℓ)) :
    (l.episodes ds).flatMap Episode.shown = [] := by
  induction ds generalizing l with
  | nil => rfl
  | cons d ds ih =>
    have hstill : (l.episode d).move? = none :=
      Option.eq_none_iff_forall_ne_some.mpr fun t ht =>
        (move_episode ht).1 _ (.exited t hs)
    obtain ⟨hstate, hshown⟩ := still_episode hstill
    rw [episodes, List.flatMap_cons, hshown, ih (hstate.trans hs)]
    rfl

/-- The polls of a lifecycle, one after each part of the demands that it meets. -/
def polls (l : Lifecycle ℓ) : List (List (Demand ℓ)) → List Poll
  | [] => []
  | ds :: parts => .ofState (l.run ds).state :: (l.run ds).polls parts

/-- In every part at most one call is accepted, calls for a new configuration apart. -/
def Sparse (l : Lifecycle ℓ) : List (List (Demand ℓ)) → Prop
  | [] => True
  | ds :: parts =>
    ((l.episodes ds).filterMap Episode.move?).length ≤ 1 ∧ (l.run ds).Sparse parts

/-- What follows from polls with one move at most between them is what can be seen of all
events. -/
theorem statuses_polls {l : Lifecycle ℓ} (hlive : l.state ≠ .exited)
    {parts : List (List (Demand ℓ))} (h : l.Sparse parts) :
    (Poll.events l.state.polled (l.polls parts)).map (·.status) =
      (l.episodes parts.flatten).flatMap Episode.shown := by
  induction parts generalizing l with
  | nil => rfl
  | cons ds parts ih =>
    obtain ⟨hone, hrest⟩ := h
    rw [polls, List.flatten_cons, episodes_append, List.flatMap_append]
    by_cases hleft : (l.run ds).state = .exited
    · have hsilent : (Poll.ofState (l.run ds).state).ping ≠ .ok true := fun hanswer =>
        of_decide_eq_true (Except.ok.inj hanswer) hleft
      have hexit : (l.episodes ds).flatMap Episode.shown = [.exit] := by
        rcases stretch_cases hone with ⟨hstate, -⟩ | ⟨t, hno, hstate, hshown⟩
        · exact absurd (hstate.symm.trans hleft) hlive
        · have hleaves := (Transition.target_eq_exited_iff hno).mp (hstate.symm.trans hleft)
          rw [hshown, Transition.shown_of_leaves hleaves]
      rw [Poll.events_of_gone hsilent, hexit, shown_of_exited hleft]
      rfl
    · have hanswer : (Poll.ofState (l.run ds).state).ping = .ok true :=
        congrArg Except.ok (decide_eq_true hleft)
      have hchanges : l.state.polled.changes (l.run ds).state.polled =
          (l.episodes ds).flatMap Episode.shown := by
        rcases stretch_cases hone with ⟨hstate, hshown⟩ | ⟨t, hno, hstate, hshown⟩
        · rw [hstate, hshown, PolledState.changes_self]
        · have hstays : t.leaves = false := Bool.eq_false_iff.mpr fun hleaves =>
            hleft (hstate.trans ((Transition.target_eq_exited_iff hno).mpr hleaves))
          rw [hstate, hshown, Transition.changes_target hno hstays]
      rw [Poll.events_of_answer hanswer, List.map_append, Poll.map_status_of]
      exact congr (congrArg _ hchanges) (ih hleft hrest)

/-- A listener that fails at none of any events. -/
def Steady (x : ℓ) : Prop := ∀ es : List StatusEvent, (es.foldlM Listener.react x).isSome = true

/-- A steady listener is told of an event and is steady afterwards. -/
theorem Steady.react {x : ℓ} (h : Steady x) (e : StatusEvent) :
    ∃ y, Listener.react x e = some y ∧ Steady y := by
  have hcons (es : List StatusEvent) :
      ((Listener.react x e).bind fun y => es.foldlM Listener.react y).isSome = true := h (e :: es)
  cases hreact : Listener.react x e with
  | none =>
    have hnil := hcons []
    rw [hreact] at hnil
    cases hnil
  | some y =>
    rw [hreact] at hcons
    exact ⟨y, rfl, hcons⟩

omit [Listener ℓ] in
/-- Who is not among some listeners does not hear what they are told. -/
theorem heard_telling_of_not_mem {id : Nat} {listeners : List (Nat × ℓ)}
    (h : id ∉ listeners.map (·.1)) (e : StatusEvent) :
    (listeners.map fun (id, x) => Notice.told id x e).filterMap (Notice.heardBy? id) = [] := by
  refine List.filterMap_eq_nil_iff.mpr fun notice hnotice => ?_
  obtain ⟨r, hr, rfl⟩ := List.mem_map.mp hnotice
  have hother : r.1 ≠ id := fun heq => h (heq ▸ List.mem_map_of_mem hr)
  exact if_neg hother

omit [Listener ℓ] in
/-- Who is among some listeners hears once what they are told. -/
theorem heard_telling {listeners : List (Nat × ℓ)} (hnodup : (listeners.map (·.1)).Nodup)
    {id : Nat} (h : id ∈ listeners.map (·.1)) (e : StatusEvent) :
    (listeners.map fun (id, x) => Notice.told id x e).filterMap (Notice.heardBy? id) = [e] := by
  induction listeners with
  | nil => cases h
  | cons r listeners ih =>
    obtain ⟨hout, hrest⟩ := List.nodup_cons.mp hnodup
    rw [List.map_cons, List.filterMap_cons, Notice.heardBy?]
    by_cases hid : r.1 = id
    · rw [if_pos hid, heard_telling_of_not_mem (hid ▸ hout)]
    · rw [if_neg hid]
      exact ih hrest ((List.mem_cons.mp h).resolve_left fun heq => hid heq.symm)

/-- A steady listener hears of all events that are told, and stays. -/
theorem heard_tellings {listeners : List (Nat × ℓ)} (hnodup : (listeners.map (·.1)).Nodup)
    {id : Nat} {x : ℓ} (h : (id, x) ∈ listeners) (hx : Steady x) (es : List StatusEvent) :
    (tellings listeners es).filterMap (Notice.heardBy? id) = es ∧
      ∃ y, (id, y) ∈ survivorsOf listeners es ∧ Steady y := by
  induction es generalizing listeners x with
  | nil => exact ⟨rfl, x, h, hx⟩
  | cons e es ih =>
    obtain ⟨y, hreact, hy⟩ := hx.react e
    have hsurvives : (id, y) ∈ survivors e listeners :=
      List.mem_filterMap.mpr ⟨(id, x), h, congrArg (Option.map fun y => (id, y)) hreact⟩
    obtain ⟨hheard, hstays⟩ := ih (hnodup.sublist (ids_survivors e listeners)) hsurvives hy
    refine ⟨?_, hstays⟩
    rw [tellings, List.filterMap_append, heard_telling hnodup (List.mem_map_of_mem h), hheard]
    rfl

/-- A steady listener that is not removed hears in an episode of all events, and stays
unless the server leaves. -/
theorem heard_episode {l : Lifecycle ℓ} (hnodup : (l.listeners.map (·.1)).Nodup) {id : Nat}
    {x : ℓ} (h : (id, x) ∈ l.listeners) (hx : Steady x) {d : Demand ℓ} (hd : d ≠ .remove id) :
    (l.episode d).notices.filterMap (Notice.heardBy? id) = (l.episode d).emitted ∧
      ((l.episode d).after.state = .exited ∨
        ∃ y, (id, y) ∈ (l.episode d).after.listeners ∧ Steady y) := by
  cases d with
  | call start t =>
    by_cases hr : ∃ e, Refusal l.state (start l.config) t e
    · obtain ⟨e, hr⟩ := hr
      rw [episode_of_refusal hr]
      refine ⟨?_, .inr ⟨x, h, hx⟩⟩
      show _ = l.emitted start t
      rw [emitted_of_refusal hr]
      dsimp only
      split <;> rfl
    · have hno := not_exists.mp hr
      obtain ⟨hheard, hstays⟩ := heard_tellings hnodup h hx (t.events l.state)
      rw [episode_of_not_refusal hno]
      refine ⟨?_, ?_⟩
      · show (l.happening t).filterMap _ = l.emitted start t
        rw [emitted_of_not_refusal hno, happening, List.filterMap_append, hheard]
        cases t.hook? l.state l.config <;> rfl
      · cases t with
        | exit shutdownHook => exact .inl rfl
        | start | pause | resume | stop | configure => exact .inr hstays
  | add x' =>
    refine ⟨?_, ?_⟩
    · have hnotices : (l.episode (.add x')).notices = [] := by
        unfold episode
        dsimp only
        split <;> rfl
      rw [hnotices, Episode.emitted, demand_episode]
      rfl
    · by_cases hs : l.state = .exited
      · rw [(marks_add_of_exited hs x').1]
        exact .inl hs
      · rw [(marks_add hs x').1]
        exact .inr ⟨x, List.mem_append_left _ h, hx⟩
  | remove id' =>
    have hother : id ≠ id' := fun heq => hd (heq ▸ rfl)
    exact ⟨rfl, .inr ⟨x, List.mem_filter.mpr ⟨h, decide_eq_true hother⟩, hx⟩⟩

/-- A steady listener that is not removed hears of all events, in each episode. -/
theorem heard_episodes {l : Lifecycle ℓ} {log : List (Mark ℓ)} (hlog : Recorded l log)
    {id : Nat} {x : ℓ} (h : (id, x) ∈ l.listeners) (hx : Steady x) {ds : List (Demand ℓ)}
    (hds : ∀ d ∈ ds, d ≠ .remove id) :
    ∀ e ∈ l.episodes ds, e.notices.filterMap (Notice.heardBy? id) = e.emitted := by
  induction ds generalizing l log x with
  | nil =>
    intro e he
    cases he
  | cons d ds ih =>
    obtain ⟨hd, hrest⟩ := List.forall_mem_cons.mp hds
    obtain ⟨hheard, hafter⟩ := heard_episode hlog.nodup h hx hd
    have hnext := hlog.episode d
    rw [episodes]
    refine List.forall_mem_cons.mpr ⟨hheard, ?_⟩
    rcases hafter with hleft | ⟨y, hy, hsteady⟩
    · -- After the server has left nothing is emitted, and nobody is told of anything.
      intro e he
      have hlate := late_episodes hleft (hnext.ended hleft) ds e he
      rw [hlate.idle.notices, hlate.idle.emitted]
      rfl
    · exact ih hnext hy hsteady hrest

/-- Polls of a lifecycle, one after each part of the demands that it meets, and listeners
tell the same. -/
structure SameStory (l : Lifecycle ℓ) (parts : List (List (Demand ℓ))) : Prop where
  /-- What follows from the polls is what can be seen of the events that are emitted. -/
  statuses : (Poll.events l.state.polled (l.polls parts)).map (·.status) =
    (l.episodes parts.flatten).flatMap Episode.shown
  /-- The events that are emitted are those that every listener hears which was registered
  before, is not removed and does not fail. -/
  heard : ∀ id x, (id, x) ∈ l.listeners → Steady x → (∀ d ∈ parts.flatten, d ≠ .remove id) →
    ∀ e ∈ l.episodes parts.flatten, e.notices.filterMap (Notice.heardBy? id) = e.emitted

/-- The law of following. What follows from any polls makes up a way: each event may come
where it comes, after each poll that is answered the way has led to what was polled, and
that the server left is told once, as the last thing, exactly if a poll has no answer. If
a server has not left, and no more than one call, new configurations apart, is accepted
before each of its polls, then what follows from the polls is what the listeners were
told, without new configurations and without the stop of a server that leaves. -/
theorem following_law :
    (∀ before polls, Poll.Consistent before polls) ∧
      ∀ (config : ServerConfig) (past : List (Demand ℓ)) (parts : List (List (Demand ℓ))),
        (run { config } past).state ≠ .exited → (run { config } past).Sparse parts →
          SameStory (run { config } past) parts := by
  refine ⟨Poll.consistent, fun config past parts hlive hsparse => ⟨?_, ?_⟩⟩
  · exact statuses_polls hlive hsparse
  · exact fun id x h hx hds => heard_episodes ((recorded_new config).run past) h hx hds

/-- A server with a listener is configured and starts, is told to go on, which is refused,
and pauses. It leaves, and then does not start again. -/
theorem sameStory_pause_exit :
    let l : Lifecycle Observer := run { config := .default } [.add {}]
    let parts : List (List (Demand Observer)) :=
      [[.configure .default, .start], [.resume, .pause], [], [.exit true], [.start]].map
        (List.map (.call fun _ => .ok ()))
    l.state ≠ .exited ∧ l.Sparse parts ∧ SameStory l parts ∧
      (Poll.events l.state.polled (l.polls parts)).map (·.status) = [.started, .paused, .exit] := by
  intro l parts
  have hlive : l.state ≠ .exited := by decide
  have hsparse : l.Sparse parts := by
    refine ⟨?_, ?_, ?_, ?_, ?_, trivial⟩ <;> decide
  obtain ⟨-, hlaw⟩ := following_law (ℓ := Observer)
  exact ⟨hlive, hsparse, hlaw .default [.add {}] parts hlive hsparse, rfl⟩

end Lifecycle

end RatingServer
