import Mathlib.Data.List.Nodup
import RatingServer.Proofs.Lifecycle.Runs

/-!
# Records of lifecycles

The record of a lifecycle says which listeners were registered and which registrations
were ended, who was told of what, and whether the server left. From a record alone
follows who must hear of the next event: whoever was registered, was not removed and has
not failed since, in the order of registration. A record fits a lifecycle if these are
the listeners that it has, and what is put to a record at each demand keeps it so.
-/

namespace RatingServer

/-- An entry in the record of a lifecycle. -/
inductive Mark (ℓ : Type) where
  /-- A listener was registered under an identifier. -/
  | registered (id : Nat) (listener : ℓ)
  /-- The registration of an identifier was to end. -/
  | withdrawn (id : Nat)
  /-- A listener was told of an event. -/
  | told (id : Nat) (listener : ℓ) (event : StatusEvent)
  /-- The server left, which ends all registrations. -/
  | left

/-- The entry for a notice. -/
def Notice.mark? {ℓ : Type} : Notice ℓ → Option (Mark ℓ)
  | hook _ => none
  | told id listener event => some (.told id listener event)

namespace Mark

variable {ℓ : Type} [Listener ℓ]

/-- What has become of a registered listener after some entries: nothing if it was
removed, if it failed at an event that it was told of, or if the server left. -/
def standing (id : Nat) (listener : ℓ) : List (Mark ℓ) → Option ℓ
  | [] => some listener
  | .registered _ _ :: later => standing id listener later
  | .withdrawn id' :: later => if id' = id then none else standing id listener later
  | .told id' _ event :: later =>
    if id' = id then (Listener.react listener event).bind fun listener => standing id listener later
    else standing id listener later
  | .left :: _ => none

/-- The listeners that must hear of the next event: of those that were registered, in
this order, the ones that are still standing. -/
def audience : List (Mark ℓ) → List (Nat × ℓ)
  | [] => []
  | .registered id listener :: later =>
    ((standing id listener later).map fun listener => (id, listener)).toList ++ audience later
  | .withdrawn _ :: later => audience later
  | .told _ _ _ :: later => audience later
  | .left :: later => audience later

/-- The identifier that was issued. -/
def issued? : Mark ℓ → Option Nat
  | .registered id _ => some id
  | .withdrawn _ => none
  | .told _ _ _ => none
  | .left => none

/-- If the first of two entries tells of a failure, the second does not tell of the same
listener. -/
def Silences (m later : Mark ℓ) : Prop :=
  ∀ id x e, m = .told id x e → Listener.react x e = none → ∀ x' e', later ≠ .told id x' e'

/-- The entries for an event of which some listeners are told. -/
def telling (listeners : List (Nat × ℓ)) (event : StatusEvent) : List (Mark ℓ) :=
  listeners.map fun r => .told r.1 r.2 event

/-- The entries for events, each of which is told to the audience of its moment. -/
def deliveries (log : List (Mark ℓ)) : List StatusEvent → List (Mark ℓ)
  | [] => []
  | e :: es => telling (audience log) e ++ deliveries (log ++ telling (audience log) e) es

/-- A listener that is standing after some entries goes on from there. -/
theorem standing_append (id : Nat) (x : ℓ) (log more : List (Mark ℓ)) :
    standing id x (log ++ more) = (standing id x log).bind fun x => standing id x more := by
  induction log generalizing x with
  | nil => rfl
  | cons m log ih =>
    cases m with
    | registered id' x' => exact ih x
    | withdrawn id' =>
      rw [List.cons_append, standing, standing]
      split
      · rfl
      · exact ih x
    | told id' x' e =>
      rw [List.cons_append, standing, standing]
      split
      · cases Listener.react x e with
        | none => rfl
        | some y => exact ih y
      · exact ih x
    | left => rfl

/-- An audience is thinned out by what comes later, and followed by new listeners. -/
theorem audience_append (log more : List (Mark ℓ)) :
    audience (log ++ more) =
      ((audience log).filterMap fun r => (standing r.1 r.2 more).map fun x => (r.1, x)) ++
        audience more := by
  induction log with
  | nil => rfl
  | cons m log ih =>
    cases m with
    | registered id x =>
      rw [List.cons_append, audience, audience, ih, standing_append, List.filterMap_append,
        List.append_assoc]
      cases standing id x log with
      | none => rfl
      | some y =>
        rw [Option.bind_some, Option.map_some, Option.toList_some, List.filterMap_cons]
        cases standing id y more <;> rfl
    | withdrawn id => exact ih
    | told id x e => exact ih
    | left => exact ih

/-- Nobody joins an audience by being told of an event. -/
theorem audience_telling (listeners : List (Nat × ℓ)) (e : StatusEvent) :
    audience (telling listeners e) = [] := by
  induction listeners with
  | nil => rfl
  | cons r listeners ih => exact ih

/-- What others are told does not concern a listener. -/
theorem standing_telling_of_not_mem {id : Nat} {listeners : List (Nat × ℓ)}
    (h : id ∉ listeners.map (·.1)) (x : ℓ) (e : StatusEvent) :
    standing id x (telling listeners e) = some x := by
  induction listeners with
  | nil => rfl
  | cons r listeners ih =>
    rw [List.map_cons, List.mem_cons, not_or] at h
    have hother : ¬ r.1 = id := fun heq => h.1 heq.symm
    show (if r.1 = id then _ else standing id x (telling listeners e)) = some x
    rw [if_neg hother, ih h.2]

/-- A listener that is told of an event reacts to it, once. -/
theorem standing_telling {id : Nat} {x : ℓ} {listeners : List (Nat × ℓ)}
    (hnodup : (listeners.map (·.1)).Nodup) (h : (id, x) ∈ listeners) (e : StatusEvent) :
    standing id x (telling listeners e) = Listener.react x e := by
  induction listeners with
  | nil => cases h
  | cons r listeners ih =>
    rw [List.map_cons, List.nodup_cons] at hnodup
    show (if r.1 = id then
      (Listener.react x e).bind fun x => standing id x (telling listeners e)
      else standing id x (telling listeners e)) = Listener.react x e
    rcases List.mem_cons.mp h with rfl | h
    · rw [if_pos rfl]
      cases Listener.react x e with
      | none => rfl
      | some y => exact standing_telling_of_not_mem hnodup.1 y e
    · have hother : ¬ r.1 = id := by
        intro heq
        exact hnodup.1 (heq ▸ List.mem_map_of_mem h)
      rw [if_neg hother, ih hnodup.2 h]

omit [Listener ℓ] in
/-- Whoever is told of an event belongs to the listeners that are told. -/
theorem mem_telling {m : Mark ℓ} {listeners : List (Nat × ℓ)} {e : StatusEvent}
    (h : m ∈ telling listeners e) : ∃ r ∈ listeners, m = .told r.1 r.2 e := by
  obtain ⟨r, hr, hm⟩ := List.mem_map.mp h
  exact ⟨r, hr, hm.symm⟩

/-- After an event the audience has lost those that failed. -/
theorem audience_told {log : List (Mark ℓ)} (hnodup : ((audience log).map (·.1)).Nodup)
    (e : StatusEvent) :
    audience (log ++ telling (audience log) e) = Lifecycle.survivors e (audience log) := by
  have hreact : ∀ r ∈ audience log, ((standing r.1 r.2 (telling (audience log) e)).map
      fun x => (r.1, x)) = (Listener.react r.2 e).map fun x => (r.1, x) := by
    intro r hr
    rw [standing_telling hnodup hr]
  rw [audience_append, audience_telling, List.append_nil]
  exact List.filterMap_congr hreact

end Mark

namespace Lifecycle

variable {ℓ : Type} [Listener ℓ]

/-- The first listener fails at an event, or stays before the others. -/
theorem survivors_cons (e : StatusEvent) (r : Nat × ℓ) (listeners : List (Nat × ℓ)) :
    survivors e (r :: listeners) =
      ((Listener.react r.2 e).map fun x => (r.1, x)).toList ++ survivors e listeners := by
  have heach : ∀ rs : List (Nat × ℓ), survivors e rs =
      rs.filterMap fun r => (Listener.react r.2 e).map fun x => (r.1, x) := fun _ => rfl
  rw [heach, heach, List.filterMap_cons]
  cases Listener.react r.2 e <;> rfl

/-- Those that do not fail keep their identifiers and their order. -/
theorem ids_survivors (e : StatusEvent) (listeners : List (Nat × ℓ)) :
    ((survivors e listeners).map (·.1)).Sublist (listeners.map (·.1)) := by
  induction listeners with
  | nil => exact List.Sublist.refl []
  | cons r listeners ih =>
    rw [survivors_cons, List.map_append, List.map_cons]
    cases Listener.react r.2 e with
    | none => exact ih.cons r.1
    | some y => exact ih.cons_cons r.1

omit [Listener ℓ] in
/-- The entries for what some listeners are told of an event. -/
theorem filterMap_mark? (listeners : List (Nat × ℓ)) (e : StatusEvent) :
    (listeners.map fun (id, x) => Notice.told id x e).filterMap Notice.mark? =
      Mark.telling listeners e := by
  induction listeners with
  | nil => rfl
  | cons r listeners ih =>
    rw [List.map_cons, List.filterMap_cons, ih]
    rfl

end Lifecycle

/-- The entry of a call that makes the server leave. -/
def Transition.farewell {ℓ : Type} : Transition → List (Mark ℓ)
  | exit _ => [.left]
  | _ => []

namespace Episode

variable {ℓ : Type} [Listener ℓ]

/-- The entries of what listeners were told. -/
def told (e : Episode ℓ) : List (Mark ℓ) := e.notices.filterMap Notice.mark?

/-- The identifier that a listener got, with the listener. -/
def registration? (e : Episode ℓ) : Option (Nat × ℓ) :=
  match e.demand with
  | .add listener => (e.before.add listener).toOption.map fun (id, _) => (id, listener)
  | _ => none

/-- The entries of an episode. -/
def marks (e : Episode ℓ) : List (Mark ℓ) :=
  match e.demand, e.outcome with
  | .call _ t, .ok () => e.told ++ t.farewell
  | .call _ _, .error _ => e.told
  | .add _, _ => (e.registration?.map fun (id, listener) => .registered id listener).toList
  | .remove id, _ => [.withdrawn id]

end Episode

namespace Lifecycle

variable {ℓ : Type} [Listener ℓ]

/-- The record of demands that are met one after another. -/
def record (l : Lifecycle ℓ) (ds : List (Demand ℓ)) : List (Mark ℓ) :=
  (l.episodes ds).flatMap Episode.marks

/-- A call that there is a reason to refuse is told to nobody, and leaves no entry. -/
theorem marks_of_refusal {l : Lifecycle ℓ} {t : Transition} {e : CallError}
    {start : ServerConfig → Except CallError Unit} (h : Refusal l.state (start l.config) t e) :
    (l.episode (.call start t)).told = [] ∧ (l.episode (.call start t)).marks = [] := by
  have htold : (l.episode (.call start t)).told = [] := by
    rw [episode_of_refusal h]
    unfold Episode.told
    dsimp only
    split <;> rfl
  refine ⟨htold, ?_⟩
  rw [episode_of_refusal h] at htold ⊢
  exact htold

/-- Any other call is told to the listeners. -/
theorem marks_of_not_refusal {l : Lifecycle ℓ} {t : Transition}
    {start : ServerConfig → Except CallError Unit}
    (h : ∀ e, ¬ Refusal l.state (start l.config) t e) :
    (l.episode (.call start t)).told =
        (tellings l.listeners (t.events l.state)).filterMap Notice.mark? ∧
      (l.episode (.call start t)).marks =
        (tellings l.listeners (t.events l.state)).filterMap Notice.mark? ++ t.farewell := by
  have hhook : ∀ hook : Option Hook,
      ((hook.map Notice.hook).toList : List (Notice ℓ)).filterMap Notice.mark? = [] := by
    intro hook
    cases hook <;> rfl
  have htold : (l.episode (.call start t)).told =
      (tellings l.listeners (t.events l.state)).filterMap Notice.mark? := by
    rw [episode_of_not_refusal h]
    unfold Episode.told happening
    rw [List.filterMap_append, hhook]
    rfl
  refine ⟨htold, ?_⟩
  rw [← htold, episode_of_not_refusal h]
  rfl

/-- A lifecycle that is over registers nobody. -/
theorem marks_add_of_exited {l : Lifecycle ℓ} (hs : l.state = .exited) (x : ℓ) :
    (l.episode (.add x)).after = l ∧ (l.episode (.add x)).marks = [] := by
  have hrefused : l.add x = .error (.lifecycle .exited) := if_pos hs
  have hepisode : l.episode (.add x) = ⟨l, .add x, [], .error (.lifecycle .exited), l⟩ := by
    unfold episode
    dsimp only
    rw [hrefused]
  refine ⟨congrArg Episode.after hepisode, ?_⟩
  rw [hepisode]
  unfold Episode.marks Episode.registration?
  dsimp only
  rw [hrefused]
  rfl

/-- Any other lifecycle registers a listener under its next identifier. -/
theorem marks_add {l : Lifecycle ℓ} (hs : l.state ≠ .exited) (x : ℓ) :
    (l.episode (.add x)).after = { l with
        listeners := l.listeners ++ [(l.nextId, x)], nextId := l.nextId + 1 } ∧
      (l.episode (.add x)).marks = [.registered l.nextId x] := by
  have hissued : l.add x = .ok (l.nextId, { l with
      listeners := l.listeners ++ [(l.nextId, x)], nextId := l.nextId + 1 }) := if_neg hs
  have hepisode : l.episode (.add x) = ⟨l, .add x, [], .ok (), { l with
      listeners := l.listeners ++ [(l.nextId, x)], nextId := l.nextId + 1 }⟩ := by
    unfold episode
    dsimp only
    rw [hissued]
  refine ⟨congrArg Episode.after hepisode, ?_⟩
  rw [hepisode]
  unfold Episode.marks Episode.registration?
  dsimp only
  rw [hissued]
  rfl

/-- A record that fits a lifecycle: its audience are the registered listeners, whose
identifiers ascend, and every identifier that stands in it was issued. -/
structure Recorded (l : Lifecycle ℓ) (log : List (Mark ℓ)) : Prop where
  /-- The registered listeners are those that are still standing. -/
  listeners : l.listeners = Mark.audience log
  /-- They stand in the order of their registration. -/
  ascending : (l.listeners.map (·.1)).Pairwise (· < ·)
  /-- Their identifiers were issued. -/
  below : ∀ r ∈ l.listeners, r.1 < l.nextId
  /-- Every identifier was issued before the next one. -/
  issued : ∀ id ∈ log.filterMap Mark.issued?, id < l.nextId
  /-- Identifiers are issued in ascending order, and so no one twice. -/
  once : (log.filterMap Mark.issued?).Pairwise (· < ·)
  /-- No one was told whose identifier was not issued. -/
  told : ∀ id x e, .told id x e ∈ log → id < l.nextId
  /-- No one is registered that failed. -/
  failed : ∀ id x e, .told id x e ∈ log → Listener.react x e = none →
    id ∉ l.listeners.map (·.1)
  /-- No one was told of anything after it failed. -/
  silent : log.Pairwise Mark.Silences
  /-- A lifecycle is over when its record says that the server left. -/
  left : .left ∈ log ↔ l.state = .exited
  /-- A lifecycle that is over has no listeners. -/
  ended : l.state = .exited → l.listeners = []

/-- A new lifecycle has an empty record. -/
theorem recorded_new (config : ServerConfig) : Recorded ({ config } : Lifecycle ℓ) [] where
  listeners := rfl
  ascending := .nil
  below := nofun
  issued := nofun
  once := .nil
  told := nofun
  failed := nofun
  silent := .nil
  left := ⟨nofun, nofun⟩
  ended := nofun

namespace Recorded

variable {l : Lifecycle ℓ} {log : List (Mark ℓ)}

/-- No identifier is registered twice. -/
theorem nodup (h : Recorded l log) : (l.listeners.map (·.1)).Nodup :=
  h.ascending.imp Nat.ne_of_lt

/-- The identifier of a registered listener stands for it alone. -/
theorem eq_of_id (h : Recorded l log) {r r' : Nat × ℓ} (hr : r ∈ l.listeners)
    (hr' : r' ∈ l.listeners) (hid : r.1 = r'.1) : r = r' :=
  List.inj_on_of_nodup_map h.nodup hr hr' hid

/-- The record of an event that all registered listeners are told of. -/
theorem tell (h : Recorded l log) (e : StatusEvent) :
    Recorded { l with listeners := survivors e l.listeners }
      (log ++ Mark.telling l.listeners e) := by
  have hids := ids_survivors e l.listeners
  have hno : (Mark.telling l.listeners e).filterMap Mark.issued? = [] := by
    refine List.filterMap_eq_nil_iff.mpr fun m hm => ?_
    obtain ⟨r, -, rfl⟩ := Mark.mem_telling hm
    rfl
  have hfails : ∀ r ∈ l.listeners, Listener.react r.2 e = none →
      r.1 ∉ (survivors e l.listeners).map (·.1) := by
    intro r hr hreact hmem
    obtain ⟨r', hr', hid⟩ := List.mem_map.mp hmem
    obtain ⟨r'', hr'', hstays⟩ := List.mem_filterMap.mp hr'
    obtain ⟨x, hx, rfl⟩ := Option.map_eq_some_iff.mp hstays
    rw [h.eq_of_id hr'' hr hid, hreact] at hx
    cases hx
  exact
    { listeners := by
        have hnodup := h.nodup
        rw [h.listeners] at hnodup ⊢
        exact (Mark.audience_told hnodup e).symm
      ascending := h.ascending.sublist hids
      below := fun r hr => by
        obtain ⟨r', hr', hid⟩ := List.mem_map.mp (hids.subset (List.mem_map_of_mem hr))
        exact hid ▸ h.below r' hr'
      issued := fun id hid => by
        rw [List.filterMap_append, hno, List.append_nil] at hid
        exact h.issued id hid
      once := by
        rw [List.filterMap_append, hno, List.append_nil]
        exact h.once
      told := fun id x e' hm => by
        rcases List.mem_append.mp hm with hm | hm
        · exact h.told id x e' hm
        · obtain ⟨r, hr, heq⟩ := Mark.mem_telling hm
          cases heq
          exact h.below r hr
      failed := fun id x e' hm hreact => by
        rcases List.mem_append.mp hm with hm | hm
        · exact fun hmem => h.failed id x e' hm hreact (hids.subset hmem)
        · obtain ⟨r, hr, heq⟩ := Mark.mem_telling hm
          cases heq
          exact hfails r hr hreact
      silent := by
        refine List.pairwise_append.mpr ⟨h.silent, ?_, ?_⟩
        · refine List.pairwise_map.mpr ((List.pairwise_map.mp h.nodup).imp ?_)
          intro r r' hne id x e' heq _ x' e'' heq'
          obtain ⟨hid, -, -⟩ := Mark.told.inj heq
          obtain ⟨hid', -, -⟩ := Mark.told.inj heq'
          exact hne (hid.trans hid'.symm)
        · intro m hm m' hm' id x e' heq hreact x' e'' heq'
          obtain ⟨r, hr, rfl⟩ := Mark.mem_telling hm'
          cases heq
          cases heq'
          exact h.failed r.1 x e' hm hreact (List.mem_map_of_mem hr)
      left := by
        have hnone : .left ∉ Mark.telling l.listeners e := by
          intro hm
          obtain ⟨r, -, heq⟩ := Mark.mem_telling hm
          cases heq
        rw [List.mem_append, or_iff_left hnone]
        exact h.left
      ended := fun hs => by
        show survivors e l.listeners = []
        rw [h.ended hs]
        rfl }

/-- Events are told to the audience of the record, and the record of them fits the
lifecycle without those that fail. -/
theorem tells (h : Recorded l log) (es : List StatusEvent) :
    (tellings l.listeners es).filterMap Notice.mark? = Mark.deliveries log es ∧
      Recorded { l with listeners := survivorsOf l.listeners es }
        (log ++ Mark.deliveries log es) := by
  induction es generalizing l log with
  | nil => 
    refine ⟨rfl, ?_⟩
    rw [Mark.deliveries, List.append_nil]
    exact h
  | cons e es ih =>
    obtain ⟨htold, hafter⟩ := ih (h.tell e)
    rw [tellings, List.filterMap_append, filterMap_mark?, htold, Mark.deliveries,
      ← h.listeners, ← List.append_assoc]
    exact ⟨rfl, hafter⟩

/-- What a record says of a lifecycle that is not over does not depend on its state and
its configuration. -/
theorem enter (h : Recorded l log) (hs : l.state ≠ .exited) {s : State} (hs' : s ≠ .exited)
    (config : ServerConfig) : Recorded { l with state := s, config } log :=
  { h with
    left := iff_of_false (fun hm => hs (h.left.mp hm)) hs'
    ended := fun hexited => absurd hexited hs' }

/-- A record to which an entry is put that tells nobody of anything. The entry may issue
an identifier, if it is a new one, and the listeners that it leaves are those of the
record. -/
theorem concat {l' : Lifecycle ℓ} {m : Mark ℓ} (h : Recorded l log)
    (hm : ∀ id x e, m ≠ .told id x e)
    (hnext : l.nextId ≤ l'.nextId)
    (hissued : ∀ id, m.issued? = some id → l.nextId ≤ id ∧ id < l'.nextId)
    (hlisteners : l'.listeners = Mark.audience (log ++ [m]))
    (hids : ∀ id ∈ l'.listeners.map (·.1), id ∈ l.listeners.map (·.1) ∨ m.issued? = some id)
    (hascending : (l'.listeners.map (·.1)).Pairwise (· < ·))
    (hleft : .left ∈ log ++ [m] ↔ l'.state = .exited)
    (hover : l'.state = .exited → l'.listeners = []) : Recorded l' (log ++ [m]) := by
  have hold : ∀ id x e, .told id x e ∈ log ++ [m] → .told id x e ∈ log := by
    intro id x e hmem
    rcases List.mem_append.mp hmem with hmem | hmem
    · exact hmem
    · exact absurd (List.mem_singleton.mp hmem).symm (hm id x e)
  have hnew : ∀ id ∈ [m].filterMap Mark.issued?, m.issued? = some id := by
    intro id hid
    obtain ⟨m', hm', hid⟩ := List.mem_filterMap.mp hid
    rw [List.mem_singleton.mp hm'] at hid
    exact hid
  have hbelow : ∀ r ∈ l.listeners.map (·.1), r < l.nextId := by
    intro id hid
    obtain ⟨r, hr, rfl⟩ := List.mem_map.mp hid
    exact h.below r hr
  exact
    { listeners := hlisteners
      ascending := hascending
      below := fun r hr => by
        rcases hids r.1 (List.mem_map_of_mem hr) with hid | hid
        · exact Nat.lt_of_lt_of_le (hbelow r.1 hid) hnext
        · exact (hissued r.1 hid).2
      issued := fun id hid => by
        rw [List.filterMap_append] at hid
        rcases List.mem_append.mp hid with hid | hid
        · exact Nat.lt_of_lt_of_le (h.issued id hid) hnext
        · exact (hissued id (hnew id hid)).2
      once := by
        rw [List.filterMap_append]
        refine List.pairwise_append.mpr ⟨h.once, ?_, fun id hid id' hid' => ?_⟩
        · cases hissue : m.issued? with
          | none => simp only [List.filterMap_cons, hissue, List.filterMap_nil, List.Pairwise.nil]
          | some id =>
            simp only [List.filterMap_cons, hissue, List.filterMap_nil, List.pairwise_singleton]
        · exact Nat.lt_of_lt_of_le (h.issued id hid) (hissued id' (hnew id' hid')).1
      told := fun id x e hmem =>
        Nat.lt_of_lt_of_le (h.told id x e (hold id x e hmem)) hnext
      failed := fun id x e hmem hreact hid => by
        have hmem := hold id x e hmem
        rcases hids id hid with hid | hid
        · exact h.failed id x e hmem hreact hid
        · -- An identifier that is issued now is above that of anyone who was told.
          have hlt := h.told id x e hmem
          have hle := (hissued id hid).1
          omega
      silent := by
        refine List.pairwise_append.mpr ⟨h.silent, List.pairwise_singleton _ _, ?_⟩
        intro m₁ _ m₂ hm₂ id x e _ _ x' e'
        rw [List.mem_singleton.mp hm₂]
        exact hm id x' e'
      left := hleft
      ended := hover }

/-- A registration is put to the record, if the lifecycle is not over. -/
theorem add (h : Recorded l log) (x : ℓ) :
    Recorded (l.episode (.add x)).after (log ++ (l.episode (.add x)).marks) := by
  by_cases hs : l.state = .exited
  · obtain ⟨hafter, hmarks⟩ := marks_add_of_exited hs x
    rw [hafter, hmarks, List.append_nil]
    exact h
  · obtain ⟨hafter, hmarks⟩ := marks_add hs x
    rw [hafter, hmarks]
    refine h.concat nofun (Nat.le_succ _) ?_ ?_ ?_ ?_ ?_ ?_
    · rintro id ⟨⟩
      exact ⟨Nat.le_refl _, Nat.lt_succ_self _⟩
    · have hstays : ∀ r ∈ Mark.audience log,
          ((Mark.standing r.1 r.2 [.registered l.nextId x]).map fun y => (r.1, y)) = some r :=
        fun _ _ => rfl
      rw [Mark.audience_append, List.filterMap_congr hstays, List.filterMap_some, ← h.listeners]
      rfl
    · intro id hid
      rw [List.map_append] at hid
      rcases List.mem_append.mp hid with hid | hid
      · exact .inl hid
      · exact .inr (congrArg some (List.mem_singleton.mp hid).symm)
    · rw [List.map_append]
      refine List.pairwise_append.mpr ⟨h.ascending, List.pairwise_singleton _ _, ?_⟩
      intro id hid id' hid'
      obtain ⟨r, hr, rfl⟩ := List.mem_map.mp hid
      rw [List.mem_singleton.mp hid']
      exact h.below r hr
    · rw [List.mem_append, or_iff_left (by simp)]
      exact h.left
    · exact fun hexited => absurd hexited hs

/-- The end of a registration is put to the record. -/
theorem remove (h : Recorded l log) (id : Nat) :
    Recorded (l.remove id).2 (log ++ [.withdrawn id]) := by
  have hids : ((l.remove id).2.listeners.map (·.1)).Sublist (l.listeners.map (·.1)) :=
    List.filter_sublist.map _
  refine h.concat nofun (Nat.le_refl _) nofun ?_ (fun id' hid' => .inl (hids.subset hid'))
    (h.ascending.sublist hids) ?_ ?_
  · have hkeep : ∀ r ∈ l.listeners,
        ((Mark.standing r.1 r.2 [.withdrawn id]).map fun x => (r.1, x)) =
          Option.guard (fun r => decide (r.1 ≠ id)) r := by
      intro r _
      unfold Mark.standing Option.guard
      by_cases hid : id = r.1
      · subst hid
        simp
      · have hid' : r.1 ≠ id := fun heq => hid heq.symm
        simp [hid, hid', Mark.standing]
    rw [Mark.audience_append, ← h.listeners, List.filterMap_congr hkeep,
      List.filterMap_eq_filter]
    exact (List.append_nil _).symm
  · rw [List.mem_append, or_iff_left (by simp)]
    exact h.left
  · intro hexited
    show l.listeners.filter _ = []
    rw [h.ended hexited]
    rfl

/-- That the server left is put to the record. -/
theorem leave (h : Recorded l log) (config : ServerConfig) :
    Recorded { l with state := .exited, config, listeners := [] } (log ++ [.left]) := by
  have hleft : .left ∈ log ++ [(.left : Mark ℓ)] :=
    List.mem_append_right log (List.mem_singleton_self _)
  refine h.concat nofun (Nat.le_refl _) nofun ?_ nofun .nil (iff_of_true hleft rfl)
    (fun _ => rfl)
  have hgone : ∀ r ∈ Mark.audience log,
      ((Mark.standing r.1 r.2 [.left]).map fun x => (r.1, x)) = none := fun _ _ => rfl
  rw [Mark.audience_append, List.filterMap_eq_nil_iff.mpr hgone]
  rfl

/-- A call is put to the record, with what is told of its events. -/
theorem call (h : Recorded l log) (start : ServerConfig → Except CallError Unit)
    (t : Transition) :
    (l.episode (.call start t)).told =
        Mark.deliveries log (l.episode (.call start t)).emitted ∧
      Recorded (l.episode (.call start t)).after
        (log ++ (l.episode (.call start t)).marks) := by
  by_cases hr : ∃ e, Refusal l.state (start l.config) t e
  · obtain ⟨e, hr⟩ := hr
    obtain ⟨htold, hmarks⟩ := marks_of_refusal hr
    have hemitted : (l.episode (.call start t)).emitted = [] := by
      rw [episode_of_refusal hr]
      exact emitted_of_refusal hr
    rw [hemitted, htold, hmarks, List.append_nil, episode_of_refusal hr]
    exact ⟨rfl, h⟩
  · have hno : ∀ e, ¬ Refusal l.state (start l.config) t e := not_exists.mp hr
    have hlive : l.state ≠ .exited := fun hs => hno _ (.rejected (.exited t hs))
    obtain ⟨htold, hmarks⟩ := marks_of_not_refusal hno
    obtain ⟨hdelivers, hrecorded⟩ := h.tells (t.events l.state)
    have hemitted : (l.episode (.call start t)).emitted = t.events l.state := by
      rw [episode_of_not_refusal hno]
      exact emitted_of_not_refusal hno
    rw [hemitted, htold, hmarks, hdelivers, episode_of_not_refusal hno, ← List.append_assoc]
    refine ⟨rfl, ?_⟩
    -- Only a call to leave ends in the exited state; all others keep those that stay.
    have hstays : ∀ s, s ≠ .exited → ∀ config, Recorded { l with
        state := s, config, listeners := survivorsOf l.listeners (t.events l.state) }
        (log ++ Mark.deliveries log (t.events l.state) ++ []) := by
      intro s hs config
      rw [List.append_nil]
      exact hrecorded.enter hlive hs config
    cases t with
    | exit shutdownHook => exact hrecorded.leave l.config
    | configure config => exact hstays l.state hlive config
    | start => exact hstays .started nofun l.config
    | pause => exact hstays .paused nofun l.config
    | resume => exact hstays .resumed nofun l.config
    | stop => exact hstays .stopped nofun l.config

/-- Any demand is put to the record. -/
theorem episode (h : Recorded l log) (d : Demand ℓ) :
    Recorded (l.episode d).after (log ++ (l.episode d).marks) := by
  cases d with
  | call start t => exact (h.call start t).2
  | add x => exact h.add x
  | remove id => exact h.remove id

/-- The record of a run fits the lifecycle after it. -/
theorem run (h : Recorded l log) (ds : List (Demand ℓ)) :
    Recorded (l.run ds) (log ++ l.record ds) := by
  induction ds generalizing l log with
  | nil =>
    rw [record, episodes, List.flatMap_nil, List.append_nil]
    exact h
  | cons d ds ih =>
    have hrest := ih (h.episode d)
    rw [List.append_assoc] at hrest
    exact hrest

end Recorded
end Lifecycle
end RatingServer
