import RatingServer.Proofs.Lifecycle.Records

/-!
# Who is told of an event

Each event of a lifecycle is told to the audience of its record, each listener once and
in the order of registration. Who else listens, and at which events it fails, is of no
concern to a listener: put another one in its place, and the rest of the record stays.
-/

namespace RatingServer

namespace Mark

variable {ℓ : Type}

/-- The identifier of whom an entry is about. -/
def about? : Mark ℓ → Option Nat
  | registered id _ => some id
  | withdrawn id => some id
  | told id _ _ => some id
  | left => none

/-- The entries that are not about one identifier. -/
def apart (id : Nat) (log : List (Mark ℓ)) : List (Mark ℓ) :=
  log.filter fun m => m.about? ≠ some id

/-- The rest of two parts are the rests of both. -/
theorem apart_append (id : Nat) (log more : List (Mark ℓ)) :
    apart id (log ++ more) = apart id log ++ apart id more :=
  List.filter_append log more

/-- The others are told of an event whether or not one listener is. -/
theorem apart_telling (id : Nat) (listeners : List (Nat × ℓ)) (e : StatusEvent) :
    apart id (telling listeners e) =
      apart id (telling (listeners.filter fun r => r.1 ≠ id) e) := by
  unfold apart telling
  rw [List.filter_map, List.filter_map, List.filter_filter]
  congr 1
  refine List.filter_congr fun r _ => ?_
  simp [about?]

end Mark

namespace Lifecycle

variable {ℓ : Type} [Listener ℓ]

/-- The others fail or stay whether or not one listener is there. -/
theorem survivors_filter (e : StatusEvent) (listeners : List (Nat × ℓ)) (id : Nat) :
    survivors e (listeners.filter fun r => r.1 ≠ id) =
      (survivors e listeners).filter fun r => r.1 ≠ id := by
  induction listeners with
  | nil => rfl
  | cons r listeners ih =>
    rw [survivors_cons, List.filter_append, ← ih, List.filter_cons]
    by_cases hid : r.1 = id
    · have hgone : ((Listener.react r.2 e).map fun x => (r.1, x)).toList.filter
          (fun r => decide (r.1 ≠ id)) = [] := by
        cases Listener.react r.2 e <;> simp [hid]
      rw [hgone]
      simp [hid]
    · have hkept : ((Listener.react r.2 e).map fun x => (r.1, x)).toList.filter
          (fun r => decide (r.1 ≠ id)) =
            ((Listener.react r.2 e).map fun x => (r.1, x)).toList := by
        cases Listener.react r.2 e <;> simp [hid]
      rw [hkept, if_pos (by simpa using hid), survivors_cons]

/-- The others fail at some of the events or stay whether or not one listener is there. -/
theorem survivorsOf_filter (es : List StatusEvent) (listeners : List (Nat × ℓ)) (id : Nat) :
    survivorsOf (listeners.filter fun r => r.1 ≠ id) es =
      (survivorsOf listeners es).filter fun r => r.1 ≠ id := by
  induction es generalizing listeners with
  | nil => rfl
  | cons e es ih =>
    have hrest := ih (survivors e listeners)
    rw [← survivors_filter] at hrest
    exact hrest

/-- The others are told of events whether or not one listener is there. -/
theorem apart_tellings (es : List StatusEvent) (listeners : List (Nat × ℓ)) (id : Nat) :
    Mark.apart id ((tellings listeners es).filterMap Notice.mark?) =
      Mark.apart id
        ((tellings (listeners.filter fun r => r.1 ≠ id) es).filterMap Notice.mark?) := by
  induction es generalizing listeners with
  | nil => rfl
  | cons e es ih =>
    rw [tellings, tellings, List.filterMap_append, List.filterMap_append, filterMap_mark?,
      filterMap_mark?, Mark.apart_append, Mark.apart_append, ← Mark.apart_telling,
      survivors_filter, ih]

/-- A demand with a listener in place of the one that would get an identifier. -/
def replaced (l : Lifecycle ℓ) (id : Nat) (y : ℓ) : Demand ℓ → Demand ℓ
  | .call start t => .call start t
  | .add x => .add (if l.nextId = id then y else x)
  | .remove id' => .remove id'

/-- Demands with a listener in place of the one that gets an identifier. -/
def replacing (l : Lifecycle ℓ) (id : Nat) (y : ℓ) : List (Demand ℓ) → List (Demand ℓ)
  | [] => []
  | d :: ds => l.replaced id y d :: (l.episode d).after.replacing id y ds

/-- Two demands, each met by a lifecycle: what happens is the same but for one
identifier, and so is what they leave. -/
structure AlikeBut (id : Nat) (e e' : Episode ℓ) : Prop where
  /-- The same entries about the others. -/
  marks : Mark.apart id e.marks = Mark.apart id e'.marks
  /-- The same lifecycle, without the listener of the identifier. -/
  after : (e.after.remove id).2 = (e'.after.remove id).2

omit [Listener ℓ] in
/-- What is alike to the same is alike. -/
theorem AlikeBut.trans {id : Nat} {e e' e'' : Episode ℓ} (h : AlikeBut id e e')
    (h' : AlikeBut id e' e'') : AlikeBut id e e'' :=
  ⟨h.marks.trans h'.marks, h.after.trans h'.after⟩

omit [Listener ℓ] in
/-- Either of two is alike to the other. -/
theorem AlikeBut.symm {id : Nat} {e e' : Episode ℓ} (h : AlikeBut id e e') : AlikeBut id e' e :=
  ⟨h.marks.symm, h.after.symm⟩

omit [Listener ℓ] in
/-- To remove a listener twice is to remove it. -/
theorem remove_remove (l : Lifecycle ℓ) (id : Nat) :
    ((l.remove id).2.remove id).2 = (l.remove id).2 := by
  unfold remove
  simp

omit [Listener ℓ] in
/-- Of two listeners it does not matter which is removed first. -/
theorem remove_comm (l : Lifecycle ℓ) (id id' : Nat) :
    ((l.remove id).2.remove id').2 = ((l.remove id').2.remove id).2 := by
  unfold remove
  simp [List.filter_filter, Bool.and_comm]

/-- The others are told the same in a call whether or not one listener is there. -/
theorem alikeBut_call (l : Lifecycle ℓ) (id : Nat) (start : ServerConfig → Except CallError Unit)
    (t : Transition) :
    AlikeBut id (l.episode (.call start t)) ((l.remove id).2.episode (.call start t)) := by
  by_cases hr : ∃ e, Refusal l.state (start l.config) t e
  · obtain ⟨e, hr⟩ := hr
    refine ⟨?_, ?_⟩
    · rw [(marks_of_refusal hr).2, (marks_of_refusal (l := (l.remove id).2) hr).2]
    · rw [episode_of_refusal hr, episode_of_refusal (l := (l.remove id).2) hr]
      exact (remove_remove l id).symm
  · have hno : ∀ e, ¬ Refusal l.state (start l.config) t e := not_exists.mp hr
    refine ⟨?_, ?_⟩
    · rw [(marks_of_not_refusal hno).2, (marks_of_not_refusal (l := (l.remove id).2) hno).2,
        Mark.apart_append, Mark.apart_append, apart_tellings]
      rfl
    · have hrest : ∀ es, (survivorsOf (l.listeners.filter fun r => r.1 ≠ id) es).filter
          (fun r => r.1 ≠ id) = (survivorsOf l.listeners es).filter fun r => r.1 ≠ id := by
        intro es
        rw [survivorsOf_filter, List.filter_filter]
        simp
      rw [episode_of_not_refusal hno, episode_of_not_refusal (l := (l.remove id).2) hno]
      unfold remove after
      cases t with
      | exit shutdownHook => rfl
      | _ => simp only [hrest]

/-- The others are registered and removed whether or not one listener is there. -/
theorem alikeBut_episode (l : Lifecycle ℓ) (id : Nat) (d : Demand ℓ) :
    AlikeBut id (l.episode d) ((l.remove id).2.episode d) := by
  cases d with
  | call start t => exact alikeBut_call l id start t
  | add x =>
    by_cases hs : l.state = .exited
    · obtain ⟨hafter, hmarks⟩ := marks_add_of_exited hs x
      obtain ⟨hafter', hmarks'⟩ := marks_add_of_exited (l := (l.remove id).2) hs x
      refine ⟨by rw [hmarks, hmarks'], ?_⟩
      rw [hafter, hafter', remove_remove]
    · obtain ⟨hafter, hmarks⟩ := marks_add hs x
      obtain ⟨hafter', hmarks'⟩ := marks_add (l := (l.remove id).2) hs x
      refine ⟨by rw [hmarks, hmarks']; rfl, ?_⟩
      rw [hafter, hafter']
      simp [remove, List.filter_append]
  | remove id' =>
    refine ⟨rfl, ?_⟩
    show ((l.remove id').2.remove id).2 = (((l.remove id).2.remove id').2.remove id).2
    rw [remove_comm l id id', remove_remove]

/-- Whichever listener gets an identifier, the others are left alike. -/
theorem alikeBut_add (l : Lifecycle ℓ) (x y : ℓ) :
    AlikeBut l.nextId (l.episode (.add x)) (l.episode (.add y)) := by
  by_cases hs : l.state = .exited
  · obtain ⟨hafter, hmarks⟩ := marks_add_of_exited hs x
    obtain ⟨hafter', hmarks'⟩ := marks_add_of_exited hs y
    exact ⟨by rw [hmarks, hmarks'], by rw [hafter, hafter']⟩
  · obtain ⟨hafter, hmarks⟩ := marks_add hs x
    obtain ⟨hafter', hmarks'⟩ := marks_add hs y
    refine ⟨?_, ?_⟩
    · rw [hmarks, hmarks']
      simp [Mark.apart, Mark.about?]
    · rw [hafter, hafter']
      simp [remove, List.filter_append]

/-- The others are left alike by a demand in which a listener is replaced. -/
theorem alikeBut_replaced (l : Lifecycle ℓ) (id : Nat) (y : ℓ) (d : Demand ℓ) :
    AlikeBut id (l.episode d) (l.episode (l.replaced id y d)) := by
  cases d with
  | call start t => exact ⟨rfl, rfl⟩
  | add x =>
    by_cases hid : l.nextId = id
    · rw [replaced, if_pos hid, ← hid]
      exact alikeBut_add l x y
    · rw [replaced, if_neg hid]
      exact ⟨rfl, rfl⟩
  | remove id' => exact ⟨rfl, rfl⟩

/-- The record of a run says the same about the others, whichever listener gets an
identifier. -/
theorem apart_record {l l' : Lifecycle ℓ} {id : Nat}
    (h : (l.remove id).2 = (l'.remove id).2) (y : ℓ) (ds : List (Demand ℓ)) :
    Mark.apart id (l.record ds) = Mark.apart id (l'.record (l.replacing id y ds)) := by
  induction ds generalizing l l' with
  | nil => rfl
  | cons d ds ih =>
    -- From the one lifecycle to the other by way of what both are without the listener.
    have hsame : AlikeBut id (l.episode d) (l'.episode (l.replaced id y d)) := by
      have hl := alikeBut_episode l id (l.replaced id y d)
      rw [h] at hl
      exact (alikeBut_replaced l id y d).trans
        (hl.trans (alikeBut_episode l' id (l.replaced id y d)).symm)
    have hrest := ih hsame.after
    rw [replacing, record, record, episodes, episodes, List.flatMap_cons, List.flatMap_cons,
      Mark.apart_append, Mark.apart_append, hsame.marks]
    exact congrArg _ hrest

/-- What a lifecycle does, by its record, at the next demand and for good. -/
structure Delivers (l : Lifecycle ℓ) (log : List (Mark ℓ)) : Prop where
  /-- At any demand each event is told to the audience of its moment: those that were
  registered and neither were removed nor failed since, in the order of registration. -/
  told : ∀ d, (l.episode d).told = Mark.deliveries log (l.episode d).emitted
  /-- Nobody is in the audience twice: the identifiers ascend. -/
  ascending : ((Mark.audience log).map (·.1)).Pairwise (· < ·)
  /-- A started server that leaves tells all that it stopped before it tells anyone that
  it leaves. -/
  leaving : l.state.isStarted = true → ∀ start shutdownHook,
    (l.episode (.call start (.exit shutdownHook))).told =
      Mark.telling (Mark.audience log) (.of .stopped) ++
        Mark.telling (Mark.audience (log ++ Mark.telling (Mark.audience log) (.of .stopped)))
          { StatusEvent.of .exit with shutdownHook }
  /-- A listener that failed was told of nothing afterwards. -/
  silent : log.Pairwise Mark.Silences
  /-- No identifier was issued twice. -/
  once : (log.filterMap Mark.issued?).Pairwise (· ≠ ·)
  /-- The next one is not issued again either. -/
  fresh : ∀ x id l', l.add x = .ok (id, l') → id ∉ log.filterMap Mark.issued?
  /-- To end a registration answers whether there is one. -/
  removed : ∀ id, (l.remove id).1 = true ↔ id ∈ (Mark.audience log).map (·.1)
  /-- The server has left when the record says so. -/
  left : .left ∈ log ↔ l.state = .exited
  /-- Then there are no listeners, and nobody can be registered. -/
  ended : l.state = .exited → l.listeners = [] ∧ ∀ x, l.add x = .error (.lifecycle .exited)

/-- A lifecycle does so by any record that fits it. -/
theorem Recorded.delivers {l : Lifecycle ℓ} {log : List (Mark ℓ)} (h : Recorded l log) :
    Delivers l log where
  told := by
    intro d
    cases d with
    | call start t => exact (h.call start t).1
    | add x =>
      have hnotices : (l.episode (.add x)).notices = [] := by
        unfold Lifecycle.episode
        dsimp only
        split <;> rfl
      have hemitted : (l.episode (.add x)).emitted = [] := by
        unfold Episode.emitted
        rw [demand_episode]
      unfold Episode.told
      rw [hnotices, hemitted]
      rfl
    | remove id => rfl
  ascending := by
    rw [← h.listeners]
    exact h.ascending
  leaving := by
    intro hs start shutdownHook
    have hno : ∀ e, ¬ Refusal l.state (start l.config) (.exit shutdownHook) e := by
      rintro e (hr | _)
      cases hr with
      | exited _ hexited =>
        rw [hexited] at hs
        cases hs
    have hemitted : (l.episode (.call start (.exit shutdownHook))).emitted =
        [.of .stopped, { StatusEvent.of .exit with shutdownHook }] := by
      rw [episode_of_not_refusal hno]
      show l.emitted start (.exit shutdownHook) = _
      rw [emitted_of_not_refusal hno, Transition.events, if_pos hs]
      rfl
    rw [(h.call start (.exit shutdownHook)).1, hemitted, Mark.deliveries, Mark.deliveries,
      Mark.deliveries, List.append_nil]
  silent := h.silent
  once := h.once.imp Nat.ne_of_lt
  fresh := by
    intro x id l' hadd hmem
    have hlt := h.issued id hmem
    unfold Lifecycle.add at hadd
    split at hadd
    · cases hadd
    · cases hadd
      exact Nat.lt_irrefl _ hlt
  removed := by
    intro id
    rw [← h.listeners]
    simp [Lifecycle.remove]
  left := h.left
  ended := fun hs => ⟨h.ended hs, fun x => if_pos hs⟩

/-- The law of delivery. A new lifecycle meets any demands, with listeners that may fail
at any event. At the next demand each event is told to those that were registered and
neither were removed nor failed since, each once and in the order of registration; a
started server that leaves tells them all that it stopped first. Who failed is told of
nothing any more, identifiers are never issued again, to end a registration answers
whether there is one, and after the server left there are no listeners and never will
be. Whatever listener is put in place of another, and so at whichever events it fails,
the others are told the same in the same order. -/
theorem delivery_law (config : ServerConfig) (ds : List (Demand ℓ)) :
    Delivers (run { config } ds) (record { config } ds) ∧
      ∀ id y, Mark.apart id (record { config } (replacing { config } id y ds)) =
        Mark.apart id (record { config } ds) := by
  have hrecorded := (recorded_new (ℓ := ℓ) config).run ds
  exact ⟨hrecorded.delivers, fun id y => (apart_record rfl y ds).symm⟩

end Lifecycle

end RatingServer
