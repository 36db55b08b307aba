/-!
# The history of one value

A value that may be absent is watched while inputs are met one after another. Each of
them sets the value, clears it or leaves it, and after a run the value is the one that
was set last, if nothing later has touched it.
-/

namespace RatingServer

/-- An element of a list is the first one or stands among the rest. -/
theorem exists_split_cons {ι : Type} {i : ι} {inputs : List ι}
    {P : List ι → ι → List ι → Prop} :
    (∃ before j after, i :: inputs = before ++ j :: after ∧ P before j after) ↔
      P [] i inputs ∨
        ∃ before j after, inputs = before ++ j :: after ∧ P (i :: before) j after := by
  constructor
  · rintro ⟨before, j, after, hsplit, h⟩
    cases before with
    | nil =>
      obtain ⟨rfl, rfl⟩ := List.cons.inj hsplit
      exact .inl h
    | cons k before =>
      obtain ⟨rfl, hrest⟩ := List.cons.inj hsplit
      exact .inr ⟨before, j, after, hrest, h⟩
  · rintro (h | ⟨before, j, after, rfl, h⟩)
    · exact ⟨[], i, inputs, rfl, h⟩
    · exact ⟨i :: before, j, after, rfl, h⟩

/-- What an input does to a value that may be absent. -/
inductive Touch (α : Type) where
  /-- It leaves the value. -/
  | leaves
  /-- It clears the value. -/
  | clears
  /-- It sets the value. -/
  | sets (a : α)
  deriving DecidableEq

namespace Touch

/-- The value after an input. -/
def on {α : Type} : Touch α → Option α → Option α
  | leaves, x => x
  | clears, _ => none
  | sets a, _ => some a

/-- An input that touches the value on a condition. -/
theorem on_ite {α : Type} (c : Prop) [Decidable c] (t : Touch α) (x : Option α) :
    (if c then t else leaves).on x = if c then t.on x else x := by
  split
  · rfl
  · rfl

/-- An input that clears the value on a condition does so exactly then. -/
theorem ite_eq_clears_iff {α : Type} {c : Prop} [Decidable c] :
    (if c then clears else leaves : Touch α) = clears ↔ c := by
  by_cases h : c
  · rw [if_pos h]
    exact iff_of_true rfl h
  · rw [if_neg h]
    exact iff_of_false nofun h

/-- An input that leaves the value does not clear it. -/
theorem leaves_ne_clears {α : Type} : (leaves : Touch α) ≠ clears := fun h => by cases h

/-- A value that is there and not cleared is there after an input. -/
theorem on_some_ne_none {α : Type} {t : Touch α} (ht : t ≠ clears) {a : α} :
    t.on (some a) ≠ none := by
  cases t with
  | leaves => exact nofun
  | clears => exact absurd rfl ht
  | sets b => exact nofun

section Runs

variable {σ ι α : Type} (step : σ → ι → σ) (touch : σ → ι → Touch α)

/-- Every input of a run leaves the value. -/
def Untouched (s : σ) (inputs : List ι) : Prop :=
  ∀ before i after, inputs = before ++ i :: after → touch (before.foldl step s) i = .leaves

variable {step touch}

/-- A run without inputs leaves the value. -/
theorem untouched_nil (s : σ) : Untouched step touch s [] :=
  fun before i after hsplit => absurd hsplit.symm (by simp)

/-- A run leaves the value if its first input and the rest do. -/
theorem untouched_cons {s : σ} {i : ι} {inputs : List ι} :
    Untouched step touch s (i :: inputs) ↔
      touch s i = .leaves ∧ Untouched step touch (step s i) inputs := by
  constructor
  · intro h
    refine ⟨h [] i inputs rfl, fun before j after hsplit => ?_⟩
    exact h (i :: before) j after (congrArg (i :: ·) hsplit)
  · rintro ⟨hfirst, hrest⟩ before j after hsplit
    cases before with
    | nil =>
      obtain ⟨rfl, -⟩ := List.cons.inj hsplit
      exact hfirst
    | cons k before =>
      obtain ⟨rfl, htail⟩ := List.cons.inj hsplit
      exact hrest before j after htail

/-- Whether a run leaves the value is decided input by input. -/
instance untouchedDecidable [DecidableEq α] (s : σ) (inputs : List ι) :
    Decidable (Untouched step touch s inputs) :=
  match inputs with
  | [] => .isTrue (untouched_nil s)
  | i :: inputs =>
    have := untouchedDecidable (step s i) inputs
    decidable_of_iff _ untouched_cons.symm

/-- The value after a run is there exactly if it was there before and has not been
touched, or an input has set it and no later one has touched it. -/
theorem run_eq_some_iff (view : σ → Option α) {I : σ → Prop} (hI : ∀ s i, I s → I (step s i))
    (hview : ∀ s i, I s → view (step s i) = (touch s i).on (view s)) {s : σ} (hs : I s)
    (inputs : List ι) (a : α) :
    view (inputs.foldl step s) = some a ↔
      (view s = some a ∧ Untouched step touch s inputs) ∨
        ∃ before i after, inputs = before ++ i :: after ∧
          touch (before.foldl step s) i = .sets a ∧
          Untouched step touch (step (before.foldl step s) i) after := by
  induction inputs generalizing s with
  | nil =>
    simp [untouched_nil]
  | cons i inputs ih =>
    rw [List.foldl_cons, ih (hI s i hs), exists_split_cons, untouched_cons, hview s i hs]
    cases htouch : touch s i with
    | leaves => simp [on, htouch]
    | clears => simp [on, htouch]
    | sets b => simp [on, htouch]

end Runs

end Touch

end RatingServer
