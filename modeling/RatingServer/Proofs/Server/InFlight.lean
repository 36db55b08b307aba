import Mathlib.Data.List.Perm.Basic
import RatingServer.Launch
import RatingServer.Proofs.Server.Calls

/-!
# The count of the requests in flight

The measure of a server begins anew whenever the server starts or stops, but a request
that came in before may be completed after that, and is then taken off the new count.
So the count is never above the number of the requests in flight that came in since,
and it is short of this number by at most the requests of earlier periods that were
completed in this one. Where there are none it is exact.
-/

namespace RatingServer

namespace Server

variable {ℓ : Type} [Listener ℓ]

/-- A call resets the measure when the server starts or stops by it, and keeps the
measure otherwise. -/
theorem measure_call (v : Server ℓ) (t : Transition) :
    (v.call t).2.measure =
      if (v.call t).2.state.isStarted = v.state.isStarted then v.measure else .reset := by
  by_cases h : ∃ e, v.Refuses t e
  · obtain ⟨e, h⟩ := h
    rw [call_of_refuses h, if_pos rfl]
  · have hno : ∀ e, ¬ v.Refuses t e := not_exists.mp h
    have hreject := Lifecycle.rejection?_eq_none fun r hr => hno _ (.rejected hr)
    rw [state_call_of_not_refuses hno, call_of_not_refuses hno]
    dsimp only
    cases hs : v.state <;> rw [hs] at hreject <;> cases t <;> first | rfl | cases hreject

end Server

/-- A server with the requests that it is working on. -/
structure Working (ℓ : Type) where
  /-- The server. -/
  server : Server ℓ
  /-- The number of times that the server started or stopped. -/
  period : Nat := 0
  /-- For each request that is not completed, the period in which it came in. -/
  requests : List Nat := []
  /-- The number of requests of earlier periods that were completed in this one. -/
  strays : Nat := 0

/-- What comes in at a server that is working. -/
inductive Traffic where
  /-- A request comes in. -/
  | enter
  /-- The request at a place is completed. -/
  | complete (place : Nat)
  /-- A call that may start or stop the server. -/
  | call (t : Transition)
  deriving DecidableEq, Repr

namespace Working

variable {ℓ : Type}

/-- The number of the requests in flight that came in since the server last started or
stopped. -/
def inFlight (w : Working ℓ) : Nat := w.requests.count w.period

/-- The count of the measure is right up to strays, and no request comes from a later
period. -/
structure Counted (w : Working ℓ) : Prop where
  /-- The count is not too high. -/
  active_le : w.server.measure.active ≤ w.inFlight
  /-- The count is too low by the strays at most. -/
  le_active : w.inFlight ≤ w.server.measure.active + w.strays
  /-- Requests came in by now. -/
  requests_le : ∀ p ∈ w.requests, p ≤ w.period

variable [Listener ℓ]

/-- Handles what comes in. -/
def handle (w : Working ℓ) : Traffic → Working ℓ
  | .enter =>
    { w with
      server := { w.server with measure := w.server.measure.enter }
      requests := w.requests ++ [w.period] }
  | .complete place =>
    match w.requests[place]? with
    | none => w
    | some p =>
      { w with
        server := { w.server with measure := w.server.measure.leave }
        requests := w.requests.eraseIdx place
        strays := if p = w.period then w.strays else w.strays + 1 }
  | .call t =>
    let server := (w.server.call t).2
    if server.state.isStarted = w.server.state.isStarted then { w with server }
    else { w with server, period := w.period + 1, strays := 0 }

/-- Handles what comes in, one after another. -/
def run (w : Working ℓ) (traffic : List Traffic) : Working ℓ := traffic.foldl handle w

/-- A request that comes in is counted. -/
theorem Counted.enter {w : Working ℓ} (h : w.Counted) : (w.handle .enter).Counted := by
  have hinFlight : (w.handle .enter).inFlight = w.inFlight + 1 := by
    unfold handle inFlight
    rw [List.count_append, List.count_singleton_self]
  refine ⟨?_, ?_, ?_⟩
  · rw [hinFlight]
    exact Nat.succ_le_succ h.active_le
  · rw [hinFlight]
    have hle := h.le_active
    show w.inFlight + 1 ≤ w.server.measure.active + 1 + w.strays
    omega
  · intro p hp
    rcases List.mem_append.mp hp with hp | hp
    · exact h.requests_le p hp
    · exact Nat.le_of_eq (List.mem_singleton.mp hp)

/-- A request that is completed is taken off the count, or is a stray. -/
theorem Counted.complete {w : Working ℓ} (h : w.Counted) (place : Nat) :
    (w.handle (.complete place)).Counted := by
  unfold handle
  dsimp only
  cases hplace : w.requests[place]? with
  | none => exact h
  | some p =>
    obtain ⟨hlength, rfl⟩ := List.getElem?_eq_some_iff.mp hplace
    have hcount : w.inFlight = (w.requests.eraseIdx place).count w.period +
        if w.requests[place] = w.period then 1 else 0 := by
      unfold inFlight
      rw [← (List.getElem_cons_eraseIdx_perm hlength).count_eq, List.count_cons]
      simp only [beq_iff_eq]
    have hle := h.active_le
    have hge := h.le_active
    rw [hcount] at hle hge
    refine ⟨?_, ?_, fun p hp => h.requests_le p (List.mem_of_mem_eraseIdx hp)⟩
    · show w.server.measure.active - 1 ≤ (w.requests.eraseIdx place).count w.period
      split at hle <;> omega
    · show (w.requests.eraseIdx place).count w.period ≤ w.server.measure.active - 1 +
        if w.requests[place] = w.period then w.strays else w.strays + 1
      split at hge <;> split <;> omega

/-- A call begins a new period with no request in flight, or changes nothing of this. -/
theorem Counted.call {w : Working ℓ} (h : w.Counted) (t : Transition) :
    (w.handle (.call t)).Counted := by
  have hmeasure := w.server.measure_call t
  unfold handle
  dsimp only
  split
  · rename_i hsame
    rw [if_pos hsame] at hmeasure
    refine ⟨?_, ?_, h.requests_le⟩
    · show (w.server.call t).2.measure.active ≤ w.inFlight
      rw [hmeasure]
      exact h.active_le
    · show w.inFlight ≤ (w.server.call t).2.measure.active + w.strays
      rw [hmeasure]
      exact h.le_active
  · rename_i hchanged
    rw [if_neg hchanged] at hmeasure
    have hnone : w.requests.count (w.period + 1) = 0 :=
      List.count_eq_zero.mpr fun hmem => Nat.not_succ_le_self _ (h.requests_le _ hmem)
    refine ⟨?_, ?_, fun p hp => Nat.le_succ_of_le (h.requests_le p hp)⟩
    · show (w.server.call t).2.measure.active ≤ w.requests.count (w.period + 1)
      rw [hmeasure]
      exact Nat.zero_le _
    · show w.requests.count (w.period + 1) ≤ _
      rw [hnone]
      exact Nat.zero_le _

/-- Whatever comes in keeps the count right up to strays. -/
theorem Counted.handle {w : Working ℓ} (h : w.Counted) (e : Traffic) : (w.handle e).Counted := by
  cases e with
  | enter => exact h.enter
  | complete place => exact h.complete place
  | call t => exact h.call t

/-- So does all that comes in. -/
theorem Counted.run {w : Working ℓ} (h : w.Counted) (traffic : List Traffic) :
    (w.run traffic).Counted := by
  induction traffic generalizing w with
  | nil => exact h
  | cons e traffic ih => exact ih (h.handle e)

/-- The count of a server in any order of requests that come in and are completed and
of starts and stops, with the strays of the last period: it is never above the number
of the requests in flight that came in since the last start or stop, it is below this
number by at most the strays, and it is exact where there are none. -/
theorem active_bounds (store : Store) (traffic : List Traffic) :
    let w := run ({ server := .of store } : Working ℓ) traffic
    w.server.measure.active ≤ w.inFlight ∧
      w.inFlight ≤ w.server.measure.active + w.strays ∧
        (w.strays = 0 → w.server.measure.active = w.inFlight) := by
  have hnew : Counted ({ server := .of store } : Working ℓ) :=
    ⟨Nat.le_refl 0, Nat.le_refl 0, nofun⟩
  have h := hnew.run traffic
  refine ⟨h.active_le, h.le_active, fun hnone => ?_⟩
  have hle := h.le_active
  rw [hnone] at hle
  exact Nat.le_antisymm h.active_le hle

/-- A request that came in before the server stopped is completed while another one is
in flight that came in after the server started again. -/
def sampleTraffic : List Traffic :=
  [.call .start, .enter, .call .stop, .call .start, .enter, .complete 0]

/-- The count is not always the number of the requests in flight that came in since the
last start or stop. -/
theorem active_not_exact :
    ¬ ∀ (store : Store) (traffic : List Traffic),
      (run ({ server := .of store } : Working ExitSignal) traffic).server.measure.active =
        (run ({ server := .of store } : Working ExitSignal) traffic).inFlight := by
  intro h
  have hactive : (run ({ server := .of {} } : Working ExitSignal)
      sampleTraffic).server.measure.active = 0 := rfl
  have hinFlight : (run ({ server := .of {} } : Working ExitSignal)
      sampleTraffic).inFlight = 1 := rfl
  have hsample := h {} sampleTraffic
  rw [hactive, hinFlight] at hsample
  cases hsample

end Working

end RatingServer
