import RatingServer.Lifecycle
import RatingServer.StatusFollower

/-!
# What polls tell of a server

The events that follow from polls make up a way. Whatever the polls tell, and even if they
contradict themselves, each event may come where it comes, and after each poll the way has
led to what was polled. Only a poll without an answer makes the server leave, and then the
way is at its end.
-/

namespace RatingServer

/-- What polls can tell of a server that answers. -/
inductive Phase where
  /-- It is not started. -/
  | stopped
  /-- It is started and not paused. -/
  | running
  /-- It is paused. -/
  | paused
  deriving DecidableEq

namespace Phase

/-- The phase after a change, if the change may come in a phase. -/
def along : Phase → ServerStatus → Option Phase
  | stopped, .started => some running
  | running, .paused => some paused
  | paused, .resumed => some running
  | running, .stopped => some stopped
  | paused, .stopped => some stopped
  | _, _ => none

/-- The phase after some changes, if each of them may come where it comes. -/
def replay (phase : Phase) (statuses : List ServerStatus) : Option Phase :=
  statuses.foldlM along phase

/-- Changes are replayed one part after another. -/
theorem replay_append (phase : Phase) (before after : List ServerStatus) :
    phase.replay (before ++ after) = (phase.replay before).bind fun phase => phase.replay after :=
  List.foldlM_append

end Phase

namespace PolledState

/-- The phase that a polled state tells: to be paused counts only for a started server. -/
def phase (s : PolledState) : Phase :=
  if s.started then if s.paused then .paused else .running else .stopped

/-- Two polls that tell the same tell of no change. -/
theorem changes_self (s : PolledState) : s.changes s = [] := by
  obtain ⟨_ | _, _ | _⟩ := s <;> rfl

/-- The changes between two polls lead from the phase of the one to that of the other. -/
theorem replay_changes (before after : PolledState) :
    before.phase.replay (before.changes after) = some after.phase := by
  obtain ⟨_ | _, _ | _⟩ := before <;> obtain ⟨_ | _, _ | _⟩ := after <;> rfl

/-- No change between two polls is that the server left. -/
theorem exit_not_mem_changes (before after : PolledState) :
    .exit ∉ before.changes after := by
  obtain ⟨_ | _, _ | _⟩ := before <;> obtain ⟨_ | _, _ | _⟩ := after <;> decide

end PolledState

namespace Poll

/-- The polled state after a poll; one that cannot be read leaves the last one. -/
def next (before : PolledState) (p : Poll) : PolledState :=
  match p.state with
  | .ok after => after
  | .error _ => before

/-- The state that some polls told last. -/
def lastRead (before : PolledState) (ps : List Poll) : PolledState := ps.foldl next before

/-- A poll is answered, or the server is gone. -/
theorem isGone_iff {p : Poll} : p.isGone = true ↔ p.ping ≠ .ok true := by
  unfold isGone
  split
  · rename_i h
    exact iff_of_false nofun fun hne => hne h
  · rename_i h
    exact iff_of_true rfl h

/-- A poll that is answered tells of the changes since the last one. -/
theorem events_of_answer {p : Poll} (h : p.ping = .ok true) (before : PolledState)
    (ps : List Poll) :
    events before (p :: ps) =
      (before.changes (p.next before)).map StatusEvent.of ++ events (p.next before) ps := by
  have hhere : ¬p.isGone = true := fun hgone => isGone_iff.mp hgone h
  rw [events, if_neg hhere, next]
  cases p.state with
  | ok after => rfl
  | error e =>
    rw [PolledState.changes_self]
    rfl

/-- A poll without an answer tells that the server left, and ends it all. -/
theorem events_of_gone {p : Poll} (h : p.ping ≠ .ok true) (before : PolledState)
    (ps : List Poll) : events before (p :: ps) = [.of .exit] := by
  rw [events, if_pos (isGone_iff.mpr h)]

/-- The statuses of events that changes are told by. -/
theorem map_status_of (statuses : List ServerStatus) :
    (statuses.map StatusEvent.of).map (·.status) = statuses := by
  rw [List.map_map]
  exact List.map_id _

/-- After polls that are answered it goes on from the state that they told last. -/
theorem events_append {ps : List Poll} (h : ∀ p ∈ ps, p.ping = .ok true)
    (before : PolledState) (qs : List Poll) :
    events before (ps ++ qs) = events before ps ++ events (lastRead before ps) qs := by
  induction ps generalizing before with
  | nil => rfl
  | cons p ps ih =>
    obtain ⟨hp, hps⟩ := List.forall_mem_cons.mp h
    rw [List.cons_append, events_of_answer hp, events_of_answer hp, ih hps, List.append_assoc]
    rfl

/-- Polls that are answered tell of changes that lead to the state that they told last. -/
theorem replay_events {ps : List Poll} (h : ∀ p ∈ ps, p.ping = .ok true)
    (before : PolledState) :
    before.phase.replay ((events before ps).map (·.status)) =
      some (lastRead before ps).phase := by
  induction ps generalizing before with
  | nil => rfl
  | cons p ps ih =>
    obtain ⟨hp, hps⟩ := List.forall_mem_cons.mp h
    rw [events_of_answer hp, List.map_append, map_status_of, Phase.replay_append,
      PolledState.replay_changes, Option.bind_some, ih hps]
    rfl

/-- Polls that are answered do not tell that the server left. -/
theorem exit_not_mem_events {ps : List Poll} (h : ∀ p ∈ ps, p.ping = .ok true)
    (before : PolledState) : .exit ∉ (events before ps).map (·.status) := by
  induction ps generalizing before with
  | nil => exact List.not_mem_nil
  | cons p ps ih =>
    obtain ⟨hp, hps⟩ := List.forall_mem_cons.mp h
    rw [events_of_answer hp, List.map_append, map_status_of, List.mem_append, not_or]
    exact ⟨PolledState.exit_not_mem_changes _ _, ih hps _⟩

/-- All polls are answered, or there is a first one that is not. -/
theorem answered_or_first (polls : List Poll) :
    (∀ p ∈ polls, p.ping = .ok true) ∨ ∃ ps p qs, polls = ps ++ p :: qs ∧
      (∀ q ∈ ps, q.ping = .ok true) ∧ p.ping ≠ .ok true := by
  induction polls with
  | nil => exact .inl (List.forall_mem_nil _)
  | cons p polls ih =>
    by_cases hp : p.ping = .ok true
    · rcases ih with hall | ⟨ps, q, qs, rfl, hps, hq⟩
      · exact .inl (List.forall_mem_cons.mpr ⟨hp, hall⟩)
      · exact .inr ⟨p :: ps, q, qs, rfl, List.forall_mem_cons.mpr ⟨hp, hps⟩, hq⟩
    · exact .inr ⟨[], p, polls, rfl, List.forall_mem_nil _, hp⟩

/-- The events up to a first poll without an answer, and what it tells. -/
theorem events_of_first {ps : List Poll} {p : Poll} (hps : ∀ q ∈ ps, q.ping = .ok true)
    (hp : p.ping ≠ .ok true) (before : PolledState) (qs : List Poll) :
    events before (ps ++ p :: qs) = events before ps ++ [.of .exit] := by
  rw [events_append hps, events_of_gone hp]

/-- What follows from polls after a polled state makes up a way. -/
structure Consistent (before : PolledState) (polls : List Poll) : Prop where
  /-- After polls that are answered some events have come. Each of them may come where it
  comes, and they lead to the state that was read last. -/
  path : ∀ ps qs, polls = ps ++ qs → (∀ p ∈ ps, p.ping = .ok true) →
    events before ps <+: events before polls ∧
      before.phase.replay ((events before ps).map (·.status)) = some (lastRead before ps).phase
  /-- The first poll without an answer tells that the server left, and nothing follows. -/
  gone : ∀ ps p qs, polls = ps ++ p :: qs → (∀ q ∈ ps, q.ping = .ok true) →
    p.ping ≠ .ok true → events before polls = events before ps ++ [.of .exit]
  /-- It is told exactly if there is such a poll. -/
  exit_iff : .exit ∈ (events before polls).map (·.status) ↔ ∃ p ∈ polls, p.ping ≠ .ok true
  /-- It is told once at most, as the last thing. -/
  last : .exit ∉ ((events before polls).map (·.status)).dropLast

/-- What follows from any polls makes up a way. -/
theorem consistent (before : PolledState) (polls : List Poll) : Consistent before polls where
  path ps qs hsplit hps := by
    refine ⟨?_, replay_events hps before⟩
    rw [hsplit, events_append hps]
    exact List.prefix_append _ _
  gone ps p qs hsplit hps hp := by
    rw [hsplit, events_of_first hps hp]
  exit_iff := by
    rcases answered_or_first polls with hall | ⟨ps, p, qs, rfl, hps, hp⟩
    · exact iff_of_false (exit_not_mem_events hall before) fun ⟨p, hmem, hp⟩ => hp (hall p hmem)
    · rw [events_of_first hps hp, List.map_append]
      exact iff_of_true (List.mem_append_right _ List.mem_cons_self)
        ⟨p, List.mem_append_right _ List.mem_cons_self, hp⟩
  last := by
    rcases answered_or_first polls with hall | ⟨ps, p, qs, rfl, hps, hp⟩
    · exact fun hmem => exit_not_mem_events hall before ((List.dropLast_sublist _).subset hmem)
    · rw [events_of_first hps hp, List.map_append, List.map_singleton, List.dropLast_concat]
      exact exit_not_mem_events hps before

end Poll

end RatingServer
