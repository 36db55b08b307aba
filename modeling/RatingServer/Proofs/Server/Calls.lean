import RatingServer.Proofs.Lifecycle.Calls
import RatingServer.Server

/-!
# What a call of a server does

A server carries a call out as its lifecycle does: it runs the hook of the call, and
puts what the listeners were told to its journal. A call that is refused leaves the
server as it is. Whatever the call, the server keeps its accounts and its data; and an
operation changes nothing of a store but its data.
-/

namespace RatingServer

/-- An operation changes only the data of the store. -/
theorem Store.perform_frame (op : Operation) (s : Store) :
    (perform op s).2 = { s with data := (perform op s).2.data } := by
  cases op <;> rfl

/-- The entry of the journal that is made of a notice. -/
def Notice.entry? {ℓ : Type} : Notice ℓ → Option (JournalEntry ℓ)
  | hook _ => none
  | told id listener event => some ⟨id, listener, event⟩

namespace Server

variable {ℓ : Type}

/-- What each thing that happens during a change of the state keeps, all of them keep. -/
theorem foldl_notice_of_notice {β : Type} {f : Server ℓ → β}
    (h : ∀ (v : Server ℓ) (n : Notice ℓ), f (v.notice n) = f v) (notices : List (Notice ℓ))
    (v : Server ℓ) : f (notices.foldl notice v) = f v := by
  induction notices generalizing v with
  | nil => rfl
  | cons n notices ih => rw [List.foldl_cons, ih, h]

/-- What happens during a change of the state keeps the accounts. -/
theorem notice_accounts (v : Server ℓ) (n : Notice ℓ) : (v.notice n).accounts = v.accounts := by
  cases n with
  | hook h => cases h <;> rfl
  | told id listener event => rfl

/-- What happens during a change of the state keeps the data. -/
theorem notice_data (v : Server ℓ) (n : Notice ℓ) : (v.notice n).store.data = v.store.data := by
  cases n with
  | hook h => cases h <;> rfl
  | told id listener event => rfl

/-- A call keeps the accounts. -/
theorem call_accounts [Listener ℓ] (v : Server ℓ) (t : Transition) :
    (v.call t).2.accounts = v.accounts := by
  unfold call
  split
  · rfl
  · exact foldl_notice_of_notice notice_accounts _ _

/-- A call keeps the data. -/
theorem call_data [Listener ℓ] (v : Server ℓ) (t : Transition) :
    (v.call t).2.store.data = v.store.data := by
  unfold call
  split
  · rfl
  · exact foldl_notice_of_notice (f := fun v => v.store.data) notice_data _ _

/-- The reasons to refuse a call of a server are those of its lifecycle; its hook for
the start never fails. -/
abbrev Refuses (v : Server ℓ) (t : Transition) (e : CallError) : Prop :=
  Refusal v.state (.ok ()) t e

/-- Runs a hook, if there is one. -/
def runHook? (v : Server ℓ) : Option Hook → Server ℓ
  | none => v
  | some h => v.runHook h

/-- A hook puts nothing to the journal. -/
theorem journal_runHook? (v : Server ℓ) (hook : Option Hook) :
    (v.runHook? hook).journal = v.journal := by
  cases hook with
  | none => rfl
  | some h => cases h <;> rfl

/-- A hook keeps the lifecycle. -/
theorem lifecycle_runHook? (v : Server ℓ) (hook : Option Hook) :
    (v.runHook? hook).lifecycle = v.lifecycle := by
  cases hook with
  | none => rfl
  | some h => cases h <;> rfl

/-- The hook of a call is run first. -/
theorem foldl_notice_hook (v : Server ℓ) (hook : Option Hook) :
    ((hook.map Notice.hook).toList).foldl notice v = v.runHook? hook := by
  cases hook <;> rfl

/-- What listeners are told of one event is put to the journal. -/
theorem foldl_notice_told (listeners : List (Nat × ℓ)) (e : StatusEvent) (v : Server ℓ) :
    (listeners.map fun (id, x) => Notice.told id x e).foldl notice v =
      { v with journal := v.journal ++
        (listeners.map fun (id, x) => Notice.told id x e).filterMap Notice.entry? } := by
  induction listeners generalizing v with
  | nil => simp only [List.map_nil, List.foldl_nil, List.filterMap_nil, List.append_nil]
  | cons x listeners ih =>
    rw [List.map_cons, List.foldl_cons, ih, List.filterMap_cons]
    simp only [notice, Notice.entry?, List.append_assoc, List.singleton_append]

/-- What listeners are told of events is put to the journal. -/
theorem foldl_notice_tellings [Listener ℓ] (listeners : List (Nat × ℓ)) (es : List StatusEvent)
    (v : Server ℓ) :
    (Lifecycle.tellings listeners es).foldl notice v =
      { v with journal := v.journal ++
        (Lifecycle.tellings listeners es).filterMap Notice.entry? } := by
  induction es generalizing listeners v with
  | nil => simp only [Lifecycle.tellings, List.foldl_nil, List.filterMap_nil, List.append_nil]
  | cons e es ih =>
    rw [Lifecycle.tellings, List.foldl_append, foldl_notice_told, ih, List.filterMap_append,
      List.append_assoc]

variable [Listener ℓ]

/-- What the listeners of a server are told during a call that is carried out. -/
def entries (v : Server ℓ) (t : Transition) : List (JournalEntry ℓ) :=
  (Lifecycle.tellings v.lifecycle.listeners (t.events v.state)).filterMap Notice.entry?

/-- A call that there is a reason to refuse leaves the server as it is. -/
theorem call_of_refuses {v : Server ℓ} {t : Transition} {e : CallError} (h : v.Refuses t e) :
    v.call t = (.error e, v) := by
  have hcall : v.lifecycle.call (fun _ => .ok ()) t = _ := Lifecycle.call_of_refusal h
  unfold call
  rw [hcall]

/-- Any other call runs its hook on the server whose lifecycle has changed, and keeps
what the listeners were told. -/
theorem call_of_not_refuses {v : Server ℓ} {t : Transition} (h : ∀ e, ¬ v.Refuses t e) :
    v.call t =
      (.ok (),
        { ({ v with lifecycle := v.lifecycle.after t } : Server ℓ).runHook?
            (t.hook? v.state v.lifecycle.config) with
          journal := v.journal ++ v.entries t }) := by
  have hcall : v.lifecycle.call (fun _ => .ok ()) t = _ := Lifecycle.call_of_not_refusal h
  unfold call
  rw [hcall]
  dsimp only
  unfold Lifecycle.happening
  rw [List.foldl_append, foldl_notice_hook, foldl_notice_tellings, journal_runHook?]
  rfl

/-- Any other call leads to its target. -/
theorem state_call_of_not_refuses {v : Server ℓ} {t : Transition}
    (h : ∀ e, ¬ v.Refuses t e) : (v.call t).2.state = t.target v.state := by
  rw [call_of_not_refuses h]
  exact congrArg Lifecycle.state (lifecycle_runHook? _ _)

/-- Any other call leaves the configuration that it says. -/
theorem config_call_of_not_refuses {v : Server ℓ} {t : Transition}
    (h : ∀ e, ¬ v.Refuses t e) :
    (v.call t).2.lifecycle.config = t.configAfter v.lifecycle.config := by
  rw [call_of_not_refuses h]
  exact congrArg Lifecycle.config (lifecycle_runHook? _ _)

end Server

end RatingServer
