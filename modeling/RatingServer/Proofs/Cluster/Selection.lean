import Mathlib.Data.List.Perm.Subperm
import Mathlib.Order.Basic
import RatingServer.Cluster.Basic

/-!
# The server that a balancer selects

A balancer goes over its bindings in order. Of those whose servers run it selects the
first one with the least count of requests in flight; the search for the server with
the least measure and then for the first binding of that server ends at the same one.
A gateway leads through the balancers on its way one at a time. None of them comes
twice, so that a way over as many steps as there are balancers misses nothing.
-/

namespace RatingServer

namespace ActiveMeasure

/-- What is kept along a list, the least so far, is the start or stands in the list. -/
theorem least_mem (e : α × ActiveMeasure) (es : List (α × ActiveMeasure)) :
    es.foldl (fun least e => if e.2.active < least.2.active then e else least) e ∈ e :: es := by
  induction es generalizing e with
  | nil => exact List.mem_singleton.mpr rfl
  | cons x es ih =>
    rw [List.foldl_cons]
    split
    · exact List.mem_cons_of_mem e (ih x)
    · cases List.mem_cons.mp (ih e) with
      | inl h => exact List.mem_cons.mpr (.inl h)
      | inr h => exact List.mem_cons_of_mem e (List.mem_cons_of_mem x h)

/-- What has no greater count than all that follows is kept. -/
theorem least_of_le {e : α × ActiveMeasure} {es : List (α × ActiveMeasure)}
    (h : ∀ x ∈ es, e.2.active ≤ x.2.active) :
    es.foldl (fun least e => if e.2.active < least.2.active then e else least) e = e := by
  induction es with
  | nil => rfl
  | cons x es ih =>
    have hx := h x List.mem_cons_self
    rw [List.foldl_cons, if_neg (by omega)]
    exact ih fun y hy => h y (List.mem_cons_of_mem x hy)

/-- An entry is the least busy one if the count of each entry before it is greater and
that of no entry behind it is less. -/
theorem leastBusy?_append {before after : List (α × ActiveMeasure)} {e : α × ActiveMeasure}
    (hbefore : ∀ x ∈ before, e.2.active < x.2.active)
    (hafter : ∀ x ∈ after, e.2.active ≤ x.2.active) :
    leastBusy? (before ++ e :: after) = some e.1 := by
  cases before with
  | nil => rw [List.nil_append, leastBusy?, least_of_le hafter]
  | cons x before =>
    have hkept := hbefore _ (least_mem x before)
    rw [List.cons_append, leastBusy?, List.foldl_append, List.foldl_cons, if_pos hkept,
      least_of_le hafter]

/-- In every list but the empty one some entry comes first among the least. -/
theorem exists_first_least {es : List (α × ActiveMeasure)} (h : es ≠ []) :
    ∃ before e after, es = before ++ e :: after ∧
      (∀ x ∈ before, e.2.active < x.2.active) ∧ ∀ x ∈ after, e.2.active ≤ x.2.active := by
  induction es with
  | nil => exact absurd rfl h
  | cons y es ih =>
    by_cases hy : ∀ x ∈ es, y.2.active ≤ x.2.active
    · exact ⟨[], y, es, rfl, nofun, hy⟩
    · obtain ⟨x, hx, hlt⟩ : ∃ x ∈ es, x.2.active < y.2.active := by
        simpa only [not_forall, Nat.not_le, exists_prop] using hy
      obtain ⟨before, e, after, rfl, hbefore, hafter⟩ := ih (List.ne_nil_of_mem hx)
      have hle : e.2.active ≤ x.2.active := by
        rcases List.mem_append.mp hx with hx | hx
        · exact Nat.le_of_lt (hbefore x hx)
        · cases List.mem_cons.mp hx with
          | inl hx => exact Nat.le_of_eq (by rw [hx])
          | inr hx => exact hafter x hx
      refine ⟨y :: before, e, after, rfl, fun z hz => ?_, hafter⟩
      cases List.mem_cons.mp hz with
      | inl hz => rw [hz]; omega
      | inr hz => exact hbefore z hz

/-- The least busy entry is the first one with the least count. -/
theorem leastBusy?_eq_some_iff {es : List (α × ActiveMeasure)} {a : α} :
    leastBusy? es = some a ↔ ∃ before m after, es = before ++ (a, m) :: after ∧
      (∀ x ∈ before, m.active < x.2.active) ∧ ∀ x ∈ after, m.active ≤ x.2.active := by
  constructor
  · intro h
    have hne : es ≠ [] := by rintro rfl; cases h
    obtain ⟨before, ⟨a', m⟩, after, rfl, hbefore, hafter⟩ := exists_first_least hne
    obtain rfl : a' = a := Option.some.inj ((leastBusy?_append hbefore hafter).symm.trans h)
    exact ⟨before, m, after, rfl, hbefore, hafter⟩
  · rintro ⟨before, m, after, rfl, hbefore, hafter⟩
    exact leastBusy?_append hbefore hafter

/-- There is a least busy entry unless there is none at all. -/
@[simp] theorem leastBusy?_eq_none_iff {es : List (α × ActiveMeasure)} :
    leastBusy? es = none ↔ es = [] := by
  cases es <;> simp [leastBusy?]

end ActiveMeasure

namespace Cluster

variable {ℓ : Type} {c : Cluster ℓ} {b : Balancer} {e : Binding}

/-- The least busy of the bindings with running servers, or of what is known of them,
is the first one with the least count. -/
theorem leastBusy?_running {α : Type} (f : Binding → α) {before after : Balancer}
    (hrunning : c.isRunning e.server = true)
    (hbefore : ∀ x ∈ before, c.isRunning x.server = true →
      (c.measure e.server).active < (c.measure x.server).active)
    (hafter : ∀ x ∈ after, c.isRunning x.server = true →
      (c.measure e.server).active ≤ (c.measure x.server).active) :
    ActiveMeasure.leastBusy? (((before ++ e :: after).filter fun x => c.isRunning x.server).map
      fun x => (f x, c.measure x.server)) = some (f e) := by
  have hcons : (e :: after).filter (fun x => c.isRunning x.server) =
      e :: after.filter fun x => c.isRunning x.server := List.filter_cons_of_pos hrunning
  rw [List.filter_append, hcons, List.map_append, List.map_cons]
  refine ActiveMeasure.leastBusy?_append (fun x hx => ?_) fun x hx => ?_
  all_goals
    obtain ⟨y, hy, rfl⟩ := List.mem_map.mp hx
    obtain ⟨hy, hrun⟩ := List.mem_filter.mp hy
  · exact hbefore y hy hrun
  · exact hafter y hy hrun

/-- A balancer selects the earliest of the bindings with running servers whose count
of requests in flight is least. -/
theorem idle?_eq_some_iff : c.idle? b = some e ↔
    ∃ before after, b = before ++ e :: after ∧ c.isRunning e.server = true ∧
      (∀ x ∈ before, c.isRunning x.server = true →
        (c.measure e.server).active < (c.measure x.server).active) ∧
      ∀ x ∈ after, c.isRunning x.server = true →
        (c.measure e.server).active ≤ (c.measure x.server).active := by
  constructor
  · intro h
    obtain ⟨first, m, last, hes, hfirst, hlast⟩ := ActiveMeasure.leastBusy?_eq_some_iff.mp h
    obtain ⟨xs, ys, hxys, rfl, hys⟩ := List.map_eq_append_iff.mp hes
    obtain ⟨y, ys, rfl, hy, rfl⟩ := List.map_eq_cons_iff.mp hys
    obtain ⟨rfl, rfl⟩ := Prod.mk.inj hy
    obtain ⟨before, rest, rfl, rfl, hrest⟩ := List.filter_eq_append_iff.mp hxys
    obtain ⟨skipped, after, rfl, hskipped, hrunning, rfl⟩ := List.filter_eq_cons_iff.mp hrest
    refine ⟨before ++ skipped, after, by simp, hrunning, fun x hx hrun => ?_, fun x hx hrun => ?_⟩
    · cases List.mem_append.mp hx with
      | inl hx => exact hfirst (x, _) (List.mem_map_of_mem (List.mem_filter.mpr ⟨hx, hrun⟩))
      | inr hx => exact absurd hrun (hskipped x hx)
    · exact hlast (x, _) (List.mem_map_of_mem (List.mem_filter.mpr ⟨hx, hrun⟩))
  · rintro ⟨before, after, rfl, hrunning, hbefore, hafter⟩
    exact leastBusy?_running id hrunning hbefore hafter

/-- A balancer selects nothing exactly if no server that it has bound runs. -/
theorem idle?_eq_none_iff : c.idle? b = none ↔ ∀ e ∈ b, c.isRunning e.server = false := by
  simp [idle?]

/-- The bindings whose servers do not run play no part in the selection. -/
theorem idle?_filter {keep : Binding → Bool}
    (h : ∀ e ∈ b, c.isRunning e.server = true → keep e = true) :
    c.idle? (b.filter keep) = c.idle? b := by
  have hrunning : (b.filter keep).filter (fun e => c.isRunning e.server) =
      b.filter fun e => c.isRunning e.server := by
    rw [List.filter_filter]
    refine List.filter_congr fun e he => ?_
    cases hrun : c.isRunning e.server with
    | false => rfl
    | true => rw [h e he hrun, Bool.true_and]
  rw [idle?, hrunning, ← idle?]

/-- The search for a server by its measure: among the bindings with running servers,
first for the server with the least measure, then for the first binding of that
server. -/
def search? (c : Cluster ℓ) (b : Balancer) : Option Binding :=
  let candidates := b.filter fun e => c.isRunning e.server
  (ActiveMeasure.leastBusy? (candidates.map fun e => (e.server, c.measure e.server))).bind
    fun place => candidates.find? fun e => e.server = place

/-- The search for a server by its measure ends at the selected binding, also when a
server is bound under several addresses. -/
theorem search?_eq_idle? (c : Cluster ℓ) (b : Balancer) : c.search? b = c.idle? b := by
  cases hidle : c.idle? b with
  | none =>
    have hnone := idle?_eq_none_iff.mp hidle
    have hempty : (b.filter fun e => c.isRunning e.server) = [] :=
      List.filter_eq_nil_iff.mpr fun e he => by rw [hnone e he]; exact Bool.false_ne_true
    rw [search?, hempty]
    rfl
  | some e =>
    obtain ⟨before, after, rfl, hrunning, hbefore, hafter⟩ := idle?_eq_some_iff.mp hidle
    -- a binding of the same server further ahead would have the same count
    have hfirst : (before.filter fun x => c.isRunning x.server).find?
        (fun x => x.server = e.server) = none := by
      refine List.find?_eq_none.mpr fun x hx hplace => ?_
      obtain ⟨hx, hrun⟩ := List.mem_filter.mp hx
      have hlt := hbefore x hx hrun
      rw [of_decide_eq_true hplace] at hlt
      exact Nat.lt_irrefl _ hlt
    have hcons : (e :: after).filter (fun x => c.isRunning x.server) =
        e :: after.filter fun x => c.isRunning x.server := List.filter_cons_of_pos hrunning
    rw [search?, leastBusy?_running Binding.server hrunning hbefore hafter, Option.bind_some,
      List.filter_append, hcons, List.find?_append, hfirst, Option.none_or]
    exact List.find?_cons_of_pos (decide_eq_true rfl)

/-- The balancers that a gateway leads through, one after another, and the server at
the end of the way. -/
inductive Way (c : Cluster ℓ) : List Nat → Gateway → Nat → Prop where
  /-- The gateway of a server leads to it. -/
  | server (place : Nat) : Way c [] (.server place) place
  /-- That of a balancer leads on through the gateway of the selected binding. -/
  | balancer {k : Nat} {ks : List Nat} {b : Balancer} {e : Binding} {place : Nat} :
    c.balancers[k]? = some b → c.idle? b = some e → Way c ks e.gateway place →
    Way c (k :: ks) (.balancer k) place

namespace Way

variable {g : Gateway} {k place place' : Nat} {ks ks' : List Nat}

/-- There is one way at most. -/
theorem unique (h : Way c ks g place) (h' : Way c ks' g place') : ks = ks' ∧ place = place' := by
  induction h generalizing ks' with
  | server place => cases h'; exact ⟨rfl, rfl⟩
  | balancer hb he _ ih =>
    cases h' with
    | balancer hb' he' hrest =>
      obtain rfl := Option.some.inj (hb.symm.trans hb')
      obtain rfl := Option.some.inj (he.symm.trans he')
      obtain ⟨rfl, rfl⟩ := ih hrest
      exact ⟨rfl, rfl⟩

/-- From each balancer on a way the rest of the way leads to its end. -/
theorem rest (h : Way c ks g place) (hk : k ∈ ks) :
    ∃ rest, rest.length ≤ ks.length ∧ Way c rest (.balancer k) place := by
  induction h with
  | server place => cases hk
  | @balancer j js b e place hb he hrest ih =>
    cases List.mem_cons.mp hk with
    | inl hkj => subst hkj; exact ⟨_, Nat.le_refl _, .balancer hb he hrest⟩
    | inr hk =>
      obtain ⟨rest, hlength, hway⟩ := ih hk
      exact ⟨rest, Nat.le_succ_of_le hlength, hway⟩

/-- No balancer comes twice on a way. -/
theorem nodup (h : Way c ks g place) : ks.Nodup := by
  induction h with
  | server place => exact List.nodup_nil
  | @balancer j js b e place hb he hrest ih =>
    refine List.nodup_cons.mpr ⟨fun hmem => ?_, ih⟩
    -- the rest from its second visit would be the whole way again
    obtain ⟨rest, hlength, hway⟩ := hrest.rest hmem
    obtain ⟨rfl, -⟩ := hway.unique (.balancer hb he hrest)
    rw [List.length_cons] at hlength
    omega

/-- A way leads through balancers of the cluster. -/
theorem lt_length (h : Way c ks g place) (hk : k ∈ ks) : k < c.balancers.length := by
  obtain ⟨_, -, hway⟩ := h.rest hk
  cases hway with
  | balancer hb => exact (List.getElem?_eq_some_iff.mp hb).1

/-- A way is no longer than there are balancers. -/
theorem length_le (h : Way c ks g place) : ks.length ≤ c.balancers.length := by
  have hsubset : ks ⊆ List.range c.balancers.length := fun k hk =>
    List.mem_range.mpr (h.lt_length hk)
  simpa using (h.nodup.subperm hsubset).length_le

end Way

variable {g : Gateway} {place steps : Nat}

/-- A server is reached over some number of balancers exactly if the way to it is no
longer than that. -/
theorem reach?_eq_some_iff :
    c.reach? steps g = some place ↔ ∃ ks, ks.length ≤ steps ∧ Way c ks g place := by
  constructor
  · intro h
    induction steps generalizing g with
    | zero =>
      cases g with
      | server => cases h; exact ⟨[], Nat.le_refl _, .server place⟩
      | balancer => cases h
    | succ steps ih =>
      cases g with
      | server => cases h; exact ⟨[], Nat.zero_le _, .server place⟩
      | balancer k =>
        obtain ⟨b, hb, h⟩ := Option.bind_eq_some_iff.mp h
        obtain ⟨e, he, h⟩ := Option.bind_eq_some_iff.mp h
        obtain ⟨ks, hlength, hway⟩ := ih h
        exact ⟨k :: ks, Nat.succ_le_succ hlength, .balancer hb he hway⟩
  · rintro ⟨ks, hlength, hway⟩
    induction hway generalizing steps with
    | server place => cases steps <;> rfl
    | balancer hb he _ ih =>
      cases steps with
      | zero => cases hlength
      | succ steps =>
        rw [reach?, hb, Option.bind_eq_bind, Option.bind_some, he, Option.bind_eq_bind,
          Option.bind_some]
        exact ih (Nat.le_of_succ_le_succ hlength)

/-- A gateway leads to a server exactly if there is a way. -/
theorem target?_eq_some_iff : c.target? g = some place ↔ ∃ ks, Way c ks g place := by
  rw [target?, reach?_eq_some_iff]
  exact ⟨fun ⟨ks, _, h⟩ => ⟨ks, h⟩, fun ⟨ks, h⟩ => ⟨ks, h.length_le, h⟩⟩

/-- The gateway of a balancer leads where that of the selected binding leads. -/
theorem target?_balancer (h : c.balancers[place]? = some b) :
    c.target? (.balancer place) = (c.idle? b).bind fun e => c.target? e.gateway := by
  refine Option.ext fun server => ?_
  rw [target?_eq_some_iff, Option.bind_eq_some_iff]
  constructor
  · rintro ⟨_, hway⟩
    cases hway with
    | balancer hb he hrest =>
      obtain rfl := Option.some.inj (h.symm.trans hb)
      exact ⟨_, he, target?_eq_some_iff.mpr ⟨_, hrest⟩⟩
  · rintro ⟨e, he, htarget⟩
    obtain ⟨ks, hway⟩ := target?_eq_some_iff.mp htarget
    exact ⟨place :: ks, .balancer h he hway⟩

/-- Through a balancer one gets the server that the gateway of the selected binding
gives for the same credentials. -/
theorem remoteServer?_balancer (h : c.balancers[place]? = some b) (account password : String) :
    c.remoteServer? (.balancer place) account password =
      (c.idle? b).bind fun e => c.remoteServer? e.gateway account password := by
  rw [remoteServer?, target?_balancer h]
  cases c.idle? b <;> rfl

/-- Through a balancer one gets the service that the gateway of the selected binding
gives for the same credentials. -/
theorem remoteService?_balancer (h : c.balancers[place]? = some b) (account password : String) :
    c.remoteService? (.balancer place) account password =
      (c.idle? b).bind fun e => c.remoteService? e.gateway account password := by
  rw [remoteService?, target?_balancer h]
  cases c.idle? b <;> rfl

end Cluster

end RatingServer
