import Mathlib.Data.List.Nodup
import RatingServer.Launch
import RatingServer.Proofs.Cluster.Selection

/-!
# The law of a balancer

Addresses are bound and unbound at a balancer while the servers behind it start, stop
and leave, and requests come and go. The bindings stand in the order in which they
were made, one for each address. To bind an address anew does nothing while its server
still answers. Otherwise the old binding goes first, so that a call that then fails
leaves one binding less; the server of that one has left, and no client was put on it.
-/

namespace RatingServer

namespace Cluster

variable {ℓ : Type} {c c' : Cluster ℓ} {b : Balancer} {place : Nat}

/-- Work on a balancer that is there. -/
theorem onBalancer_of_some {α : Type} (h : c.balancers[place]? = some b)
    (work : Balancer → α × Balancer) (absent : α) :
    c.onBalancer place work absent =
      ((work b).1, { c with balancers := c.balancers.set place (work b).2 }) := by
  simp only [onBalancer, h]

/-- The balancer after work on it. -/
theorem onBalancer_get {α : Type} (h : c.balancers[place]? = some b)
    (work : Balancer → α × Balancer) (absent : α) :
    (c.onBalancer place work absent).2.balancers[place]? = some (work b).2 := by
  rw [onBalancer_of_some h]
  exact List.getElem?_set_self (List.getElem?_eq_some_iff.mp h).1

/-- Work on a server leaves the balancers as they are. -/
@[simp] theorem onServer_balancers {α : Type} (c : Cluster ℓ) (place : Nat)
    (work : Server ℓ → α × Server ℓ) (absent : α) :
    (c.onServer place work absent).2.balancers = c.balancers := by
  unfold onServer
  split <;> rfl

/-- A server that runs answers. -/
theorem ping_of_isRunning (h : c.isRunning place = true) : c.ping place = true := by
  obtain ⟨s, hs, hrunning⟩ := (Option.any_eq_true _ _).mp h
  refine (Option.any_eq_true _ _).mpr ⟨s, hs, decide_eq_true fun hexited => ?_⟩
  rw [Server.isRunning, hexited] at hrunning
  cases hrunning

end Cluster

namespace Balancer

variable {ℓ : Type} {c c' : Cluster ℓ} {b b' : Balancer} {e : Binding} {place : Nat}
  {uri account password : String} {log : List String}

/-- A binding is found by its address. -/
theorem find?_of_mem (h : (b.map Binding.uri).Nodup) (he : e ∈ b) : b.find? e.uri = some e := by
  obtain ⟨x, hx⟩ : ∃ x, b.find? e.uri = some x :=
    Option.isSome_iff_exists.mp (List.find?_isSome.mpr ⟨e, he, decide_eq_true rfl⟩)
  have huri : x.uri = e.uri := by simpa using List.find?_some hx
  rw [hx, List.inj_on_of_nodup_map h (List.mem_of_find?_eq_some hx) he huri]

/-- Without an address that is not bound a balancer is what it was. -/
theorem without_of_find?_eq_none (h : b.find? uri = none) : b.without uri = b :=
  List.filter_eq_self.mpr fun x hx => decide_eq_true fun huri =>
    List.find?_eq_none.mp h x hx (decide_eq_true huri)

/-- To remove a binding is to remove its address. -/
theorem erase_eq_without (h : (b.map Binding.uri).Nodup) (he : e ∈ b) :
    b.erase e = b.without e.uri := by
  rw [(List.Nodup.of_map Binding.uri h).erase_eq_filter]
  refine List.filter_congr fun x hx => ?_
  have hiff : x = e ↔ x.uri = e.uri := ⟨congrArg _, List.inj_on_of_nodup_map h hx he⟩
  rw [bne, beq_eq_decide, decide_not, decide_eq_decide.mpr hiff]

/-- What comes of a call to bind an address with credentials: the answer and the
balancer then. -/
inductive Outcome (c : Cluster ℓ) (b : Balancer) (uri account password : String) :
    Except CallError Bool × Balancer → Prop where
  /-- A server is bound there that still answers. -/
  | held {e : Binding} : e ∈ b → e.uri = uri → c.ping e.server = true →
    Outcome c b uri account password (.ok true, b)
  /-- No gateway is registered at the address. -/
  | unknown {f : CallError} : (∀ e ∈ b, e.uri = uri → c.ping e.server = false) →
    c.lookup uri = .error f → Outcome c b uri account password (.error f, b.without uri)
  /-- The gateway does not admit the account. -/
  | refused {g : Gateway} : (∀ e ∈ b, e.uri = uri → c.ping e.server = false) →
    c.lookup uri = .ok g → c.remoteServer? g account password = none →
    Outcome c b uri account password (.ok false, b.without uri)
  /-- The server is bound, behind all others. -/
  | bound {g : Gateway} {server : Nat} : (∀ e ∈ b, e.uri = uri → c.ping e.server = false) →
    c.lookup uri = .ok g → c.remoteServer? g account password = some server →
    Outcome c b uri account password (.ok true, b.without uri ++ [⟨uri, server, g⟩])

/-- A new binding is made of the gateway that is registered at the address. -/
theorem bindNew_outcome (h : ∀ e ∈ b, e.uri = uri → c.ping e.server = false) :
    Outcome c b uri account password (c.bindNew (b.without uri) uri account password) := by
  unfold Cluster.bindNew
  cases hlookup : c.lookup uri with
  | error f => exact .unknown h hlookup
  | ok g =>
    cases hserver : c.remoteServer? g account password with
    | none => simpa only [hserver] using Outcome.refused h hlookup hserver
    | some server => simpa only [hserver] using Outcome.bound h hlookup hserver

/-- A call to bind an address has one of four outcomes. -/
theorem balance_outcome (h : (b.map Binding.uri).Nodup) :
    Outcome c b uri account password (c.balance b uri account password) := by
  unfold Cluster.balance
  cases hfind : b.find? uri with
  | none =>
    have hnone := List.find?_eq_none.mp hfind
    have hnew : Outcome c b uri account password (c.bindNew (b.without uri) uri account password) :=
      bindNew_outcome fun e he huri => absurd (decide_eq_true huri) (hnone e he)
    rwa [without_of_find?_eq_none hfind] at hnew
  | some e =>
    have he : e ∈ b := List.mem_of_find?_eq_some hfind
    obtain rfl : e.uri = uri := by simpa using List.find?_some hfind
    cases hping : c.ping e.server with
    | true => simpa only [hping, if_true] using Outcome.held he rfl hping
    | false =>
      simp only [Bool.false_eq_true, if_false, erase_eq_without h he, hping]
      refine bindNew_outcome fun x hx huri => ?_
      rw [List.inj_on_of_nodup_map h hx he huri, hping]

/-- To bind the address of a server that still answers changes nothing. -/
theorem balance_of_ping (h : (b.map Binding.uri).Nodup) (he : e ∈ b)
    (hping : c.ping e.server = true) (account password : String) :
    c.balance b e.uri account password = (.ok true, b) := by
  simp only [Cluster.balance, find?_of_mem h he, hping, if_true]

/-- To bind an address at which no bound server answers binds the server that the
gateway registered there gives, behind all others. -/
theorem balance_of_remoteServer {g : Gateway} {server : Nat} (h : (b.map Binding.uri).Nodup)
    (hdead : ∀ e ∈ b, e.uri = uri → c.ping e.server = false) (hlookup : c.lookup uri = .ok g)
    (hserver : c.remoteServer? g account password = some server) :
    c.balance b uri account password = (.ok true, b.without uri ++ [⟨uri, server, g⟩]) := by
  have houtcome : Outcome c b uri account password _ := balance_outcome h
  generalize c.balance b uri account password = result at houtcome
  cases houtcome with
  | held he huri hping =>
    rw [hdead _ he huri] at hping
    cases hping
  | unknown _ hlookup' =>
    rw [hlookup] at hlookup'
    cases hlookup'
  | refused _ hlookup' hserver' =>
    cases hlookup.symm.trans hlookup'
    rw [hserver] at hserver'
    cases hserver'
  | bound _ hlookup' hserver' =>
    cases hlookup.symm.trans hlookup'
    cases hserver.symm.trans hserver'
    rfl

/-- The bindings after a server is bound without credentials. -/
theorem mem_attachThrough {x : Binding} {server : Nat} {g : Gateway} :
    x ∈ b.attachThrough uri server g ↔ x = ⟨uri, server, g⟩ ∨ x ∈ b ∧ x.uri ≠ uri := by
  rw [attachThrough, List.mem_append, List.mem_singleton, or_comm, without, List.mem_filter,
    decide_eq_true_iff]

/-- The bindings after an address is unbound. -/
theorem mem_unbind {x : Binding} : x ∈ (b.unbind uri).2 ↔ x ∈ b ∧ x.uri ≠ uri := by
  rw [unbind, without, List.mem_filter, decide_eq_true_iff]

/-- An address is unbound if it was bound. -/
theorem unbind_eq_true_iff : (b.unbind uri).1 = true ↔ ∃ e ∈ b, e.uri = uri := by
  rw [unbind, find?, List.find?_isSome]
  exact exists_congr fun e => and_congr_right fun _ => decide_eq_true_iff

/-- The balancer selects the same without the bindings of an address whose servers
have left. -/
theorem idle?_without (h : ∀ e ∈ b, e.uri = uri → c.ping e.server = false) :
    c.idle? (b.without uri) = c.idle? b := by
  refine Cluster.idle?_filter fun e he hrunning => decide_eq_true fun huri => ?_
  have hping := Cluster.ping_of_isRunning hrunning
  rw [h e he huri] at hping
  cases hping

/-- A call to bind an address that fails or is refused takes away nothing but a binding
of that address, whose server has left. -/
theorem balance_of_ne_ok_true (h : (b.map Binding.uri).Nodup)
    (hanswer : (c.balance b uri account password).1 ≠ .ok true) :
    (c.balance b uri account password).2 = b.without uri ∧
      (∀ e ∈ b, e.uri = uri → c.ping e.server = false) ∧
      c.idle? (c.balance b uri account password).2 = c.idle? b := by
  have houtcome : Outcome c b uri account password _ := balance_outcome h
  generalize c.balance b uri account password = result at houtcome hanswer ⊢
  cases houtcome with
  | held => exact absurd rfl hanswer
  | unknown hdead => exact ⟨rfl, hdead, idle?_without hdead⟩
  | refused hdead => exact ⟨rfl, hdead, idle?_without hdead⟩
  | bound => exact absurd rfl hanswer

/-- After a call to bind an address that is accepted, a server is bound there: one that
was bound before and still answers, or else the one that the gateway gives. -/
theorem balance_of_ok_true (h : (b.map Binding.uri).Nodup)
    (hanswer : (c.balance b uri account password).1 = .ok true) :
    ((∃ e ∈ b, e.uri = uri ∧ c.ping e.server = true) ∧
      (c.balance b uri account password).2 = b) ∨
    ((∀ e ∈ b, e.uri = uri → c.ping e.server = false) ∧ ∃ g server, c.lookup uri = .ok g ∧
      c.remoteServer? g account password = some server ∧
      (c.balance b uri account password).2 = b.without uri ++ [⟨uri, server, g⟩]) := by
  have houtcome : Outcome c b uri account password _ := balance_outcome h
  generalize c.balance b uri account password = result at houtcome hanswer ⊢
  cases houtcome with
  | held he huri hping => exact .inl ⟨⟨_, he, huri, hping⟩, rfl⟩
  | unknown => cases hanswer
  | refused => cases hanswer
  | bound hdead hlookup hserver => exact .inr ⟨hdead, _, _, hlookup, hserver, rfl⟩

/-- Two bindings by the time at which they were made, the earlier one first. The log
has the addresses that were bound, the latest first. -/
def BoundBefore (log : List String) (x y : Binding) : Prop := log.idxOf y.uri < log.idxOf x.uri

/-- The bindings were all made, and stand in the order in which they were made. -/
structure Chronological (log : List String) (b : Balancer) : Prop where
  /-- Each was made. -/
  logged : ∀ e ∈ b, e.uri ∈ log
  /-- The earlier ones come first. -/
  ordered : b.Pairwise (BoundBefore log)

namespace Chronological

/-- No two bindings have the same address. -/
theorem nodup (h : Chronological log b) : (b.map Binding.uri).Nodup :=
  List.pairwise_map.mpr (h.ordered.imp fun hlt huri => by
    rw [BoundBefore, huri] at hlt
    exact Nat.lt_irrefl _ hlt)

/-- To unbind an address keeps the order of the others. -/
theorem without (h : Chronological log b) (uri : String) : Chronological log (b.without uri) where
  logged e he := h.logged e (List.mem_filter.mp he).1
  ordered := h.ordered.filter _

/-- A binding that is made takes the place behind all others. -/
theorem concat (h : Chronological log b) (uri : String) (server : Nat) (gateway : Gateway) :
    Chronological (uri :: log) (b.without uri ++ [⟨uri, server, gateway⟩]) := by
  have hidx : ∀ e ∈ b.without uri, (uri :: log).idxOf e.uri = log.idxOf e.uri + 1 := fun e he =>
    List.idxOf_cons_ne log (Ne.symm (of_decide_eq_true (List.mem_filter.mp he).2))
  refine ⟨fun e he => ?_, List.pairwise_append.mpr ⟨?_, List.pairwise_singleton _ _, ?_⟩⟩
  · cases List.mem_append.mp he with
    | inl he => exact List.mem_cons_of_mem _ ((h.without uri).logged e he)
    | inr he => rw [List.mem_singleton.mp he]; exact List.mem_cons_self
  · refine (h.without uri).ordered.imp_of_mem fun {x y} hx hy hlt => ?_
    rw [BoundBefore, hidx x hx, hidx y hy]
    exact Nat.succ_lt_succ hlt
  · intro x hx y hy
    rw [List.mem_singleton.mp hy, BoundBefore, hidx x hx, List.idxOf_cons_self]
    exact Nat.succ_pos _

/-- A balancer selects, of the bindings with running servers, one with the least count
of requests in flight; of several the one that was made first. -/
theorem idle?_eq_some_iff (h : Chronological log b) : c.idle? b = some e ↔
    e ∈ b ∧ c.isRunning e.server = true ∧ ∀ x ∈ b, c.isRunning x.server = true → x ≠ e →
      (c.measure e.server).active < (c.measure x.server).active ∨
      (c.measure e.server).active = (c.measure x.server).active ∧ BoundBefore log e x := by
  rw [Cluster.idle?_eq_some_iff]
  constructor
  · rintro ⟨before, after, rfl, hrunning, hbefore, hafter⟩
    have hlater := (List.pairwise_cons.mp (List.pairwise_append.mp h.ordered).2.1).1
    refine ⟨List.mem_append_right _ List.mem_cons_self, hrunning, fun x hx hrun hne => ?_⟩
    cases List.mem_append.mp hx with
    | inl hx => exact .inl (hbefore x hx hrun)
    | inr hx =>
      have hx : x ∈ after := (List.mem_cons.mp hx).resolve_left hne
      exact (Nat.lt_or_eq_of_le (hafter x hx hrun)).imp_right fun heq => ⟨heq, hlater x hx⟩
  · rintro ⟨he, hrunning, hleast⟩
    obtain ⟨before, after, rfl⟩ := List.append_of_mem he
    have hearlier := (List.pairwise_append.mp h.ordered).2.2
    have hnodup := List.nodup_middle.mp (List.Nodup.of_map Binding.uri h.nodup)
    have hne : ∀ x ∈ before ++ after, x ≠ e := fun x hx heq =>
      (List.nodup_cons.mp hnodup).1 (heq ▸ hx)
    refine ⟨before, after, rfl, hrunning, fun x hx hrun => ?_, fun x hx hrun => ?_⟩
    · refine (hleast x (List.mem_append_left _ hx) hrun
        (hne x (List.mem_append_left _ hx))).resolve_right fun ⟨_, hlt⟩ => ?_
      exact Nat.lt_asymm hlt (hearlier x hx e List.mem_cons_self)
    · rcases hleast x (List.mem_append_right _ (List.mem_cons_of_mem _ hx)) hrun
        (hne x (List.mem_append_right _ hx)) with hlt | ⟨heq, -⟩
      · exact Nat.le_of_lt hlt
      · exact Nat.le_of_eq heq

end Chronological

/-- A server that still answers is bound at an address. -/
def holds (c : Cluster ℓ) (b : Balancer) (uri : String) : Bool :=
  b.any fun e => e.uri = uri && c.ping e.server

/-- The addresses that were bound, the latest first, after a call to bind one. A call
that finds the server bound makes no binding. -/
def logBalance (c : Cluster ℓ) (b : Balancer) (uri account password : String)
    (log : List String) : List String :=
  match (c.balance b uri account password).1 with
  | .ok true => if holds c b uri then log else uri :: log
  | _ => log

/-- What the calls can have made of the balancer at a place, and of all around it,
since it was new. The log has the addresses that were bound, the latest first. -/
inductive History (place : Nat) : List String → Cluster ℓ → Prop where
  /-- A new balancer has bound nothing. -/
  | new {c : Cluster ℓ} : c.balancers[place]? = some [] → History place [] c
  /-- A server is bound with credentials. -/
  | bind {log : List String} {c : Cluster ℓ} {b : Balancer} (uri account password : String) :
    History place log c → c.balancers[place]? = some b →
    History place (logBalance c b uri account password log)
      (c.onBalancer place (fun b => c.balance b uri account password) (.ok false)).2
  /-- A server is bound without credentials. -/
  | attach {log : List String} {c : Cluster ℓ} (uri : String) (server : Nat) (gateway : Gateway) :
    History place log c → History place (uri :: log)
      (c.onBalancer place (fun b => ((), b.attachThrough uri server gateway)) ()).2
  /-- An address is unbound. -/
  | unbind {log : List String} {c : Cluster ℓ} (uri : String) :
    History place log c → History place log (c.onBalancer place (fun b => b.unbind uri) false).2
  /-- Anything else happens: a server starts, stops or leaves, a request comes or goes,
  a gateway is registered, another balancer is called. -/
  | around {log : List String} {c c' : Cluster ℓ} :
    History place log c → c'.balancers[place]? = c.balancers[place]? → History place log c'

/-- A call to bind an address keeps the order of the bindings. -/
theorem Chronological.balance (h : Chronological log b) (uri account password : String) :
    Chronological (logBalance c b uri account password log)
      (c.balance b uri account password).2 := by
  have houtcome : Outcome c b uri account password _ := balance_outcome h.nodup
  unfold logBalance
  generalize c.balance b uri account password = result at houtcome
  cases houtcome with
  | held he huri hping =>
    have hholds : holds c b uri = true := List.any_eq_true.mpr ⟨_, he, by simp [huri, hping]⟩
    simpa only [hholds, if_true] using h
  | unknown => exact h.without uri
  | refused => exact h.without uri
  | bound hdead =>
    have hholds : holds c b uri = false := List.any_eq_false.mpr fun x hx hheld => by
      obtain ⟨huri, hping⟩ := Bool.and_eq_true_iff.mp hheld
      rw [hdead x hx (of_decide_eq_true huri)] at hping
      cases hping
    simpa only [hholds, Bool.false_eq_true, if_false] using h.concat uri _ _

namespace History

/-- Work on a server is something else. -/
theorem onServer {α : Type} (h : History place log c) (server : Nat)
    (work : Server ℓ → α × Server ℓ) (absent : α) :
    History place log (c.onServer server work absent).2 :=
  h.around (by rw [Cluster.onServer_balancers])

/-- At any time the bindings stand in the order in which they were made. -/
theorem chronological (h : History place log c) :
    ∃ b, c.balancers[place]? = some b ∧ Chronological log b := by
  induction h with
  | new hnew => exact ⟨[], hnew, nofun, .nil⟩
  | @bind log c b uri account password _ hb ih =>
    obtain ⟨b', hb', hlog⟩ := ih
    obtain rfl := Option.some.inj (hb.symm.trans hb')
    exact ⟨_, Cluster.onBalancer_get hb _ _, hlog.balance uri account password⟩
  | attach uri server gateway _ ih =>
    obtain ⟨b, hb, hlog⟩ := ih
    exact ⟨_, Cluster.onBalancer_get hb _ _, hlog.concat uri server gateway⟩
  | unbind uri _ ih =>
    obtain ⟨b, hb, hlog⟩ := ih
    exact ⟨_, Cluster.onBalancer_get hb _ _, hlog.without uri⟩
  | around _ hsame ih =>
    obtain ⟨b, hb, hlog⟩ := ih
    exact ⟨b, hsame.trans hb, hlog⟩

end History

/-- The law of a balancer at a place of a process. -/
structure Lawful (place : Nat) (log : List String) (c : Cluster ℓ) (b : Balancer) : Prop where
  /-- No two bindings have the same address. -/
  distinct : (b.map Binding.uri).Nodup
  /-- To bind the address of a bound server that still answers changes nothing. -/
  held : ∀ e ∈ b, c.ping e.server = true → ∀ account password,
    c.balance b e.uri account password = (.ok true, b)
  /-- A call to bind an address that fails or is refused takes away nothing but a
  binding of that address, whose server has left; it has no part in the selection. -/
  refused : ∀ uri account password, (c.balance b uri account password).1 ≠ .ok true →
    (c.balance b uri account password).2 = b.without uri ∧
    (∀ e ∈ b, e.uri = uri → c.ping e.server = false) ∧
    c.idle? (c.balance b uri account password).2 = c.idle? b
  /-- A call to bind an address that is accepted leaves all as it is if a server is bound
  there that still answers. Otherwise a binding of the address, whose server has left,
  goes, and the server that the registered gateway gives is bound behind all others. -/
  accepted : ∀ uri account password, (c.balance b uri account password).1 = .ok true →
    ((∃ e ∈ b, e.uri = uri ∧ c.ping e.server = true) ∧
      (c.balance b uri account password).2 = b) ∨
    ((∀ e ∈ b, e.uri = uri → c.ping e.server = false) ∧ ∃ g server, c.lookup uri = .ok g ∧
      c.remoteServer? g account password = some server ∧
      (c.balance b uri account password).2 = b.without uri ++ [⟨uri, server, g⟩])
  /-- A call to bind an address where no bound server answers is accepted if the gateway
  registered there gives a server. -/
  bound : ∀ uri account password g server, (∀ e ∈ b, e.uri = uri → c.ping e.server = false) →
    c.lookup uri = .ok g → c.remoteServer? g account password = some server →
    c.balance b uri account password = (.ok true, b.without uri ++ [⟨uri, server, g⟩])
  /-- A server that is bound without credentials takes the place of whatever is bound at
  its address. -/
  attached : ∀ uri server g x,
    x ∈ b.attachThrough uri server g ↔ x = ⟨uri, server, g⟩ ∨ x ∈ b ∧ x.uri ≠ uri
  /-- An address is unbound if it was bound, and no other is. -/
  unbound : ∀ uri, ((b.unbind uri).1 = true ↔ ∃ e ∈ b, e.uri = uri) ∧
    ∀ x, x ∈ (b.unbind uri).2 ↔ x ∈ b ∧ x.uri ≠ uri
  /-- Of the bindings with running servers the balancer selects one with the least count
  of requests in flight; of several the one that was made first. -/
  least : ∀ e, c.idle? b = some e ↔
    e ∈ b ∧ c.isRunning e.server = true ∧ ∀ x ∈ b, c.isRunning x.server = true → x ≠ e →
      (c.measure e.server).active < (c.measure x.server).active ∨
      (c.measure e.server).active = (c.measure x.server).active ∧ BoundBefore log e x
  /-- It selects nothing exactly if no bound server runs. -/
  none : c.idle? b = none ↔ ∀ e ∈ b, c.isRunning e.server = false
  /-- The search by the measure of a server ends at the selected binding. -/
  search : c.search? b = c.idle? b
  /-- Its gateway gives the server that the gateway of the selected binding gives. -/
  server : ∀ account password, c.remoteServer? (.balancer place) account password =
    (c.idle? b).bind fun e => c.remoteServer? e.gateway account password
  /-- Its gateway gives the service that the gateway of the selected binding gives. -/
  service : ∀ account password, c.remoteService? (.balancer place) account password =
    (c.idle? b).bind fun e => c.remoteService? e.gateway account password

/-- After any calls on a balancer and on all around it, the law holds of it. -/
theorem History.lawful (h : History place log c) :
    ∃ b, c.balancers[place]? = some b ∧ Lawful place log c b := by
  obtain ⟨b, hb, hlog⟩ := h.chronological
  exact ⟨b, hb, {
    distinct := hlog.nodup
    held := fun _ he hping => balance_of_ping hlog.nodup he hping
    refused := fun _ _ _ => balance_of_ne_ok_true hlog.nodup
    accepted := fun _ _ _ => balance_of_ok_true hlog.nodup
    bound := fun _ _ _ _ _ => balance_of_remoteServer hlog.nodup
    attached := fun _ _ _ _ => mem_attachThrough
    unbound := fun _ => ⟨unbind_eq_true_iff, fun _ => mem_unbind⟩
    least := fun _ => hlog.idle?_eq_some_iff
    none := Cluster.idle?_eq_none_iff
    search := Cluster.search?_eq_idle? c b
    server := Cluster.remoteServer?_balancer hb
    service := Cluster.remoteService?_balancer hb }⟩

/-- Three running servers, a new balancer, and gateways to the first two servers. -/
def samplePool : Cluster ExitSignal :=
  let accounts : Accounts := Table.empty.insert "root" ⟨"secret", .admin⟩
  let running := ((Server.of { accounts }).call .start).2
  { servers := [running, running, running], balancers := [[]],
    registry := (Table.empty.insert "a" (.server 0)).insert "b" (.server 1) }

/-- The pool after a call to bind an address. -/
def bindSample (c : Cluster ExitSignal) (uri password : String) : Cluster ExitSignal :=
  (c.onBalancer 0 (fun b => c.balance b uri "root" password) (.ok false)).2

/-- The pool after its first server is bound with credentials, and its second one
without. -/
def sampleAttached : Cluster ExitSignal :=
  ((bindSample samplePool "a" "secret").onBalancer 0
    (fun b => ((), b.attachThrough "b" 1 (.server 1))) ()).2

/-- The pool after the first server has left; the address of its gateway is now that of
the third one, and the second one has taken in a request. -/
def sampleMoved : Cluster ExitSignal :=
  let c := (sampleAttached.onServer 0 (fun s => s.call (.exit false)) (.ok ())).2
  let c := (c.onServer 1 (fun s => ((), { s with measure := s.measure.enter })) ()).2
  ((c.unbind "a").2.bind "a" (.server 2)).2

/-- The pool after the address of the first server is bound anew. -/
def sampleBalanced : Cluster ExitSignal := bindSample sampleMoved "a" "secret"

/-- The law holds of the balancer of the pool. Both calls to bind its first address are
accepted, the second one in the place of a server that has left. -/
theorem lawful_sampleBalanced :
    History 0 ["a", "b", "a"] sampleBalanced ∧
      ∃ b, sampleBalanced.balancers[0]? = some b ∧ Lawful 0 ["a", "b", "a"] sampleBalanced b := by
  have hbound : History 0 (logBalance samplePool [] "a" "root" "secret" [])
      (bindSample samplePool "a" "secret") := .bind "a" "root" "secret" (.new rfl) rfl
  have hattached : History 0 ["b", "a"] sampleAttached := by
    rw [show logBalance samplePool [] "a" "root" "secret" [] = ["a"] by decide +kernel] at hbound
    exact hbound.attach "b" 1 (.server 1)
  have hmoved : History 0 ["b", "a"] sampleMoved :=
    ((hattached.onServer 0 (fun s => s.call (.exit false)) (.ok ())).onServer 1
      (fun s => ((), { s with measure := s.measure.enter })) ()).around (by decide +kernel)
  have hplace : sampleMoved.balancers[0]? = some [⟨"a", 0, .server 0⟩, ⟨"b", 1, .server 1⟩] := by
    decide +kernel
  have hanew := hmoved.bind "a" "root" "secret" hplace
  rw [show logBalance sampleMoved _ "a" "root" "secret" _ = ["a", "b", "a"] by decide +kernel]
    at hanew
  exact ⟨hanew, hanew.lawful⟩

/-- The new binding stands behind the other one and is selected, as its server is less
busy. A call to bind a held address changes nothing, whatever the password. -/
example :
    sampleBalanced.balancers[0]? = some [⟨"b", 1, .server 1⟩, ⟨"a", 2, .server 2⟩] ∧
    (sampleBalanced.balancers[0]?).bind sampleBalanced.idle? = some ⟨"a", 2, .server 2⟩ ∧
    (bindSample sampleBalanced "a" "wrong").balancers = sampleBalanced.balancers := by
  decide +kernel

end Balancer

end RatingServer
