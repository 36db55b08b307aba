import RatingServer.CommandLine.ServerOptions
import RatingServer.Proofs.Accounts.Histories

/-!
# Options over a configuration file

Each option of a server that is given sets its own fields of the launch configuration, and
what no given option sets is as the file has it. Only the base port and the port of the
control socket meet, and there the latter wins. An account with all privileges takes the
place of those of its name, so that it is never the reason why accounts cannot be loaded.
-/

namespace RatingServer

/-- The ports of a server, by what they are for. -/
inductive PortUse where
  /-- The service. -/
  | server
  /-- The listeners. -/
  | listener
  /-- The export of listeners. -/
  | listenerExport
  /-- The balancer. -/
  | balancer
  /-- The export of the balancer. -/
  | balancerExport
  /-- The control socket. -/
  | socketControl
  /-- The evaluators. -/
  | evaluator

/-- The port for a use. -/
def PortUse.get : PortUse → ServicePorts → UInt16
  | server, p => p.server
  | listener, p => p.listener
  | listenerExport, p => p.listenerExport
  | balancer, p => p.balancer
  | balancerExport, p => p.balancerExport
  | socketControl, p => p.socketControl
  | evaluator, p => p.evaluator

/-- Ports are told apart by their uses. -/
theorem ServicePorts.eq_of_get {p q : ServicePorts} (h : ∀ use : PortUse, use.get p = use.get q) :
    p = q := by
  have hserver : p.server = q.server := h .server
  have hlistener : p.listener = q.listener := h .listener
  have hlistenerExport : p.listenerExport = q.listenerExport := h .listenerExport
  have hbalancer : p.balancer = q.balancer := h .balancer
  have hbalancerExport : p.balancerExport = q.balancerExport := h .balancerExport
  have hcontrol : p.socketControl = q.socketControl := h .socketControl
  have hevaluator : p.evaluator = q.evaluator := h .evaluator
  cases p
  simp_all

/-- The fields of a launch configuration, its accounts apart. -/
inductive LaunchField where
  /-- The host. -/
  | host
  /-- A port. -/
  | port (use : PortUse)
  /-- Seconds between two runs of the periodic tasks. -/
  | tasksPeriod
  /-- Seconds after which an idle session ends. -/
  | timeout
  /-- Whether clients must ask for the status. -/
  | pullMode
  /-- The names of the evaluators. -/
  | evaluators
  /-- Whether the server starts at once. -/
  | autoStart

namespace LaunchField

/-- The values of a field. -/
def Value : LaunchField → Type
  | host => String
  | port _ => UInt16
  | tasksPeriod | timeout => UInt64
  | pullMode | autoStart => Bool
  | evaluators => List String

/-- The value of a field. -/
def get : (f : LaunchField) → LaunchConfig → f.Value
  | host, c => c.server.host
  | port use, c => use.get c.server.ports
  | tasksPeriod, c => c.server.tasksPeriod
  | timeout, c => c.server.timeout
  | pullMode, c => c.server.pullModeRequired
  | evaluators, c => c.evaluators
  | autoStart, c => c.autoStart

end LaunchField

/-- Launch configurations are told apart by their fields and their accounts. -/
theorem LaunchConfig.eq_of_get {c d : LaunchConfig} (h : ∀ f : LaunchField, f.get c = f.get d)
    (haccounts : c.accounts = d.accounts) : c = d := by
  have hserver : c.server = d.server := by
    have hhost : c.server.host = d.server.host := h .host
    have hports : c.server.ports = d.server.ports :=
      ServicePorts.eq_of_get fun use => h (.port use)
    have hperiod : c.server.tasksPeriod = d.server.tasksPeriod := h .tasksPeriod
    have htimeout : c.server.timeout = d.server.timeout := h .timeout
    have hpull : c.server.pullModeRequired = d.server.pullModeRequired := h .pullMode
    obtain ⟨⟨_, _, _, _, _⟩, _, _, _⟩ := c
    simp_all
  have hevaluators : c.evaluators = d.evaluators := h .evaluators
  have hstart : c.autoStart = d.autoStart := h .autoStart
  cases c
  simp_all

namespace CommandLine

/-- An option that changes what a server is launched with. -/
inductive Override where
  /-- The host. -/
  | host (name : String)
  /-- The port from which the others follow. -/
  | basePort (base : UInt16)
  /-- The port of the control socket. -/
  | controlPort (port : UInt16)
  /-- Seconds between two runs of the periodic tasks. -/
  | tasksPeriod (seconds : UInt64)
  /-- Seconds after which an idle session ends. -/
  | timeout (seconds : UInt64)
  /-- Clients must ask for the status. -/
  | pullMode
  /-- An account with all privileges, and its password. -/
  | admin (name password : String)
  /-- The server waits until it is told to start. -/
  | noAutoStart

namespace Override

/-- An option is given. -/
def Given (o : ServerOptions) : Override → Prop
  | host name => o.host = some name
  | basePort base => o.basePort = some base
  | controlPort port => o.socketControlPort = some port
  | tasksPeriod seconds => o.tasksPeriod = some seconds
  | timeout seconds => o.timeout = some seconds
  | pullMode => o.pullModeRequired = true
  | admin name password => o.adminAccount = some name ∧ o.adminPassword = some password
  | noAutoStart => o.noAutoStart = true

/-- The value that an option is for, if it is for a field: the base port is for all ports,
every other one for one field. -/
def sets? : Override → (f : LaunchField) → Option f.Value
  | host name, .host => some name
  | basePort base, .port use => some (use.get (.ofBase base))
  | controlPort port, .port .socketControl => some port
  | tasksPeriod seconds, .tasksPeriod => some seconds
  | timeout seconds, .timeout => some seconds
  | pullMode, .pullMode => some true
  | noAutoStart, .autoStart => some false
  | _, _ => none

end Override

namespace ServerOptions

open Override

variable {o : ServerOptions} {c : LaunchConfig}

/-- A port of the control socket stands in the place of one from the base port. -/
def Yields (o : ServerOptions) (v : Override) (f : LaunchField) : Prop :=
  (∃ base, v = .basePort base) ∧ f = .port .socketControl ∧ ∃ port, (controlPort port).Given o

/-- The port of the control socket is put last. -/
theorem get_ports_control (p : ServicePorts) :
    PortUse.socketControl.get (o.ports p) =
      o.socketControlPort.getD ((o.basePort.map ServicePorts.ofBase).getD p).socketControl := rfl

/-- Every other port follows from the base port, or is as before. -/
theorem get_ports_of_ne {use : PortUse} (h : use ≠ .socketControl) (p : ServicePorts) :
    use.get (o.ports p) = use.get ((o.basePort.map ServicePorts.ofBase).getD p) := by
  cases use with
  | socketControl => exact absurd rfl h
  | server | listener | listenerExport | balancer | balancerExport | evaluator => rfl

/-- A given base port determines a port that no other option is for. -/
theorem get_ports_of_base {base : UInt16} (hbase : o.basePort = some base) {use : PortUse}
    (h : use = .socketControl → o.socketControlPort = none) (p : ServicePorts) :
    use.get (o.ports p) = use.get (.ofBase base) := by
  by_cases huse : use = .socketControl
  · rw [huse, get_ports_control, h huse, hbase]
    rfl
  · rw [get_ports_of_ne huse, hbase]
    rfl

/-- A given option determines the fields that it is for. -/
theorem get_apply_of_given {v : Override} {f : LaunchField} {x : f.Value} (hv : v.Given o)
    (hx : v.sets? f = some x) (hyields : ¬o.Yields v f) : f.get (o.apply c) = x := by
  cases v with
  | host name =>
    cases f <;> cases hx
    exact congrArg (·.getD c.server.host) hv
  | basePort base =>
    cases f <;> cases hx
    refine get_ports_of_base hv (fun huse => ?_) c.server.ports
    exact Option.eq_none_iff_forall_ne_some.mpr fun port hport =>
      hyields ⟨⟨base, rfl⟩, huse ▸ rfl, port, hport⟩
  | controlPort port =>
    cases f with
    | port use =>
      cases use <;> cases hx
      refine (get_ports_control c.server.ports).trans ?_
      rw [show o.socketControlPort = some port from hv]
      rfl
    | host | tasksPeriod | timeout | pullMode | evaluators | autoStart => cases hx
  | tasksPeriod seconds =>
    cases f <;> cases hx
    exact congrArg (·.getD c.server.tasksPeriod) hv
  | timeout seconds =>
    cases f <;> cases hx
    exact congrArg (·.getD c.server.timeout) hv
  | pullMode =>
    cases f <;> cases hx
    exact congrArg (· || c.server.pullModeRequired) hv
  | admin name password => cases f <;> cases hx
  | noAutoStart =>
    cases f <;> cases hx
    exact (congrArg (fun b => c.autoStart && !b) hv).trans (Bool.and_false _)

/-- If no given option is for a field, a value that makes one for it is not there. -/
theorem eq_none_of_unset {α : Type} {given : Option α} {f : LaunchField}
    (h : ∀ v : Override, v.Given o → v.sets? f = none) (mk : α → Override)
    (hgiven : ∀ a, given = some a → (mk a).Given o) (hsets : ∀ a, (mk a).sets? f ≠ none) :
    given = none :=
  Option.eq_none_iff_forall_ne_some.mpr fun a ha => hsets a (h (mk a) (hgiven a ha))

/-- A field for which no given option is keeps its value. -/
theorem get_apply_of_none {f : LaunchField} (h : ∀ v : Override, v.Given o → v.sets? f = none) :
    f.get (o.apply c) = f.get c := by
  cases f with
  | host =>
    have hnone : o.host = none := eq_none_of_unset h .host (fun _ ha => ha) fun _ ha => by cases ha
    exact congrArg (·.getD c.server.host) hnone
  | port use =>
    have hbase : o.basePort = none :=
      eq_none_of_unset h .basePort (fun _ ha => ha) fun _ ha => by cases ha
    by_cases huse : use = .socketControl
    · subst huse
      have hnone : o.socketControlPort = none :=
        eq_none_of_unset h .controlPort (fun _ ha => ha) fun _ ha => by cases ha
      refine (get_ports_control c.server.ports).trans ?_
      rw [hnone, hbase]
      rfl
    · refine (get_ports_of_ne huse c.server.ports).trans ?_
      rw [hbase]
      rfl
  | tasksPeriod =>
    have hnone : o.tasksPeriod = none :=
      eq_none_of_unset h .tasksPeriod (fun _ ha => ha) fun _ ha => by cases ha
    exact congrArg (·.getD c.server.tasksPeriod) hnone
  | timeout =>
    have hnone : o.timeout = none :=
      eq_none_of_unset h .timeout (fun _ ha => ha) fun _ ha => by cases ha
    exact congrArg (·.getD c.server.timeout) hnone
  | pullMode =>
    have hnot : o.pullModeRequired = false := Bool.eq_false_iff.mpr fun hgiven => by
      cases h .pullMode hgiven
    exact congrArg (· || c.server.pullModeRequired) hnot
  | evaluators => rfl
  | autoStart =>
    have hnot : o.noAutoStart = false := Bool.eq_false_iff.mpr fun hgiven => by
      cases h .noAutoStart hgiven
    exact (congrArg (fun b => c.autoStart && !b) hnot).trans (Bool.and_true _)

/-- A field for which a given option is does not depend on the file. -/
theorem get_apply_congr {v : Override} {f : LaunchField} (hv : v.Given o) (hf : v.sets? f ≠ none)
    (c d : LaunchConfig) : f.get (o.apply c) = f.get (o.apply d) := by
  obtain ⟨x, hx⟩ := Option.ne_none_iff_exists'.mp hf
  by_cases hyields : o.Yields v f
  · obtain ⟨-, rfl, port, hport⟩ := hyields
    have hcontrol (e : LaunchConfig) : (LaunchField.port .socketControl).get (o.apply e) = port :=
      get_apply_of_given hport rfl fun h => by cases h.1.choose_spec
    rw [hcontrol c, hcontrol d]
  · rw [get_apply_of_given hv hx hyields, get_apply_of_given hv hx hyields]

/-- An account that has taken the place of those of its name. -/
structure TakenOver (a : AccountConfig) (known merged : List AccountConfig) : Prop where
  /-- It is the last one. -/
  last : merged.getLast? = some a
  /-- It is the only one of its name. -/
  only : merged.filter (fun b => b.name = a.name) = [a]
  /-- The other ones are as they were, in their order. -/
  others : merged.filter (fun b => b.name ≠ a.name) = known.filter (fun b => b.name ≠ a.name)

/-- The account that is put in the place of those of its name. -/
theorem takenOver (a : AccountConfig) (known : List AccountConfig) :
    TakenOver a known (known.filter (fun b => b.name ≠ a.name) ++ [a]) where
  last := List.getLast?_concat
  only := by
    rw [List.filter_append, List.filter_filter]
    simp
  others := by
    rw [List.filter_append, List.filter_filter]
    simp

/-- The name of the account with all privileges. -/
def Admin (o : ServerOptions) (name : String) : Prop :=
  ∃ password, (Override.admin name password).Given o

/-- The accounts with one of all privileges. -/
theorem accounts_of_given {name password : String} (h : (Override.admin name password).Given o)
    (known : List AccountConfig) :
    o.accounts known =
      known.filter (fun a => a.name ≠ name) ++ [⟨name, password, .admin ||| .evaluate⟩] := by
  rw [accounts, h.1, h.2]

/-- The account with all privileges has taken the place of those of its name. -/
theorem takenOver_accounts {name password : String} (h : (Override.admin name password).Given o)
    (known : List AccountConfig) :
    TakenOver ⟨name, password, .admin ||| .evaluate⟩ known (o.accounts known) := by
  rw [accounts_of_given h]
  exact takenOver ⟨name, password, .admin ||| .evaluate⟩ known

/-- Without an account with all privileges the accounts are those of the file. -/
theorem accounts_of_none (h : ∀ name, ¬o.Admin name) (known : List AccountConfig) :
    o.accounts known = known := by
  unfold accounts
  split
  · rename_i name password hname hpassword
    exact absurd ⟨password, hname, hpassword⟩ (h name)
  · rfl

/-- Two accounts of one name are in what is left if they were there and the name is
another one. -/
theorem TakenOver.pair_iff {a b b' : AccountConfig} {known merged : List AccountConfig}
    (h : TakenOver a known merged) (hname : b.name = b'.name) :
    [b, b'].Sublist merged ↔ [b, b'].Sublist known ∧ b.name ≠ a.name := by
  have hother (hne : b.name ≠ a.name) :
      [b, b'].filter (fun b => b.name ≠ a.name) = [b, b'] := by
    have hne' : b'.name ≠ a.name := hname ▸ hne
    simp [hne, hne']
  constructor
  · intro hsub
    have hne : b.name ≠ a.name := fun heq => by
      have heq' : b'.name = a.name := hname ▸ heq
      have hboth : [b, b'].filter (fun b => b.name = a.name) = [b, b'] := by simp [heq, heq']
      have hpair := hsub.filter fun b => b.name = a.name
      rw [hboth, h.only] at hpair
      exact absurd hpair.length_le (by simp)
    have hpair := hsub.filter fun b => b.name ≠ a.name
    rw [hother hne, h.others] at hpair
    exact ⟨hpair.trans List.filter_sublist, hne⟩
  · rintro ⟨hsub, hne⟩
    have hpair := hsub.filter fun b => b.name ≠ a.name
    rw [hother hne, ← h.others] at hpair
    exact hpair.trans List.filter_sublist

/-- Two accounts of one name are left if the file has them and the name is not that of the
account with all privileges. -/
theorem pair_accounts_iff {a b : AccountConfig} (hname : a.name = b.name)
    (known : List AccountConfig) :
    [a, b].Sublist (o.accounts known) ↔ [a, b].Sublist known ∧ ¬o.Admin a.name := by
  by_cases h : ∃ name, o.Admin name
  · obtain ⟨name, password, hgiven⟩ := h
    rw [(takenOver_accounts hgiven known).pair_iff hname]
    have hadmin : o.Admin a.name ↔ a.name = name := by
      constructor
      · rintro ⟨password', hname', -⟩
        exact Option.some.inj (hname'.symm.trans hgiven.1)
      · rintro rfl
        exact ⟨password, hgiven⟩
    rw [hadmin]
  · rw [accounts_of_none (not_exists.mp h)]
    exact (and_iff_left fun hadmin => h ⟨_, hadmin⟩).symm

/-- An account that has taken a place takes it again. -/
theorem accounts_accounts (known : List AccountConfig) :
    o.accounts (o.accounts known) = o.accounts known := by
  by_cases h : ∃ name, o.Admin name
  · obtain ⟨name, password, hgiven⟩ := h
    rw [accounts_of_given hgiven (o.accounts known), (takenOver_accounts hgiven known).others,
      ← accounts_of_given hgiven known]
  · rw [accounts_of_none (not_exists.mp h)]

/-- The accounts can be loaded exactly if no name is empty and no name but that of the
account with all privileges occurs twice in the file. -/
theorem loads_iff (known : List AccountConfig) :
    (∃ accounts, Accounts.ofConfig (o.accounts known) = .ok accounts) ↔
      (∀ a ∈ o.accounts known, a.name ≠ "") ∧
        ∀ a b, [a, b].Sublist known → a.name = b.name → o.Admin a.name := by
  rw [(Accounts.addedInOrder _).ok_iff, List.Nodup, List.pairwise_map,
    List.pairwise_iff_forall_sublist]
  refine and_congr_right fun _ => ⟨fun h a b hsub hname => ?_, fun h a b hsub hname => ?_⟩
  · exact Classical.not_not.mp fun hadmin =>
      h ((pair_accounts_iff hname known).mpr ⟨hsub, hadmin⟩) hname
  · obtain ⟨hknown, hadmin⟩ := (pair_accounts_iff hname known).mp hsub
    exact hadmin (h a b hknown hname)

/-- Why accounts cannot be loaded: a name is empty, or a name but that of the account with
all privileges occurs twice in the file. -/
theorem eq_of_loads_error {known : List AccountConfig} {e : AccountError}
    (h : Accounts.ofConfig (o.accounts known) = .error e) :
    (e = .emptyName ∧ ∃ a ∈ o.accounts known, a.name = "") ∨
      ∃ a b, [a, b].Sublist known ∧ a.name = b.name ∧ ¬o.Admin a.name ∧
        e = .alreadyExists a.name := by
  obtain ⟨before, b, after, hsplit, -, hoffends⟩ := ((Accounts.addedInOrder _).error_iff e).mp h
  rcases hoffends with ⟨hempty, rfl⟩ | ⟨-, hmem, rfl⟩
  · refine .inl ⟨rfl, b, ?_, hempty⟩
    rw [hsplit]
    exact List.mem_append_right _ List.mem_cons_self
  · obtain ⟨a, ha, hname⟩ := List.mem_map.mp hmem
    have hsub : [a, b].Sublist (o.accounts known) := by
      rw [hsplit]
      exact (List.singleton_sublist.mpr ha).append (List.singleton_sublist.mpr List.mem_cons_self)
    obtain ⟨hknown, hadmin⟩ := (pair_accounts_iff hname known).mp hsub
    exact .inr ⟨a, b, hknown, hname, hadmin, by rw [hname]⟩

/-- The laws of options that are laid over what a configuration file holds. -/
structure OverrideLaws (o : ServerOptions) (c : LaunchConfig) : Prop where
  /-- A given option determines every field that it is for, but that the port of the control
  socket is put after the base port. -/
  set : ∀ (v : Override) (f : LaunchField) x, v.Given o → v.sets? f = some x →
    f.get (o.apply c) = x ∨
      (∃ base, v = .basePort base) ∧ f = .port .socketControl ∧
        ∃ port, (Override.controlPort port).Given o
  /-- A field for which no given option is keeps its value. -/
  kept : ∀ f : LaunchField, (∀ v : Override, v.Given o → v.sets? f = none) →
    f.get (o.apply c) = f.get c
  /-- A given account with all privileges takes the place of those of its name. -/
  admin : ∀ name password, (Override.admin name password).Given o →
    TakenOver ⟨name, password, .admin ||| .evaluate⟩ c.accounts (o.apply c).accounts
  /-- Without such an account the accounts are those of the file. -/
  noAdmin : (∀ name password, ¬(Override.admin name password).Given o) →
    (o.apply c).accounts = c.accounts
  /-- Options that are laid over a configuration once more change nothing. -/
  twice : o.apply (o.apply c) = o.apply c
  /-- The accounts are loaded exactly if no name is empty and no two accounts of the file
  have one name, but that of the account with all privileges. -/
  loads : (∃ accounts, Accounts.ofConfig (o.apply c).accounts = .ok accounts) ↔
    (∀ a ∈ (o.apply c).accounts, a.name ≠ "") ∧
      ∀ a b, [a, b].Sublist c.accounts → a.name = b.name →
        ∃ password, (Override.admin a.name password).Given o
  /-- Otherwise the error is for such a name. -/
  fails : ∀ e, Accounts.ofConfig (o.apply c).accounts = .error e →
    (e = .emptyName ∧ ∃ a ∈ (o.apply c).accounts, a.name = "") ∨
      ∃ a b, [a, b].Sublist c.accounts ∧ a.name = b.name ∧
        (∀ password, ¬(Override.admin a.name password).Given o) ∧ e = .alreadyExists a.name

/-- Options are laid over every launch configuration by these laws. -/
theorem override_laws (o : ServerOptions) (c : LaunchConfig) : o.OverrideLaws c where
  set v f x hv hx := by
    by_cases hyields : o.Yields v f
    · exact .inr hyields
    · exact .inl (get_apply_of_given hv hx hyields)
  kept f h := get_apply_of_none h
  admin name password h := takenOver_accounts h c.accounts
  noAdmin h := accounts_of_none (fun name ⟨password, hgiven⟩ => h name password hgiven) c.accounts
  twice := by
    refine LaunchConfig.eq_of_get (fun f => ?_) (accounts_accounts c.accounts)
    by_cases h : ∀ v : Override, v.Given o → v.sets? f = none
    · exact get_apply_of_none h
    · obtain ⟨v, hnot⟩ := Classical.not_forall.mp h
      obtain ⟨hv, hf⟩ := Classical.not_imp.mp hnot
      exact get_apply_congr hv hf (o.apply c) c
  loads := loads_iff c.accounts
  fails e h := by
    rcases eq_of_loads_error h with hempty | ⟨a, b, hsub, hname, hadmin, rfl⟩
    · exact .inl hempty
    · exact .inr ⟨a, b, hsub, hname, not_exists.mp hadmin, rfl⟩

end ServerOptions

end CommandLine

end RatingServer
