import Mathlib.Data.List.Induction
import RatingServer.Accounts
import RatingServer.Proofs.Table.Histories

/-!
# What the accounts know is their history

Accounts are added and removed one after another. Whether an account is valid is told by
the calls alone: it is the one that was added last under its name, if it has not been
removed since. An account cannot be added under an empty name or one that is held, and
the accounts of a configuration are added in order until one of them cannot be.
-/

namespace RatingServer

namespace Privileges

/-- A set of privileges has one of the bits of its mask. -/
def HasBit (p : Privileges) (i : Nat) : Prop := p.bits.toNat.testBit i = true

/-- A mask has what is required exactly if it has each of its bits. -/
theorem contains_iff_bits {granted required : Privileges} :
    granted.contains required = true ↔ ∀ i, required.HasBit i → granted.HasBit i := by
  have hmask : granted.contains required = true ↔
      granted.bits.toNat &&& required.bits.toNat = required.bits.toNat := by
    rw [contains, decide_eq_true_iff, ← UInt32.toNat_inj, UInt32.toNat_and]
  rw [hmask]
  constructor
  · intro heq i hi
    have hand : (granted.bits.toNat &&& required.bits.toNat).testBit i = true := by rwa [heq]
    rw [Nat.testBit_and, Bool.and_eq_true] at hand
    exact hand.1
  · intro hall
    refine Nat.eq_of_testBit_eq fun i => ?_
    rw [Nat.testBit_and]
    cases hi : required.bits.toNat.testBit i with
    | false => exact Bool.and_false _
    | true => rw [hall i hi, Bool.and_self]

/-- A bit of either of two masks. -/
theorem hasBit_union {p q : Privileges} {i : Nat} :
    (p ||| q).HasBit i ↔ p.HasBit i ∨ q.HasBit i := by
  have hnat : (p ||| q).bits.toNat = p.bits.toNat ||| q.bits.toNat := UInt32.toNat_or _ _
  rw [HasBit, hnat, Nat.testBit_or, Bool.or_eq_true]
  exact Iff.rfl

/-- A mask has what two others have exactly if it has what each of them has. -/
theorem contains_union_iff {granted p q : Privileges} :
    granted.contains (p ||| q) = true ↔
      granted.contains p = true ∧ granted.contains q = true := by
  simp only [contains_iff_bits, hasBit_union]
  constructor
  · exact fun h => ⟨fun i hi => h i (.inl hi), fun i hi => h i (.inr hi)⟩
  · exact fun h i hi => hi.elim (h.1 i) (h.2 i)

end Privileges

namespace Accounts

/-- A call that changes the accounts. -/
inductive Call where
  /-- Adds an account. -/
  | add (name : String) (account : Account)
  /-- Removes the account of a name. -/
  | remove (name : String)
  deriving DecidableEq

/-- The accounts after a call: one that cannot be added changes nothing. -/
def after (accounts : Accounts) : Call → Accounts
  | .add name account =>
    match accounts.add name account.password account.privileges with
    | .ok accounts => accounts
    | .error _ => accounts
  | .remove name => (accounts.remove name).2

/-- The accounts after some calls, when there were none before. -/
def run (calls : List Call) : Accounts := calls.foldl after .empty

/-- Why an account cannot be added: the name is empty, or there is one of the name. -/
theorem add_eq_error_iff {accounts : Accounts} {name password : String} {privileges : Privileges}
    {e : AccountError} :
    accounts.add name password privileges = .error e ↔
      (name = "" ∧ e = .emptyName) ∨
        (name ≠ "" ∧ (accounts.get? name).isSome = true ∧ e = .alreadyExists name) := by
  unfold add
  by_cases hempty : name = ""
  · rw [if_pos hempty, Except.error.injEq]
    exact ⟨fun he => .inl ⟨hempty, he.symm⟩, fun h => by
      obtain ⟨-, rfl⟩ | ⟨hname, -⟩ := h
      · rfl
      · exact absurd hempty hname⟩
  · rw [if_neg hempty, Table.contains]
    by_cases hheld : (accounts.get? name).isSome = true
    · rw [if_pos hheld, Except.error.injEq]
      simp only [hempty, hheld, false_and, false_or, ne_eq, not_false_eq_true, true_and]
      exact eq_comm
    · rw [if_neg hheld]
      simp [hempty, hheld]

/-- An account that can be added stands under its name, which was free. -/
theorem add_eq_ok_iff {accounts more : Accounts} {name password : String}
    {privileges : Privileges} :
    accounts.add name password privileges = .ok more ↔
      name ≠ "" ∧ accounts.get? name = none ∧
        more = accounts.insert name ⟨password, privileges⟩ := by
  unfold add
  by_cases hempty : name = ""
  · rw [if_pos hempty]
    exact iff_of_false nofun fun h => h.1 hempty
  · rw [if_neg hempty, Table.contains]
    by_cases hheld : (accounts.get? name).isSome = true
    · rw [if_pos hheld]
      exact iff_of_false nofun fun h => Option.isSome_iff_ne_none.mp hheld h.2.1
    · rw [if_neg hheld, Except.ok.injEq]
      have hfree := Option.not_isSome_iff_eq_none.mp hheld
      exact ⟨fun hmore => ⟨hempty, hfree, hmore.symm⟩, fun h => h.2.2.symm⟩

/-- An account can be added. -/
def Adds (accounts : Accounts) (name : String) (account : Account) : Prop :=
  ∃ more, accounts.add name account.password account.privileges = .ok more

/-- An account can be added under a name that is not empty and is free. -/
theorem adds_iff {accounts : Accounts} {name : String} {account : Account} :
    accounts.Adds name account ↔ name ≠ "" ∧ accounts.get? name = none := by
  simp only [Adds, add_eq_ok_iff]
  constructor
  · rintro ⟨-, hname, hfree, -⟩
    exact ⟨hname, hfree⟩
  · rintro ⟨hname, hfree⟩
    exact ⟨_, hname, hfree, rfl⟩

instance (accounts : Accounts) (name : String) (account : Account) :
    Decidable (accounts.Adds name account) := decidable_of_iff _ adds_iff.symm

/-- The accounts after one was added. -/
theorem after_add_of_adds {accounts : Accounts} {name : String} {account : Account}
    (h : accounts.Adds name account) :
    accounts.after (.add name account) = accounts.insert name account := by
  obtain ⟨more, hmore⟩ := h
  rw [after, hmore]
  exact (add_eq_ok_iff.mp hmore).2.2

/-- An account that cannot be added changes nothing. -/
theorem after_add_of_not_adds {accounts : Accounts} {name : String} {account : Account}
    (h : ¬accounts.Adds name account) : accounts.after (.add name account) = accounts := by
  rw [after]
  cases hadd : accounts.add name account.password account.privileges with
  | error e => rfl
  | ok more => exact absurd ⟨more, hadd⟩ h

/-- What a call does to the account of a name. -/
def touch (name : String) (accounts : Accounts) : Call → Touch Account
  | .add other account =>
    if other = name ∧ accounts.Adds other account then .sets account else .leaves
  | .remove other => if other = name then .clears else .leaves

/-- The account of a name after a call. -/
theorem get?_after (name : String) (accounts : Accounts) (c : Call) :
    (accounts.after c).get? name = (touch name accounts c).on (accounts.get? name) := by
  cases c with
  | add other account =>
    rw [touch]
    by_cases hadds : accounts.Adds other account
    · rw [after_add_of_adds hadds, Table.get?_insert]
      by_cases hname : name = other
      · rw [if_pos hname, if_pos ⟨hname.symm, hadds⟩, Touch.on]
      · rw [if_neg hname, if_neg fun h => hname h.1.symm, Touch.on]
    · rw [after_add_of_not_adds hadds, if_neg fun h => hadds h.2, Touch.on]
  | remove other =>
    rw [after, remove, touch, Table.get?_erase]
    by_cases hname : name = other
    · rw [if_pos hname, if_pos hname.symm, Touch.on]
    · rw [if_neg hname, if_neg (Ne.symm hname), Touch.on]

/-- A call sets the account of a name exactly if it adds it. -/
theorem touch_eq_sets_iff {name : String} {accounts : Accounts} {c : Call} {account : Account} :
    touch name accounts c = .sets account ↔
      c = .add name account ∧ accounts.Adds name account := by
  cases c with
  | add other added =>
    rw [touch, Call.add.injEq]
    by_cases h : other = name ∧ accounts.Adds other added
    · obtain ⟨rfl, hadds⟩ := h
      rw [if_pos ⟨rfl, hadds⟩, Touch.sets.injEq]
      exact ⟨fun heq => ⟨⟨rfl, heq⟩, heq ▸ hadds⟩, fun h => h.1.2⟩
    · rw [if_neg h]
      refine iff_of_false nofun fun ⟨⟨hname, hadded⟩, hadds⟩ => h ⟨hname, ?_⟩
      rwa [hname, hadded]
  | remove other =>
    rw [touch]
    refine iff_of_false ?_ nofun
    by_cases hname : other = name
    · rw [if_pos hname]
      exact nofun
    · rw [if_neg hname]
      exact nofun

/-- A call leaves the account of a name exactly if it neither removes nor adds one. -/
theorem touch_eq_leaves_iff {name : String} {accounts : Accounts} {c : Call} :
    touch name accounts c = .leaves ↔
      c ≠ .remove name ∧ ∀ account, c = .add name account → ¬accounts.Adds name account := by
  cases c with
  | add other added =>
    rw [touch]
    by_cases h : other = name ∧ accounts.Adds other added
    · obtain ⟨rfl, hadds⟩ := h
      rw [if_pos ⟨rfl, hadds⟩]
      exact iff_of_false nofun fun hnot => hnot.2 added rfl hadds
    · rw [if_neg h]
      refine iff_of_true rfl ⟨nofun, fun account hcall hadds => h ?_⟩
      obtain ⟨rfl, rfl⟩ := Call.add.inj hcall
      exact ⟨rfl, hadds⟩
  | remove other =>
    rw [touch]
    by_cases hname : other = name
    · rw [if_pos hname, hname]
      exact iff_of_false nofun fun hnot => hnot.1 rfl
    · rw [if_neg hname]
      exact iff_of_true rfl ⟨fun heq => hname (Call.remove.inj heq), nofun⟩

/-- The last account that was added under a name. -/
structure LastAdded (name : String) (account : Account) (before later : List Call) : Prop where
  /-- It was added after the calls before it. -/
  added : (run before).Adds name account
  /-- No other one of the name was added later. -/
  last : ∀ between other rest, later = between ++ .add name other :: rest →
    ¬(run (before ++ .add name account :: between)).Adds name other

/-- A name is held by the account that was added last under it, if it has not been
removed since. -/
def Holds (calls : List Call) (name : String) (account : Account) : Prop :=
  ∃ before later, calls = before ++ .add name account :: later ∧
    LastAdded name account before later ∧ .remove name ∉ later

/-- Calls leave the account of a name exactly if they neither remove it nor add another. -/
theorem untouched_iff {name : String} {accounts : Accounts} {calls : List Call} :
    Touch.Untouched after (touch name) accounts calls ↔
      .remove name ∉ calls ∧ ∀ between other rest, calls = between ++ .add name other :: rest →
        ¬(between.foldl after accounts).Adds name other := by
  constructor
  · intro h
    refine ⟨fun hmem => ?_, fun between other rest hsplit => ?_⟩
    · obtain ⟨between, rest, hsplit⟩ := List.append_of_mem hmem
      exact (touch_eq_leaves_iff.mp (h _ _ _ hsplit)).1 rfl
    · exact (touch_eq_leaves_iff.mp (h _ _ _ hsplit)).2 other rfl
  · rintro ⟨hremove, hadd⟩ between c rest rfl
    refine touch_eq_leaves_iff.mpr ⟨?_, ?_⟩
    · rintro rfl
      exact hremove (List.mem_append_right _ List.mem_cons_self)
    · rintro other rfl
      exact hadd between other rest rfl

/-- The accounts are those by which their names are held. -/
theorem get?_run_iff {calls : List Call} {name : String} {account : Account} :
    (run calls).get? name = some account ↔ Holds calls name account := by
  have hrun := Touch.run_eq_some_iff (fun accounts : Accounts => accounts.get? name)
    (I := fun _ => True) (fun _ _ h => h) (fun accounts c _ => get?_after name accounts c)
    (s := Table.empty) trivial calls account
  refine hrun.trans ?_
  constructor
  · rintro (⟨hnone, -⟩ | ⟨before, c, later, hsplit, hsets, hlater⟩)
    · cases hnone
    · obtain ⟨rfl, hadds⟩ := touch_eq_sets_iff.mp hsets
      obtain ⟨hremove, hlast⟩ := untouched_iff.mp hlater
      refine ⟨before, later, hsplit, ⟨hadds, fun between other rest hrest => ?_⟩, hremove⟩
      have hnot := hlast between other rest hrest
      rwa [run, List.foldl_append]
  · rintro ⟨before, later, hsplit, ⟨hadds, hlast⟩, hremove⟩
    refine .inr ⟨before, _, later, hsplit, touch_eq_sets_iff.mpr ⟨rfl, hadds⟩, ?_⟩
    refine untouched_iff.mpr ⟨hremove, fun between other rest hrest => ?_⟩
    have hnot := hlast between other rest hrest
    rwa [run, List.foldl_append] at hnot

/-- A name that is held is not empty. -/
theorem Holds.ne_empty {calls : List Call} {name : String} {account : Account}
    (h : Holds calls name account) : name ≠ "" := by
  obtain ⟨before, later, -, hlast, -⟩ := h
  exact (adds_iff.mp hlast.added).1

end Accounts

namespace AccountConfig

/-- The call that adds an account of a configuration. -/
def call (c : AccountConfig) : Accounts.Call := .add c.name ⟨c.password, c.privileges⟩

/-- Accounts that can be added one after another: no name is empty, and none occurs
twice. -/
structure Proper (configs : List AccountConfig) : Prop where
  /-- The names are not empty. -/
  ne_empty : ∀ c ∈ configs, c.name ≠ ""
  /-- The names are distinct. -/
  distinct : (configs.map (·.name)).Nodup

/-- Why an account cannot be added after others. -/
def Offends (before : List AccountConfig) (c : AccountConfig) (e : AccountError) : Prop :=
  (c.name = "" ∧ e = .emptyName) ∨
    (c.name ≠ "" ∧ c.name ∈ before.map (·.name) ∧ e = .alreadyExists c.name)

/-- Accounts and one more can be added if the accounts can and the one more does not
offend. -/
theorem proper_snoc {configs : List AccountConfig} {c : AccountConfig} :
    Proper (configs ++ [c]) ↔
      Proper configs ∧ c.name ≠ "" ∧ c.name ∉ configs.map (·.name) := by
  constructor
  · rintro ⟨hne, hdistinct⟩
    rw [List.map_append, List.nodup_append] at hdistinct
    refine ⟨⟨fun a ha => hne a (List.mem_append_left _ ha), hdistinct.1⟩, ?_, fun hmem => ?_⟩
    · exact hne c (List.mem_append_right _ List.mem_cons_self)
    · exact hdistinct.2.2 _ hmem _ List.mem_cons_self rfl
  · rintro ⟨⟨hne, hdistinct⟩, hname, hfree⟩
    refine ⟨fun a ha => ?_, ?_⟩
    · rcases List.mem_append.mp ha with ha | ha
      · exact hne a ha
      · exact List.mem_singleton.mp ha ▸ hname
    · rw [List.map_append, List.nodup_append]
      refine ⟨hdistinct, List.pairwise_singleton _ _, fun n hn m hm heq => hfree ?_⟩
      have hlast : m = c.name := List.mem_singleton.mp hm
      rwa [← hlast, ← heq]

/-- Accounts can be added, or there is a first one that cannot. -/
theorem proper_or_offends (configs : List AccountConfig) :
    Proper configs ∨ ∃ before c after e, configs = before ++ c :: after ∧ Proper before ∧
      Offends before c e := by
  induction configs using List.reverseRecOn with
  | nil => exact .inl ⟨nofun, .nil⟩
  | append_singleton configs c ih =>
    rcases ih with hproper | ⟨before, a, after, e, rfl, hproper, hoffends⟩
    · by_cases hempty : c.name = ""
      · exact .inr ⟨configs, c, [], _, rfl, hproper, .inl ⟨hempty, rfl⟩⟩
      · by_cases hmem : c.name ∈ configs.map (·.name)
        · exact .inr ⟨configs, c, [], _, rfl, hproper, .inr ⟨hempty, hmem, rfl⟩⟩
        · exact .inl (proper_snoc.mpr ⟨hproper, hempty, hmem⟩)
    · refine .inr ⟨before, a, after ++ [c], e, ?_, hproper, hoffends⟩
      rw [List.append_assoc, List.cons_append]

end AccountConfig

namespace Accounts

open AccountConfig

/-- More accounts are added to those of a configuration. -/
theorem ofConfig_append {configs : List AccountConfig} {accounts : Accounts}
    (h : ofConfig configs = .ok accounts) (more : List AccountConfig) :
    ofConfig (configs ++ more) =
      more.foldlM (fun accounts a => accounts.add a.name a.password a.privileges) accounts := by
  rw [ofConfig, List.foldlM_append, ← ofConfig, h]
  rfl

/-- Accounts that can be added are added, and then their names are those that are held. -/
theorem ofConfig_of_proper {configs : List AccountConfig} (h : Proper configs) :
    ofConfig configs = .ok (run (configs.map AccountConfig.call)) ∧
      ∀ name, ((run (configs.map AccountConfig.call)).get? name).isSome = true ↔
        name ∈ configs.map (·.name) := by
  induction configs using List.reverseRecOn with
  | nil => exact ⟨rfl, fun name => iff_of_false nofun nofun⟩
  | append_singleton configs c ih =>
    obtain ⟨hproper, hname, hfree⟩ := proper_snoc.mp h
    obtain ⟨hloaded, hheld⟩ := ih hproper
    have hnone : (run (configs.map AccountConfig.call)).get? c.name = none :=
      Option.not_isSome_iff_eq_none.mp fun hsome => hfree ((hheld c.name).mp hsome)
    have hadd : (run (configs.map AccountConfig.call)).add c.name c.password c.privileges =
        .ok ((run (configs.map AccountConfig.call)).insert c.name ⟨c.password, c.privileges⟩) :=
      add_eq_ok_iff.mpr ⟨hname, hnone, rfl⟩
    have hrun : run ((configs ++ [c]).map AccountConfig.call) =
        (run (configs.map AccountConfig.call)).insert c.name ⟨c.password, c.privileges⟩ := by
      rw [List.map_append, run, List.foldl_append]
      exact after_add_of_adds ⟨_, hadd⟩
    refine ⟨?_, fun name => ?_⟩
    · rw [ofConfig_append hloaded, List.foldlM_cons, hadd, hrun]
      rfl
    · rw [hrun, Table.get?_insert, List.map_append, List.mem_append, List.map_singleton,
        List.mem_singleton]
      by_cases hlast : name = c.name
      · rw [if_pos hlast]
        exact iff_of_true rfl (.inr hlast)
      · rw [if_neg hlast, hheld name]
        exact (or_iff_left hlast).symm

/-- The first account that cannot be added ends it all. -/
theorem ofConfig_of_offends {before after : List AccountConfig} {c : AccountConfig}
    {e : AccountError} (h : Proper before) (hoffends : Offends before c e) :
    ofConfig (before ++ c :: after) = .error e := by
  obtain ⟨hloaded, hheld⟩ := ofConfig_of_proper h
  have hadd : (run (before.map AccountConfig.call)).add c.name c.password c.privileges =
      .error e := by
    rw [add_eq_error_iff, hheld c.name]
    exact hoffends
  rw [ofConfig_append hloaded, List.foldlM_cons, hadd]
  rfl

/-- What the accounts tell of the calls that led to them. -/
structure TellHistory (calls : List Call) : Prop where
  /-- An account is valid if its name is held by one of the password that has every bit
  that is required. -/
  validate_iff : ∀ name password required,
    (run calls).validate name password required = true ↔
      ∃ account, Holds calls name account ∧ account.password = password ∧
        ∀ i, required.HasBit i → account.privileges.HasBit i
  /-- An account is valid for two sets of privileges together if it is for each. -/
  validate_union : ∀ name password p q,
    (run calls).validate name password (p ||| q) =
      ((run calls).validate name password p && (run calls).validate name password q)
  /-- An account cannot be added exactly if its name is empty or held. -/
  add_error_iff : ∀ name password privileges e,
    (run calls).add name password privileges = .error e ↔
      (name = "" ∧ e = .emptyName) ∨
        ((∃ account, Holds calls name account) ∧ e = .alreadyExists name)
  /-- An account that cannot be added changes nothing. -/
  unchanged : ∀ name account e,
    (run calls).add name account.password account.privileges = .error e →
      run (calls ++ [.add name account]) = run calls

/-- How the accounts of a configuration are added. -/
structure AddedInOrder (configs : List AccountConfig) : Prop where
  /-- They all are exactly if no name is empty and none occurs twice. -/
  ok_iff : (∃ accounts, ofConfig configs = .ok accounts) ↔
    (∀ c ∈ configs, c.name ≠ "") ∧ (configs.map (·.name)).Nodup
  /-- Then they are the accounts after an add of each. -/
  loaded : ∀ accounts, ofConfig configs = .ok accounts →
    accounts = run (configs.map AccountConfig.call)
  /-- Otherwise the error is that of the first account that offends. -/
  error_iff : ∀ e, ofConfig configs = .error e ↔
    ∃ before c after, configs = before ++ c :: after ∧ Proper before ∧ Offends before c e

/-- The accounts tell their history. -/
theorem tellHistory (calls : List Call) : TellHistory calls where
  validate_iff name password required := by
    simp only [Accounts.validate_iff, get?_run_iff, Privileges.contains_iff_bits]
  validate_union name password p q := by
    rw [Bool.eq_iff_iff, Bool.and_eq_true]
    simp only [Accounts.validate_iff, Privileges.contains_union_iff]
    constructor
    · rintro ⟨account, hget, hpassword, hp, hq⟩
      exact ⟨⟨account, hget, hpassword, hp⟩, account, hget, hpassword, hq⟩
    · rintro ⟨⟨account, hget, hpassword, hp⟩, other, hother, -, hq⟩
      obtain rfl := Option.some.inj (hget.symm.trans hother)
      exact ⟨account, hget, hpassword, hp, hq⟩
  add_error_iff name password privileges e := by
    rw [add_eq_error_iff, Option.isSome_iff_exists]
    simp only [get?_run_iff]
    refine or_congr_right ⟨fun h => h.2, fun h => ⟨?_, h⟩⟩
    obtain ⟨⟨account, hholds⟩, -⟩ := h
    exact hholds.ne_empty
  unchanged name account e herror := by
    have hnot : ¬(run calls).Adds name account := fun ⟨more, hmore⟩ => by
      rw [herror] at hmore
      cases hmore
    rw [run, List.foldl_append]
    exact after_add_of_not_adds hnot

/-- The accounts of a configuration are added in order. -/
theorem addedInOrder (configs : List AccountConfig) : AddedInOrder configs where
  ok_iff := by
    constructor
    · rintro ⟨accounts, hok⟩
      rcases proper_or_offends configs with h | ⟨before, c, after, e, rfl, hproper, hoffends⟩
      · exact ⟨h.ne_empty, h.distinct⟩
      · rw [ofConfig_of_offends hproper hoffends] at hok
        cases hok
    · rintro ⟨hne, hdistinct⟩
      exact ⟨_, (ofConfig_of_proper ⟨hne, hdistinct⟩).1⟩
  loaded accounts hok := by
    rcases proper_or_offends configs with h | ⟨before, c, after, e, rfl, hproper, hoffends⟩
    · rw [(ofConfig_of_proper h).1] at hok
      exact (Except.ok.inj hok).symm
    · rw [ofConfig_of_offends hproper hoffends] at hok
      cases hok
  error_iff e := by
    constructor
    · intro herror
      rcases proper_or_offends configs with h | ⟨before, c, after, e', rfl, hproper, hoffends⟩
      · rw [(ofConfig_of_proper h).1] at herror
        cases herror
      · rw [ofConfig_of_offends hproper hoffends] at herror
        exact ⟨before, c, after, rfl, hproper, Except.error.inj herror ▸ hoffends⟩
    · rintro ⟨before, c, after, rfl, hproper, hoffends⟩
      exact ofConfig_of_offends hproper hoffends

/-- Which accounts are valid and which can be added is told by the calls that led to them,
and those of a configuration are added in order. -/
theorem told_by_calls (calls : List Call) (configs : List AccountConfig) :
    TellHistory calls ∧ AddedInOrder configs :=
  ⟨tellHistory calls, addedInOrder configs⟩

end Accounts

end RatingServer
