import RatingServer.Proofs.Endpoint.Parts
import RatingServer.Proofs.Table.Lookup
import RatingServer.Settings

/-!
# Settings laid over a configuration

Five settings have a name that is known. Each of them shows one value of a configuration and
can be laid over it, one after another and each where it belongs. So an overlay succeeds
exactly if every known setting reads as its type, what it leaves is told by the settings
alone, and the first setting that does not read is the error. Overlays one after the other
are one overlay by the settings of both, and what a configuration shows can be laid over any
other.
-/

namespace RatingServer

/-- The settings whose names are known. -/
inductive Setting where
  /-- The port of the service. -/
  | serverPort
  /-- Seconds between two runs of the periodic tasks. -/
  | tasksPeriod
  /-- Seconds after which an idle session ends. -/
  | timeout
  /-- The port of the control socket. -/
  | controlPort
  /-- Whether clients must ask for the status. -/
  | pullMode
  deriving DecidableEq

namespace Setting

/-- All known settings, in the order in which they are laid over a configuration. -/
def all : List Setting := [serverPort, tasksPeriod, timeout, controlPort, pullMode]

/-- The name of a setting. -/
def key : Setting → String
  | serverPort => "server_port"
  | tasksPeriod => "server_tasks_period"
  | timeout => "server_timeout"
  | controlPort => "socket_control_port"
  | pullMode => "pull_mode_required"

/-- The values of a setting. -/
def Value : Setting → Type
  | serverPort | controlPort => UInt16
  | tasksPeriod | timeout => UInt64
  | pullMode => Bool

/-- The texts of a value: a number has numerals, a truth value has one word. -/
def Spells : (k : Setting) → String → k.Value → Prop
  | serverPort, text, n | controlPort, text, n => Text.Numeral text.toList (UInt16.toNat n)
  | tasksPeriod, text, n | timeout, text, n => Text.Numeral text.toList (UInt64.toNat n)
  | pullMode, text, b => text = ServerConfig.truthText b

/-- The value that a text is read as. -/
def read? : (k : Setting) → String → Option k.Value
  | serverPort | controlPort => ServerConfig.readWord 16 UInt16.ofNat
  | tasksPeriod | timeout => ServerConfig.readWord 64 UInt64.ofNat
  | pullMode => Text.truth?

/-- The text that is written for a value. -/
def text : (k : Setting) → k.Value → String
  | serverPort, n | controlPort, n => (UInt16.toNat n).repr
  | tasksPeriod, n | timeout, n => (UInt64.toNat n).repr
  | pullMode, b => ServerConfig.truthText b

/-- The value in a configuration. -/
def get : (k : Setting) → ServerConfig → k.Value
  | serverPort, c => c.ports.server
  | tasksPeriod, c => c.tasksPeriod
  | timeout, c => c.timeout
  | controlPort, c => c.ports.socketControl
  | pullMode, c => c.pullModeRequired

/-- The configuration with another value. -/
def put : (k : Setting) → k.Value → ServerConfig → ServerConfig
  | serverPort, n, c => { c with ports := { c.ports with server := n } }
  | tasksPeriod, n, c => { c with tasksPeriod := n }
  | timeout, n, c => { c with timeout := n }
  | controlPort, n, c => { c with ports := { c.ports with socketControl := n } }
  | pullMode, b, c => { c with pullModeRequired := b }

/-- A word of some bits is read exactly from a numeral of it. -/
theorem readWord_eq_some_iff {α : Type} {bits : Nat} {ofNat : Nat → α} {toNat : α → Nat}
    (hofNat : ∀ a, ofNat (toNat a) = a) (hlt : ∀ a, toNat a < Nat.pow 2 bits)
    (htoNat : ∀ n < Nat.pow 2 bits, toNat (ofNat n) = n) {text : String} {a : α} :
    ServerConfig.readWord bits ofNat text = some a ↔ Text.Numeral text.toList (toNat a) := by
  rw [ServerConfig.readWord, Option.map_eq_some_iff]
  simp only [Text.naturalBelow?_eq_some_iff]
  constructor
  · rintro ⟨n, ⟨hnumeral, hbound⟩, rfl⟩
    rwa [htoNat n hbound]
  · exact fun hnumeral => ⟨toNat a, ⟨hnumeral, hlt a⟩, hofNat a⟩

/-- A truth value is read exactly from its word. -/
theorem truth?_eq_some_iff {text : String} {b : Bool} :
    Text.truth? text = some b ↔ text = ServerConfig.truthText b := by
  unfold Text.truth? ServerConfig.truthText
  split <;> cases b <;> simp_all

/-- A value is read exactly from its texts. -/
theorem read?_eq_some_iff {k : Setting} {text : String} {v : k.Value} :
    k.read? text = some v ↔ k.Spells text v := by
  cases k with
  | serverPort | controlPort =>
    exact readWord_eq_some_iff (fun _ => UInt16.ofNat_toNat) UInt16.toNat_lt
      fun n hn => UInt16.toNat_ofNat_of_lt' hn
  | tasksPeriod | timeout =>
    exact readWord_eq_some_iff (fun _ => UInt64.ofNat_toNat) UInt64.toNat_lt
      fun n hn => UInt64.toNat_ofNat_of_lt' hn
  | pullMode => exact truth?_eq_some_iff

/-- A value is written as one of its texts. -/
theorem spells_text (k : Setting) (v : k.Value) : k.Spells (k.text v) v := by
  cases k with
  | serverPort | controlPort | tasksPeriod | timeout => exact Text.numeral_repr _
  | pullMode => rfl

/-- A setting that is absent or reads as its type. -/
def Fits (s : Settings) (k : Setting) : Prop :=
  ∀ text, s.get? k.key = some text → ∃ v, k.Spells text v

/-- The value that settings give, if they give one. -/
def given? (s : Settings) (k : Setting) : Option k.Value := (s.get? k.key).bind k.read?

/-- The value that is given by a text of it. -/
theorem given?_of_spells {s : Settings} {k : Setting} {text : String} {v : k.Value}
    (htext : s.get? k.key = some text) (hv : k.Spells text v) : k.given? s = some v := by
  rw [given?, htext, Option.bind_some, read?_eq_some_iff.mpr hv]

/-- No value is given by settings without the name. -/
theorem given?_of_absent {s : Settings} {k : Setting} (h : s.get? k.key = none) :
    k.given? s = none := by
  rw [given?, h, Option.bind_none]

/-- Lays one setting over a configuration. -/
def lay (s : Settings) (c : ServerConfig) (k : Setting) :
    Except InvalidSetting ServerConfig := do
  let v ← ServerConfig.setting s k.key k.read?
  return k.put (v.getD (k.get c)) c

/-- The configuration with the value of a setting, if one is given. -/
def putGiven (s : Settings) (c : ServerConfig) (k : Setting) : ServerConfig :=
  k.put ((k.given? s).getD (k.get c)) c

/-- A setting that is absent or reads is put. -/
theorem lay_of_fits {s : Settings} {k : Setting} (h : k.Fits s) (c : ServerConfig) :
    lay s c k = .ok (putGiven s c k) := by
  rw [lay, putGiven, ServerConfig.setting]
  cases htext : s.get? k.key with
  | none =>
    rw [given?_of_absent htext]
    rfl
  | some text =>
    obtain ⟨v, hv⟩ := h text htext
    dsimp only
    rw [given?_of_spells htext hv, read?_eq_some_iff.mpr hv]
    rfl

/-- A setting does not read as its type, as an error tells. -/
structure Misfit (s : Settings) (k : Setting) (e : InvalidSetting) : Prop where
  /-- The error carries its name. -/
  key_eq : e.key = k.key
  /-- The error carries its text. -/
  text_eq : s.get? k.key = some e.value
  /-- The text is none of a value. -/
  unread : ∀ v, ¬k.Spells e.value v

/-- A setting that does not fit is told by one error. -/
theorem exists_misfit {s : Settings} {k : Setting} (h : ¬k.Fits s) : ∃ e, k.Misfit s e := by
  obtain ⟨text, hnot⟩ := Classical.not_forall.mp h
  obtain ⟨htext, hunread⟩ := Classical.not_imp.mp hnot
  exact ⟨⟨k.key, text⟩, rfl, htext, not_exists.mp hunread⟩

/-- A setting that does not read is an error. -/
theorem lay_of_misfit {s : Settings} {k : Setting} {e : InvalidSetting} (h : k.Misfit s e)
    (c : ServerConfig) : lay s c k = .error e := by
  have hread : k.read? e.value = none :=
    Option.eq_none_iff_forall_ne_some.mpr fun v hv => h.unread v (read?_eq_some_iff.mp hv)
  rw [lay, ServerConfig.setting, h.text_eq]
  dsimp only
  rw [hread, ← h.key_eq]
  rfl

/-- The first of some settings that does not read, as an error tells. -/
def FirstMisfit (s : Settings) (ks : List Setting) (e : InvalidSetting) : Prop :=
  ∃ before k after, ks = before ++ k :: after ∧ (∀ j ∈ before, j.Fits s) ∧ k.Misfit s e

/-- Settings that all fit are put. -/
theorem foldlM_lay_of_fits {s : Settings} {ks : List Setting} (h : ∀ k ∈ ks, k.Fits s)
    (c : ServerConfig) : ks.foldlM (lay s) c = .ok (ks.foldl (putGiven s) c) := by
  induction ks generalizing c with
  | nil => rfl
  | cons k ks ih =>
    obtain ⟨hk, hks⟩ := List.forall_mem_cons.mp h
    rw [List.foldlM_cons, lay_of_fits hk]
    exact ih hks _

/-- The first setting that does not read is the error. -/
theorem FirstMisfit.foldlM_lay {s : Settings} {ks : List Setting} {e : InvalidSetting}
    (h : FirstMisfit s ks e) (c : ServerConfig) : ks.foldlM (lay s) c = .error e := by
  obtain ⟨before, k, after, rfl, hbefore, hk⟩ := h
  rw [List.foldlM_append, foldlM_lay_of_fits hbefore]
  show (k :: after).foldlM (lay s) (before.foldl (putGiven s) c) = .error e
  rw [List.foldlM_cons, lay_of_misfit hk]
  rfl

/-- If not all settings fit, there is a first one that does not read. -/
theorem exists_firstMisfit {s : Settings} {ks : List Setting} (h : ¬∀ k ∈ ks, k.Fits s) :
    ∃ e, FirstMisfit s ks e := by
  induction ks with
  | nil => exact absurd nofun h
  | cons k ks ih =>
    by_cases hk : k.Fits s
    · have hks : ¬∀ k ∈ ks, k.Fits s := fun hall => h (List.forall_mem_cons.mpr ⟨hk, hall⟩)
      obtain ⟨e, before, j, after, rfl, hbefore, hj⟩ := ih hks
      exact ⟨e, k :: before, j, after, rfl, List.forall_mem_cons.mpr ⟨hk, hbefore⟩, hj⟩
    · obtain ⟨e, he⟩ := exists_misfit hk
      exact ⟨e, [], k, ks, rfl, nofun, he⟩

/-- The known settings are all of them. -/
theorem mem_all (k : Setting) : k ∈ Setting.all := by
  cases k <;> decide

/-- Each value of the known settings is put where it belongs. -/
theorem get_putAll (s : Settings) (c : ServerConfig) (k : Setting) :
    k.get (Setting.all.foldl (putGiven s) c) = (k.given? s).getD (k.get c) := by
  cases k <;> rfl

end Setting

namespace ServerConfig

open Setting

/-- The configuration with the shown values of another one. -/
def withShown (c d : ServerConfig) : ServerConfig :=
  { c with
    ports := { c.ports with server := d.ports.server, socketControl := d.ports.socketControl }
    tasksPeriod := d.tasksPeriod
    timeout := d.timeout
    pullModeRequired := d.pullModeRequired }

/-- The shown values are those of the other configuration. -/
theorem get_withShown (c d : ServerConfig) (k : Setting) : k.get (c.withShown d) = k.get d := by
  cases k <;> rfl

/-- Only the shown values of the other configuration count. -/
theorem withShown_congr (c : ServerConfig) {d d' : ServerConfig}
    (h : ∀ k : Setting, k.get d = k.get d') : c.withShown d = c.withShown d' := by
  have hserver : d.ports.server = d'.ports.server := h .serverPort
  have hperiod : d.tasksPeriod = d'.tasksPeriod := h .tasksPeriod
  have htimeout : d.timeout = d'.timeout := h .timeout
  have hcontrol : d.ports.socketControl = d'.ports.socketControl := h .controlPort
  have hpull : d.pullModeRequired = d'.pullModeRequired := h .pullMode
  rw [withShown, hserver, hperiod, htimeout, hcontrol, hpull]
  rfl

/-- An overlay lays the known settings over a configuration, in their order. -/
theorem overlay_eq_foldlM (c : ServerConfig) (s : Settings) :
    c.overlay s = Setting.all.foldlM (lay s) c := by
  simp only [overlay, Setting.all, List.foldlM_cons, List.foldlM_nil, lay, bind_assoc, pure_bind]
  rfl

/-- What an overlay by some settings leaves. -/
structure Overlaid (c : ServerConfig) (s : Settings) (c' : ServerConfig) : Prop where
  /-- A setting that is there has the value of its text. -/
  set : ∀ (k : Setting) text, s.get? k.key = some text → k.Spells text (k.get c')
  /-- A setting that is not there has its value from before. -/
  kept : ∀ k : Setting, s.get? k.key = none → k.get c' = k.get c
  /-- What settings do not show is from before. -/
  others : c' = c.withShown c'

/-- What is left by an overlay shows that all settings fit. -/
theorem Overlaid.fits {c c' : ServerConfig} {s : Settings} (h : c.Overlaid s c') (k : Setting) :
    k.Fits s := fun text htext => ⟨k.get c', h.set k text htext⟩

/-- The settings tell what an overlay leaves. -/
theorem Overlaid.unique {c c₁ c₂ : ServerConfig} {s : Settings} (h₁ : c.Overlaid s c₁)
    (h₂ : c.Overlaid s c₂) : c₁ = c₂ := by
  have hget (k : Setting) : k.get c₁ = k.get c₂ := by
    cases htext : s.get? k.key with
    | none => rw [h₁.kept k htext, h₂.kept k htext]
    | some text =>
      have hread := read?_eq_some_iff.mpr (h₁.set k text htext)
      rw [read?_eq_some_iff.mpr (h₂.set k text htext)] at hread
      exact (Option.some.inj hread).symm
  rw [h₁.others, h₂.others, withShown_congr c hget]

/-- All settings that are there, put where they belong. -/
theorem overlaid_putAll {c : ServerConfig} {s : Settings} (h : ∀ k : Setting, k.Fits s) :
    c.Overlaid s (Setting.all.foldl (putGiven s) c) where
  set k text htext := by
    obtain ⟨v, hv⟩ := h k text htext
    rw [get_putAll, given?_of_spells htext hv]
    exact hv
  kept k habsent := by
    rw [get_putAll, given?_of_absent habsent]
    rfl
  others := rfl

/-- An overlay by settings that all fit puts them where they belong. -/
theorem overlay_of_fits {s : Settings} (h : ∀ k : Setting, k.Fits s) (c : ServerConfig) :
    ∃ c', c.overlay s = .ok c' ∧ c.Overlaid s c' := by
  rw [overlay_eq_foldlM]
  exact ⟨_, foldlM_lay_of_fits (fun k _ => h k) c, overlaid_putAll h⟩

/-- An overlay leaves a configuration exactly if the settings tell that it does. -/
theorem overlay_eq_ok_iff {c c' : ServerConfig} {s : Settings} :
    c.overlay s = .ok c' ↔ c.Overlaid s c' := by
  by_cases h : ∀ k : Setting, k.Fits s
  · obtain ⟨d, hok, hd⟩ := overlay_of_fits h c
    rw [hok, Except.ok.injEq]
    exact ⟨fun heq => heq ▸ hd, hd.unique⟩
  · obtain ⟨e, he⟩ := exists_firstMisfit fun hall => h fun k => hall k k.mem_all
    rw [overlay_eq_foldlM, he.foldlM_lay]
    exact ⟨nofun, fun hc => absurd hc.fits h⟩

/-- An overlay fails exactly with the first setting that does not read. -/
theorem overlay_eq_error_iff {c : ServerConfig} {s : Settings} {e : InvalidSetting} :
    c.overlay s = .error e ↔ FirstMisfit s Setting.all e := by
  constructor
  · intro herror
    by_cases h : ∀ k : Setting, k.Fits s
    · obtain ⟨d, hok, -⟩ := overlay_of_fits h c
      rw [hok] at herror
      cases herror
    · obtain ⟨e', he'⟩ := exists_firstMisfit fun hall => h fun k => hall k k.mem_all
      rw [overlay_eq_foldlM, he'.foldlM_lay, Except.error.injEq] at herror
      exact herror ▸ he'
  · intro h
    rw [overlay_eq_foldlM]
    exact h.foldlM_lay c

/-- Settings that are laid over what others left are laid over it with them, and win. -/
theorem Overlaid.union {c c₁ c₂ : ServerConfig} {s₁ s₂ : Settings} (h₁ : c.Overlaid s₁ c₁)
    (h₂ : c₁.Overlaid s₂ c₂) : c.Overlaid (s₁.union s₂) c₂ where
  set k text htext := by
    rw [Table.get?_union] at htext
    cases hsecond : s₂.get? k.key with
    | none =>
      rw [hsecond, Option.none_or] at htext
      rw [h₂.kept k hsecond]
      exact h₁.set k text htext
    | some text₂ =>
      rw [hsecond, Option.some_or, Option.some.injEq] at htext
      exact htext ▸ h₂.set k text₂ hsecond
  kept k habsent := by
    rw [Table.get?_union, Option.or_eq_none_iff] at habsent
    rw [h₂.kept k habsent.1, h₁.kept k habsent.2]
  others := by
    rw [h₂.others, h₁.others]
    rfl

/-- The settings that a configuration shows are the texts of its values. -/
theorem get?_toSettings (d : ServerConfig) (k : Setting) :
    d.toSettings.get? k.key = some (k.text (k.get d)) := by
  have hentries : d.toSettings = .ofList (Setting.all.map fun k => (k.key, k.text (k.get d))) := rfl
  have hdistinct : ((Setting.all.map fun k => (k.key, k.text (k.get d))).map (·.1)).Nodup :=
    show (Setting.all.map key).Nodup by decide
  rw [hentries, Table.get?_ofList_eq_some_iff hdistinct]
  exact List.mem_map_of_mem k.mem_all

/-- What a configuration shows can be laid over any other one. -/
theorem overlaid_toSettings (c d : ServerConfig) : c.Overlaid d.toSettings (c.withShown d) where
  set k text htext := by
    rw [get?_toSettings, Option.some.injEq] at htext
    rw [get_withShown, ← htext]
    exact k.spells_text (k.get d)
  kept k habsent := by
    rw [get?_toSettings] at habsent
    cases habsent
  others := rfl

/-- The laws of settings that are laid over a configuration. -/
structure OverlayLaws (c : ServerConfig) : Prop where
  /-- An overlay succeeds exactly if every known setting that is there reads as its type. -/
  succeeds : ∀ s, (∃ c', c.overlay s = .ok c') ↔
    ∀ (k : Setting) text, s.get? k.key = some text → ∃ v, k.Spells text v
  /-- It sets each known setting that is there and nothing else. -/
  overlaid : ∀ s c', c.overlay s = .ok c' ↔ c.Overlaid s c'
  /-- Otherwise the error carries the name and the text of the first setting, in the order
  of all of them, that does not read. -/
  fails : ∀ s e, c.overlay s = .error e ↔ FirstMisfit s Setting.all e
  /-- Settings of other names count for nothing. -/
  unknown : ∀ s s', (∀ k : Setting, s.get? k.key = s'.get? k.key) → c.overlay s = c.overlay s'
  /-- Two overlays, one after the other, are one by the settings of both, in which the
  later ones win. -/
  twice : ∀ s₁ s₂ c₁ c₂, c.overlay s₁ = .ok c₁ → c₁.overlay s₂ = .ok c₂ →
    c.overlay (s₁.union s₂) = .ok c₂
  /-- What another configuration shows can be laid over this one, which then shows the same
  and keeps the rest. -/
  exported : ∀ d : ServerConfig, c.overlay d.toSettings = .ok (c.withShown d) ∧
    (c.withShown d).toSettings = d.toSettings

/-- Settings are laid over every configuration by these laws. -/
theorem overlay_laws (c : ServerConfig) : c.OverlayLaws where
  succeeds s := by
    constructor
    · rintro ⟨c', hok⟩
      exact (overlay_eq_ok_iff.mp hok).fits
    · exact fun h => ⟨_, overlay_eq_ok_iff.mpr (overlaid_putAll h)⟩
  overlaid s c' := overlay_eq_ok_iff
  fails s e := overlay_eq_error_iff
  unknown s s' h := by
    have hlay : lay s = lay s' := by
      funext c k
      rw [lay, lay, setting, setting, h k]
    rw [overlay_eq_foldlM, overlay_eq_foldlM, hlay]
  twice s₁ s₂ c₁ c₂ h₁ h₂ :=
    overlay_eq_ok_iff.mpr ((overlay_eq_ok_iff.mp h₁).union (overlay_eq_ok_iff.mp h₂))
  exported d := ⟨overlay_eq_ok_iff.mpr (overlaid_toSettings c d), rfl⟩

end ServerConfig

end RatingServer
