import RatingServer.Proofs.Json.Scanning

/-!
# What a document inherits from its parts

The reader of tokens builds a document out of the values that the tokens bring. So a
property that lists and records inherit from their parts holds of the whole document,
if it holds of these values. Where the text breaks off, the lists and records that are
open then are given up, and less may hold of what they make.
-/

namespace RatingServer.Json

open Decimal (Number)

/-- What holds of whole values, and what holds of the values of a text that breaks off,
as lists and records inherit it from their parts. -/
structure Inherited (P Q : Document → Prop) : Prop where
  /-- It holds of the null value. -/
  null : P .null
  /-- It holds of every truth value. -/
  bool : ∀ b, P (.bool b)
  /-- It holds of every text, whether it denotes something or not. -/
  str : ∀ s, P (.str s)
  /-- It holds of a list if it holds of the items. -/
  arr : ∀ {ds : List Document}, (∀ d ∈ ds, P d) → P (.arr ds true)
  /-- It holds of a record if it holds of the values of the members. -/
  obj : ∀ {ms : List (Option String × Document)}, (∀ m ∈ ms, P m.2) → P (.obj ms true)
  /-- Whole values may stand in a text that breaks off. -/
  of_whole : ∀ {d : Document}, P d → Q d
  /-- The text may break off at a value. -/
  broken : Q .broken
  /-- The text may break off in a list. -/
  arr_broken : ∀ {ds : List Document}, (∀ d ∈ ds, Q d) → Q (.arr ds false)
  /-- The text may break off in a record. -/
  obj_broken : ∀ {ms : List (Option String × Document)}, (∀ m ∈ ms, Q m.2) → Q (.obj ms false)

/-- What has been read of an open list or record has a property. -/
def Frame.Holds (P : Document → Prop) : Frame → Prop
  | .items read => ∀ d ∈ read, P d
  | .members read => ∀ m ∈ read, P m.2
  | .member read _ => ∀ m ∈ read, P m.2

/-- What has been read has one property as long as the text is well formed, and another one
when it has broken off or goes on. -/
def Reading.Holds (P Q : Document → Prop) : Reading → Prop
  | .inside _ fs => ∀ f ∈ fs, f.Holds P
  | .after d clean => Q d ∧ (clean = true → P d)

namespace Inherited

variable {P Q : Document → Prop} (h : Inherited P Q)
include h

/-- The document of open lists and records that are given up around a value. -/
theorem abandon {d : Document} (hd : Q d) {fs : List Frame} (hfs : ∀ f ∈ fs, f.Holds P) :
    Q (Json.abandon d fs) := by
  induction fs generalizing d with
  | nil => exact hd
  | cons f fs ih =>
    obtain ⟨hf, hrest⟩ := List.forall_mem_cons.mp hfs
    cases f with
    | items read =>
      refine ih (h.arr_broken fun x hx => ?_) hrest
      rcases List.mem_cons.mp (List.mem_reverse.mp hx) with rfl | hx
      · exact hd
      · exact h.of_whole (hf x hx)
    | members read =>
      exact ih (h.obj_broken fun m hm => h.of_whole (hf m (List.mem_reverse.mp hm))) hrest
    | member read key =>
      refine ih (h.obj_broken fun m hm => ?_) hrest
      rcases List.mem_cons.mp (List.mem_reverse.mp hm) with rfl | hm
      · exact hd
      · exact h.of_whole (hf m hm)

/-- The document of open lists and records that are given up after a value. -/
theorem giveUp {fs : List Frame} (hfs : ∀ f ∈ fs, f.Holds P) : Q (Json.giveUp fs) := by
  cases fs with
  | nil => exact h.broken
  | cons f fs =>
    obtain ⟨hf, hrest⟩ := List.forall_mem_cons.mp hfs
    cases f with
    | items read =>
      exact h.abandon (h.arr_broken fun d hd => h.of_whole (hf d (List.mem_reverse.mp hd))) hrest
    | members read =>
      exact h.abandon (h.obj_broken fun m hm => h.of_whole (hf m (List.mem_reverse.mp hm))) hrest
    | member read key =>
      refine h.abandon (h.obj_broken fun m hm => ?_) hrest
      rcases List.mem_cons.mp (List.mem_reverse.mp hm) with rfl | hm
      · exact h.broken
      · exact h.of_whole (hf m hm)

/-- A text that breaks off. -/
theorem after_giveUp {fs : List Frame} (hfs : ∀ f ∈ fs, f.Holds P) :
    (Reading.after (Json.giveUp fs) false).Holds P Q := ⟨h.giveUp hfs, nofun⟩

/-- A whole value is put in its place. -/
theorem deliver {d : Document} (hd : P d) {fs : List Frame} (hfs : ∀ f ∈ fs, f.Holds P) :
    (Json.deliver d fs).Holds P Q := by
  cases fs with
  | nil => exact ⟨h.of_whole hd, fun _ => hd⟩
  | cons f fs =>
    obtain ⟨hf, hrest⟩ := List.forall_mem_cons.mp hfs
    have hmore : ∀ g : Frame, g.Holds P → (Reading.inside .more (g :: fs)).Holds P Q :=
      fun g hg => List.forall_mem_cons.mpr ⟨hg, hrest⟩
    cases f with
    | items read => exact hmore (.items (d :: read)) (List.forall_mem_cons.mpr ⟨hd, hf⟩)
    | members read => exact hmore (.members read) hf
    | member read key =>
      exact hmore (.members ((key, d) :: read)) (List.forall_mem_cons.mpr ⟨hd, hf⟩)

/-- A whole list is put in its place. -/
theorem deliver_arr {read : List Document} {fs : List Frame}
    (hfs : ∀ f ∈ Frame.items read :: fs, f.Holds P) :
    (Json.deliver (.arr read.reverse true) fs).Holds P Q := by
  obtain ⟨hread, hrest⟩ := List.forall_mem_cons.mp hfs
  exact h.deliver (h.arr fun d hd => hread d (List.mem_reverse.mp hd)) hrest

/-- A whole record is put in its place. -/
theorem deliver_obj {read : List (Option String × Document)} {fs : List Frame}
    (hfs : ∀ f ∈ Frame.members read :: fs, f.Holds P) :
    (Json.deliver (.obj read.reverse true) fs).Holds P Q := by
  obtain ⟨hread, hrest⟩ := List.forall_mem_cons.mp hfs
  exact h.deliver (h.obj fun m hm => hread m (List.mem_reverse.mp hm)) hrest

/-- The first token of a value. -/
theorem takeValue {t : Token} (ht : ∀ n, t = .num n → P (.num n)) {fs : List Frame}
    (hfs : ∀ f ∈ fs, f.Holds P) : (Json.takeValue fs t).Holds P Q := by
  have hopen : ∀ f : Frame, f.Holds P → ∀ g ∈ f :: fs, g.Holds P :=
    fun f hf => List.forall_mem_cons.mpr ⟨hf, hfs⟩
  have hbreak : (Reading.after (Json.abandon .broken fs) false).Holds P Q :=
    ⟨h.abandon h.broken hfs, nofun⟩
  cases t with
  | null => exact h.deliver h.null hfs
  | bool b => exact h.deliver (h.bool b) hfs
  | str s => exact h.deliver (h.str s) hfs
  | num n => exact h.deliver (ht n rfl) hfs
  | openList => exact hopen (.items []) nofun
  | openRecord => exact hopen (.members []) nofun
  | closeList => exact hbreak
  | closeRecord => exact hbreak
  | colon => exact hbreak
  | comma => exact hbreak
  | broken => exact hbreak

/-- A token. -/
theorem step {r : Reading} (hr : r.Holds P Q) {t : Token} (ht : ∀ n, t = .num n → P (.num n)) :
    (r.step t).Holds P Q := by
  have hkey : ∀ {read : List (Option String × Document)} {fs : List Frame} (k : Option String),
      (∀ f ∈ Frame.members read :: fs, f.Holds P) →
        ∀ f ∈ Frame.member read k :: fs, f.Holds P := by
    intro read fs k hfs
    obtain ⟨hread, hrest⟩ := List.forall_mem_cons.mp hfs
    exact List.forall_mem_cons.mpr ⟨hread, hrest⟩
  unfold Reading.step
  split
  · exact ⟨hr.1, nofun⟩
  · exact h.takeValue ht hr
  · split
    · exact h.deliver_arr hr
    · exact h.takeValue ht hr
  · split
    · exact h.deliver_arr hr
    · exact hr
    · exact h.deliver_obj hr
    · exact hr
    · exact h.after_giveUp hr
  · split
    · exact h.deliver_obj hr
    · exact hkey _ hr
    · exact h.after_giveUp hr
  · split
    · exact hkey _ hr
    · exact h.after_giveUp hr
  · split
    · exact hr
    · exact h.after_giveUp hr

/-- The tokens of a text. -/
theorem foldl {r : Reading} (hr : r.Holds P Q) {ts : List Token}
    (hts : ∀ t ∈ ts, ∀ n, t = .num n → P (.num n)) : (ts.foldl Reading.step r).Holds P Q := by
  induction ts generalizing r with
  | nil => exact hr
  | cons t ts ih =>
    obtain ⟨ht, hrest⟩ := List.forall_mem_cons.mp hts
    exact ih (h.step hr ht) hrest

/-- The end of a text. -/
theorem finish {r : Reading} (hr : r.Holds P Q) :
    Q r.finish.1 ∧ (r.finish.2 = true → P r.finish.1) := by
  unfold Reading.finish
  split
  · exact hr
  · exact ⟨h.abandon h.broken hr, nofun⟩
  · exact ⟨h.giveUp hr, nofun⟩

/-- Of a document that is read of a text holds what holds of the numbers of the text, and
more if the text does not break off. -/
theorem parse {cs : List Char} (hcs : ∀ t ∈ tokensOf cs, ∀ n, t = .num n → P (.num n)) :
    Q (Document.parse cs).1 ∧ ((Document.parse cs).2 = true → P (Document.parse cs).1) := by
  have hstart : (Reading.inside .value []).Holds P Q := nofun
  rw [Document.parse_eq]
  exact h.finish (h.foldl hstart hcs)

end Inherited

end RatingServer.Json
