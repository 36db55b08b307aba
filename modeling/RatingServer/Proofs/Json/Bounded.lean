import RatingServer.Proofs.Decimal.Finite
import RatingServer.Proofs.Json.Building
import RatingServer.Proofs.Json.Parts

/-!
# The numbers of a read document are finite

A number comes into a document from a literal only, and the number of a literal is
finite. The machine and the reader of tokens pass numbers on as they are, whether
the text is well formed or breaks off.
-/

namespace RatingServer.Json

open Decimal (Number Literal)

/-- A number that the token brings is finite. -/
def Token.Finite (t : Token) : Prop := ∀ n, t = .num (some n) → n.toDouble.isFinite = true

/-- A word that the machine is inside of stands for such a token. -/
def Scan.Finite : Scan → Prop
  | .word _ t => t.Finite
  | _ => True

/-- The number of a literal as a token. -/
theorem finite_number (l : Literal) : (Token.num l.number?).Finite := by
  intro n hn
  rw [Token.num.injEq] at hn
  exact l.isFinite_number? hn

/-- What begins between tokens brings no number. -/
theorem finite_begin (c : Char) : (∀ t ∈ (begin c).1, t.Finite) ∧ (begin c).2.Finite := by
  have hnone : ∀ t ∈ ([] : List Token), t.Finite := fun t ht => by cases ht
  have hmark : ∀ u : Token, u.isNumber = false → ∀ t ∈ [u], t.Finite := by
    intro u hu t ht n hn
    rw [List.mem_singleton.mp ht] at hn
    rw [hn] at hu
    cases hu
  have hword : ∀ u : Token, u.isNumber = false → u.Finite := fun u hu =>
    hmark u hu u (List.mem_singleton.mpr rfl)
  unfold begin
  split
  · exact ⟨hnone, trivial⟩
  · split
    · exact ⟨hmark _ rfl, trivial⟩
    · exact ⟨hmark _ rfl, trivial⟩
    · exact ⟨hmark _ rfl, trivial⟩
    · exact ⟨hmark _ rfl, trivial⟩
    · exact ⟨hmark _ rfl, trivial⟩
    · exact ⟨hmark _ rfl, trivial⟩
    · exact ⟨hnone, trivial⟩
    · exact ⟨hnone, hword _ rfl⟩
    · exact ⟨hnone, hword _ rfl⟩
    · exact ⟨hnone, hword _ rfl⟩
    · exact ⟨hnone, trivial⟩
    · exact ⟨hnone, trivial⟩
    · split
      · exact ⟨hnone, trivial⟩
      · exact ⟨hmark _ rfl, trivial⟩

/-- A step of the machine brings finite numbers only. -/
theorem finite_step {s : Scan} (hs : s.Finite) (c : Char) :
    (∀ t ∈ (s.step c).1, t.Finite) ∧ (s.step c).2.Finite := by
  have hnone : ∀ t ∈ ([] : List Token), t.Finite := fun t ht => by cases ht
  have hbroken : (∀ t ∈ broken.1, t.Finite) ∧ broken.2.Finite := by
    refine ⟨fun t ht n hn => ?_, trivial⟩
    rw [List.mem_singleton.mp ht] at hn
    cases hn
  unfold Scan.step
  split
  case h_1 => exact finite_begin c
  case h_2 rest token =>
    split
    · exact hbroken
    · split
      · exact ⟨fun t ht => by rw [List.mem_singleton.mp ht]; exact hs, trivial⟩
      · exact hbroken
    · split
      · exact ⟨hnone, hs⟩
      · exact hbroken
  case h_3 phase l =>
    split
    · exact ⟨hnone, trivial⟩
    · split
      · exact hbroken
      · refine ⟨fun t ht => ?_, (finite_begin c).2⟩
        rcases List.mem_cons.mp ht with rfl | ht
        · exact finite_number l
        · exact (finite_begin c).1 t ht
  case h_4 read =>
    split
    · refine ⟨fun t ht n hn => ?_, trivial⟩
      rw [List.mem_singleton.mp ht] at hn
      cases hn
    · split
      · exact ⟨hnone, trivial⟩
      · split
        · exact hbroken
        · exact ⟨hnone, trivial⟩
  case h_5 read =>
    split
    · exact ⟨hnone, trivial⟩
    · split
      · exact ⟨hnone, trivial⟩
      · exact hbroken
  case h_6 read left value =>
    split
    · exact hbroken
    · split
      · exact ⟨hnone, trivial⟩
      · exact ⟨hnone, trivial⟩
  case h_7 => exact ⟨hnone, trivial⟩

/-- A run of the machine brings finite numbers only. -/
theorem finite_run {s : Scan} (hs : s.Finite) (cs : List Char) :
    (∀ t ∈ (s.run cs).1, t.Finite) ∧ (s.run cs).2.Finite := by
  induction cs generalizing s with
  | nil => exact ⟨(fun t ht => by cases ht), hs⟩
  | cons c cs ih =>
    have hstep := finite_step hs c
    have hrest := ih hstep.2
    rw [Scan.run_cons]
    exact ⟨fun t ht => (List.mem_append.mp ht).elim (hstep.1 t) (hrest.1 t), hrest.2⟩

/-- All tokens of a text bring finite numbers only. -/
theorem finite_tokensOf (cs : List Char) : ∀ t ∈ tokensOf cs, t.Finite := by
  have hrun := finite_run (s := .gap) trivial cs
  intro t ht
  rcases List.mem_append.mp ht with ht | ht
  · exact hrun.1 t ht
  · unfold Scan.finish at ht
    split at ht
    · cases ht
    · cases ht
    · split at ht
      · rw [List.mem_singleton.mp ht]
        exact finite_number _
      · intro n hn
        rw [List.mem_singleton.mp ht] at hn
        cases hn
    all_goals
      intro n hn
      rw [List.mem_singleton.mp ht] at hn
      cases hn

/-- Every number of the document is finite. -/
def Document.Finite (d : Document) : Prop := ∀ n ∈ d.numbers, n.toDouble.isFinite = true

/-- A list has the numbers of its items. -/
theorem Document.finite_arr {ds : List Document} {whole : Bool} (h : ∀ d ∈ ds, d.Finite) :
    (Document.arr ds whole).Finite := by
  intro n hn
  rw [numbers, toJson, Json.mem_numbers_arr, itemsToJson_eq] at hn
  obtain ⟨j, hj, hn⟩ := hn
  obtain ⟨d, hd, rfl⟩ := List.mem_map.mp hj
  exact h d hd n hn

/-- A record has the numbers of the values of its members. -/
theorem Document.finite_obj {ms : List (Option String × Document)} {whole : Bool}
    (h : ∀ m ∈ ms, m.2.Finite) : (Document.obj ms whole).Finite := by
  intro n hn
  rw [numbers, toJson, Json.mem_numbers_obj, membersToJson_eq] at hn
  obtain ⟨e, he, hn⟩ := hn
  obtain ⟨m, hm, rfl⟩ := List.mem_map.mp he
  exact h m hm n hn

/-- A list or record of finite numbers is made of parts with finite numbers. -/
theorem Document.inherited_finite : Inherited Document.Finite Document.Finite where
  null := nofun
  bool _ := nofun
  str s := by cases s <;> exact nofun
  arr := finite_arr
  obj := finite_obj
  of_whole := id
  broken := nofun
  arr_broken := finite_arr
  obj_broken := finite_obj

/-- Every number of a document that was read of a text is finite. -/
theorem Document.finite_parse (cs : List Char) : (Document.parse cs).1.Finite := by
  refine (inherited_finite.parse fun t ht n htoken m hm => ?_).1
  cases n with
  | none => cases hm
  | some n =>
    rw [List.mem_singleton.mp hm]
    exact finite_tokensOf cs t ht n htoken

end RatingServer.Json
