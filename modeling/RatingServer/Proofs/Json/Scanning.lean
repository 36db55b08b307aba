import RatingServer.Json.Document
import RatingServer.Json.Basic

/-!
# Runs of the token machine

A run of the machine over some characters gives the tokens that they complete and
the place where the machine stands after them. Only a number can still be open at
the end of a value, and the next mark completes it; so the tokens of a text are
put together from those of its parts.
-/

namespace RatingServer.Json

open Decimal (Number Literal)

/-- The tokens that the machine completes over some characters, and where it stands
after them. -/
def Scan.run (s : Scan) : List Char → List Token × Scan
  | [] => ([], s)
  | c :: cs => ((s.step c).1 ++ ((s.step c).2.run cs).1, ((s.step c).2.run cs).2)

@[simp] theorem Scan.run_nil (s : Scan) : s.run [] = ([], s) := rfl

theorem Scan.run_cons (s : Scan) (c : Char) (cs : List Char) :
    s.run (c :: cs) = ((s.step c).1 ++ ((s.step c).2.run cs).1, ((s.step c).2.run cs).2) := rfl

/-- A run over one text and then another is a run over the whole. -/
theorem Scan.run_append (s : Scan) (xs ys : List Char) :
    s.run (xs ++ ys) =
      ((s.run xs).1 ++ ((s.run xs).2.run ys).1, ((s.run xs).2.run ys).2) := by
  induction xs generalizing s with
  | nil => rfl
  | cons c cs ih => rw [List.cons_append, run_cons, ih, run_cons, List.append_assoc]

/-- A step that completes nothing is left out of a run. -/
theorem Scan.run_cons_of_step {s s' : Scan} {c : Char} (h : s.step c = ([], s'))
    (cs : List Char) : s.run (c :: cs) = s'.run cs := by
  rw [run_cons, h, List.nil_append]

/-- Feeding a reader is a run of its machine whose tokens the reader then takes. -/
theorem Reader.feed_eq (r : Reader) (cs : List Char) :
    r.feed cs = ⟨(r.scan.run cs).2, (r.scan.run cs).1.foldl Reading.step r.reading⟩ := by
  induction cs generalizing r with
  | nil => rfl
  | cons c cs ih =>
    have hstep : r.feed (c :: cs) = (r.step c).feed cs := rfl
    rw [hstep, ih, Scan.run_cons, List.foldl_append]
    rfl

/-- All tokens of a text, those at its end included. -/
def tokensOf (cs : List Char) : List Token := (Scan.gap.run cs).1 ++ (Scan.gap.run cs).2.finish

/-- The document of a text is what the reader makes of its tokens. -/
theorem Document.parse_eq (cs : List Char) :
    Document.parse cs = ((tokensOf cs).foldl Reading.step (.inside .value [])).finish := by
  rw [Document.parse, Reader.feed_eq, Reader.finish, tokensOf, List.foldl_append]

/-- The machine stands where a value can end: between tokens, or in a number that is
complete. The tokens are those that the end of the value still brings. -/
inductive Settled : Scan → List Token → Prop where
  /-- Between tokens. -/
  | gap : Settled .gap []
  /-- In a number that is complete. -/
  | number (phase : Phase) (l : Literal) (h : phase.complete = true) :
    Settled (.number phase l) [.num l.number?]

/-- The end of the text brings the open token. -/
theorem Settled.finish_eq {s : Scan} {pending : List Token} (h : Settled s pending) :
    s.finish = pending := by
  cases h with
  | gap => rfl
  | number phase l h => rw [Scan.finish, if_pos h]

/-- The tokens of the marks between values. -/
def markToken? : Char → Option Token
  | ',' => some .comma
  | ':' => some .colon
  | ']' => some .closeList
  | '\x7d' => some .closeRecord
  | _ => none

/-- The mark characters. -/
theorem mark_cases {c : Char} {t : Token} (h : markToken? c = some t) :
    c = ',' ∧ t = .comma ∨ c = ':' ∧ t = .colon ∨ c = ']' ∧ t = .closeList ∨
      c = '\x7d' ∧ t = .closeRecord := by
  unfold markToken? at h
  split at h <;> simp_all

/-- No number goes on with a mark. -/
theorem extend?_mark {c : Char} {t : Token} (h : markToken? c = some t) (phase : Phase)
    (l : Literal) : extend? phase l c = none ∧ c.isDigit = false ∧ begin c = ([t], .gap) := by
  rcases mark_cases h with ⟨rfl, rfl⟩ | ⟨rfl, rfl⟩ | ⟨rfl, rfl⟩ | ⟨rfl, rfl⟩ <;>
    exact ⟨by cases phase <;> rfl, rfl, rfl⟩

/-- A mark after a value brings the open token of the value and its own. -/
theorem Settled.step_mark {s : Scan} {pending : List Token} {c : Char} {t : Token}
    (h : Settled s pending) (hc : markToken? c = some t) : s.step c = (pending ++ [t], .gap) := by
  cases h with
  | gap => exact (extend?_mark hc .zero {}).2.2
  | number phase l h =>
    obtain ⟨hnone, hdigit, hbegin⟩ := extend?_mark hc phase l
    simp [Scan.step, hnone, h, hdigit, hbegin]

/-- The characters are the text of some tokens, at whose end a value can end. -/
def Lexes (cs : List Char) (ts : List Token) : Prop :=
  ∃ pending, Settled (Scan.gap.run cs).2 pending ∧ (Scan.gap.run cs).1 ++ pending = ts

/-- A text that ends between tokens is the text of the tokens of its run. -/
theorem Lexes.of_run {cs : List Char} {ts : List Token} (h : Scan.gap.run cs = (ts, .gap)) :
    Lexes cs ts := ⟨[], by rw [h]; exact .gap, by rw [h, List.append_nil]⟩

/-- A text that ends in a complete number is the text of that number. -/
theorem Lexes.of_number {cs : List Char} {phase : Phase} {l : Literal}
    (h : Scan.gap.run cs = ([], .number phase l)) (hphase : phase.complete = true) :
    Lexes cs [.num l.number?] := ⟨_, by rw [h]; exact .number phase l hphase, by rw [h]; rfl⟩

/-- The tokens of a text are all its tokens. -/
theorem Lexes.tokensOf_eq {cs : List Char} {ts : List Token} (h : Lexes cs ts) :
    tokensOf cs = ts := by
  obtain ⟨pending, hsettled, rfl⟩ := h
  rw [tokensOf, hsettled.finish_eq]

/-- A mark after a text of tokens adds its token, and ends between tokens. -/
theorem Lexes.run_mark {cs : List Char} {ts : List Token} {c : Char} {t : Token}
    (h : Lexes cs ts) (hc : markToken? c = some t) :
    Scan.gap.run (cs ++ [c]) = (ts ++ [t], .gap) := by
  obtain ⟨pending, hsettled, rfl⟩ := h
  rw [Scan.run_append, Scan.run_cons, hsettled.step_mark hc, Scan.run_nil]
  simp

/-- A text of tokens goes on after one that ends between tokens. -/
theorem Lexes.after {xs ys : List Char} {ts us : List Token} (hx : Scan.gap.run xs = (ts, .gap))
    (hy : Lexes ys us) : Lexes (xs ++ ys) (ts ++ us) := by
  obtain ⟨pending, hsettled, rfl⟩ := hy
  refine ⟨pending, ?_, ?_⟩
  · rw [Scan.run_append, hx]
    exact hsettled
  · rw [Scan.run_append, hx, List.append_assoc]

/-- Texts of tokens follow one another with a mark between them. -/
theorem Lexes.mark {xs ys : List Char} {ts us : List Token} {c : Char} {t : Token}
    (hx : Lexes xs ts) (hc : markToken? c = some t) (hy : Lexes ys us) :
    Lexes (xs ++ c :: ys) (ts ++ t :: us) := by
  have h := Lexes.after (hx.run_mark hc) hy
  simpa using h

end RatingServer.Json
