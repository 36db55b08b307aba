import RatingServer.Launch
import RatingServer.Proofs.Session.Forms

/-!
# Lines that are served

The bytes of some lines come over a connection, in pieces of any kind. Where they are
cut does not matter. The session gets the lines that are not blank, one after another,
up to the first that asks to end the session; for each it writes one reply that fits the
line, and after that nothing.
-/

namespace RatingServer

open Wire

namespace Request

/-- The lines with nothing on them but white space. -/
def isBlank (line : String) : Bool := (Text.trim line.toList).isEmpty

/-- The lines that read as the request to end the session. -/
def isFarewell (line : String) : Bool := (decode line).toOption.any fun r => r.body = .quit

/-- The lines that are asked of a session: those that are not blank, up to the first
request to end the session. -/
def asked : List String → List String
  | [] => []
  | line :: lines =>
    if isBlank line then asked lines
    else if isFarewell line then [line]
    else line :: asked lines

/-- A line asks to end the session if it is read as the request to. -/
theorem isFarewell_iff {line : String} :
    isFarewell line = true ↔ ∃ r, decode line = .ok r ∧ r.body = .quit := by
  unfold isFarewell
  cases decode line <;> simp [Except.toOption]

end Request

namespace Session

variable {ℓ : Type} [Listener ℓ]

/-- Answers lines, one after another. -/
def handleLines (s : Session) (v : Server ℓ) : List String → List Reply × Session × Server ℓ
  | [] => ([], s, v)
  | line :: lines =>
    let (reply, s, v) := s.handleLine v line
    let (replies, s, v) := handleLines s v lines
    (reply :: replies, s, v)

/-- The first of some lines is answered first. -/
theorem handleLines_cons (s : Session) (v : Server ℓ) (line : String) (lines : List String) :
    s.handleLines v (line :: lines) =
      let rest := (s.handleLine v line).2.1.handleLines (s.handleLine v line).2.2 lines
      ((s.handleLine v line).1 :: rest.1, rest.2) := by
  rw [handleLines]

/-- The answers to lines, one after another, are such as a memory can hold. -/
def AllInMemory (s : Session) (v : Server ℓ) : List String → Prop
  | [] => True
  | line :: lines =>
    s.InMemory v line ∧ AllInMemory (s.handleLine v line).2.1 (s.handleLine v line).2.2 lines

/-- There is one reply for each line, and it fits the line. -/
theorem handleLines_fit {s : Session} {v : Server ℓ} {lines : List String}
    (h : s.AllInMemory v lines) : List.Forall₂ Reply.Fits lines (s.handleLines v lines).1 := by
  induction lines generalizing s v with
  | nil => exact .nil
  | cons line lines ih =>
    rw [handleLines_cons]
    exact .cons (handleLine_fits h.1).1 (ih h.2)

end Session

namespace ServedConnection

variable {ℓ : Type} [Listener ℓ]

/-- Lines are answered one after another until the connection is over. -/
theorem takeLines_append (s : Session) (v : Server ℓ) (xs ys : List Bytes) :
    takeLines s v (xs ++ ys) =
      match takeLines s v xs with
      | (bytes, none, v) => (bytes, none, v)
      | (bytes, some s, v) =>
        let (more, s, v) := takeLines s v ys
        (bytes ++ more, s, v) := by
  induction xs generalizing s v with
  | nil => rfl
  | cons line xs ih =>
    rw [List.cons_append, takeLines, takeLines]
    rcases takeLine s v line with ⟨bytes, _ | s', v'⟩
    · rfl
    · dsimp only
      rw [ih]
      rcases takeLines s' v' xs with ⟨more, _ | s'', v''⟩
      · rfl
      · dsimp only
        rw [List.append_assoc]

/-- One line is answered. -/
theorem takeLines_singleton (s : Session) (v : Server ℓ) (line : Bytes) :
    takeLines s v [line] = takeLine s v line := by
  rw [takeLines]
  rcases takeLine s v line with ⟨bytes, _ | s', v'⟩
  · rfl
  · simp only [takeLines, List.append_nil]

/-- What came after the last line is taken as a line. -/
theorem finish_eq (c : ServedConnection) (v : Server ℓ) :
    c.finish v =
      ((takeLines c.session v [c.unread]).1, (takeLines c.session v [c.unread]).2.2) := by
  rw [takeLines_singleton, finish]
  split
  · next hempty =>
    have hblank : takeLine c.session v c.unread = ([], some c.session, v) := by
      rcases Bool.or_eq_true_iff.mp hempty with hnil | hreturn
      · rw [List.isEmpty_iff.mp hnil]
        rfl
      · rw [of_decide_eq_true hreturn]
        rfl
    rw [hblank]
  · rfl

/-- Where the bytes are cut into pieces does not matter: their lines are answered, and
what came after the last one is taken as a line. -/
theorem serve_eq {c : ServedConnection} {v : Server ℓ} {pieces lines : List Bytes} {last : Bytes}
    (hcut : Cut (c.unread ++ pieces.flatten) lines last) (hunread : newline ∉ c.unread)
    (hlines : ∀ line ∈ lines, line.length ≤ maxLineLength) (hlast : last.length ≤ maxLineLength) :
    c.serve v pieces = ((takeLines c.session v (lines ++ [last])).1,
      (takeLines c.session v (lines ++ [last])).2.2) := by
  induction pieces generalizing c v lines with
  | nil =>
    have hnone : Cut (c.unread ++ [].flatten) [] c.unread :=
      ⟨List.append_nil _, nofun, hunread⟩
    obtain ⟨rfl, rfl⟩ := Prod.mk.inj (hnone.splitLines_eq.symm.trans hcut.splitLines_eq)
    exact finish_eq c v
  | cons piece pieces ih =>
    obtain ⟨first, unread, hfirst⟩ := exists_cut (c.unread ++ piece)
    obtain ⟨more, last', hmore⟩ := exists_cut (unread ++ pieces.flatten)
    have hall := hfirst.append hmore
    rw [List.append_assoc, ← List.flatten_cons] at hall
    obtain ⟨rfl, rfl⟩ := Prod.mk.inj (hall.splitLines_eq.symm.trans hcut.splitLines_eq)
    have hmorelines := (List.forall_mem_append.mp hlines).2
    have hshort : ¬ maxLineLength < unread.length :=
      Nat.not_lt.mpr (hmore.length_le hfirst.rest hmorelines hlast)
    rw [serve, receive, hfirst.splitLines_eq, List.append_assoc, takeLines_append]
    rcases hanswered : takeLines c.session v first with ⟨bytes, _ | s, v'⟩
    · simp only [hanswered, if_neg hshort, Option.map_none]
    · have hrest := ih (c := { session := s, unread }) (v := v') hmore hfirst.rest hmorelines
      simp only [hanswered, if_neg hshort, Option.map_some, hrest]

/-- Of lines of text those are answered that are asked. -/
theorem takeLines_texts {s : Session} {v : Server ℓ} {lines : List String}
    (hshort : ∀ line ∈ lines, (utf8 line).length ≤ maxLineLength)
    (hsize : s.AllInMemory v (Request.asked lines)) :
    (takeLines s v (lines.map utf8)).1 =
        (s.handleLines v (Request.asked lines)).1.flatMap Reply.bytes ∧
      (takeLines s v (lines.map utf8)).2.2 = (s.handleLines v (Request.asked lines)).2.2 := by
  induction lines generalizing s v with
  | nil => exact ⟨rfl, rfl⟩
  | cons line lines ih =>
    obtain ⟨hline, hlines⟩ := List.forall_mem_cons.mp hshort
    rw [Request.asked] at hsize ⊢
    rw [List.map_cons, takeLines, takeLine_text s v hline]
    by_cases hblank : Request.isBlank line = true
    · rw [if_pos hblank] at hsize ⊢
      rw [if_pos (show (Text.trim line.toList).isEmpty = true from hblank)]
      exact ih hlines hsize
    · rw [if_neg hblank] at hsize ⊢
      rw [if_neg (show ¬ (Text.trim line.toList).isEmpty = true from hblank)]
      by_cases hquit : Request.isFarewell line = true
      · rw [if_pos hquit] at hsize ⊢
        have hclose := (Session.handleLine_fits hsize.1).1.close_iff.mpr
          (Request.isFarewell_iff.mp hquit)
        rw [hclose, Session.handleLines_cons]
        simp [Session.handleLines]
      · rw [if_neg hquit] at hsize ⊢
        have hopen : (s.handleLine v line).1.close = false := by
          rw [← Bool.not_eq_true, (Session.handleLine_fits hsize.1).1.close_iff,
            ← Request.isFarewell_iff]
          exact hquit
        obtain ⟨hbytes, hserver⟩ := ih hlines hsize.2
        rw [hopen, Session.handleLines_cons]
        simp [hbytes, hserver]

/-- Lines of text come over a connection in pieces: each ends with a newline, but what
comes last need not. -/
structure Arrive (pieces : List Bytes) (lines : List String) (last : String) : Prop where
  /-- The pieces are those of the lines. -/
  whole : pieces.flatten = lines.flatMap (fun line => utf8 line ++ [newline]) ++ utf8 last
  /-- No line has a newline in it. -/
  inner : ∀ line ∈ lines ++ [last], newline ∉ utf8 line
  /-- None is too long. -/
  short : ∀ line ∈ lines ++ [last], (utf8 line).length ≤ maxLineLength

/-- The pieces are cut into the bytes of the lines. -/
theorem Arrive.cut {pieces : List Bytes} {lines : List String} {last : String}
    (h : Arrive pieces lines last) : Cut pieces.flatten (lines.map utf8) (utf8 last) where
  whole := by rw [h.whole, List.flatMap_map]
  inner := List.forall_mem_map.mpr (List.forall_mem_append.mp h.inner).1
  rest := h.inner last (List.mem_append_right _ List.mem_cons_self)

/-- **A reply for each line.** In every state of the session and of the server the reply
to a line fits it, and a line that is not read leaves both as they are. So for lines of
text that come over a connection in any pieces, and are none of them too long, the
session writes one such reply for each line that is not blank, in order, up to the first
that asks to end the session, and then nothing. What is answered by frame is such as a
memory can hold. -/
theorem reply_for_each_line :
    (∀ (s : Session) (v : Server ℓ) (line : String), s.InMemory v line →
      (s.handleLine v line).1.Fits line ∧
        ∀ f, Request.decode line = .error f → (s.handleLine v line).2 = (s, v)) ∧
    ∀ (s : Session) (v : Server ℓ) (pieces : List Bytes) (lines : List String) (last : String),
      Arrive pieces lines last → s.AllInMemory v (Request.asked (lines ++ [last])) →
      let asked := Request.asked (lines ++ [last])
      serve { session := s } v pieces =
          ((s.handleLines v asked).1.flatMap Reply.bytes, (s.handleLines v asked).2.2) ∧
        List.Forall₂ Reply.Fits asked (s.handleLines v asked).1 := by
  refine ⟨fun s v line hsize => Session.handleLine_fits hsize,
    fun s v pieces lines last harrive hsize => ⟨?_, Session.handleLines_fit hsize⟩⟩
  obtain ⟨hlines, hlast⟩ := List.forall_mem_append.mp harrive.short
  obtain ⟨hbytes, hserver⟩ := takeLines_texts harrive.short hsize
  rw [List.map_append] at hbytes hserver
  rw [serve_eq (c := { session := s }) harrive.cut List.not_mem_nil (List.forall_mem_map.mpr hlines)
    (hlast last List.mem_cons_self)]
  exact Prod.ext hbytes hserver

/-- A session on the socket of the service, before a login. -/
def newcomer : Session := { id := "1", kind := .service, peer := .loopback 0 }

/-- The request to end the session, which asks for a frame. -/
def farewell : String := "\x7b\"action\":\"quit\",\"not_json_parsing\":true\x7d\r"

/-- A blank line, one that is no request, and the farewell. -/
def farewells : List String := ["\r", "nope", farewell]

/-- The lines in two pieces, and behind them one without a newline. -/
def farewellPieces : List Bytes := [utf8 "\r\nno", utf8 ("pe\n" ++ farewell ++ "\nlate")]

/-- Two replies are written for the lines: one that the second is no request, and a frame. -/
theorem reply_for_each_line_farewells :
    Arrive farewellPieces farewells "late" ∧
      newcomer.AllInMemory (.of {} : Server ExitSignal) (Request.asked (farewells ++ ["late"])) ∧
      ∃ first last : Reply, first.Fits "nope" ∧ last.Fits farewell ∧
        (serve { session := newcomer } (.of {} : Server ExitSignal) farewellPieces).1 =
          first.bytes ++ last.bytes := by
  have harrive : Arrive farewellPieces farewells "late" :=
    ⟨by decide +kernel, by decide +kernel, by decide +kernel⟩
  have hasked : Request.asked (farewells ++ ["late"]) = ["nope", farewell] := by
    decide +kernel
  have hfault : (Request.decode "nope").toOption.isSome = false := by decide +kernel
  have hquit : Request.isFarewell farewell = true := by decide +kernel
  have hsize : newcomer.AllInMemory (.of {} : Server ExitSignal)
      (Request.asked (farewells ++ ["late"])) := by
    rw [hasked]
    refine ⟨fun r hr => ?_, fun r hr _ => ?_, trivial⟩
    · rw [hr] at hfault
      cases hfault
    · obtain ⟨r', hr', hbody⟩ := Request.isFarewell_iff.mp hquit
      rw [hr] at hr'
      cases hr'
      have hempty : (Response.format.put .empty).length < UInt64.size := by decide
      rw [Session.answer, hbody]
      exact hempty
  obtain ⟨hserved, hfits⟩ := reply_for_each_line.2 newcomer (.of {} : Server ExitSignal)
    farewellPieces farewells "late" harrive hsize
  refine ⟨harrive, hsize, ?_⟩
  rw [hserved]
  rw [hasked] at hfits ⊢
  generalize (newcomer.handleLines (.of {} : Server ExitSignal) _).1 = replies at hfits ⊢
  obtain _ | ⟨hfirst, _ | ⟨hlast, _ | _⟩⟩ := hfits
  exact ⟨_, _, hfirst, hlast, by simp⟩

end ServedConnection

end RatingServer
