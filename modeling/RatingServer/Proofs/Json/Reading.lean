import RatingServer.Proofs.Json.Spelling
import RatingServer.Proofs.Json.Texts
import RatingServer.Text.Basic

/-!
# Reading written data values

The text of a data value reads as a document of the same shape, with nothing after
it. It is the document of that value, provided that its numbers can be read back:
integers must fit the machine words, and the text of each floating-point number must
read as that number again.
-/

namespace RatingServer.Json

open Decimal (Number)

/-- A number whose text reads as that number. -/
def ReadableNumber : Number → Prop
  | .integer n => fitsWord n = true
  | .real x => ReadsBack x

mutual

/-- The numbers of a data value. -/
def numbers : Json → List Number
  | .num n => [n]
  | .arr items => itemNumbers items
  | .obj members => memberNumbers members
  | .null | .bool _ | .str _ => []

/-- The numbers of some data values. -/
def itemNumbers : List Json → List Number
  | [] => []
  | j :: js => j.numbers ++ itemNumbers js

/-- The numbers of the members of a record. -/
def memberNumbers : List (String × Json) → List Number
  | [] => []
  | (_, j) :: ms => j.numbers ++ memberNumbers ms

end

/-- Every number of the value can be read back. -/
def Readable (j : Json) : Prop := ∀ n ∈ j.numbers, ReadableNumber n

/-- The token of which the text of a number is the text. -/
def numberToken (n : Number) : Token := (tokensOf (numberText n)).headD .broken

/-- The text of a number is the text of its token, of a number or of null. -/
theorem lexes_numberText (n : Number) :
    Lexes (numberText n) [numberToken n] ∧
      ((numberToken n).isNumber = true ∨ numberToken n = .null) := by
  obtain ⟨t, hlexes, ht⟩ := lexes_anyNumber n
  have htoken : numberToken n = t := by rw [numberToken, hlexes.tokensOf_eq, List.headD_cons]
  rw [htoken]
  exact ⟨hlexes, ht⟩

/-- The document of a token that is a value by itself. -/
def Token.value : Token → Document
  | .num n => .num n
  | _ => .null

/-- The token of a number is a value by itself. -/
theorem takeValue_numberToken (n : Number) (fs : List Frame) :
    takeValue fs (numberToken n) = deliver (numberToken n).value fs := by
  rcases (lexes_numberText n).2 with hnumber | hnull
  · cases htoken : numberToken n with
    | num m => rfl
    | _ =>
      rw [htoken] at hnumber
      cases hnumber
  · rw [hnull]
    rfl

/-- The text of a number that can be read back is the text of that number's token. -/
theorem numberToken_eq {n : Number} (h : ReadableNumber n) : numberToken n = .num (some n) := by
  cases n with
  | integer n => rw [numberToken, numberText, (lexes_integerText h).tokensOf_eq, List.headD_cons]
  | real x =>
    have hread : Document.parse (numberText (.real x)) = (.num (some (.real x)), true) := h
    rw [Document.parse_eq, (lexes_numberText (.real x)).1.tokensOf_eq] at hread
    have hvalue : (numberToken (.real x)).value = .num (some (.real x)) := by
      have hstep : [numberToken (.real x)].foldl Reading.step (.inside .value []) =
          takeValue [] (numberToken (.real x)) := rfl
      rw [hstep, takeValue_numberToken] at hread
      exact congrArg Prod.fst hread
    cases htoken : numberToken (.real x) with
    | num m =>
      rw [htoken] at hvalue
      rw [Document.num.inj hvalue]
    | _ =>
      rw [htoken] at hvalue
      cases hvalue

mutual

/-- The tokens of a data value. -/
def tokens : Json → List Token
  | .null => [.null]
  | .bool b => [.bool b]
  | .num n => [numberToken n]
  | .str s => [.str (some s)]
  | .arr items => .openList :: itemTokens items ++ [.closeList]
  | .obj members => .openRecord :: memberTokens members ++ [.closeRecord]

/-- The tokens of some data values with commas between them. -/
def itemTokens : List Json → List Token
  | [] => []
  | [j] => j.tokens
  | j :: js => j.tokens ++ .comma :: itemTokens js

/-- The tokens of the members of a record with commas between them. -/
def memberTokens : List (String × Json) → List Token
  | [] => []
  | [(k, j)] => .str (some k) :: .colon :: j.tokens
  | (k, j) :: ms => .str (some k) :: .colon :: j.tokens ++ .comma :: memberTokens ms

end

/-- The text of a key and its colon. -/
theorem run_key (k : String) :
    Scan.gap.run (textOf k ++ [':']) = ([.str (some k), .colon], .gap) :=
  (Lexes.of_run (run_textOf k)).run_mark rfl

/-- The text between two brackets is the text of the tokens between them. -/
theorem lexes_bracketed {c d : Char} {t u : Token} {cs : List Char} {ts : List Token}
    (hopen : Scan.gap.run [c] = ([t], .gap)) (hclose : markToken? d = some u) (h : Lexes cs ts) :
    Lexes (c :: cs ++ [d]) (t :: ts ++ [u]) := by
  have hrun := (Lexes.after hopen h).run_mark hclose
  exact Lexes.of_run hrun

mutual

/-- The text of a value is the text of its tokens. -/
theorem lexes_chars : (j : Json) → Lexes j.chars j.tokens
  | .null => .of_run rfl
  | .bool true => .of_run rfl
  | .bool false => .of_run rfl
  | .num n => by
    rw [chars, tokens]
    exact (lexes_numberText n).1
  | .str s => by
    rw [chars, tokens]
    exact .of_run (run_textOf s)
  | .arr items => by
    rw [chars, tokens]
    exact lexes_bracketed rfl rfl (lexes_itemChars items)
  | .obj members => by
    rw [chars, tokens]
    exact lexes_bracketed rfl rfl (lexes_memberChars members)

/-- The text of some items is the text of their tokens. -/
theorem lexes_itemChars : (js : List Json) → Lexes (itemChars js) (itemTokens js)
  | [] => .of_run rfl
  | [j] => by
    rw [itemChars, itemTokens]
    exact lexes_chars j
  | j :: k :: js => by
    rw [itemChars, itemTokens]
    · exact (lexes_chars j).mark rfl (lexes_itemChars (k :: js))
    · simp
    · simp

/-- The text of some members is the text of their tokens. -/
theorem lexes_memberChars : (ms : List (String × Json)) → Lexes (memberChars ms) (memberTokens ms)
  | [] => .of_run rfl
  | [(k, j)] => by
    have hvalue := Lexes.after (run_key k) (lexes_chars j)
    rw [memberChars, memberTokens]
    simpa using hvalue
  | (k, j) :: m :: ms => by
    have hcomma : markToken? ',' = some .comma := rfl
    have hvalue := (Lexes.after (run_key k) (lexes_chars j)).mark hcomma
      (lexes_memberChars (m :: ms))
    rw [memberChars, memberTokens]
    · simpa using hvalue
    · simp
    · simp

end

mutual

/-- The document that the text of a data value reads as: that of the value, but for
numbers that do not read as themselves. -/
def asRead : Json → Document
  | .null => .null
  | .bool b => .bool b
  | .num n => (numberToken n).value
  | .str s => .str (some s)
  | .arr items => .arr (itemsAsRead items) true
  | .obj members => .obj (membersAsRead members) true

/-- The documents that the texts of some data values read as. -/
def itemsAsRead : List Json → List Document
  | [] => []
  | j :: js => j.asRead :: itemsAsRead js

/-- The members that those of a record read as. -/
def membersAsRead : List (String × Json) → List (Option String × Document)
  | [] => []
  | (k, j) :: ms => (some k, j.asRead) :: membersAsRead ms

end

mutual

/-- A value whose numbers can be read back reads as itself. -/
theorem asRead_eq : (j : Json) → (∀ n ∈ j.numbers, ReadableNumber n) → j.asRead = j.toDocument
  | .null, _ => by rw [asRead, toDocument]
  | .bool b, _ => by rw [asRead, toDocument]
  | .num n, h => by
    rw [asRead, toDocument, numberToken_eq (h n (by simp [numbers]))]
    rfl
  | .str s, _ => by rw [asRead, toDocument]
  | .arr items, h => by
    rw [numbers] at h
    rw [asRead, toDocument, itemsAsRead_eq items h]
  | .obj members, h => by
    rw [numbers] at h
    rw [asRead, toDocument, membersAsRead_eq members h]

/-- So do some values. -/
theorem itemsAsRead_eq : (js : List Json) → (∀ n ∈ itemNumbers js, ReadableNumber n) →
    itemsAsRead js = toDocuments js
  | [], _ => by rw [itemsAsRead, toDocuments]
  | j :: js, h => by
    rw [itemNumbers] at h
    rw [itemsAsRead, toDocuments, asRead_eq j fun n hn => h n (List.mem_append_left _ hn),
      itemsAsRead_eq js fun n hn => h n (List.mem_append_right _ hn)]

/-- So do the members of a record. -/
theorem membersAsRead_eq : (ms : List (String × Json)) →
    (∀ n ∈ memberNumbers ms, ReadableNumber n) → membersAsRead ms = toMembers ms
  | [], _ => by rw [membersAsRead, toMembers]
  | (k, j) :: ms, h => by
    rw [memberNumbers] at h
    rw [membersAsRead, toMembers, asRead_eq j fun n hn => h n (List.mem_append_left _ hn),
      membersAsRead_eq ms fun n hn => h n (List.mem_append_right _ hn)]

end

/-- A token that is a value by itself is a whole one. -/
theorem Token.isWhole_value (t : Token) : t.value.isWhole = true := by cases t <;> rfl

mutual

/-- What the text of a data value reads as was read to its end. -/
theorem isWhole_asRead : (j : Json) → j.asRead.isWhole = true
  | .null => by rw [asRead, Document.isWhole]
  | .bool b => by rw [asRead, Document.isWhole]
  | .num n => by rw [asRead, Token.isWhole_value]
  | .str s => by rw [asRead, Document.isWhole]
  | .arr items => by rw [asRead, Document.isWhole, itemsWhole_asRead items, Bool.and_self]
  | .obj members => by rw [asRead, Document.isWhole, membersWhole_asRead members, Bool.and_self]

/-- So was every item of a list. -/
theorem itemsWhole_asRead : (js : List Json) → itemsWhole (itemsAsRead js) = true
  | [] => by rw [itemsAsRead, itemsWhole]
  | j :: js => by
    rw [itemsAsRead, itemsWhole, isWhole_asRead j, itemsWhole_asRead js, Bool.and_self]

/-- So was every member of a record. -/
theorem membersWhole_asRead : (ms : List (String × Json)) → membersWhole (membersAsRead ms) = true
  | [] => by rw [membersAsRead, membersWhole]
  | (k, j) :: ms => by
    rw [membersAsRead, membersWhole, isWhole_asRead j, membersWhole_asRead ms, Bool.and_self]

end

/-- The tokens of a value do not begin with the end of a list. -/
theorem tokens_cons (j : Json) : ∃ t ts, j.tokens = t :: ts ∧ t ≠ .closeList := by
  cases j with
  | null => exact ⟨_, _, by rw [tokens], by simp⟩
  | bool b => exact ⟨_, _, by rw [tokens], by simp⟩
  | num n =>
    refine ⟨_, _, by rw [tokens], fun hclose => ?_⟩
    have hnumber := (lexes_numberText n).2
    rw [hclose] at hnumber
    rcases hnumber with h | h <;> cases h
  | str s => exact ⟨_, _, by rw [tokens], by simp⟩
  | arr items => exact ⟨_, _, by rw [tokens, List.cons_append], by simp⟩
  | obj members => exact ⟨_, _, by rw [tokens, List.cons_append], by simp⟩

/-- The tokens of some items do not begin with the end of a list. -/
theorem itemTokens_cons (j : Json) (js : List Json) :
    ∃ t ts, itemTokens (j :: js) = t :: ts ∧ t ≠ .closeList := by
  obtain ⟨t, ts, ht, hne⟩ := tokens_cons j
  cases js with
  | nil => exact ⟨t, ts, by rw [itemTokens, ht], hne⟩
  | cons k js =>
    refine ⟨t, ts ++ .comma :: itemTokens (k :: js), ?_, hne⟩
    rw [itemTokens, ht, List.cons_append]
    simp

/-- At the start of a list, every token but its end is taken as elsewhere. -/
theorem step_firstItem (fs : List Frame) {t : Token} (h : t ≠ .closeList) :
    Reading.step (.inside .firstItem fs) t = Reading.step (.inside .value fs) t := by
  cases t with
  | closeList => exact absurd rfl h
  | _ =>
    cases fs with
    | nil => rfl
    | cons f fs => cases f <;> rfl

mutual

/-- The tokens of a value deliver the document that it reads as. -/
theorem foldl_tokens : (j : Json) → (fs : List Frame) → (ts : List Token) →
    (j.tokens ++ ts).foldl Reading.step (.inside .value fs) =
      ts.foldl Reading.step (deliver j.asRead fs)
  | .null, fs, ts => by rw [tokens, asRead]; rfl
  | .bool b, fs, ts => by rw [tokens, asRead]; rfl
  | .num n, fs, ts => by
    rw [tokens, asRead, List.singleton_append, List.foldl_cons, ← takeValue_numberToken]
    rfl
  | .str s, fs, ts => by rw [tokens, asRead]; rfl
  | .arr items, fs, ts => by
    have hopen : Reading.step (.inside .value fs) .openList =
      .inside .firstItem (.items [] :: fs) := rfl
    rw [tokens, asRead, List.cons_append, List.cons_append, List.foldl_cons, hopen]
    cases items with
    | nil =>
      rw [itemTokens, itemsAsRead]
      rfl
    | cons j js =>
      obtain ⟨t, us, ht, hne⟩ := itemTokens_cons j js
      have hitems := foldl_itemTokens (j :: js) [] fs (.closeList :: ts) (List.cons_ne_nil _ _)
      rw [ht, List.cons_append, List.foldl_cons, ← step_firstItem _ hne, ← List.foldl_cons,
        ← List.cons_append, ← ht] at hitems
      have hclose : ∀ read : List Document,
          Reading.step (.inside .more (.items read :: fs)) .closeList =
            deliver (.arr read.reverse true) fs := fun _ => rfl
      rw [List.append_assoc, List.singleton_append, hitems, List.foldl_cons, hclose,
        List.append_nil, List.reverse_reverse]
  | .obj members, fs, ts => by
    have hopen : Reading.step (.inside .value fs) .openRecord =
      .inside .firstKey (.members [] :: fs) := rfl
    rw [tokens, asRead, List.cons_append, List.cons_append, List.foldl_cons, hopen]
    cases members with
    | nil =>
      rw [memberTokens, membersAsRead]
      rfl
    | cons m ms =>
      have hmembers := foldl_memberTokens (m :: ms) [] fs (.closeRecord :: ts) .firstKey
        (List.cons_ne_nil _ _) (.inl rfl)
      have hclose : ∀ read : List (Option String × Document),
          Reading.step (.inside .more (.members read :: fs)) .closeRecord =
            deliver (.obj read.reverse true) fs := fun _ => rfl
      rw [List.append_assoc, List.singleton_append, hmembers, List.foldl_cons, hclose,
        List.append_nil, List.reverse_reverse]

/-- The tokens of some items add their documents to the open list. -/
theorem foldl_itemTokens : (js : List Json) → (read : List Document) → (fs : List Frame) →
    (ts : List Token) → js ≠ [] →
    (itemTokens js ++ ts).foldl Reading.step (.inside .value (.items read :: fs)) =
      ts.foldl Reading.step (.inside .more (.items ((itemsAsRead js).reverse ++ read) :: fs))
  | [], _, _, _, hne => absurd rfl hne
  | [j], read, fs, ts, _ => by
    rw [itemTokens, itemsAsRead, itemsAsRead, foldl_tokens j]
    rfl
  | j :: k :: js, read, fs, ts, _ => by
    have hrest := foldl_itemTokens (k :: js) (j.asRead :: read) fs ts (List.cons_ne_nil _ _)
    have hcomma : Reading.step (.inside .more (.items (j.asRead :: read) :: fs)) .comma =
      .inside .value (.items (j.asRead :: read) :: fs) := rfl
    have hdeliver : deliver j.asRead (.items read :: fs) =
      .inside .more (.items (j.asRead :: read) :: fs) := rfl
    rw [itemTokens, itemsAsRead, List.append_assoc, foldl_tokens j, List.cons_append,
      List.foldl_cons, hdeliver, hcomma, hrest, List.reverse_cons, List.append_assoc]
    · rfl
    · simp

/-- The tokens of some members add their documents to the open record. -/
theorem foldl_memberTokens : (ms : List (String × Json)) →
    (read : List (Option String × Document)) → (fs : List Frame) → (ts : List Token) →
    (e : Expected) → ms ≠ [] → (e = .firstKey ∨ e = .key) →
    (memberTokens ms ++ ts).foldl Reading.step (.inside e (.members read :: fs)) =
      ts.foldl Reading.step (.inside .more (.members ((membersAsRead ms).reverse ++ read) :: fs))
  | [], _, _, _, _, hne, _ => absurd rfl hne
  | [(k, j)], read, fs, ts, e, _, he => by
    have hkey : Reading.step (.inside e (.members read :: fs)) (.str (some k)) =
        .inside .colon (.member read (some k) :: fs) := by
      rcases he with rfl | rfl <;> rfl
    have hcolon : Reading.step (.inside .colon (.member read (some k) :: fs)) .colon =
      .inside .value (.member read (some k) :: fs) := rfl
    rw [memberTokens, membersAsRead, membersAsRead, List.cons_append, List.cons_append, List.foldl_cons,
      List.foldl_cons, hkey, hcolon, foldl_tokens j]
    rfl
  | (k, j) :: m :: ms, read, fs, ts, e, _, he => by
    have hrest := foldl_memberTokens (m :: ms) ((some k, j.asRead) :: read) fs ts .key
      (List.cons_ne_nil _ _) (.inr rfl)
    have hkey : Reading.step (.inside e (.members read :: fs)) (.str (some k)) =
        .inside .colon (.member read (some k) :: fs) := by
      rcases he with rfl | rfl <;> rfl
    have hcolon : Reading.step (.inside .colon (.member read (some k) :: fs)) .colon =
      .inside .value (.member read (some k) :: fs) := rfl
    have hdeliver : deliver j.asRead (.member read (some k) :: fs) =
      .inside .more (.members ((some k, j.asRead) :: read) :: fs) := rfl
    have hcomma : Reading.step
        (.inside .more (.members ((some k, j.asRead) :: read) :: fs)) .comma =
      .inside .key (.members ((some k, j.asRead) :: read) :: fs) := rfl
    rw [memberTokens, membersAsRead, List.cons_append, List.cons_append, List.cons_append,
      List.cons_append, List.append_assoc, List.foldl_cons, List.foldl_cons, hkey, hcolon,
      foldl_tokens j, List.cons_append, List.foldl_cons, hdeliver, hcomma, hrest,
      List.reverse_cons, List.append_assoc]
    · rfl
    · simp

end

/-- The text of a value reads as one whole document, and nothing follows it. -/
theorem parse_anyChars (j : Json) : Document.parse j.chars = (j.asRead, true) := by
  have htokens := foldl_tokens j [] []
  rw [List.append_nil] at htokens
  rw [Document.parse_eq, (lexes_chars j).tokensOf_eq, htokens]
  rfl

/-- The text of a value whose numbers can be read back reads as the document of that
value. -/
theorem parse_chars {j : Json} (h : j.Readable) : Document.parse j.chars = (j.toDocument, true) := by
  rw [parse_anyChars, asRead_eq j h]

/-- No written number holds a character below the space. -/
theorem numberText_not_low (n : Number) : ∀ c ∈ numberText n, 0x20 ≤ c.toNat := by
  have hdigit : ∀ c : Char, isNumeric c = true → 0x20 ≤ c.toNat := by
    intro c hc
    simp only [isNumeric, Bool.or_eq_true, beq_iff_eq] at hc
    rcases hc with (((hc | rfl) | rfl) | rfl) | rfl
    · rcases digit_cases hc with
        rfl | rfl | rfl | rfl | rfl | rfl | rfl | rfl | rfl | rfl <;> decide
    all_goals decide
  intro c hc
  cases n with
  | integer n =>
    rw [numberText, integerText] at hc
    split at hc
    · rcases List.mem_cons.mp hc with rfl | hc
      · decide
      · exact hdigit c (isNumeric_digitsOf hc)
    · exact hdigit c (isNumeric_digitsOf hc)
  | real x =>
    cases htext : Decimal.text? x with
    | none =>
      rw [numberText, htext] at hc
      exact not_low_of_all rfl c hc
    | some cs =>
      rw [numberText, htext] at hc
      exact hdigit c (isNumeric_text htext c hc)

mutual

/-- No written value holds a character below the space. -/
theorem chars_not_low : (j : Json) → ∀ c ∈ j.chars, 0x20 ≤ c.toNat
  | .null, c, hc => by
    rw [chars] at hc
    exact not_low_of_all rfl c hc
  | .bool b, c, hc => by
    rw [chars] at hc
    cases b <;> exact not_low_of_all rfl c hc
  | .num n, c, hc => by
    rw [chars] at hc
    exact numberText_not_low n c hc
  | .str s, c, hc => by
    rw [chars] at hc
    exact textOf_not_low s c hc
  | .arr items, c, hc => by
    rw [chars, List.cons_append, List.mem_cons, List.mem_append, List.mem_singleton] at hc
    rcases hc with rfl | hc | rfl
    · decide
    · exact itemChars_not_low items c hc
    · decide
  | .obj members, c, hc => by
    rw [chars, List.cons_append, List.mem_cons, List.mem_append, List.mem_singleton] at hc
    rcases hc with rfl | hc | rfl
    · decide
    · exact memberChars_not_low members c hc
    · decide

/-- No written item holds a character below the space. -/
theorem itemChars_not_low : (js : List Json) → ∀ c ∈ itemChars js, 0x20 ≤ c.toNat
  | [], c, hc => by
    rw [itemChars] at hc
    cases hc
  | [j], c, hc => by
    rw [itemChars] at hc
    exact chars_not_low j c hc
  | j :: k :: js, c, hc => by
    rw [itemChars, List.mem_append, List.mem_cons] at hc
    · rcases hc with hc | rfl | hc
      · exact chars_not_low j c hc
      · decide
      · exact itemChars_not_low (k :: js) c hc
    · simp

/-- No written member holds a character below the space. -/
theorem memberChars_not_low : (ms : List (String × Json)) → ∀ c ∈ memberChars ms, 0x20 ≤ c.toNat
  | [], c, hc => by
    rw [memberChars] at hc
    cases hc
  | [(k, j)], c, hc => by
    rw [memberChars, List.mem_append, List.mem_cons] at hc
    rcases hc with hc | rfl | hc
    · exact textOf_not_low k c hc
    · decide
    · exact chars_not_low j c hc
  | (k, j) :: m :: ms, c, hc => by
    rw [memberChars, List.append_assoc, List.mem_append, List.cons_append, List.mem_cons,
      List.mem_append, List.mem_cons] at hc
    · rcases hc with hc | rfl | hc | rfl | hc
      · exact textOf_not_low k c hc
      · decide
      · exact chars_not_low j c hc
      · decide
      · exact memberChars_not_low (m :: ms) c hc
    · simp

end

/-- Texts, lists and records, which begin and end with a mark. -/
def isMarked : Json → Bool
  | .str _ | .arr _ | .obj _ => true
  | .null | .bool _ | .num _ => false

/-- The text of a text, a list or a record stands between two marks. -/
theorem chars_marked {j : Json} (h : j.isMarked = true) :
    ∃ c cs d, j.chars = c :: cs ++ [d] ∧ Text.isBlank c = false ∧ Text.isBlank d = false := by
  cases j with
  | str s => exact ⟨_, _, _, by rw [chars, textOf], rfl, rfl⟩
  | arr items => exact ⟨_, _, _, by rw [chars], rfl, rfl⟩
  | obj members => exact ⟨_, _, _, by rw [chars], rfl, rfl⟩
  | null => cases h
  | bool b => cases h
  | num n => cases h

/-- The text of a text, a list or a record has no white space at its ends. -/
theorem trim_chars {j : Json} (h : j.isMarked = true) : Text.trim j.chars = j.chars := by
  obtain ⟨c, cs, d, hchars, hc, hd⟩ := chars_marked h
  rw [hchars]
  refine Text.trim_of_not_isBlank ?_ ?_
  · intro b hb
    rw [List.cons_append, List.head?_cons, Option.mem_some_iff] at hb
    rw [← hb]
    exact hc
  · intro b hb
    rw [List.getLast?_concat, Option.mem_some_iff] at hb
    rw [← hb]
    exact hd

end RatingServer.Json
