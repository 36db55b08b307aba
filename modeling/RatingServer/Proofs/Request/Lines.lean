import RatingServer.Proofs.Json.Bounded
import RatingServer.Proofs.Request.Actions

/-!
# Request lines

The line of a request holds no character below the space, so that no newline cuts
it, and reads as the request. A line that was read gives a request whose own line
reads as the same request: what it holds of floating-point numbers is finite. The
text of a finite number is taken to read as that number.
-/

namespace RatingServer

open Wire Json

namespace Request

/-- The floating-point number stands in a request. -/
def Carries (r : Request) (x : Double) : Prop := Holds r.toJson x

/-- The characters of the line of a request. -/
theorem toList_encode (r : Request) : r.encode.toList = r.toJson.chars := String.toList_ofList

/-- The members of the record of a request. -/
def members (r : Request) : List (String × Json) :=
  (actionField, .str r.body.action) :: r.body.written.2 ++
    if r.binary then [(binaryField, .bool true)] else []

/-- The members of a record, with a document for each value. -/
def documents (doc : Json → Document) (ms : List (String × Json)) :
    List (Option String × Document) := ms.map fun m => (some m.1, doc m.2)

/-- Members that can be kept stand before what the members after them give. -/
theorem keep_append {ms : List (Option String × Document)} (binary : Option Bool)
    (rest : List (Option String × Document))
    (hnames : ∀ m ∈ ms, ∃ k, m.1 = some k ∧ k ≠ binaryField) :
    keep binary (ms ++ rest) =
      if ms.all (fun m => m.2.isKept (maxDepth - 1)) then
        (keep binary rest).map fun r => (r.1, ms ++ r.2)
      else .error .malformed := by
  induction ms with
  | nil =>
    simp only [List.nil_append, List.all_nil, if_true]
    cases keep binary rest <;> rfl
  | cons m ms ih =>
    obtain ⟨k, hk, hne⟩ := hnames m List.mem_cons_self
    obtain ⟨_, d⟩ := m
    cases hk
    have hrest := ih fun m hm => hnames m (List.mem_cons_of_mem _ hm)
    rw [List.cons_append, keep, if_neg hne, List.all_cons]
    cases hd : d.isKept (maxDepth - 1) with
    | false => rfl
    | true =>
      rw [if_pos rfl, hrest, Bool.true_and]
      split
      · cases keep binary rest <;> rfl
      · rfl

/-- Members of other names than the action's are left to the action. -/
theorem findAction_others {ms : List (Option String × Document)} (found : Option ActionForm)
    (hnames : ∀ m ∈ ms, m.1 ≠ some actionField) : findAction found ms = .ok (found, ms) := by
  induction ms with
  | nil => rfl
  | cons m ms ih =>
    obtain ⟨k, d⟩ := m
    have hk : k ≠ some actionField := hnames (k, d) List.mem_cons_self
    rw [findAction, if_neg hk, ih fun m hm => hnames m (List.mem_cons_of_mem _ hm)]
    rfl

/-- The names of the actions are distinct. -/
theorem nodup_names : (ActionForm.all.map ActionForm.name).Nodup := by
  decide +kernel

/-- An action is found by its name. -/
theorem ofName?_name {place : Nat} {form : ActionForm} (h : ActionForm.all[place]? = some form) :
    ActionForm.ofName? form.name = some form := find?_name nodup_names h

/-- The members of a request, whatever the documents for their values, are read by the
action of the request, with its flag for a binary reply, if all can be kept. -/
theorem ofDocument_members (r : Request) {doc : Json → Document}
    (hstr : ∀ s, doc (.str s) = .str (some s)) (hbool : ∀ b, doc (.bool b) = .bool b)
    {form : ActionForm} (hform : ActionForm.all[r.body.written.1]? = some form) :
    ofDocument (.obj (documents doc r.members) true) true =
      if (documents doc r.body.written.2).all fun m => m.2.isKept (maxDepth - 1) then
        (form.read (documents doc r.body.written.2)).map fun body => ⟨body, r.binary⟩
      else .error .malformed := by
  have hnames : ∀ m ∈ (some actionField, Document.str (some r.body.action)) ::
      documents doc r.body.written.2, ∃ k, m.1 = some k ∧ k ≠ binaryField := by
    intro m hm
    rcases List.mem_cons.mp hm with rfl | hm
    · exact ⟨actionField, rfl, by decide⟩
    · obtain ⟨n, hn, rfl⟩ := List.mem_map.mp hm
      exact ⟨n.1, rfl, (Body.written_names r.body n hn).2⟩
  have hothers : ∀ m ∈ documents doc r.body.written.2, m.1 ≠ some actionField := by
    intro m hm
    obtain ⟨n, hn, rfl⟩ := List.mem_map.mp hm
    exact fun h => (Body.written_names r.body n hn).1 (Option.some.inj h)
  have hsplit : documents doc r.members =
      ((some actionField, .str (some r.body.action)) :: documents doc r.body.written.2) ++
        if r.binary then [(some binaryField, .bool true)] else [] := by
    unfold documents members
    rw [List.map_append, List.map_cons, hstr]
    cases r.binary with
    | false => rfl
    | true => simp [hbool]
  have hflag : keep none (if r.binary then [(some binaryField, .bool true)] else []) =
      .ok (if r.binary then some true else none, []) := by
    cases r.binary <;> rfl
  have haction : readAction (.str (some r.body.action)) = .ok form := by
    rw [Body.action, hform, Option.elim_some, readAction, ofName?_name hform]
  have hfind : findAction none ((some actionField, .str (some r.body.action)) ::
      documents doc r.body.written.2) = .ok (some form, documents doc r.body.written.2) := by
    rw [findAction, if_pos rfl]
    show (readAction (.str (some r.body.action)) >>= _) = _
    rw [haction, ok_bind, findAction_others _ hothers]
  rw [ofDocument, hsplit, keep_append none _ hnames, hflag, List.all_cons]
  have hkept : Document.isKept (maxDepth - 1) (.str (some r.body.action)) = true := rfl
  rw [hkept, Bool.true_and]
  split
  · simp only [Except.map, ok_bind, List.append_nil, hfind, Bool.not_true, Bool.false_eq_true,
      if_false, if_true]
    cases form.read (documents doc r.body.written.2) with
    | error e => rfl
    | ok body => cases r.binary <;> rfl
  · rfl

/-- The document of a request reads as the request. -/
theorem ofDocument_toJson (r : Request) : ofDocument r.toJson.toDocument true = .ok r := by
  obtain ⟨form, hform, hread⟩ := Body.read_written r.body
  have hdoc : r.toJson.toDocument = .obj (documents toDocument r.members) true := by
    rw [toJson, toDocument, toMembers_eq]
    rfl
  have hkept : ((documents toDocument r.body.written.2).all fun m =>
      m.2.isKept (maxDepth - 1)) = true := by
    rw [List.all_eq_true]
    intro m hm
    obtain ⟨n, hn, rfl⟩ := List.mem_map.mp hm
    exact Body.written_kept r.body (by decide) n hn
  rw [toMembers_eq] at hread
  rw [hdoc, ofDocument_members r (fun _ => by rw [toDocument]) (fun _ => by rw [toDocument]) hform,
    if_pos hkept, documents, hread]
  rfl

/-- The action that was read is one of the actions. -/
theorem mem_of_readAction {d : Document} {form : ActionForm} (h : readAction d = .ok form) :
    form ∈ ActionForm.all := by
  unfold readAction at h
  split at h
  · split at h
    · rename_i found hfound
      cases h
      exact List.mem_of_find?_eq_some hfound
    · cases h
  · split at h
    · cases h
    · split at h
      · rename_i found hfound
        cases h
        exact List.mem_of_getElem? hfound
      · cases h
  · cases h

/-- What was kept of the members stood among them. -/
theorem mem_of_keep {ms kept : List (Option String × Document)} {asked binary : Option Bool}
    (h : keep asked ms = .ok (binary, kept)) : ∀ m ∈ kept, m ∈ ms := by
  induction ms generalizing asked binary kept with
  | nil =>
    cases h
    intro m hm
    exact hm
  | cons m ms ih =>
    obtain ⟨k, d⟩ := m
    cases k with
    | none => cases h
    | some k =>
      unfold keep at h
      split at h
      · split at h
        · cases h
        · obtain ⟨b, -, hrest⟩ := bind_eq_ok.mp h
          intro m hm
          exact List.mem_cons_of_mem _ (ih hrest m hm)
      · split at h
        · obtain ⟨rest, hrest, hcons⟩ := bind_eq_ok.mp h
          obtain ⟨flag, others⟩ := rest
          cases hcons
          intro m hm
          rcases List.mem_cons.mp hm with rfl | hm
          · exact List.mem_cons_self
          · exact List.mem_cons_of_mem _ (ih hrest m hm)
        · cases h

/-- The action that was found is one of the actions, and what is left for it stood
among the members. -/
theorem mem_of_findAction {ms others : List (Option String × Document)}
    {found : Option ActionForm} {form : ActionForm}
    (h : findAction found ms = .ok (some form, others))
    (hfound : ∀ f, found = some f → f ∈ ActionForm.all) :
    form ∈ ActionForm.all ∧ ∀ m ∈ others, m ∈ ms := by
  induction ms generalizing found others with
  | nil =>
    cases h
    exact ⟨hfound form rfl, fun m hm => hm⟩
  | cons m ms ih =>
    obtain ⟨k, d⟩ := m
    unfold findAction at h
    split at h
    · split at h
      · cases h
      · obtain ⟨f, hf, hrest⟩ := bind_eq_ok.mp h
        have hmem : ∀ g, some f = some g → g ∈ ActionForm.all := by
          intro g hg
          cases hg
          exact mem_of_readAction hf
        obtain ⟨hform, hothers⟩ := ih hrest hmem
        exact ⟨hform, fun m hm => List.mem_cons_of_mem _ (hothers m hm)⟩
    · obtain ⟨rest, hrest, hcons⟩ := bind_eq_ok.mp h
      obtain ⟨f, left⟩ := rest
      cases hcons
      obtain ⟨hform, hleft⟩ := ih hrest hfound
      refine ⟨hform, fun m hm => ?_⟩
      rcases List.mem_cons.mp hm with rfl | hm
      · exact List.mem_cons_self
      · exact List.mem_cons_of_mem _ (hleft m hm)

/-- The numbers of a request stand in the fields of its body. -/
theorem carries_iff {r : Request} {x : Double} :
    r.Carries x ↔ ∃ m ∈ r.body.written.2, Holds m.2 x := by
  unfold Carries Holds toJson
  rw [mem_numbers_obj]
  constructor
  · rintro ⟨m, hm, hx⟩
    rcases List.mem_append.mp hm with hm | hm
    · rcases List.mem_cons.mp hm with rfl | hm
      · cases hx
      · exact ⟨m, hm, hx⟩
    · cases hb : r.binary with
      | false =>
        rw [hb] at hm
        cases hm
      | true =>
        rw [hb, if_pos rfl, List.mem_singleton] at hm
        subst hm
        cases hx
  · rintro ⟨m, hm, hx⟩
    exact ⟨m, List.mem_append_left _ (List.mem_cons_of_mem _ hm), hx⟩

/-- A request that was read carries only numbers of its document. -/
theorem shown_ofDocument {d : Document} {clean : Bool} {r : Request}
    (h : ofDocument d clean = .ok r) {x : Double} (hx : r.Carries x) : Shows d x := by
  unfold ofDocument at h
  split at h
  · rename_i ms whole
    obtain ⟨⟨binary, kept⟩, hkeep, h⟩ := bind_eq_ok.mp h
    dsimp only at h
    split at h
    · cases h
    · obtain ⟨⟨found, others⟩, hfind, h⟩ := bind_eq_ok.mp h
      dsimp only at h
      split at h
      · cases h
      · rename_i form
        obtain ⟨body, hbody, h⟩ := bind_eq_ok.mp h
        split at h
        · cases h
          obtain ⟨hform, hothers⟩ := mem_of_findAction hfind (by intro f hf; cases hf)
          obtain ⟨m, hm, hm'⟩ := carries_iff.mp hx
          obtain ⟨n, hn, hshown⟩ := form.shown_read hform hbody hm hm'
          obtain ⟨number, hnumber, hvalue⟩ := hshown
          exact ⟨number, Document.mem_numbers_obj (mem_of_keep hkeep n (hothers n hn)) hnumber, hvalue⟩
        · cases h
  · cases h

/-- A request that was read from a line carries only finite numbers: the reader
refuses a number without a finite value. -/
theorem isFinite_of_decode {line : String} {r : Request} (h : decode line = .ok r) {x : Double}
    (hx : r.Carries x) : x.isFinite = true := by
  obtain ⟨n, hn, hvalue⟩ := shown_ofDocument h hx
  rw [← hvalue]
  exact Document.finite_parse _ n hn

/-- The value of a request is readable when its numbers read back. -/
theorem readable_toJson {r : Request} (h : ∀ x, r.Carries x → ReadsBack x) :
    r.toJson.Readable := by
  intro n hn
  cases n with
  | real x => exact h x hn
  | integer k =>
    unfold toJson at hn
    rw [mem_numbers_obj] at hn
    obtain ⟨m, hm, hk⟩ := hn
    rcases List.mem_append.mp hm with hm | hm
    · rcases List.mem_cons.mp hm with rfl | hm
      · cases hk
      · exact r.body.written_fits m hm k hk
    · cases hb : r.binary with
      | false =>
        rw [hb] at hm
        cases hm
      | true =>
        rw [hb, if_pos rfl, List.mem_singleton] at hm
        subst hm
        cases hk

/-- The line of a request reads as the request, when its numbers read back. -/
theorem decode_encode {r : Request} (h : ∀ x, r.Carries x → ReadsBack x) :
    decode r.encode = .ok r := by
  have htrim : Text.trim r.toJson.chars = r.toJson.chars := trim_chars rfl
  unfold decode
  rw [toList_encode, htrim, parse_chars (readable_toJson h)]
  exact ofDocument_toJson r

/-- A request that is read from the line of another one asks for the same action, and
for the same kind of reply. Its numbers may be others: where the text of a number does
not read as that number. -/
theorem decode_encode_ok {r r' : Request} (h : decode r.encode = .ok r') :
    r'.body.written.1 = r.body.written.1 ∧ r'.binary = r.binary := by
  obtain ⟨form, hform, -⟩ := Body.read_written r.body
  have htrim : Text.trim r.toJson.chars = r.toJson.chars := trim_chars rfl
  have hdoc : r.toJson.asRead = .obj (documents asRead r.members) true := by
    rw [toJson, asRead, membersAsRead_eq_map]
    rfl
  unfold decode at h
  rw [toList_encode, htrim, parse_anyChars, hdoc] at h
  dsimp only at h
  rw [ofDocument_members r (fun _ => by rw [asRead]) (fun _ => by rw [asRead]) hform] at h
  split at h
  · obtain ⟨body, hread, rfl⟩ := map_eq_ok.mp h
    have hplace := ActionForm.placed_all.place_eq hform hread
    exact ⟨by rw [hplace, Nat.zero_add], rfl⟩
  · cases h

/-- The line of a request holds no character below the space. -/
theorem encode_not_low (r : Request) : ∀ c ∈ r.encode.toList, 0x20 ≤ c.toNat := by
  rw [toList_encode]
  exact chars_not_low r.toJson

/-- Requests pass through their lines unchanged. The line of a request holds no
character below the space, so that it holds no newline. It reads as the request,
when the numbers of the request are finite. A request that was read from any line
has a line of its own that reads as the same request. In both cases the texts of
the finite numbers that the request carries are taken to read as those numbers. -/
theorem line_round_trip :
    (∀ r : Request, ∀ c ∈ r.encode.toList, 0x20 ≤ c.toNat) ∧
    (∀ r : Request, (∀ x, r.Carries x → x.isFinite = true) →
      (∀ x, r.Carries x → x.isFinite = true → ReadsBack x) → decode r.encode = .ok r) ∧
    (∀ (line : String) (r : Request), decode line = .ok r →
      (∀ x, r.Carries x → x.isFinite = true → ReadsBack x) → decode r.encode = .ok r) := by
  refine ⟨encode_not_low, ?_, ?_⟩
  · intro r hfinite hback
    exact decode_encode fun x hx => hback x hx (hfinite x hx)
  · intro line r hread hback
    exact decode_encode fun x hx => hback x hx (isFinite_of_decode hread hx)

/-- A request with one rating. -/
def sampleRequest : Request :=
  ⟨.operation (.insertRatings ⟨7, .user, Table.empty.insert 1 ⟨4.5, some 12⟩⟩), true⟩

/-- A line with blanks, members in another order and the number of the action. -/
def sampleLine : String :=
  " \x7b\"rating_vector\":\x7b\"id\":7,\"kind\":\"user\",\"ratings\":" ++
    "[[1,\x7b\"rated_at\":12,\"value\":4.5\x7d]]\x7d,\"action\":5\x7d"

/-- Of numbers that are integers or one that reads back, all read back. -/
theorem readsBack_sample {j : Json} {ns : List Decimal.Number} (hj : j.numbers = ns)
    (h : ∀ n ∈ ns, n = .real 4.5 ∨ ∃ k, n = .integer k) {x : Double} (hx : Holds j x) :
    ReadsBack x := by
  rw [Holds, hj] at hx
  obtain hvalue | ⟨k, hk⟩ := h _ hx
  · rw [Decimal.Number.real.inj hvalue]
    with_unfolding_all rfl
  · cases hk

/-- Both ways round, on a request with a rating and on a line with one. -/
theorem line_round_trip_sample :
    decode sampleRequest.encode = .ok sampleRequest ∧
      ∃ r, decode sampleLine = .ok r ∧ decode r.encode = .ok r := by
  have hsent : sampleRequest.toJson.numbers =
      [.integer 7, .integer 1, .real 4.5, .integer 12] := by decide +kernel
  have hline : (decode sampleLine).toOption.map (fun r => r.toJson.numbers) =
      some [.integer 7, .integer 1, .real 4.5, .integer 12] := by decide +kernel
  have hback : ∀ {r : Request},
      r.toJson.numbers = [.integer 7, .integer 1, .real 4.5, .integer 12] →
        ∀ x, r.Carries x → ReadsBack x := fun h x hx => readsBack_sample h (by simp) hx
  constructor
  · refine line_round_trip.2.1 sampleRequest ?_ fun x hx _ => hback hsent x hx
    exact fun x hx => (hback hsent x hx).isFinite
  · cases hr : decode sampleLine with
    | error e =>
      rw [hr] at hline
      cases hline
    | ok r =>
      rw [hr] at hline
      have hread : r.toJson.numbers = [.integer 7, .integer 1, .real 4.5, .integer 12] :=
        Option.some.inj hline
      exact ⟨r, rfl, line_round_trip.2.2 sampleLine r hr fun x hx _ => hback hread x hx⟩

end Request

end RatingServer
