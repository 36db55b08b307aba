import RatingServer.Proofs.Endpoint.Parts

/-!
# Addresses as texts

An address can be written in more than one way: its port with a sign or with leading
zeros, and a path that is empty with a slash or without. The ways to write addresses are
told without reading any text, as spellings. A text is read exactly if it is a spelling,
and the address has the parts of the spelling. The text of an address that was read is
one of its spellings, and the texts of gateways tell their hosts and ports.
-/

namespace RatingServer

namespace Scheme

/-- Exactly the name of a scheme is known as it. -/
theorem ofName?_eq_some_iff {name : String} {scheme : Scheme} :
    ofName? name = some scheme ↔ name = scheme.name := by
  constructor
  · intro h
    unfold ofName? at h
    split at h <;> cases h <;> rfl
  · rintro rfl
    cases scheme <;> rfl

end Scheme

namespace Endpoint

/-- One way to write an address. -/
structure Spelling where
  /-- The scheme. -/
  scheme : Scheme
  /-- The host. -/
  host : String
  /-- The numeral that the port is written as. -/
  numeral : String
  /-- The port. -/
  port : UInt16
  /-- What stands after the slash behind the port, if there is one. -/
  afterSlash : Option String
  /-- There is a host. -/
  host_ne_empty : host ≠ ""
  /-- The host ends before any slash. -/
  slash_not_mem_host : '/' ∉ host.toList
  /-- The numeral denotes the port, and so a number below 65536. -/
  denotes : Text.Numeral numeral.toList port.toNat

namespace Spelling

/-- The host and the port as they are written. -/
def authority (s : Spelling) : String := s.host ++ ":" ++ s.numeral

/-- What is written. -/
def text (s : Spelling) : String :=
  s.scheme.name ++ "://" ++ s.authority ++ s.afterSlash.elim "" ("/" ++ ·)

/-- The address that is written. A path is not empty. -/
def endpoint (s : Spelling) : Endpoint :=
  ⟨s.scheme, s.host, s.port, s.afterSlash.filter (· ≠ "")⟩

/-- The numeral of the port has no colon, so the host ends at the last one. -/
theorem colon_not_mem_numeral (s : Spelling) : ':' ∉ s.numeral.toList :=
  s.denotes.not_mem (by decide) (by decide)

/-- The host and the port end before any slash. -/
theorem slash_not_mem_authority (s : Spelling) : '/' ∉ s.authority.toList := by
  have hnumeral : '/' ∉ s.numeral.toList := s.denotes.not_mem (by decide) (by decide)
  simp [authority, s.slash_not_mem_host, hnumeral]

/-- The host and the port are read back. -/
theorem parseAuthority_authority (s : Spelling) :
    parseAuthority s.authority.toList = .ok (s.host, s.port) :=
  parseAuthority_eq_ok_iff.mpr
    ⟨s.host_ne_empty, s.numeral.toList, s.denotes, by simp [authority]⟩

end Spelling

/-- The name of a scheme is all that stands before the first separator after it. -/
theorem splitFirst_scheme (scheme : Scheme) (rest : List Char) :
    splitFirst [':', '/', '/'] (scheme.name.toList ++ [':', '/', '/'] ++ rest) =
      some (scheme.name.toList, rest) := by
  cases scheme <;> rfl

/-- The text before the first slash, and the text after it. -/
def cutSlash (cs : List Char) : List Char × List Char := (splitFirst ['/'] cs).getD (cs, [])

/-- A path, if it is not empty. -/
def pathOf (cs : List Char) : Option String :=
  if cs.isEmpty then none else some (String.ofList cs)

/-- A slash and what stands after it. -/
def slashed (afterSlash : Option String) : List Char := afterSlash.elim [] ('/' :: ·.toList)

/-- A text is cut at the slash that is put after a text without any. -/
theorem cutSlash_append {cs : List Char} (h : '/' ∉ cs) (afterSlash : Option String) :
    cutSlash (cs ++ slashed afterSlash) = (cs, afterSlash.elim [] String.toList) := by
  cases afterSlash with
  | none =>
    rw [slashed, Option.elim_none, List.append_nil, cutSlash, splitFirst_eq_none_iff.mpr h]
    rfl
  | some path =>
    rw [slashed, Option.elim_some, cutSlash, splitFirst_eq_some_iff.mpr ⟨rfl, h⟩]
    rfl

/-- A text has no slash, or a first one. -/
theorem exists_eq_append_slashed (cs : List Char) :
    ∃ before afterSlash, '/' ∉ before ∧ cs = before ++ slashed afterSlash := by
  cases hsplit : splitFirst ['/'] cs with
  | none => exact ⟨cs, none, splitFirst_eq_none_iff.mp hsplit, (List.append_nil cs).symm⟩
  | some r =>
    obtain ⟨hcs, hout⟩ := splitFirst_eq_some_iff.mp hsplit
    refine ⟨r.1, some (String.ofList r.2), hout, ?_⟩
    rw [hcs, slashed, Option.elim_some, String.toList_ofList]

/-- The path is what stands after the slash, unless that is empty. -/
theorem pathOf_afterSlash (afterSlash : Option String) :
    pathOf (afterSlash.elim [] String.toList) = afterSlash.filter (· ≠ "") := by
  cases afterSlash with
  | none => rfl
  | some path =>
    by_cases hempty : path = ""
    · subst hempty
      rfl
    · have hchars : path.toList.isEmpty = false :=
        List.isEmpty_eq_false_iff.mpr fun hnil => hempty (String.toList_eq_nil_iff.mp hnil)
      simp [pathOf, hchars, hempty, Option.filter_some]

/-- What is read after the name of a scheme. -/
theorem parse_of_scheme {uri : String} {scheme : Scheme} {rest : List Char}
    (h : uri.toList = scheme.name.toList ++ [':', '/', '/'] ++ rest) :
    parse uri = (parseAuthority (cutSlash rest).1).map fun r =>
      ⟨scheme, r.1, r.2, pathOf (cutSlash rest).2⟩ := by
  rw [parse, h, splitFirst_scheme]
  simp only [String.ofList_toList, Scheme.ofName?_eq_some_iff.mpr rfl]
  rfl

/-- What is read begins with the name of a scheme. -/
theorem exists_scheme_of_parse {uri : String} {e : Endpoint} (h : parse uri = .ok e) :
    ∃ (scheme : Scheme) (rest : List Char),
      uri.toList = scheme.name.toList ++ [':', '/', '/'] ++ rest := by
  unfold parse at h
  split at h
  · cases h
  · rename_i name rest hsplit
    split at h
    · cases h
    · rename_i scheme hname
      refine ⟨scheme, rest, ?_⟩
      rw [eq_of_splitFirst hsplit, ← Scheme.ofName?_eq_some_iff.mp hname, String.toList_ofList]

/-- The characters of a spelling. -/
theorem Spelling.toList_text (s : Spelling) :
    s.text.toList = s.scheme.name.toList ++ [':', '/', '/'] ++
      (s.authority.toList ++ slashed s.afterSlash) := by
  cases hslash : s.afterSlash <;> simp [text, slashed, hslash]

/-- A spelling is read as its address. -/
theorem Spelling.parse_text (s : Spelling) : parse s.text = .ok s.endpoint := by
  rw [parse_of_scheme s.toList_text, cutSlash_append s.slash_not_mem_authority,
    s.parseAuthority_authority, pathOf_afterSlash]
  rfl

/-- What is read is a spelling of the address. -/
theorem exists_spelling_of_parse {uri : String} {e : Endpoint} (h : parse uri = .ok e) :
    ∃ s : Spelling, s.text = uri ∧ s.endpoint = e := by
  obtain ⟨scheme, rest, hrest⟩ := exists_scheme_of_parse h
  obtain ⟨authority, afterSlash, hout, rfl⟩ := exists_eq_append_slashed rest
  rw [parse_of_scheme hrest, cutSlash_append hout, pathOf_afterSlash] at h
  cases hauthority : parseAuthority authority with
  | error fault =>
    rw [hauthority] at h
    cases h
  | ok r =>
    rw [hauthority] at h
    cases h
    obtain ⟨host, port⟩ := r
    obtain ⟨hne, numeral, hnumeral, rfl⟩ := parseAuthority_eq_ok_iff.mp hauthority
    have hhost : '/' ∉ host.toList := fun hmem => hout (List.mem_append_left _ hmem)
    let s : Spelling :=
      ⟨scheme, host, String.ofList numeral, port, afterSlash, hne, hhost,
        by rwa [String.toList_ofList]⟩
    refine ⟨s, String.toList_inj.mp ?_, rfl⟩
    rw [s.toList_text, hrest]
    simp [s, Spelling.authority]

/-- Exactly the spellings of an address are read as it. -/
theorem parse_eq_ok_iff {uri : String} {e : Endpoint} :
    parse uri = .ok e ↔ ∃ s : Spelling, s.text = uri ∧ s.endpoint = e := by
  constructor
  · exact exists_spelling_of_parse
  · rintro ⟨s, rfl, rfl⟩
    exact s.parse_text

/-- The spelling that an address is printed as. -/
def printed (e : Endpoint) (hhost : e.host ≠ "") (hslash : '/' ∉ e.host.toList) : Spelling :=
  ⟨e.scheme, e.host, e.port.toNat.repr, e.port, e.path, hhost, hslash,
    Text.numeral_repr e.port.toNat⟩

/-- An address whose host is neither empty nor has a slash, and whose path is not empty, is
read from its text. -/
theorem parse_text {e : Endpoint} (hhost : e.host ≠ "") (hslash : '/' ∉ e.host.toList)
    (hpath : e.path ≠ some "") : parse e.text = .ok e := by
  have htext : (e.printed hhost hslash).text = e.text := by
    simp [printed, Spelling.text, Spelling.authority, text, socketAddress]
  have hendpoint : (e.printed hhost hslash).endpoint = e := by
    have hfilter : e.path.filter (· ≠ "") = e.path := by
      cases hsome : e.path with
      | none => rfl
      | some path =>
        have hne : path ≠ "" := fun hempty => hpath (hempty ▸ hsome)
        exact Option.filter_some_pos (decide_eq_true hne)
    exact congrArg (Endpoint.mk e.scheme e.host e.port) hfilter
  exact parse_eq_ok_iff.mpr ⟨_, htext, hendpoint⟩

/-- The characters of the text of a gateway. -/
theorem toList_text_gateway (scheme : Scheme) (host : String) (port : UInt16) :
    (gateway scheme host port).text.toList =
      (scheme.name.toList ++ [':', '/', '/'] ++ host.toList ++ ':' :: port.toNat.repr.toList) ++
        "/gateway".toList := by
  simp [gateway, text, socketAddress]

/-- The text of a gateway tells its host and its port, whatever the host is. -/
theorem gateway_inj {scheme scheme' : Scheme} {host host' : String} {port port' : UInt16}
    (h : (gateway scheme host port).text = (gateway scheme' host' port').text) :
    host = host' ∧ port = port' := by
  have hcolon : ∀ port : UInt16, ':' ∉ port.toNat.repr.toList := fun port =>
    (Text.numeral_repr port.toNat).not_mem (by decide) (by decide)
  have hchars := congrArg String.toList h
  rw [toList_text_gateway, toList_text_gateway, List.append_left_inj] at hchars
  -- A host may have colons, but the last colon is the one before the port.
  have hcut : splitLast ':' _ = _ := splitLast_eq_some_iff.mpr ⟨hchars, hcolon port'⟩
  rw [splitLast_eq_some_iff.mpr ⟨rfl, hcolon port⟩] at hcut
  obtain ⟨hbefore, hnumeral⟩ := Prod.mk.inj (Option.some.inj hcut)
  have hhost := congrArg (splitFirst [':', '/', '/']) hbefore
  rw [splitFirst_scheme, splitFirst_scheme] at hhost
  have hport : port.toNat = port'.toNat :=
    (Text.numeral_repr _).unique (hnumeral ▸ Text.numeral_repr _)
  exact ⟨String.toList_inj.mp (Prod.mk.inj (Option.some.inj hhost)).2, UInt16.toNat_inj.mp hport⟩

/-- The texts that are read as addresses, and the texts that addresses are printed as. -/
structure AddressTexts : Prop where
  /-- A text is read exactly if it is a spelling. -/
  read_iff : ∀ uri, (∃ e, parse uri = .ok e) ↔ ∃ s : Spelling, s.text = uri
  /-- A spelling is read as the address with its parts. -/
  parts : ∀ s : Spelling, parse s.text = .ok s.endpoint
  /-- After the separator, a host stands before the last colon of what stands before the
  first slash. -/
  host_cut : ∀ uri e, parse uri = .ok e → ∃ authority numeral rest,
    uri = e.scheme.name ++ "://" ++ authority ++ rest ∧
    '/' ∉ authority.toList ∧ (rest = "" ∨ ∃ path, rest = "/" ++ path) ∧
    authority = e.host ++ ":" ++ numeral ∧ ':' ∉ numeral.toList
  /-- The text of an address that was read is read as an equal one, with the same text. -/
  printed : ∀ uri e, parse uri = .ok e →
    ∃ e', parse e.text = .ok e' ∧ e' = e ∧ e'.text = e.text
  /-- The text of a gateway is read as its scheme, its host, its port and its path. -/
  gateways : ∀ scheme host port, host ≠ "" → '/' ∉ host.toList →
    parse (gateway scheme host port).text = .ok ⟨scheme, host, port, some "gateway"⟩
  /-- Gateways at another host or another port have other texts. -/
  gateways_apart : ∀ scheme scheme' host host' port port', (host, port) ≠ (host', port') →
    (gateway scheme host port).text ≠ (gateway scheme' host' port').text

/-- Exactly the spellings are read, as the addresses with their parts, and what is printed
is read back. -/
theorem address_texts : AddressTexts := by
  refine ⟨fun uri => ?_, Spelling.parse_text, fun uri e h => ?_, fun uri e h => ?_,
    fun scheme host port hhost hslash => ?_, fun _ _ host host' port port' hne heq => ?_⟩
  · constructor
    · rintro ⟨e, h⟩
      obtain ⟨s, htext, -⟩ := exists_spelling_of_parse h
      exact ⟨s, htext⟩
    · rintro ⟨s, rfl⟩
      exact ⟨s.endpoint, s.parse_text⟩
  · obtain ⟨s, rfl, rfl⟩ := exists_spelling_of_parse h
    refine ⟨s.authority, s.numeral, s.afterSlash.elim "" ("/" ++ ·), rfl,
      s.slash_not_mem_authority, ?_, rfl, s.colon_not_mem_numeral⟩
    cases s.afterSlash with
    | none => exact .inl rfl
    | some path => exact .inr ⟨path, rfl⟩
  · obtain ⟨s, rfl, rfl⟩ := exists_spelling_of_parse h
    have hpath : s.endpoint.path ≠ some "" := fun hempty => by
      have hpasses := (Option.filter_eq_some_iff.mp hempty).2
      exact absurd hpasses (by decide)
    exact ⟨_, parse_text s.host_ne_empty s.slash_not_mem_host hpath, rfl, rfl⟩
  · exact parse_text (e := gateway scheme host port) hhost hslash (by simp [gateway])
  · obtain ⟨hhost, hport⟩ := gateway_inj heq
    exact hne (Prod.ext hhost hport)

/-- A host with colons, a port with a sign and zeros, and a path that looks like an
address. -/
def colonSample : Spelling where
  scheme := .socket
  host := "fe80::1"
  numeral := "+0080"
  port := 80
  afterSlash := some "x://y:1"
  host_ne_empty := by decide
  slash_not_mem_host := by decide
  denotes := Text.natural?_eq_some_iff.mp (by decide)

/-- The spelling is read, printed and read again; a gateway at the same host is read. -/
theorem address_texts_colons :
    parse "hdp://fe80::1:+0080/x://y:1" = .ok ⟨.socket, "fe80::1", 80, some "x://y:1"⟩ ∧
      parse "hdp://fe80::1:80/x://y:1" = .ok ⟨.socket, "fe80::1", 80, some "x://y:1"⟩ ∧
      parse "local://fe80::1:80/gateway" = .ok ⟨.inProcess, "fe80::1", 80, some "gateway"⟩ := by
  have hread : parse "hdp://fe80::1:+0080/x://y:1" = .ok colonSample.endpoint :=
    address_texts.parts colonSample
  obtain ⟨e, hagain, rfl, -⟩ := address_texts.printed _ _ hread
  exact ⟨hread, hagain, address_texts.gateways .inProcess "fe80::1" 80 (by decide) (by decide)⟩

end Endpoint

end RatingServer
