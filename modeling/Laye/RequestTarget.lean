import Laye.Sniff

/-!
# Two readings of a request line

`parse_request_target` cuts the bytes at the first CR LF and decodes what is in front of it;
`parse_request` decodes the whole head and cuts the text. A connection is routed by the one and
served by the other.
-/

namespace Laye

section FirstLine

variable {buf : Bytes} {headEnd : Nat} {head : String}

/-- A line of text has no CR LF in its bytes either. -/
lemma not_infix_firstLine (head : List Char) :
    ¬CRLF <:+: intoBytes (String.ofList (firstLine head)) := by
  have hline : firstLine head ∈ Search.splitPair '\r' '\n' head :=
    List.mem_of_mem_head? (Search.head?_splitPair head)
  rw [intoBytes_eq, String.toList_ofList]
  intro hin
  have hpair : CRLF = ['\r', '\n'].flatMap String.utf8EncodeChar := by decide
  rw [hpair] at hin
  have hchars : ['\r', '\n'] <:+: firstLine head := Utf8.infix_of_encode_infix (by decide) hin
  exact Search.not_infix_of_mem_splitPair hline hchars

/-- Behind the first line of a head, or behind the head, comes a CR LF. -/
lemma firstLine_prefix (head : List Char) (rest : Bytes) :
    ∃ more, head.flatMap String.utf8EncodeChar ++ CRLF ++ rest =
      (firstLine head).flatMap String.utf8EncodeChar ++ CRLF ++ more := by
  cases hposition : Search.position ['\r', '\n'] head with
  | none => exact ⟨rest, by rw [firstLine, hposition, Option.getD_none, List.take_length]⟩
  | some i =>
    obtain ⟨lines, hcut⟩ := Search.cut_at_position hposition
    refine ⟨lines.flatMap String.utf8EncodeChar ++ CRLF ++ rest, ?_⟩
    have hpair : ['\r', '\n'].flatMap String.utf8EncodeChar = CRLF := by decide
    rw [firstLine, hposition, Option.getD_some]
    conv_lhs => rw [hcut]
    simp only [List.flatMap_append, hpair, List.append_assoc]

/-- A buffer begins with the first line of its head and a CR LF. -/
lemma eq_firstLine_append (hhead : findDoubleCrlf buf = some headEnd)
    (hutf8 : fromUtf8 (buf.take headEnd) = some head) :
    ∃ more, buf = intoBytes (String.ofList (firstLine head.toList)) ++ 13 :: 10 :: more := by
  obtain ⟨rest, hrest⟩ := Search.cut_at_position hhead
  obtain ⟨more, hmore⟩ := firstLine_prefix head.toList (CRLF ++ rest)
  refine ⟨more, ?_⟩
  rw [← fromUtf8_eq_some.mp hutf8, intoBytes_eq] at hrest
  rw [hrest, intoBytes_eq, String.toList_ofList]
  simp only [List.append_assoc] at hmore ⊢
  exact hmore

/-- The sniffer reads the first line of the head. -/
lemma parseRequestTarget_firstLine_iff {target : String} (hhead : findDoubleCrlf buf = some headEnd)
    (hutf8 : fromUtf8 (buf.take headEnd) = some head) :
    parseRequestTarget buf = some target ↔ ∃ method version,
      Str.splitn 3 ' ' (String.ofList (firstLine head.toList)) = [method, target, version] := by
  obtain ⟨line, hline⟩ : ∃ line, String.ofList (firstLine head.toList) = line := ⟨_, rfl⟩
  obtain ⟨more, hmore⟩ := eq_firstLine_append hhead hutf8
  have hnot : ¬[13, 10] <:+: intoBytes line := hline ▸ not_infix_firstLine head.toList
  have hread : fromUtf8 (intoBytes line) = some line := fromUtf8_eq_some.mpr rfl
  rw [hline] at hmore ⊢
  rw [hmore, parseRequestTarget_line_iff hnot, hread]
  simp only [Option.some.injEq, exists_and_left, exists_eq_left']

end FirstLine

/-! ### The two parsers -/

/-- The first line of a head has three parts, with a space between one and the next. -/
def HasThreeParts (head : Bytes) : Prop :=
  ∃ text line, fromUtf8 head = some text ∧ (Str.splitCrlf text).head? = some line ∧
    (Str.splitn 3 ' ' line).length = 3

/-- The line is cut at its first two spaces. -/
lemma hasThreeParts_iff {head : Bytes} {text : String} (hutf8 : fromUtf8 head = some text) :
    HasThreeParts head ↔ 2 ≤ (firstLine text.toList).count ' ' := by
  have hlength := Str.length_splitn 2 ' ' (String.ofList (firstLine text.toList))
  rw [String.toList_ofList] at hlength
  constructor
  · rintro ⟨text', line, hutf8', hfirst, hthree⟩
    rw [hutf8, Option.some.injEq] at hutf8'
    rw [← hutf8', head?_splitCrlf, Option.some.injEq] at hfirst
    rw [hfirst, hthree] at hlength
    omega
  · intro hspaces
    refine ⟨text, _, hutf8, head?_splitCrlf text, ?_⟩
    rw [hlength, Nat.min_eq_left hspaces]

section Agreement

variable {buf : Bytes} {headEnd : Nat}

lemma requestLine_of_parseRequest {bodyStart bodyLen : Nat} {request : ParsedRequest}
    (h : parseRequest buf headEnd bodyStart bodyLen = .ok (some request)) :
    requestLine (buf.take headEnd) = some (request.method, request.path) := by
  obtain ⟨head, hslice, hrest⟩ := bind_eq_ok.mp h
  have hhead : head = buf.take headEnd := by
    unfold slice at hslice
    split at hslice
    · rw [← Except.ok.inj hslice, List.drop_zero]
    · cases hslice
  rw [← hhead]
  cases hline : requestLine head with
  | none => simp [hline, pure, Except.pure] at hrest
  | some parts =>
    obtain ⟨method, path⟩ := parts
    rw [hline] at hrest
    obtain ⟨stop, -, hrest⟩ := bind_eq_ok.mp hrest
    obtain ⟨body, -, hrest⟩ := bind_eq_ok.mp hrest
    cases hrest
    rfl

/-- The sniffer reads a target exactly off three parts, and it is the path. -/
lemma parseRequestTarget_eq_some_iff {method path target : String}
    (hhead : findDoubleCrlf buf = some headEnd)
    (hline : requestLine (buf.take headEnd) = some (method, path)) :
    parseRequestTarget buf = some target ↔ HasThreeParts (buf.take headEnd) ∧ path = target := by
  simp only [requestLine, bind, Option.bind_eq_some_iff] at hline
  obtain ⟨text, hutf8, line, hfirst, hparts⟩ := hline
  rw [head?_splitCrlf, Option.some.injEq] at hfirst
  rw [hasThreeParts_iff hutf8, parseRequestTarget_firstLine_iff hhead hutf8, hfirst]
  have hcount : (firstLine text.toList).count ' ' = line.toList.count ' ' := by
    rw [← hfirst, String.toList_ofList]
  rw [hcount]
  constructor
  · rintro ⟨first, third, hthree⟩
    have hlength := Str.length_splitn 2 ' ' line
    rw [hthree] at hlength hparts
    cases hparts
    simp only [List.length_cons, List.length_nil] at hlength
    exact ⟨by omega, rfl⟩
  · rintro ⟨hspaces, rfl⟩
    obtain ⟨first, second, third, hthree⟩ := splitn_three_parts hspaces
    rw [hthree] at hparts
    cases hparts
    exact ⟨_, _, hthree⟩

/-- The target that is sniffed is the path that is served, and a path in a line of three parts is
sniffed. -/
theorem request_target_agrees {bodyStart bodyLen : Nat} {request : ParsedRequest}
    (hhead : findDoubleCrlf buf = some headEnd)
    (hparse : parseRequest buf headEnd bodyStart bodyLen = .ok (some request)) :
    (∀ target, parseRequestTarget buf = some target → request.path = target) ∧
      (HasThreeParts (buf.take headEnd) → parseRequestTarget buf = some request.path) := by
  have hline := requestLine_of_parseRequest hparse
  constructor
  · intro target htarget
    exact ((parseRequestTarget_eq_some_iff hhead hline).mp htarget).2
  · intro hthree
    exact (parseRequestTarget_eq_some_iff hhead hline).mpr ⟨hthree, rfl⟩

end Agreement

/-- A request without headers. -/
def shortRequest : Bytes := intoBytes "GET /ws/a HTTP/1.1\r\n\r\nhi"

lemma fromUtf8_shortRequest : fromUtf8 (shortRequest.take 18) = some "GET /ws/a HTTP/1.1" :=
  fromUtf8_eq_some.mpr (by decide)

lemma findDoubleCrlf_shortRequest : findDoubleCrlf shortRequest = some 18 := by decide

lemma parseRequest_shortRequest :
    parseRequest shortRequest 18 22 2 = .ok (some ⟨"GET", "/ws/a", [104, 105]⟩) := by
  rw [parseRequest_eq (by decide) findDoubleCrlf_shortRequest (by decide), requestLine_eq,
    fromUtf8_shortRequest]
  decide

theorem request_target_agrees_short : parseRequestTarget shortRequest = some "/ws/a" := by
  have hthree : HasThreeParts (shortRequest.take 18) :=
    ⟨_, "GET /ws/a HTTP/1.1", fromUtf8_shortRequest, by decide, by decide⟩
  exact (request_target_agrees findDoubleCrlf_shortRequest parseRequest_shortRequest).2 hthree

/-! ### One connection, peeked at and read -/

section Connection

variable {reads : List Read} {request : ParsedRequest}

/-- A request comes from the first line of its stream. -/
lemma requestLine_of_readFullRequest (h : readFullRequest reads = .ok (some request)) :
    ∃ headEnd, findDoubleCrlf (streamOf reads) = some headEnd ∧
      requestLine ((streamOf reads).take headEnd) = some (request.method, request.path) := by
  obtain ⟨hover, hwithin⟩ := readFullRequest_eq reads
  have hfirst : firstRequest (streamOf reads) = some request := by
    by_cases hoverruns : Overruns [] reads
    · rw [hover hoverruns] at h
      cases h
    · rw [hwithin hoverruns] at h
      exact Except.ok.inj h
  simp only [firstRequest, Option.bind_eq_bind, Option.bind_eq_some_iff] at hfirst
  obtain ⟨headEnd, hhead, -, -, head, hutf8, ⟨method, path⟩, hparts, hrequest⟩ := hfirst
  refine ⟨headEnd, hhead, ?_⟩
  rw [requestLine_eq, hutf8, Option.bind_some, hparts, ← Option.some.inj hrequest]

/-- A target in what was peeked is the path that is read, however the stream is cut. -/
theorem parseRequestTarget_peek {peek : Bytes} {target : String} (hpeek : peek <+: streamOf reads)
    (hread : readFullRequest reads = .ok (some request))
    (htarget : parseRequestTarget peek = some target) : request.path = target := by
  obtain ⟨headEnd, hhead, hline⟩ := requestLine_of_readFullRequest hread
  obtain ⟨more, hmore⟩ := hpeek
  have hwhole := parseRequestTarget_append htarget more
  rw [hmore] at hwhole
  exact ((parseRequestTarget_eq_some_iff hhead hline).mp hwhole).2

/-- An upgrade goes where the path that would be read goes. -/
theorem classifyWsUpgrade_read {peek : Bytes} {allowList : List String}
    (hpeek : peek <+: streamOf reads) (hread : readFullRequest reads = .ok (some request))
    (hupgrade : classifyWsUpgrade peek allowList ≠ .notUpgrade) :
    classifyWsUpgrade peek allowList = routeOfTarget allowList request.path := by
  obtain ⟨hlooks, htarget⟩ := classifyWsUpgrade_eq_iff.mp hupgrade
  obtain ⟨target, htarget⟩ := Option.isSome_iff_exists.mp htarget
  have hpath : request.path = target := parseRequestTarget_peek hpeek hread htarget
  simp only [classifyWsUpgrade, hlooks, htarget, hpath]
  rfl

end Connection

end Laye
