import Laye.NormalHandle

/-!
# Looking up a handle

What the two look-ups make of any answer: the text of a well-known file, and TXT records.
-/

namespace Laye

open Interaction

/-! ### Well-known answers -/

section WellKnown

/-- The look-up gets an answer. -/
def wellKnownTrace (handle : String) (resp : HttpResponse) : List RelayEvent :=
  [⟨.buildClient, .ok ()⟩, ⟨.send (.get s!"https://{handle}/.well-known/atproto-did"), .ok resp⟩]

/-- What the look-up does with the trimmed text of an answer. -/
def wellKnownEnd (did : String) : Relay String String :=
  if isValidDid did then return did
  else
    match Str.sliceTo did (min (Str.len did) 32) with
    | none => Relay.panic
    | some excerpt => .fail s!"well-known body not a did: {excerpt}"

/-- The look-up ends as it should on a text: with the DID, or with an error that quotes the front of
the text, and without a panic. -/
structure WellKnownRead (d : RelayDeps) (handle : String) (resp : HttpResponse) (did : String) :
    Prop where
  valid : isValidDid did = true →
    Returns (resolveHandleViaWellKnown d handle) (wellKnownTrace handle resp) did
  invalid : isValidDid did = false → ∃ excerpt : String, excerpt.toList <+: did.toList ∧
    Str.len excerpt ≤ 32 ∧ After (wellKnownTrace handle resp) (resolveHandleViaWellKnown d handle)
      (.fail s!"well-known body not a did: {excerpt}")
  safe : ¬Asks (resolveHandleViaWellKnown d handle) (wellKnownTrace handle resp) .panicked

variable {d : RelayDeps} {handle : String} {resp : HttpResponse} {body : String}

lemma after_wellKnown_iff (hsuccess : resp.isSuccess = true) (htext : resp.text = .ok body)
    {q : Relay String String} :
    After (wellKnownTrace handle resp) (resolveHandleViaWellKnown d handle) q ↔
      q = wellKnownEnd (Str.trim body) := by
  simp only [wellKnownTrace, resolveHandleViaWellKnown, httpClient, Relay.buildClient,
    Program.op_bind, Program.done_bind, Program.mapError, Relay.send, after_op_cons_iff,
    Relay.orElse, Except.mapError, Program.ofExcept, hsuccess, htext, if_true, after_nil_iff,
    wellKnownEnd]
  cases isValidDid (Str.trim body) with
  | true => simp only [if_true, eq_comm]
  | false => cases Str.sliceTo (Str.trim body) (min (Str.len (Str.trim body)) 32) <;>
      simp only [Bool.false_eq_true, if_false, eq_comm]

/-- The excerpt can be cut off exactly where the text is short or has a boundary at its 32nd byte. -/
lemma sliceTo_min_iff {did : String} {n : Nat} :
    (Str.sliceTo did (min (Str.len did) n)).isSome = true ↔
      Str.len did ≤ n ∨ Str.isCharBoundary did n = true := by
  change Str.isCharBoundary did (min (Str.len did) n) = true ↔ _
  rcases Nat.le_total (Str.len did) n with hle | hle
  · rw [Nat.min_eq_left hle]
    exact iff_of_true (Str.isCharBoundary_len did) (Or.inl hle)
  · rw [Nat.min_eq_right hle]
    constructor
    · exact Or.inr
    · rintro (hshort | hboundary)
      · rw [Nat.le_antisymm hle hshort]
        exact Str.isCharBoundary_len did
      · exact hboundary

/-- Whatever text a host serves, the look-up reads it or refuses it, unless the text is no DID and
has a character across its 32nd byte. -/
theorem wellKnownRead_iff (hsuccess : resp.isSuccess = true) (htext : resp.text = .ok body) :
    WellKnownRead d handle resp (Str.trim body) ↔
      isValidDid (Str.trim body) = true ∨ Str.len (Str.trim body) ≤ 32 ∨
        Str.isCharBoundary (Str.trim body) 32 = true := by
  have hend := @after_wellKnown_iff d handle resp body hsuccess htext
  rw [← sliceTo_min_iff]
  cases hdid : isValidDid (Str.trim body) with
  | true =>
    have hreturn : wellKnownEnd (Str.trim body) = .done (Str.trim body) := if_pos hdid
    rw [hreturn] at hend
    refine iff_of_true ⟨fun _ => hend.mpr rfl, fun h => ?_, ?_⟩ (Or.inl rfl)
    · rw [hdid] at h
      cases h
    · rintro ⟨next, h⟩
      cases hend.mp h
  | false =>
    have hno : ¬isValidDid (Str.trim body) = true := Bool.eq_false_iff.mp hdid
    cases hslice : Str.sliceTo (Str.trim body) (min (Str.len (Str.trim body)) 32) with
    | none =>
      have hpanic : wellKnownEnd (Str.trim body) = .op .panicked Empty.elim := by
        rw [wellKnownEnd, if_neg hno, hslice]
        rfl
      rw [hpanic] at hend
      refine iff_of_false (fun h => h.safe ⟨_, hend.mpr rfl⟩) ?_
      simp
    | some excerpt =>
      have hfail : wellKnownEnd (Str.trim body) =
          .fail s!"well-known body not a did: {excerpt}" := by
        rw [wellKnownEnd, if_neg hno, hslice]
      rw [hfail] at hend
      obtain ⟨hfront, hlen⟩ := Str.sliceTo_eq_some_iff.mp hslice
      refine iff_of_true ⟨fun h => absurd h hno, fun _ => ⟨excerpt, hfront, ?_, hend.mpr rfl⟩, ?_⟩
        (Or.inr rfl)
      · rw [hlen]
        exact Nat.min_le_right _ _
      · rintro ⟨next, h⟩
        cases hend.mp h

/-- An answer with a text. -/
def textResponse (body : String) : HttpResponse :=
  { status := 200, dpopNonce := none, text := .ok body, json := .error "", shapeError := "" }

theorem wellKnownRead_plc :
    Str.trim " did:plc:abc\n" = "did:plc:abc" ∧ ∀ (d : RelayDeps) (handle : String),
      WellKnownRead d handle (textResponse " did:plc:abc\n") (Str.trim " did:plc:abc\n") :=
  ⟨by decide, fun _ _ => (wellKnownRead_iff rfl rfl).mpr (Or.inl (by decide))⟩

/-- The 32nd byte of this text is in the middle of its last character. -/
theorem wellKnown_panics :
    let body := "no did here, but a host's page é"
    Str.trim body = body ∧ ∀ (d : RelayDeps) (handle : String),
      Asks (resolveHandleViaWellKnown d handle) (wellKnownTrace handle (textResponse body)) .panicked ∧
        ¬WellKnownRead d handle (textResponse body) body := by
  intro body
  have htrim : Str.trim body = body := by decide
  refine ⟨htrim, fun d handle => ?_⟩
  have hend : wellKnownEnd (Str.trim body) = .op .panicked Empty.elim := by
    have hno : ¬isValidDid body = true := by decide
    have hslice : Str.sliceTo body (min (Str.len body) 32) = none := by decide
    rw [htrim, wellKnownEnd, if_neg hno, hslice]
    rfl
  have hasks : Asks (resolveHandleViaWellKnown d handle) (wellKnownTrace handle (textResponse body))
      .panicked := ⟨_, (after_wellKnown_iff rfl rfl).mpr hend.symm⟩
  exact ⟨hasks, fun h => h.safe hasks⟩

end WellKnown

/-! ### TXT answers -/

section Doh

/-- One quoted string of a TXT answer. -/
def quoted (chunk : String) : String := "\"" ++ chunk ++ "\""

/-- How the DNS server writes a TXT record of several strings. -/
def renderTxt (chunks : List String) : String := " ".intercalate (chunks.map quoted)

/-- The record `did=` with the DID, written in `chunks`. -/
structure ChunkedTxt (did : String) (chunks : List String) (answer : Json) : Prop where
  valid : isValidDid did = true
  unquoted : '"' ∉ did.toList
  joined : String.join chunks = "did=" ++ did
  data : answer.get "data" = some (.string (renderTxt chunks))

lemma toList_quoted (chunk : String) : (quoted chunk).toList = '"' :: (chunk.toList ++ ['"']) := by
  simp [quoted]

/-- With a space in front every string of the record looks the same. -/
lemma cons_toList_renderTxt {chunks : List String} (hne : chunks ≠ []) :
    ' ' :: (renderTxt chunks).toList = chunks.flatMap (fun c => ' ' :: (quoted c).toList) := by
  obtain ⟨c, cs, rfl⟩ := List.exists_cons_of_ne_nil hne
  induction cs generalizing c with
  | nil => simp [renderTxt]
  | cons d cs ih =>
    have hd := ih d (by simp)
    rw [List.flatMap_cons, ← hd]
    simp [renderTxt]

lemma dropWhile_append_cons {p : Char → Bool} {a : Char} (ha : p a = false) (xs ys : List Char) :
    ∃ zs, (xs ++ a :: ys).dropWhile p = zs ++ a :: ys := by
  induction xs with
  | nil => exact ⟨[], List.dropWhile_cons_of_neg (by simp [ha])⟩
  | cons x xs ih =>
    cases hx : p x with
    | true =>
      rw [List.cons_append, List.dropWhile_cons_of_pos hx]
      exact ih
    | false => exact ⟨x :: xs, List.dropWhile_cons_of_neg (by simp [hx])⟩

/-- Trimming at both ends stops at the characters around the middle one. -/
lemma mem_trimmed_between {p : Char → Bool} {a b c : Char} (ha : p a = false) (hb : p b = false)
    (xs ys : List Char) : c ∈ ((xs ++ a :: c :: b :: ys).dropWhile p).rdropWhile p := by
  obtain ⟨zs, hzs⟩ := dropWhile_append_cons ha xs (c :: b :: ys)
  obtain ⟨ws, hws⟩ := dropWhile_append_cons hb ys.reverse (c :: a :: zs.reverse)
  have hreverse : (zs ++ a :: c :: b :: ys).reverse = ys.reverse ++ b :: c :: a :: zs.reverse := by
    simp
  rw [hzs, List.rdropWhile, hreverse, hws]
  simp

lemma strip_eq_some_iff {start s t : String} :
    Str.strip start s = some t ↔ s.toList = start.toList ++ t.toList := by
  unfold Str.strip Str.startsWith
  constructor
  · intro h
    split at h
    · rename_i hstart
      obtain ⟨rest, hrest⟩ := List.isPrefixOf_iff_prefix.mp hstart
      rw [← hrest, List.drop_left] at h
      rw [← hrest, ← Option.some.inj h, String.toList_ofList]
    · cases h
  · intro h
    rw [h, if_pos (List.isPrefixOf_iff_prefix.mpr (List.prefix_append _ _)), List.drop_left,
      String.ofList_toList]

section Chunked

variable {did : String} {chunks : List String} {answer : Json}

lemma ChunkedTxt.ne_nil (h : ChunkedTxt did chunks answer) : chunks ≠ [] := by
  rintro rfl
  have hjoined := congrArg String.toList h.joined
  simp at hjoined

lemma ChunkedTxt.not_mem (h : ChunkedTxt did chunks answer) {chunk : String} (hchunk : chunk ∈ chunks) :
    '"' ∉ chunk.toList := by
  intro hquote
  have hmem : '"' ∈ (String.join chunks).toList := by
    rw [String.toList_join]
    exact List.mem_flatMap.mpr ⟨chunk, hchunk, hquote⟩
  rw [h.joined, String.toList_append, List.mem_append] at hmem
  rcases hmem with hmem | hmem
  · exact absurd hmem (by decide)
  · exact h.unquoted hmem

lemma toList_trimMatches (c : Char) (s : String) :
    (Str.trimMatches c s).toList = (s.toList.dropWhile (· == c)).rdropWhile (· == c) := by
  simp [Str.trimMatches, Str.trimEndMatches, Str.trimEndChars, Str.toList_trimStartMatches]

lemma head_renderTxt (hne : chunks ≠ []) : (renderTxt chunks).toList.head? = some '"' := by
  obtain ⟨c, cs, rfl⟩ := List.exists_cons_of_ne_nil hne
  have hlist := cons_toList_renderTxt hne
  rw [List.flatMap_cons, List.cons_append, List.cons.injEq] at hlist
  rw [hlist.2, toList_quoted]
  rfl

lemma last_renderTxt (hne : chunks ≠ []) : (renderTxt chunks).toList.getLast? = some '"' := by
  have hend : (' ' :: (renderTxt chunks).toList).getLast? = some '"' := by
    rw [cons_toList_renderTxt hne]
    cases chunks using List.reverseRecOn with
    | nil => exact absurd rfl hne
    | append_singleton cs c =>
      rw [List.flatMap_append, List.flatMap_singleton, toList_quoted, ← List.cons_append,
        ← List.cons_append, ← List.append_assoc, List.getLast?_concat]
  have hhead := head_renderTxt hne
  cases hlist : (renderTxt chunks).toList with
  | nil => simp [hlist] at hhead
  | cons x xs => rwa [hlist, List.getLast?_cons_cons] at hend

/-- The quotes at the ends protect the text from `trim`. -/
lemma trim_renderTxt (hne : chunks ≠ []) : Str.trim (renderTxt chunks) = renderTxt chunks := by
  have hquote : ∀ c, some '"' = some c → Str.isWhitespace c = false := by
    intro c hc
    cases hc
    rfl
  have hfront : (renderTxt chunks).toList.dropWhile Str.isWhitespace = (renderTxt chunks).toList :=
    Str.dropWhile_of_head (fun c hc => hquote c ((head_renderTxt hne).symm.trans hc))
  have hback : (renderTxt chunks).toList.rdropWhile Str.isWhitespace = (renderTxt chunks).toList :=
    Str.rdropWhile_of_last (fun c hc => hquote c ((last_renderTxt hne).symm.trans hc))
  rw [← String.toList_inj, Str.toList_trim, hfront, hback]

lemma txtDid_eq (h : ChunkedTxt did chunks answer) :
    txtDid answer = (Str.strip "did=" (Str.trimMatches '"' (renderTxt chunks))).filter isValidDid := by
  rw [txtDid, h.data]
  simp only [Option.bind_some, Json.asStr, Option.getD_some, trim_renderTxt h.ne_nil]

lemma ChunkedTxt.not_quote (h : ChunkedTxt did chunks answer) {chunk : String}
    (hchunk : chunk ∈ chunks) {x : Char} (hx : x ∈ chunk.toList) : (x == '"') = false := by
  rw [beq_eq_false_iff_ne]
  rintro rfl
  exact h.not_mem hchunk hx

/-- With one chunk only the quotes around it go. -/
lemma txtDid_single (h : ChunkedTxt did chunks answer) (hone : chunks.length = 1) :
    txtDid answer = some did := by
  obtain ⟨c, rfl⟩ := List.length_eq_one_iff.mp hone
  have hc : c = "did=" ++ did := by
    have hjoined := h.joined
    rwa [← String.toList_inj, String.toList_join, List.flatMap_singleton, String.toList_inj] at hjoined
  have hrender : (renderTxt [c]).toList = '"' :: (c.toList ++ ['"']) := by
    simp [renderTxt, toList_quoted]
  have hfront : (c.toList ++ ['"']).dropWhile (· == '"') = c.toList ++ ['"'] := by
    apply Str.dropWhile_of_head
    intro x hx
    rw [hc] at hx
    simp only [String.toList_append, List.append_assoc] at hx
    cases hx
    rfl
  have hback : c.toList.rdropWhile (· == '"') = c.toList :=
    Str.rdropWhile_of_last (fun x hx => h.not_quote (List.mem_singleton_self c)
      (List.mem_of_getLast? hx))
  have htrimmed : Str.trimMatches '"' (renderTxt [c]) = "did=" ++ did := by
    rw [← hc, ← String.toList_inj, toList_trimMatches, hrender, List.dropWhile_cons_of_pos (by rfl),
      hfront, List.rdropWhile_concat_pos _ _ _ (by rfl), hback]
  rw [txtDid_eq h, htrimmed, strip_eq_some_iff.mpr (String.toList_append)]
  simp [h.valid]

/-- Some chunk has text. -/
lemma ChunkedTxt.exists_text (h : ChunkedTxt did chunks answer) :
    ∃ chunk ∈ chunks, chunk.toList ≠ [] := by
  by_contra hempty
  push Not at hempty
  have hjoined := congrArg String.toList h.joined
  rw [String.toList_join, List.flatMap_eq_nil_iff.mpr hempty] at hjoined
  simp at hjoined

/-- What lies in the strings of the record behind the first space lies in the record. -/
lemma renderTxt_split (hne : chunks ≠ []) {front rest : List Char} (hfront : front ≠ [])
    (hsplit : chunks.flatMap (fun c => ' ' :: (quoted c).toList) = front ++ rest) :
    ∃ xs, (renderTxt chunks).toList = xs ++ rest := by
  rw [← cons_toList_renderTxt hne, List.cons_eq_append_iff] at hsplit
  rcases hsplit with ⟨hnil, _⟩ | ⟨xs, _, hxs⟩
  · exact absurd hnil hfront
  · exact ⟨xs, hxs⟩

/-- Between two chunks a quote stays, with a character other than a quote on either side of it. -/
lemma inner_quote (h : ChunkedTxt did chunks answer) (hmany : chunks.length ≠ 1) :
    ∃ xs a b ys, (renderTxt chunks).toList = xs ++ a :: '"' :: b :: ys ∧
      (a == '"') = false ∧ (b == '"') = false := by
  obtain ⟨chunk, hchunk, htext⟩ := h.exists_text
  obtain ⟨before, behind, rfl⟩ := List.append_of_mem hchunk
  cases behind with
  | cons next behind =>
    -- the quote behind the last character of the chunk
    obtain ⟨cs, a, hcs⟩ := (List.eq_nil_or_concat' chunk.toList).resolve_left htext
    have ha := h.not_quote hchunk (hcs ▸ List.mem_append_right cs (List.mem_singleton_self a))
    have hsplit : (before ++ chunk :: next :: behind).flatMap (fun c => ' ' :: (quoted c).toList) =
        (before.flatMap (fun c => ' ' :: (quoted c).toList) ++ ' ' :: '"' :: cs) ++
          a :: '"' :: ' ' :: ((quoted next).toList ++
            behind.flatMap (fun c => ' ' :: (quoted c).toList)) := by
      simp [toList_quoted, hcs]
    obtain ⟨xs, hxs⟩ := renderTxt_split h.ne_nil (by simp) hsplit
    exact ⟨xs, a, ' ', _, hxs, ha, rfl⟩
  | nil =>
    -- the quote in front of its first character
    cases before with
    | nil => exact absurd rfl hmany
    | cons first before =>
      obtain ⟨b, cs, hcs⟩ := List.exists_cons_of_ne_nil htext
      have hb := h.not_quote hchunk (hcs ▸ List.mem_cons_self)
      have hsplit : (first :: before ++ [chunk]).flatMap (fun c => ' ' :: (quoted c).toList) =
          (first :: before).flatMap (fun c => ' ' :: (quoted c).toList) ++
            ' ' :: '"' :: b :: (cs ++ ['"']) := by
        simp [toList_quoted, hcs]
      obtain ⟨xs, hxs⟩ := renderTxt_split h.ne_nil (by simp) hsplit
      exact ⟨xs, ' ', b, _, hxs, rfl, hb⟩

lemma txtDid_chunked (h : ChunkedTxt did chunks answer) (hmany : chunks.length ≠ 1) :
    txtDid answer ≠ some did := by
  intro hdid
  rw [txtDid_eq h, Option.filter_eq_some_iff, strip_eq_some_iff] at hdid
  obtain ⟨xs, a, b, ys, hrender, ha, hb⟩ := inner_quote h hmany
  have hmem : '"' ∈ (Str.trimMatches '"' (renderTxt chunks)).toList := by
    rw [toList_trimMatches, hrender]
    exact mem_trimmed_between (p := (· == '"')) ha hb xs ys
  rw [hdid.1, List.mem_append] at hmem
  rcases hmem with hmem | hmem
  · exact absurd hmem (by decide)
  · exact h.unquoted hmem

end Chunked

/-- The look-up gets an answer. -/
def dohTrace (handle : String) (resp : HttpResponse) : List RelayEvent :=
  [⟨.buildClient, .ok ()⟩, ⟨.send (dohRequest handle), .ok resp⟩]

/-- The response is a document with these answers. -/
structure DohAnswers (resp : HttpResponse) (answers : List Json) : Prop where
  success : resp.isSuccess = true
  listed : ∃ body, resp.json = .ok body ∧ (body.get "Answer").bind Json.asArray = some answers

lemma after_doh_iff {d : RelayDeps} {handle : String} {resp : HttpResponse} {answers : List Json}
    (h : DohAnswers resp answers) {q : Relay String String} :
    After (dohTrace handle resp) (resolveHandleViaDoh d handle) q ↔
      q = Relay.okOr "doh no did= TXT entry" (answers.findSome? txtDid) := by
  obtain ⟨body, hjson, hanswers⟩ := h.listed
  simp only [dohTrace, resolveHandleViaDoh, httpClient, Relay.buildClient, Program.op_bind,
    Program.done_bind, Program.mapError, Relay.send, after_op_cons_iff, Relay.orElse, Relay.okOr,
    Except.mapError, Program.ofExcept, h.success, hjson, hanswers, Option.elim_some, if_true,
    after_nil_iff]
  exact eq_comm

/-- Behind answers without a `did=` entry, the DID of a record is returned exactly when the record
is one chunk (or is passed over and a later answer has the DID). -/
theorem chunkedTxt_resolved_iff {d : RelayDeps} {handle did : String} {chunks : List String}
    {resp : HttpResponse} {before behind : List Json} {answer : Json}
    (hresp : DohAnswers resp (before ++ answer :: behind))
    (hbefore : ∀ a ∈ before, txtDid a = none) (h : ChunkedTxt did chunks answer) :
    Returns (resolveHandleViaDoh d handle) (dohTrace handle resp) did ↔
      chunks.length = 1 ∨ txtDid answer = none ∧ behind.findSome? txtDid = some did := by
  have hfound : (before ++ answer :: behind).findSome? txtDid =
      (txtDid answer).or (behind.findSome? txtDid) := by
    rw [List.findSome?_append, List.findSome?_eq_none_iff.mpr hbefore, Option.none_or,
      List.findSome?_cons]
    cases txtDid answer <;> rfl
  have hreturns : Returns (resolveHandleViaDoh d handle) (dohTrace handle resp) did ↔
      (txtDid answer).or (behind.findSome? txtDid) = some did := by
    rw [Returns, after_doh_iff hresp, hfound, Relay.okOr]
    cases (txtDid answer).or (behind.findSome? txtDid) with
    | none => simp [Program.ofExcept]
    | some other => simp [Program.ofExcept, eq_comm]
  rw [hreturns]
  by_cases hone : chunks.length = 1
  · rw [txtDid_single h hone]
    exact iff_of_true rfl (Or.inl hone)
  · have hwrong := txtDid_chunked h hone
    cases hdid : txtDid answer with
    | none => simp [hone]
    | some other =>
      rw [hdid] at hwrong
      simp only [Option.some_or]
      exact iff_of_false hwrong (by simp [hone])

/-- An answer document with these answers. -/
def dohResponse (answers : List Json) : HttpResponse :=
  { status := 200, dpopNonce := none, text := .error "", shapeError := ""
    json := .ok (.object [("Answer", .array answers)]) }

def txtAnswer (data : String) : Json := .object [("data", .string data)]

/-- A mail record and the DID in one string. -/
theorem chunkedTxt_resolved_mail :
    isValidDid "did:plc:abcdef" = true ∧ ∀ (d : RelayDeps) (handle : String),
      Returns (resolveHandleViaDoh d handle) (dohTrace handle (dohResponse
        [txtAnswer "\"v=spf1 -all\"", txtAnswer "\"did=did:plc:abcdef\""])) "did:plc:abcdef" := by
  refine ⟨by decide, fun d handle => ?_⟩
  have hresp : DohAnswers (dohResponse [txtAnswer "\"v=spf1 -all\"",
      txtAnswer "\"did=did:plc:abcdef\""]) ([txtAnswer "\"v=spf1 -all\""] ++
        txtAnswer "\"did=did:plc:abcdef\"" :: []) := ⟨by decide, _, rfl, rfl⟩
  have hrecord : ChunkedTxt "did:plc:abcdef" ["did=did:plc:abcdef"]
      (txtAnswer "\"did=did:plc:abcdef\"") := ⟨by decide, by decide, by decide, rfl⟩
  exact (chunkedTxt_resolved_iff hresp (by decide) hrecord).mpr (Or.inl rfl)

/-- A DID in two strings is returned with the quotes between them, and passes for a DID. -/
theorem chunkedTxt_misread :
    let answer := txtAnswer "\"did=did:plc:abc\" \"def\""
    ChunkedTxt "did:plc:abcdef" ["did=did:plc:abc", "def"] answer ∧
      ∀ (d : RelayDeps) (handle : String),
        Returns (resolveHandleViaDoh d handle) (dohTrace handle (dohResponse [answer]))
            "did:plc:abc\" \"def" ∧
          ¬Returns (resolveHandleViaDoh d handle) (dohTrace handle (dohResponse [answer]))
            "did:plc:abcdef" := by
  intro answer
  refine ⟨⟨by decide, by decide, by decide, rfl⟩, fun d handle => ?_⟩
  have hresp : DohAnswers (dohResponse [answer]) [answer] := ⟨by decide, _, rfl, rfl⟩
  have hfound : [answer].findSome? txtDid = some "did:plc:abc\" \"def" := by decide
  have hend := @after_doh_iff d handle _ _ hresp
  rw [hfound] at hend
  refine ⟨hend.mpr rfl, fun h => ?_⟩
  exact absurd (Program.done.inj (hend.mp h)) (by decide)

end Doh

end Laye
