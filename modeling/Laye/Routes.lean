import Laye.Responses
import Laye.Sniff

/-!
# One connection of the relay

`handle_conn` of `crates/relaye/src/status_page.rs` peeks at a connection, hands an upgrade over,
reads a request and answers it. The routes turn the handlers' errors into responses, so that
nothing a handler does ends a connection without one.
-/

namespace Laye

open Interaction

/-! ### Routes -/

/-- What a route does with a handler: both of its ends become bytes. -/
def respond {ε α : Type} (ok : α → Bytes) (err : ε → Bytes) (handler : Relay ε α) :
    Relay Empty Bytes := do
  match ← handler.attempt with
  | .ok a => return ok a
  | .error e => return err e

def handleSignRoute (d : RelayDeps) (body : Bytes) : Relay Empty Bytes :=
  respond (buildJsonResponse 200) (signErrorResponse d) (handleSign d body)

def handleAtprotoStartRoute (d : RelayDeps) (body : Bytes) : Relay Empty Bytes :=
  respond (buildJsonResponse 200) (flowErrorResponse d) (handleStart d body)

def handleAtprotoCallbackRoute (d : RelayDeps) (query : HashMap String String) :
    Relay Empty Bytes :=
  respond buildRedirectResponse (flowErrorResponse d) (handleCallback d query)

def handleAtprotoResultRoute (d : RelayDeps) (query : HashMap String String) : Relay Empty Bytes :=
  respond (buildJsonResponse 200) (flowErrorResponse d) (handleResult d query)

/-- Every request that no route takes gets the status page, whose text is `page`. -/
def route (d : RelayDeps) (page : String) (request : ParsedRequest) : Relay Empty Bytes :=
  match Query.splitPathAndQuery request.path with
  | none => Relay.panic
  | some (path, query) =>
    if request.method = "POST" ∧ path = "/me/sign/mastodon" then handleSignRoute d request.body
    else if request.method = "POST" ∧ path = "/me/oauth/atproto/start" then
      handleAtprotoStartRoute d request.body
    else if request.method = "GET" ∧ path = "/me/callback/atproto" then
      handleAtprotoCallbackRoute d query
    else if request.method = "GET" ∧ path = "/me/sign/atproto/result" then
      handleAtprotoResultRoute d query
    else return formatStatusResponse page

/-! ### Connections -/

/-- What the kernel gives of a connection: the peek, the reads until the stream ends; and the text
that `build_status_html` has when the connection is served. -/
structure Connection where
  peek : Bytes
  reads : List Read
  page : String

/-- How the relay leaves a connection. An upgrade goes on elsewhere. -/
inductive Served
  | closed
  | libp2p
  | gateway (topic : String)
  | responded (response : Bytes)

/-- The `handle_conn` of a connection. -/
def Connection.serve (d : RelayDeps) (c : Connection) : Relay Empty Served :=
  match handleConn c.peek with
  | none => return .closed
  | some .libp2p => return .libp2p
  | some (.gateway topic) => return .gateway topic
  | some .unknownPath => return .responded build404Response
  | some .notUpgrade =>
    match readFullRequest c.reads with
    | .error .sizeLimit => return .closed
    | .error .panicked => Relay.panic
    | .ok none => return .closed
    | .ok (some request) => do return .responded (← route d c.page request)

/-! ### What a connection is served with -/

/-- The connection is read as this request. -/
structure Asked (c : Connection) (method path : String) (query : HashMap String String)
    (body : Bytes) : Prop where
  plain : handleConn c.peek = some .notUpgrade
  read : ∃ target, readFullRequest c.reads = .ok (some ⟨method, target, body⟩) ∧
    Query.splitPathAndQuery target = some (path, query)

/-- What serving a connection can be. -/
inductive Dispatched (d : RelayDeps) (c : Connection) : Relay Empty Served → Prop
  | unread (how : Served) (h : ∀ response, how = .responded response → response = build404Response) :
      Dispatched d c (.done how)
  | page : Dispatched d c (.done (.responded (formatStatusResponse c.page)))
  | sign {query : HashMap String String} {body : Bytes}
      (h : Asked c "POST" "/me/sign/mastodon" query body) :
      Dispatched d c (do return .responded (← handleSignRoute d body))
  | start {query : HashMap String String} {body : Bytes}
      (h : Asked c "POST" "/me/oauth/atproto/start" query body) :
      Dispatched d c (do return .responded (← handleAtprotoStartRoute d body))
  | callback {query : HashMap String String} {body : Bytes}
      (h : Asked c "GET" "/me/callback/atproto" query body) :
      Dispatched d c (do return .responded (← handleAtprotoCallbackRoute d query))
  | result {query : HashMap String String} {body : Bytes}
      (h : Asked c "GET" "/me/sign/atproto/result" query body) :
      Dispatched d c (do return .responded (← handleAtprotoResultRoute d query))

lemma insertPair_isSome (params : HashMap String String) (pair : String) :
    ∃ params', Query.insertPair params pair = some params' := by
  unfold Query.insertPair
  split
  · exact ⟨params, rfl⟩
  · simp [Query.percentDecode_eq]

/-- No index is out of range when a target is taken apart. -/
lemma splitPathAndQuery_isSome (raw : String) : ∃ read, Query.splitPathAndQuery raw = some read := by
  have hfold : ∀ (pieces : List String) (params : HashMap String String),
      ∃ params', pieces.foldlM Query.insertPair params = some params' := by
    intro pieces
    induction pieces with
    | nil => exact fun params => ⟨params, rfl⟩
    | cons piece pieces ih =>
      intro params
      obtain ⟨params₁, hpiece⟩ := insertPair_isSome params piece
      obtain ⟨params₂, hrest⟩ := ih params₁
      exact ⟨params₂, by rw [List.foldlM_cons, hpiece, Option.bind_eq_bind, Option.bind_some, hrest]⟩
  obtain ⟨params, hparams⟩ := hfold (Str.split ((Str.splitOnce raw '?').getD (raw, "")).2 '&')
    HashMap.empty
  refine ⟨(((Str.splitOnce raw '?').getD (raw, "")).1, params), ?_⟩
  simp [Query.splitPathAndQuery, hparams]

theorem dispatched (d : RelayDeps) (c : Connection) : Dispatched d c (c.serve d) := by
  unfold Connection.serve
  split
  · exact .unread .closed (by simp)
  · exact .unread .libp2p (by simp)
  · exact .unread (.gateway _) (by simp)
  · exact .unread (.responded _) (by simp)
  · rename_i hplain
    split
    · exact .unread .closed (by simp)
    · rename_i hread
      exact absurd hread (readFullRequest_ne_panicked _)
    · exact .unread .closed (by simp)
    · rename_i request hread
      obtain ⟨method, target, body⟩ := request
      obtain ⟨⟨path, query⟩, htarget⟩ := splitPathAndQuery_isSome target
      have hasked : ∀ m p, method = m ∧ path = p → Asked c m p query body := by
        rintro m p ⟨rfl, rfl⟩
        exact ⟨hplain, target, hread, htarget⟩
      simp only [route, htarget]
      split_ifs with hsign hstart hcallback hresult
      · exact .sign (hasked _ _ hsign)
      · exact .start (hasked _ _ hstart)
      · exact .callback (hasked _ _ hcallback)
      · exact .result (hasked _ _ hresult)
      · exact .page

lemma serve_sign {d : RelayDeps} {c : Connection} {query : HashMap String String} {body : Bytes}
    (h : Asked c "POST" "/me/sign/mastodon" query body) :
    c.serve d = do return .responded (← handleSignRoute d body) := by
  obtain ⟨target, hread, htarget⟩ := h.read
  simp [Connection.serve, h.plain, hread, route, htarget]

lemma serve_start {d : RelayDeps} {c : Connection} {query : HashMap String String} {body : Bytes}
    (h : Asked c "POST" "/me/oauth/atproto/start" query body) :
    c.serve d = do return .responded (← handleAtprotoStartRoute d body) := by
  obtain ⟨target, hread, htarget⟩ := h.read
  simp [Connection.serve, h.plain, hread, route, htarget]

lemma serve_callback {d : RelayDeps} {c : Connection} {query : HashMap String String} {body : Bytes}
    (h : Asked c "GET" "/me/callback/atproto" query body) :
    c.serve d = do return .responded (← handleAtprotoCallbackRoute d query) := by
  obtain ⟨target, hread, htarget⟩ := h.read
  simp [Connection.serve, h.plain, hread, route, htarget]

lemma serve_result {d : RelayDeps} {c : Connection} {query : HashMap String String} {body : Bytes}
    (h : Asked c "GET" "/me/sign/atproto/result" query body) :
    c.serve d = do return .responded (← handleAtprotoResultRoute d query) := by
  obtain ⟨target, hread, htarget⟩ := h.read
  simp [Connection.serve, h.plain, hread, route, htarget]

/-! ### Runs -/

section Runs

variable {d : RelayDeps} {c : Connection} {tr : List RelayEvent}

lemma returns_respond_iff {ε α : Type} {ok : α → Bytes} {err : ε → Bytes} {handler : Relay ε α}
    {out : Bytes} : Returns (respond ok err handler) tr out ↔
      (∃ a, Returns handler tr a ∧ out = ok a) ∨ ∃ e, Fails handler tr e ∧ out = err e := by
  unfold respond
  rw [returns_bind_iff]
  constructor
  · rintro ⟨tr₁, tr₂, x, rfl, hattempt, h⟩
    rcases returns_attempt_iff.mp hattempt with ⟨a, ha, rfl⟩ | ⟨e, he, rfl⟩
    · obtain ⟨rfl, rfl⟩ := returns_done_iff.mp h
      exact Or.inl ⟨a, by simpa using ha, rfl⟩
    · obtain ⟨rfl, rfl⟩ := returns_done_iff.mp h
      exact Or.inr ⟨e, by simpa using he, rfl⟩
  · rintro (⟨a, ha, rfl⟩ | ⟨e, he, rfl⟩)
    · exact ⟨tr, [], .ok a, by simp, returns_attempt_iff.mpr (Or.inl ⟨a, ha, rfl⟩), by simp⟩
    · exact ⟨tr, [], .error e, by simp, returns_attempt_iff.mpr (Or.inr ⟨e, he, rfl⟩), by simp⟩

lemma asks_respond_iff {ε α : Type} {ok : α → Bytes} {err : ε → Bytes} {handler : Relay ε α}
    {o : RelayOp} : Asks (respond ok err handler) tr o ↔ Asks handler tr o := by
  unfold respond
  rw [asks_bind_iff, asks_attempt_iff]
  constructor
  · rintro (h | ⟨_, _, x, _, _, h⟩)
    · exact h
    · cases x <;> simp at h
  · exact Or.inl

lemma returns_responded_iff {p : Relay Empty Bytes} {how : Served} :
    Returns (do return Served.responded (← p) : Relay Empty Served) tr how ↔
      ∃ out, Returns p tr out ∧ how = .responded out := by
  simp [returns_bind_iff]

lemma asks_responded_iff {p : Relay Empty Bytes} {o : RelayOp} :
    Asks (do return Served.responded (← p) : Relay Empty Served) tr o ↔ Asks p tr o := by
  simp [asks_bind_iff]

/-- What a connection asks for, a handler asks for. -/
lemma asks_serve {o : RelayOp} (h : Asks (c.serve d) tr o) : ∃ query body,
    (Asked c "POST" "/me/sign/mastodon" query body ∧ Asks (handleSign d body) tr o) ∨
    (Asked c "POST" "/me/oauth/atproto/start" query body ∧ Asks (handleStart d body) tr o) ∨
    (Asked c "GET" "/me/callback/atproto" query body ∧ Asks (handleCallback d query) tr o) ∨
    (Asked c "GET" "/me/sign/atproto/result" query body ∧ Asks (handleResult d query) tr o) := by
  have hserve := dispatched d c
  generalize c.serve d = p at h hserve
  cases hserve with
  | unread how _ => exact absurd h (by simp)
  | page => exact absurd h (by simp)
  | @sign query body hasked =>
    exact ⟨query, body, Or.inl ⟨hasked, asks_respond_iff.mp (asks_responded_iff.mp h)⟩⟩
  | @start query body hasked =>
    exact ⟨query, body, Or.inr (Or.inl ⟨hasked, asks_respond_iff.mp (asks_responded_iff.mp h)⟩)⟩
  | @callback query body hasked =>
    exact ⟨query, body,
      Or.inr (Or.inr (Or.inl ⟨hasked, asks_respond_iff.mp (asks_responded_iff.mp h)⟩))⟩
  | @result query body hasked =>
    exact ⟨query, body,
      Or.inr (Or.inr (Or.inr ⟨hasked, asks_respond_iff.mp (asks_responded_iff.mp h)⟩))⟩

/-! ### Responses -/

lemma signError_status (e : SignError) : e.httpStatus ∈ STATUSES := by
  cases e <;> simp only [SignError.httpStatus] <;> decide

lemma flowError_status (e : FlowError) : e.httpStatus ∈ STATUSES := by
  cases e <;> simp only [FlowError.httpStatus] <;> decide

/-- The bytes are one response with one of the statuses. -/
def Answers (out : Bytes) : Prop := ∃ status ∈ STATUSES, ∃ body, Reads status body out

lemma answers_buildJsonResponse {status : UInt16} (hstatus : status ∈ STATUSES) {body : Bytes}
    (h : (buildJsonResponse status body).length < 2 ^ 64) :
    Answers (buildJsonResponse status body) := by
  have hbody : body.length < 2 ^ 64 := by
    rw [buildJsonResponse, List.length_append] at h
    omega
  exact ⟨status, hstatus, body, reads_buildJsonResponse hstatus hbody⟩

lemma answers_redirect {location : String} (hlocation : ∀ c ∈ location.toList, isHeadChar c = true)
    (h : (buildRedirectResponse location).length < 2 ^ 64) :
    Answers (buildRedirectResponse location) := by
  have hbody : (intoBytes (redirectBody location)).length < 2 ^ 64 := by
    rw [buildRedirectResponse_eq, response, List.length_append] at h
    simp only [List.length_cons] at h
    omega
  exact ⟨302, by decide, _, reads_buildRedirectResponse hlocation hbody⟩

/-- Whatever the handlers do and the servers answer, what the relay writes is one response, which
ends where its head says; unless a callback came under a state with a control character. -/
theorem responses_read_back {out : Bytes} (h : Returns (c.serve d) tr (.responded out))
    (hlength : out.length < 2 ^ 64) :
    Answers out ∨ ∃ query body state, Asked c "GET" "/me/callback/atproto" query body ∧
      query "state" = some state ∧ ∃ c ∈ state.toList, isHeadChar c = false := by
  have hserve := dispatched d c
  generalize c.serve d = p at h hserve
  cases hserve with
  | unread how hnotFound =>
    obtain ⟨-, rfl⟩ := returns_done_iff.mp h
    rw [hnotFound out rfl]
    exact Or.inl ⟨404, by decide, _, reads_build404Response⟩
  | page =>
    obtain ⟨-, heq⟩ := returns_done_iff.mp h
    cases heq
    have hbody : (intoBytes c.page).length < 2 ^ 64 := by
      rw [formatStatusResponse_eq, response, List.length_append] at hlength
      simp only [List.length_cons] at hlength
      omega
    exact Or.inl ⟨200, by decide, _, reads_formatStatusResponse hbody⟩
  | sign hasked =>
    obtain ⟨_, hroute, heq⟩ := returns_responded_iff.mp h
    cases heq
    rcases returns_respond_iff.mp hroute with ⟨reply, -, rfl⟩ | ⟨e, -, rfl⟩
    · exact Or.inl (answers_buildJsonResponse (by decide) hlength)
    · exact Or.inl (answers_buildJsonResponse (signError_status e) hlength)
  | start hasked =>
    obtain ⟨_, hroute, heq⟩ := returns_responded_iff.mp h
    cases heq
    rcases returns_respond_iff.mp hroute with ⟨reply, -, rfl⟩ | ⟨e, -, rfl⟩
    · exact Or.inl (answers_buildJsonResponse (by decide) hlength)
    · exact Or.inl (answers_buildJsonResponse (flowError_status e) hlength)
  | @callback query body hasked =>
    obtain ⟨_, hroute, heq⟩ := returns_responded_iff.mp h
    cases heq
    rcases returns_respond_iff.mp hroute with ⟨location, hcallback, rfl⟩ | ⟨e, -, rfl⟩
    · obtain ⟨state, flow, hstate, -, rfl⟩ := returns_handleCallback hcallback
      by_cases hplain : ∀ c ∈ state.toList, isHeadChar c = true
      · exact Or.inl (answers_redirect (isHeadChar_locationOf.mpr hplain) hlength)
      · obtain ⟨c, hc⟩ := not_forall.mp hplain
        obtain ⟨hmem, hcontrol⟩ := Classical.not_imp.mp hc
        exact Or.inr ⟨query, body, state, hasked, hstate, c, hmem, Bool.eq_false_iff.mpr hcontrol⟩
    · exact Or.inl (answers_buildJsonResponse (flowError_status e) hlength)
  | result hasked =>
    obtain ⟨_, hroute, heq⟩ := returns_responded_iff.mp h
    cases heq
    rcases returns_respond_iff.mp hroute with ⟨reply, -, rfl⟩ | ⟨e, -, rfl⟩
    · exact Or.inl (answers_buildJsonResponse (by decide) hlength)
    · exact Or.inl (answers_buildJsonResponse (flowError_status e) hlength)

end Runs

namespace Connection

/-- A connection that sends these bytes in one piece. -/
def whole (bytes : Bytes) (hne : bytes ≠ []) (hfits : bytes.length ≤ READ_BYTES) : Connection :=
  ⟨bytes, [⟨bytes, hne, hfits⟩], ""⟩

lemma readFullRequest_whole {bytes : Bytes} {hne : bytes ≠ []} {hfits : bytes.length ≤ READ_BYTES}
    {headEnd : Nat} {head method target : String} (hhead : findDoubleCrlf bytes = some headEnd)
    (hutf8 : fromUtf8 (bytes.take headEnd) = some head)
    (hline : methodAndPath (firstLine head.toList) = some (method, target))
    (hend : headEnd + 4 + (contentLengthIn (Str.splitCrlf head)).getD 0 = bytes.length) :
    readFullRequest (whole bytes hne hfits).reads =
      .ok (some ⟨method, target, bytes.drop (headEnd + 4)⟩) := by
  have hlength : parseContentLength (bytes.take headEnd) = contentLengthIn (Str.splitCrlf head) := by
    rw [parseContentLength, hutf8]
    rfl
  have hstream : streamOf (whole bytes hne hfits).reads = bytes := List.append_nil _
  have hstop : requestEnd bytes = some bytes.length := by
    rw [requestEnd_eq hhead, hlength, hend]
  have hwithin : EndsWithinLimit (streamOf (whole bytes hne hfits).reads) := by
    rw [hstream, EndsWithinLimit, hstop, Option.getD_some]
    exact hfits.trans (by decide)
  have hbody : (bytes.drop (headEnd + 4)).take (bytes.length - (headEnd + 4)) =
      bytes.drop (headEnd + 4) := by
    rw [← List.length_drop, List.take_length]
  rw [(readFullRequest_eq _).2 (not_overruns_of_within hwithin), hstream,
    firstRequest_eq hhead (congrArg (Option.getD · 0) hlength) (le_of_eq hend), requestLine_eq, hutf8,
    Option.bind_some, hline, Option.map_some]
  have hneed : (contentLengthIn (Str.splitCrlf head)).getD 0 = bytes.length - (headEnd + 4) := by omega
  rw [hneed, hbody]

end Connection

/-- A browser that looks at the relay. -/
def pageConnection : Connection := .whole (intoBytes "GET / HTTP/1.1\r\n\r\n") (by decide) (by decide)

lemma read_page : readFullRequest pageConnection.reads = .ok (some ⟨"GET", "/", []⟩) := by
  have hutf8 : fromUtf8 ((intoBytes "GET / HTTP/1.1\r\n\r\n").take 14) = some "GET / HTTP/1.1" :=
    fromUtf8_eq_some.mpr (by decide)
  have hline : methodAndPath (firstLine "GET / HTTP/1.1".toList) = some ("GET", "/") := by decide
  exact Connection.readFullRequest_whole (by decide) hutf8 hline (by decide)

lemma split_page : Query.splitPathAndQuery "/" = some ("/", HashMap.empty) := rfl

lemma serve_page (d : RelayDeps) :
    pageConnection.serve d = .done (.responded (formatStatusResponse "")) := by
  have hplain : handleConn pageConnection.peek = some .notUpgrade := by decide
  simp only [Connection.serve, hplain, read_page, route, split_page]
  rfl

set_option maxRecDepth 4000 in
theorem responses_read_back_page : Answers (formatStatusResponse "") := by
  have hreturns : Returns (pageConnection.serve AtprotoExample.deps) []
      (.responded (formatStatusResponse "")) := by
    rw [serve_page]
    exact .nil _
  rcases responses_read_back hreturns (by decide) with h | ⟨_, _, _, hasked, -⟩
  · exact h
  · obtain ⟨target, hread, htarget⟩ := hasked.read
    rw [read_page] at hread
    simp only [Except.ok.injEq, Option.some.injEq, ParsedRequest.mk.injEq, true_and] at hread
    rw [← hread.1, split_page] at htarget
    simp at htarget

end Laye
