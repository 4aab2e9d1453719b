import Laye.Redirect
import Laye.SignEndpoint

/-!
# The responses of the relay

The handlers end with bytes or with an error; `crates/relaye/src/status_page.rs` wraps both in a
response whose head declares the length of its body.
-/

namespace Laye

/-! ### Errors -/

def SignError.httpStatus : SignError → UInt16
  | .badRequestJson _ | .unsupportedProvider _ | .badPeerPubkeyHex | .badPeerPubkeyLen _ => 400
  | .canonicalIdMismatch _ _ | .mastodonStatus _ => 401
  | .mastodonRequest _ | .mastodonJson _ | .mastodonActorMissingUrl => 502
  | .httpClient _ | .sign _ => 500

def SignError.message : SignError → String
  | .badRequestJson e => s!"bad request JSON: {e}"
  | .unsupportedProvider p => s!"unsupported provider: {p}"
  | .badPeerPubkeyHex => "peer_pubkey_hex not valid hex"
  | .badPeerPubkeyLen n => s!"peer_pubkey_hex must decode to 32 bytes, got {n}"
  | .canonicalIdMismatch tokenActor claimActor =>
    s!"canonical_id mismatch: token belongs to {tokenActor}, claim says {claimActor}"
  | .httpClient e => s!"http client init: {e}"
  | .mastodonRequest e => s!"mastodon verify_credentials: {e}"
  | .mastodonStatus s => s!"mastodon verify_credentials: HTTP {s}"
  | .mastodonJson e => s!"mastodon verify_credentials JSON: {e}"
  | .mastodonActorMissingUrl => "mastodon actor missing url field"
  | .sign e => s!"sign: {e}"

def FlowError.httpStatus : FlowError → UInt16
  | .badRequestJson _ | .badPeerPubkey => 400
  | .unknownState => 404
  | .resolve _ => 400
  | .subMismatch _ _ => 401
  | .par _ _ | .token _ _ | .parNoRequestUri _ | .tokenMissing _ => 502
  | .dpopRetryExhausted => 502
  | .http _ | .sign _ => 500

/-- The messages of the derived `Display`. -/
def FlowError.display : FlowError → String
  | .badRequestJson e => s!"bad request json: {e}"
  | .badPeerPubkey => "bad peer_pubkey_hex"
  | .resolve e => s!"resolve: {e.display}"
  | .http e => s!"http: {e}"
  | .dpopRetryExhausted => "dpop retry exhausted"
  | .par status body => s!"PAR http {status}: {body}"
  | .parNoRequestUri e => s!"PAR response missing request_uri: {e}"
  | .token status body => s!"token http {status}: {body}"
  | .tokenMissing field => s!"token response missing field: {field}"
  | .subMismatch expected got => s!"sub mismatch: expected={expected} got={got}"
  | .unknownState => "unknown or expired state"
  | .sign e => s!"sign: {e}"

/-! ### Responses -/

def reasonOf (status : UInt16) : String :=
  if status = 200 then "OK"
  else if status = 400 then "Bad Request"
  else if status = 401 then "Unauthorized"
  else if status = 404 then "Not Found"
  else if status = 500 then "Internal Server Error"
  else if status = 502 then "Bad Gateway"
  else "Response"

def buildJsonResponse (status : UInt16) (body : Bytes) : Bytes :=
  let reason := reasonOf status
  let contentLength := body.length
  intoBytes s!"HTTP/1.1 {status} {reason}\r\nContent-Type: application/json; charset=utf-8\r\nContent-Length: {contentLength}\r\nCache-Control: no-store\r\nAccess-Control-Allow-Origin: *\r\nAccess-Control-Allow-Methods: GET, POST, OPTIONS\r\nAccess-Control-Allow-Headers: Content-Type\r\nConnection: close\r\n\r\n" ++
    body

def formatStatusResponse (body : String) : Bytes :=
  let contentLength := Str.len body
  intoBytes s!"HTTP/1.1 200 OK\r\nContent-Type: text/html; charset=utf-8\r\nContent-Length: {contentLength}\r\nCache-Control: max-age=60\r\nConnection: close\r\n\r\n{body}"

def build404Response : Bytes :=
  let body := "not found\n"
  let contentLength := Str.len body
  intoBytes s!"HTTP/1.1 404 Not Found\r\nContent-Type: text/plain; charset=utf-8\r\nContent-Length: {contentLength}\r\nCache-Control: no-store\r\nConnection: close\r\n\r\n{body}"

/-- `json!({ "error": … })` -/
def errorBody (d : RelayDeps) (message : String) : Bytes :=
  d.serde.toVec (.object [("error", .string message)])

def signErrorResponse (d : RelayDeps) (e : SignError) : Bytes :=
  buildJsonResponse e.httpStatus (errorBody d e.message)

def flowErrorResponse (d : RelayDeps) (e : FlowError) : Bytes :=
  buildJsonResponse e.httpStatus (errorBody d e.display)

/-! ### What each response says -/

/-- A client reads the bytes as one response with this status and this body, which is all that comes
after the head and as long as the head declares. -/
def Reads (status : UInt16) (body out : Bytes) : Prop :=
  ∃ r, readResponse out = some r ∧ r.body = body ∧ r.message = some (status.toNat, body)

/-- The status line of a response. -/
def statusLine (status : UInt16) (reason : String) : String :=
  "HTTP/1.1 " ++ toString status ++ " " ++ reason

def jsonLines (status : UInt16) (contentLength : Nat) : List String :=
  [statusLine status (reasonOf status), "Content-Type: application/json; charset=utf-8",
    "Content-Length: " ++ toString contentLength, "Cache-Control: no-store",
    "Access-Control-Allow-Origin: *", "Access-Control-Allow-Methods: GET, POST, OPTIONS",
    "Access-Control-Allow-Headers: Content-Type", "Connection: close"]

def statusPageLines (contentLength : Nat) : List String :=
  [statusLine 200 "OK", "Content-Type: text/html; charset=utf-8",
    "Content-Length: " ++ toString contentLength, "Cache-Control: max-age=60", "Connection: close"]

def notFoundLines (contentLength : Nat) : List String :=
  [statusLine 404 "Not Found", "Content-Type: text/plain; charset=utf-8",
    "Content-Length: " ++ toString contentLength, "Cache-Control: no-store", "Connection: close"]

set_option maxRecDepth 2000 in
lemma buildJsonResponse_eq (status : UInt16) (body : Bytes) :
    buildJsonResponse status body = response (jsonLines status body.length) body := by
  have htype : intoBytes "\r\nContent-Type: application/json; charset=utf-8\r\nContent-Length: " =
      CRLF ++ intoBytes "Content-Type: application/json; charset=utf-8" ++ CRLF ++
        intoBytes "Content-Length: " := by decide
  have hrest : intoBytes "\r\nCache-Control: no-store\r\nAccess-Control-Allow-Origin: *\r\nAccess-Control-Allow-Methods: GET, POST, OPTIONS\r\nAccess-Control-Allow-Headers: Content-Type\r\nConnection: close\r\n\r\n" =
      CRLF ++ intoBytes "Cache-Control: no-store" ++ CRLF ++
        intoBytes "Access-Control-Allow-Origin: *" ++ CRLF ++
        intoBytes "Access-Control-Allow-Methods: GET, POST, OPTIONS" ++ CRLF ++
        intoBytes "Access-Control-Allow-Headers: Content-Type" ++ CRLF ++
        intoBytes "Connection: close" ++ CRLF ++ CRLF := by decide
  simp only [buildJsonResponse, response, toString, intoBytes_append, htype, hrest, jsonLines,
    statusLine, List.map_cons, List.map_nil, List.intercalate_cons_cons, List.intercalate_singleton,
    List.append_assoc]
  rfl

lemma formatStatusResponse_eq (body : String) :
    formatStatusResponse body =
      response (statusPageLines (intoBytes body).length) (intoBytes body) := by
  have htype : intoBytes "HTTP/1.1 200 OK\r\nContent-Type: text/html; charset=utf-8\r\nContent-Length: " =
      intoBytes (statusLine 200 "OK") ++ CRLF ++ intoBytes "Content-Type: text/html; charset=utf-8" ++
        CRLF ++ intoBytes "Content-Length: " := by decide
  have hrest : intoBytes "\r\nCache-Control: max-age=60\r\nConnection: close\r\n\r\n" =
      CRLF ++ intoBytes "Cache-Control: max-age=60" ++ CRLF ++ intoBytes "Connection: close" ++
        CRLF ++ CRLF := by decide
  simp only [formatStatusResponse, response, toString, intoBytes_append, htype, hrest, len_eq,
    statusPageLines, List.map_cons, List.map_nil, List.intercalate_cons_cons,
    List.intercalate_singleton, List.append_assoc]
  rfl

/-- The body of `build_404_response`. -/
def notFoundBody : Bytes := intoBytes "not found\n"

lemma build404Response_eq :
    build404Response = response (notFoundLines notFoundBody.length) notFoundBody := by
  have htype : intoBytes "HTTP/1.1 404 Not Found\r\nContent-Type: text/plain; charset=utf-8\r\nContent-Length: " =
      intoBytes (statusLine 404 "Not Found") ++ CRLF ++
        intoBytes "Content-Type: text/plain; charset=utf-8" ++ CRLF ++
        intoBytes "Content-Length: " := by decide
  have hrest : intoBytes "\r\nCache-Control: no-store\r\nConnection: close\r\n\r\n" =
      CRLF ++ intoBytes "Cache-Control: no-store" ++ CRLF ++ intoBytes "Connection: close" ++
        CRLF ++ CRLF := by decide
  simp only [build404Response, response, toString, intoBytes_append, htype, hrest, len_eq,
    notFoundLines, notFoundBody, List.map_cons, List.map_nil, List.intercalate_cons_cons,
    List.intercalate_singleton, List.append_assoc]
  rfl

/-! ### All of them are read back -/

/-- The statuses that leave the relay. -/
def STATUSES : List UInt16 := [200, 302, 400, 401, 404, 500, 502]

section StatusLine

variable {status : UInt16} {reason : String}

lemma digit_of_mem_status {c : Char} (h : c ∈ (toString status).toList) : c.isDigit = true :=
  mem_toString (n := status.toNat) h

lemma toList_statusLine (status : UInt16) (reason : String) : (statusLine status reason).toList =
    "HTTP/1.1".toList ++ ' ' :: ((toString status).toList ++ ' ' :: reason.toList) := by
  have hstart : "HTTP/1.1 ".toList = "HTTP/1.1".toList ++ [' '] := by decide
  have hspace : " ".toList = [' '] := by decide
  simp only [statusLine, String.toList_append, hstart, hspace, List.append_assoc, List.cons_append,
    List.nil_append]

lemma headLine_statusLine (hreason : reason.toList.all isHeadChar = true) :
    HeadLine (statusLine status reason) := by
  have hversion : "HTTP/1.1".toList.all isHeadChar = true := by decide
  have hspace : isHeadChar ' ' = true := by decide
  have hstatus : (toString status).toList.all isHeadChar = true :=
    List.all_eq_true.mpr fun c hc => isHeadChar_of_digit (digit_of_mem_status hc)
  refine ⟨by simp [statusLine], ?_⟩
  simp only [toList_statusLine, List.all_append, List.all_cons, hversion, hspace, hstatus, hreason,
    Bool.true_and]

/-- The second word of a status line. -/
lemma splitn_statusLine (status : UInt16) (reason : String) :
    Str.splitn 3 ' ' (statusLine status reason) = ["HTTP/1.1", toString status, reason] := by
  have hstatus : ' ' ∉ (toString status).toList :=
    fun hmem => absurd (digit_of_mem_status hmem) (by decide)
  have hfirst : Str.splitOnce (statusLine status reason) ' ' =
      some ("HTTP/1.1", toString status ++ " " ++ reason) := by
    apply Str.splitOnce_eq_some_iff.mpr
    refine ⟨?_, by decide⟩
    rw [toList_statusLine]
    simp
  have hsecond : Str.splitOnce (toString status ++ " " ++ reason) ' ' =
      some (toString status, reason) := by
    apply Str.splitOnce_eq_some_iff.mpr
    exact ⟨by simp, hstatus⟩
  simp only [Str.splitn, hfirst, hsecond]

lemma status_statusLine (hstatus : status ∈ STATUSES) (fields : List String) (body : Bytes) :
    ResponseRead.status ⟨statusLine status reason, fields, body⟩ = some status.toNat := by
  have hall : (STATUSES.all fun status => (toString status).length == 3) = true := by decide
  have hlength : (toString status).length = 3 := beq_iff_eq.mp (List.all_eq_true.mp hall status hstatus)
  have hsmall := status.toNat_lt
  have hparse : Str.parseUsize (toString status) = some status.toNat := parseUsize_toString (by omega)
  simp only [ResponseRead.status, splitn_statusLine, true_and, if_pos hlength, hparse]

/-- A response whose only `Content-Length` is that of its body is read back. -/
lemma reads_response (before after : List String) {body : Bytes} (hstatus : status ∈ STATUSES)
    (hreason : reason.toList.all isHeadChar = true) (hlines : ∀ line ∈ before ++ after, HeadLine line)
    (hother : ∀ line ∈ before, OtherField "Content-Length" line = true) (hbody : body.length < 2 ^ 64) :
    Reads status body (response (statusLine status reason :: (before ++
      ("Content-Length: " ++ toString body.length) :: after)) body) := by
  have hhead : ∀ line ∈ statusLine status reason :: (before ++
      ("Content-Length: " ++ toString body.length) :: after), HeadLine line := by
    intro line hline
    simp only [List.mem_cons, List.mem_append] at hline
    rcases hline with rfl | hline | rfl | hline
    · exact headLine_statusLine hreason
    · exact hlines line (List.mem_append_left _ hline)
    · exact headLine_contentLength _
    · exact hlines line (List.mem_append_right _ hline)
  have hread : readResponse (response (statusLine status reason :: (before ++
      ("Content-Length: " ++ toString body.length) :: after)) body) =
        some ⟨statusLine status reason, before ++ ("Content-Length: " ++ toString body.length) :: after,
          body⟩ := readResponse_response (List.cons_ne_nil _ _) hhead
  have hlength : fieldValue "Content-Length" (before ++
      ("Content-Length: " ++ toString body.length) :: after) = some (toString body.length) := by
    rw [fieldValue_append hother, fieldValue_contentLength]
  refine ⟨_, hread, rfl, ?_⟩
  simp only [ResponseRead.message, status_statusLine hstatus, hlength, parseUsize_toString hbody,
    Option.bind_eq_bind, Option.bind_some, guard, le_refl, if_true, pure, List.take_length]

end StatusLine

lemma reasonOf_plain (status : UInt16) : (reasonOf status).toList.all isHeadChar = true := by
  unfold reasonOf
  split_ifs <;> decide

theorem reads_buildJsonResponse {status : UInt16} (hstatus : status ∈ STATUSES) {body : Bytes}
    (h : body.length < 2 ^ 64) : Reads status body (buildJsonResponse status body) := by
  rw [buildJsonResponse_eq]
  exact reads_response ["Content-Type: application/json; charset=utf-8"] _ hstatus
    (reasonOf_plain status) (by decide) (by decide) h

theorem reads_formatStatusResponse {body : String} (h : (intoBytes body).length < 2 ^ 64) :
    Reads 200 (intoBytes body) (formatStatusResponse body) := by
  rw [formatStatusResponse_eq]
  exact reads_response ["Content-Type: text/html; charset=utf-8"] _ (by decide) (by decide) (by decide)
    (by decide) h

theorem reads_build404Response : Reads 404 notFoundBody build404Response := by
  rw [build404Response_eq]
  exact reads_response ["Content-Type: text/plain; charset=utf-8"] _ (by decide) (by decide) (by decide)
    (by decide) (by decide)

theorem reads_buildRedirectResponse {location : String}
    (hlocation : ∀ c ∈ location.toList, isHeadChar c = true)
    (h : (intoBytes (redirectBody location)).length < 2 ^ 64) :
    Reads 302 (intoBytes (redirectBody location)) (buildRedirectResponse location) := by
  have hstatus : "HTTP/1.1 302 Found" = statusLine 302 "Found" := by decide
  have hname : "Location: " = "Location" ++ ": " := by decide
  have hother : OtherField "Content-Length" ("Location: " ++ location) = true := by
    rw [hname]
    exact otherField_field (by decide) (by decide) location
  have hline : HeadLine ("Location: " ++ location) :=
    headLine_redirect (n := 0) hlocation (List.mem_cons_of_mem _ List.mem_cons_self)
  rw [buildRedirectResponse_eq, redirectLines, hstatus]
  apply reads_response ["Location: " ++ location, "Content-Type: text/html; charset=utf-8"] _
    (by decide) (by decide) _ _ h
  · exact List.forall_mem_cons.mpr ⟨hline, by decide⟩
  · exact List.forall_mem_cons.mpr ⟨hother, by decide⟩

end Laye
