import Laye.Issuance
import Laye.Query
import Laye.ReadResponse

/-!
# The redirect that ends a callback

`build_redirect_response` of `crates/relaye/src/status_page.rs` puts the location of a finished
callback, with the state of its flow, into a header, a URL and a page.
-/

namespace Laye

open Interaction

def redirectBody (location : String) : String :=
  s!"<html><body>redirecting to <a href=\"{location}\">{location}</a></body></html>"

def buildRedirectResponse (location : String) : Bytes :=
  let body := redirectBody location
  let contentLength := Str.len body
  intoBytes s!"HTTP/1.1 302 Found\r\nLocation: {location}\r\nContent-Type: text/html; charset=utf-8\r\nContent-Length: {contentLength}\r\nCache-Control: no-store\r\nConnection: close\r\n\r\n{body}"

/-- The status line and the header lines of the response. -/
def redirectLines (location : String) (contentLength : Nat) : List String :=
  ["HTTP/1.1 302 Found", "Location: " ++ location, "Content-Type: text/html; charset=utf-8",
    "Content-Length: " ++ toString contentLength, "Cache-Control: no-store", "Connection: close"]

/-- A client reads the bytes as one response: its lines are those of a redirect to `location`, whose
length is that of the bytes after them. -/
def OneResponse (location : String) (out : Bytes) : Prop :=
  ∃ r, readResponse out = some r ∧ r.statusLine :: r.fields = redirectLines location r.body.length

/-- The location that a client reads names the state as its parameter. -/
def NamesState (out : Bytes) (state : String) : Prop :=
  ∃ r location read, readResponse out = some r ∧ fieldValue "Location" r.fields = some location ∧
    Query.splitPathAndQuery location = some read ∧ read.2 "atproto_result" = some state

/-- The state survives a header and a query as it is: no control character but tabs, no blank at its
end, no ampersand, no plus sign and no percent sign before two hex digits. -/
structure PlainState (state : String) : Prop where
  head : ∀ c ∈ state.toList, isHeadChar c = true
  unpadded : ∀ c, state.toList.getLast? = some c → isBlank c = false
  ampersand : '&' ∉ state.toList
  plus : '+' ∉ state.toList
  escape : ¬Query.HasEscape (intoBytes state)

/-! ### The response -/

lemma len_eq (s : String) : Str.len s = (intoBytes s).length := by
  rw [Str.len, intoBytes, Array.length_toList]
  rfl

lemma buildRedirectResponse_eq (location : String) :
    buildRedirectResponse location =
      response (redirectLines location (intoBytes (redirectBody location)).length)
        (intoBytes (redirectBody location)) := by
  have hstatus : intoBytes "HTTP/1.1 302 Found\r\nLocation: " =
      intoBytes "HTTP/1.1 302 Found" ++ CRLF ++ intoBytes "Location: " := by decide
  have htype : intoBytes "\r\nContent-Type: text/html; charset=utf-8\r\nContent-Length: " =
      CRLF ++ intoBytes "Content-Type: text/html; charset=utf-8" ++ CRLF ++
        intoBytes "Content-Length: " := by decide
  have hcache : intoBytes "\r\nCache-Control: no-store\r\nConnection: close\r\n\r\n" =
      CRLF ++ intoBytes "Cache-Control: no-store" ++ CRLF ++ intoBytes "Connection: close" ++
        CRLF ++ CRLF := by decide
  simp only [buildRedirectResponse, response, toString, intoBytes_append, hstatus, htype, hcache,
    len_eq, redirectLines, List.map_cons, List.map_nil, List.intercalate_cons_cons,
    List.intercalate_singleton, List.append_assoc]
  rfl

/-- The lines can stand in a head, if the location can. -/
lemma headLine_redirect {location : String} (hlocation : ∀ c ∈ location.toList, isHeadChar c = true)
    {n : Nat} {line : String} (h : line ∈ redirectLines location n) : HeadLine line := by
  simp only [redirectLines, List.mem_cons, List.not_mem_nil, or_false] at h
  rcases h with rfl | rfl | rfl | rfl | rfl | rfl
  · decide
  · have hname : "Location: ".toList.all isHeadChar = true := by decide
    refine ⟨by simp, ?_⟩
    rw [String.toList_append, List.all_append, hname, Bool.true_and]
    exact List.all_eq_true.mpr hlocation
  · decide
  · exact headLine_contentLength n
  · decide
  · decide

lemma readResponse_redirect {location : String}
    (hlocation : ∀ c ∈ location.toList, isHeadChar c = true) :
    readResponse (buildRedirectResponse location) =
      some ⟨"HTTP/1.1 302 Found", (redirectLines location (intoBytes (redirectBody location)).length).tail,
        intoBytes (redirectBody location)⟩ := by
  rw [buildRedirectResponse_eq]
  exact readResponse_response (List.cons_ne_nil _ _) fun line => headLine_redirect hlocation

/-- Exactly when the response is one: the location has no control character but tabs. -/
theorem oneResponse_iff (location : String) :
    OneResponse location (buildRedirectResponse location) ↔
      ∀ c ∈ location.toList, isHeadChar c = true := by
  constructor
  · rintro ⟨r, hread, hlines⟩ c hc
    have hline : "Location: " ++ location ∈ r.statusLine :: r.fields := by
      rw [hlines]
      simp [redirectLines]
    apply isHeadChar_of_readResponse hread hline
    rw [String.toList_append]
    exact List.mem_append_right _ hc
  · intro hlocation
    exact ⟨_, readResponse_redirect hlocation, rfl⟩

/-! ### The state in it -/

/-- The location `handle_callback` returns for a state. -/
def locationOf (state : String) : String := "/me/?atproto_result=" ++ state

/-- The redirect carries the state, and nothing else. -/
def CarriesState (location state : String) : Prop :=
  OneResponse location (buildRedirectResponse location) ∧
    NamesState (buildRedirectResponse location) state

/-- The state without the blanks at its end. -/
def unpadded (state : String) : String := String.ofList (state.toList.rdropWhile isBlank)

section State

variable {state : String}

lemma toList_locationOf (state : String) :
    (locationOf state).toList = "/me/?atproto_result=".toList ++ state.toList := String.toList_append

lemma locationOf_eq (state : String) :
    locationOf state = "/me/" ++ "?" ++ "atproto_result" ++ "=" ++ state := by
  have hstart : "/me/?atproto_result=" = "/me/" ++ "?" ++ "atproto_result" ++ "=" := by decide
  exact congrArg (· ++ state) hstart

lemma isHeadChar_locationOf :
    (∀ c ∈ (locationOf state).toList, isHeadChar c = true) ↔ ∀ c ∈ state.toList, isHeadChar c = true := by
  have hstart : "/me/?atproto_result=".toList.all isHeadChar = true := by decide
  rw [toList_locationOf, List.forall_mem_append]
  exact and_iff_right (List.all_eq_true.mp hstart)

lemma toList_unpadded (state : String) :
    (unpadded state).toList = state.toList.rdropWhile isBlank := String.toList_ofList

/-- A location is read without the blanks at its end, which are the state's. -/
lemma rdropWhile_locationOf (state : String) :
    String.ofList ((locationOf state).toList.rdropWhile isBlank) = locationOf (unpadded state) := by
  obtain ⟨start, hstart⟩ : ∃ start, "/me/?atproto_result=".toList = start := ⟨_, rfl⟩
  have hkept : start.reverse.dropWhile isBlank = start.reverse := by
    rw [← hstart]
    decide
  have hdrop : (start ++ state.toList).rdropWhile isBlank =
      start ++ state.toList.rdropWhile isBlank := by
    rw [List.rdropWhile, List.rdropWhile, List.reverse_append, List.dropWhile_append, hkept]
    split
    · rename_i hempty
      rw [List.isEmpty_iff.mp hempty, List.reverse_nil, List.append_nil, List.reverse_reverse]
    · rw [List.reverse_append, List.reverse_reverse]
  have hlocation := toList_locationOf (unpadded state)
  rw [hstart, toList_unpadded] at hlocation
  rw [toList_locationOf, hstart, hdrop, ← hlocation, String.ofList_toList]

lemma unpadded_eq_self_iff :
    unpadded state = state ↔ ∀ c, state.toList.getLast? = some c → isBlank c = false := by
  rw [← String.toList_inj, toList_unpadded, List.rdropWhile_eq_self_iff]
  constructor
  · intro h c hc
    have hne : state.toList ≠ [] := by
      rintro hnil
      rw [hnil] at hc
      cases hc
    rw [List.getLast?_eq_some_getLast hne, Option.some.injEq] at hc
    exact Bool.eq_false_iff.mpr (hc ▸ h hne)
  · intro h hne
    rw [h _ (List.getLast?_eq_some_getLast hne)]
    exact Bool.false_ne_true

lemma length_unpadded_lt (h : unpadded state ≠ state) :
    (intoBytes (unpadded state)).length < (intoBytes state).length := by
  have hfront : (unpadded state).toList <+: state.toList := by
    rw [toList_unpadded]
    exact List.rdropWhile_prefix _ _
  obtain ⟨more, hmore⟩ := hfront
  cases more with
  | nil =>
    rw [List.append_nil] at hmore
    exact absurd (String.toList_inj.mp hmore) h
  | cons c more =>
    have hpos := c.utf8Size_pos
    rw [intoBytes_eq, intoBytes_eq, ← hmore, List.flatMap_append, List.flatMap_cons]
    simp only [List.length_append, String.length_utf8EncodeChar]
    omega

lemma readsState_iff (state : String) :
    (∃ read, Query.splitPathAndQuery (locationOf state) = some read ∧
      read.2 "atproto_result" = some state) ↔
    '&' ∉ state.toList ∧ '+' ∉ state.toList ∧ ¬Query.HasEscape (intoBytes state) := by
  have hkey : Query.percentDecode "atproto_result" = some "atproto_result" := by
    apply Query.percentDecode_eq_self_iff.mpr
    rw [← Query.decodeBytes_eq_self_iff]
    decide
  have hpath : '?' ∉ "/me/".toList := by decide
  have hname : '=' ∉ "atproto_result".toList ∧ '&' ∉ "atproto_result".toList := by decide
  have hplus : 43 ∈ intoBytes state ↔ '+' ∈ state.toList := mem_intoBytes_iff (c := '+') (by decide) state
  rw [locationOf_eq, Query.splitPathAndQuery_raw_iff hpath hname hkey state, hplus]

lemma namesState_iff (hstate : ∀ c ∈ state.toList, isHeadChar c = true) :
    NamesState (buildRedirectResponse (locationOf state)) state ↔
      unpadded state = state ∧ '&' ∉ state.toList ∧ '+' ∉ state.toList ∧
        ¬Query.HasEscape (intoBytes state) := by
  have hname : ':' ∉ "Location".toList := by decide
  have hsplit : "Location: " = "Location" ++ ": " := by decide
  have hfirst : ∀ c, (locationOf state).toList.head? = some c → isBlank c = false := by
    intro c hc
    rw [toList_locationOf, List.head?_append_of_ne_nil _ (by decide)] at hc
    have hslash : "/me/?atproto_result=".toList.head? = some '/' := by decide
    rw [← Option.some.inj (hslash.symm.trans hc)]
    decide
  have hread := readResponse_redirect (isHeadChar_locationOf.mpr hstate)
  have hvalue : ∀ n, fieldValue "Location" (redirectLines (locationOf state) n).tail =
      some (locationOf (unpadded state)) := by
    intro n
    rw [redirectLines, List.tail_cons, hsplit, fieldValue_field hname hfirst, rdropWhile_locationOf]
  constructor
  · rintro ⟨r, location, read, hr, hlocation, hquery, hparam⟩
    rw [hread] at hr
    obtain rfl := Option.some.inj hr
    rw [hvalue] at hlocation
    obtain rfl := Option.some.inj hlocation
    have hsame : unpadded state = state := by
      by_contra hne
      have hlt := length_unpadded_lt hne
      rw [locationOf_eq] at hquery
      have hle := Query.length_parameter_le (by decide) (by decide) hquery hparam
      omega
    rw [hsame] at hquery
    exact ⟨hsame, (readsState_iff state).mp ⟨read, hquery, hparam⟩⟩
  · rintro ⟨hsame, hplain⟩
    obtain ⟨read, hquery, hparam⟩ := (readsState_iff state).mpr hplain
    rw [hsame] at hvalue
    exact ⟨_, _, read, hread, hvalue _, hquery, hparam⟩

/-- Exactly when a redirect carries the state it is made from. -/
theorem carriesState_iff (state : String) :
    CarriesState (locationOf state) state ↔ PlainState state := by
  rw [CarriesState, oneResponse_iff, isHeadChar_locationOf]
  constructor
  · rintro ⟨hhead, hnames⟩
    obtain ⟨hend, hamp, hplus, hescape⟩ := (namesState_iff hhead).mp hnames
    exact ⟨hhead, unpadded_eq_self_iff.mp hend, hamp, hplus, hescape⟩
  · rintro ⟨hhead, hend, hamp, hplus, hescape⟩
    exact ⟨hhead, (namesState_iff hhead).mpr ⟨unpadded_eq_self_iff.mpr hend, hamp, hplus, hescape⟩⟩

end State

/-! ### Finished callbacks -/

section Runs

variable {d : RelayDeps} {query : HashMap String String}

/-- A callback that returns has taken a flow under the state it was asked for. -/
lemma returns_handleCallback {tr : List RelayEvent} {location : String}
    (h : Returns (handleCallback d query) tr location) :
    ∃ state flow, query "state" = some state ∧ ⟨.takeFlow state, some flow⟩ ∈ tr ∧
      location = locationOf state := by
  unfold handleCallback at h
  simp only [returns_bind_iff, Relay.returns_okOr_iff] at h
  obtain ⟨_, _, code, rfl, ⟨rfl, -⟩, _, _, state, rfl, ⟨rfl, hstate⟩, tr₁, tr₂, taken, rfl, htake,
    _, tr₃, flow, rfl, ⟨rfl, rfl⟩, tr₄, tr₅, sub, rfl, -, h⟩ := h
  rw [Relay.takeFlow, returns_op_iff] at htake
  obtain ⟨x, _, rfl, hx⟩ := htake
  obtain ⟨rfl, rfl⟩ := returns_done_iff.mp hx
  split at h
  · simp only [returns_bind_iff, Program.pure_eq, returns_done_iff] at h
    obtain ⟨_, _, _, rfl, -, -, rfl⟩ := h
    exact ⟨state, flow, hstate, by simp, rfl⟩
  · simp at h

/-- A start has stashed a flow under the state. -/
def StartedUnder (d : RelayDeps) (P : RelayPool) (state : String) : Prop :=
  ∃ (n : Nat) (entry : RelayEntry) (body : Bytes) (flow : FlowState) (peer : PubKey),
    P.log[n]? = some entry ∧ P.job entry.thread = some (.start body) ∧
      Started d body (eventsOf entry.thread (P.log.take n)) state flow peer

lemma startedUnder_of_taking {now : Instant} {P : RelayPool}
    (hrun : Run (relaySystem d) (.start ⟨now, .new⟩) P) {i : Nat} {state : String} {flow : FlowState}
    (h : ⟨.takeFlow state, some flow⟩ ∈ eventsOf i P.log) : StartedUnder d P state := by
  obtain ⟨n, entry, body, peer, hn, hstart, hstarted⟩ := started_of_taking hrun h
  exact ⟨n, entry, body, flow, peer, hn, hstart, hstarted⟩

/-- What a finished callback has to do with the flow it took. -/
lemma finished_callback {now : Instant} {P : RelayPool}
    (hrun : Run (relaySystem d) (.start ⟨now, .new⟩) P) {i : Nat} {location : String}
    (hi : P.threads[i]? = some (.callback query, .done (.redirect location))) :
    ∃ state, query "state" = some state ∧ StartedUnder d P state ∧ location = locationOf state := by
  have hreturns : Returns (Job.program d (.callback query)) (eventsOf i P.log)
      (.redirect location) := hrun.returns hi
  simp only [Job.program, returns_bind_iff, Program.pure_eq, returns_done_iff] at hreturns
  obtain ⟨tr, _, location', hevents, hcallback, rfl, hreply⟩ := hreturns
  cases hreply
  obtain ⟨state, flow, hstate, htake, hlocation⟩ := returns_handleCallback hcallback
  rw [List.append_nil] at hevents
  rw [← hevents] at htake
  exact ⟨state, hstate, startedUnder_of_taking hrun htake, hlocation⟩

/-- In every run, exactly when the redirect of a finished callback carries its state. -/
theorem callback_redirect_iff (now : Instant) (P : RelayPool) (i : Nat) (location : String)
    (hrun : Run (relaySystem d) (.start ⟨now, .new⟩) P)
    (hi : P.threads[i]? = some (.callback query, .done (.redirect location))) :
    ∃ state, query "state" = some state ∧ StartedUnder d P state ∧
      (CarriesState location state ↔ PlainState state) := by
  obtain ⟨state, hstate, hstarted, rfl⟩ := finished_callback hrun hi
  exact ⟨state, hstate, hstarted, carriesState_iff state⟩

end Runs

theorem callback_redirect_alice :
    ∃ state, AtprotoExample.query "state" = some state ∧
      StartedUnder AtprotoExample.deps AtprotoExample.pool state ∧
      (CarriesState "/me/?atproto_result=tab" state ↔ PlainState state) :=
  callback_redirect_iff 0 AtprotoExample.pool 1 "/me/?atproto_result=tab" AtprotoExample.run rfl

namespace AmpersandExample

/-- Alice's sign-in, under a state of her choice. -/
def deps : RelayDeps :=
  { AtprotoExample.deps with
    serde := SerdeJson.ofTexts [
      ([1], .object [("peer_pubkey_hex", .string (hexLower AtprotoExample.peer.bytes)),
        ("handle", .string "@Alice.example"), ("main_state", .string "a&b")]),
      (intoBytes "par", .object [("request_uri", .string "urn:1")]),
      (intoBytes "token", .object [("sub", .string "did:plc:alice")])] }

lemma serves_of_answer (s : RelayState) (o : RelayOp) (x : o.Ans) (s' : RelayState)
    (h : AtprotoExample.answer s o = some (x, s')) : s.Serves deps o x s' := by
  have hserves := AtprotoExample.serves_of_answer s o x s' h
  cases o <;> exact hserves

def query : HashMap String String := (HashMap.empty.insert "code" "c").insert "state" "a&b"

def pool : RelayPool :=
  ((Pool.start ⟨0, .new⟩ : RelayPool).serial (relaySystem deps) AtprotoExample.answer
    (.start [1])).serial (relaySystem deps) AtprotoExample.answer (.callback query)

lemma run : Run (relaySystem deps) (.start ⟨0, .new⟩) pool :=
  (run_serial serves_of_answer _ _).trans (run_serial serves_of_answer _ _)

lemma finished : pool.threads[1]? =
    some (.callback query, .done (.redirect "/me/?atproto_result=a&b")) := rfl

end AmpersandExample

/-- A state with an ampersand does not come back. -/
theorem callback_redirect_ampersand :
    ¬∀ (d : RelayDeps) (now : Instant) (P : RelayPool) (i : Nat) (query : HashMap String String)
      (location state : String), Run (relaySystem d) (.start ⟨now, .new⟩) P →
      P.threads[i]? = some (.callback query, .done (.redirect location)) →
      query "state" = some state → CarriesState location state := by
  intro h
  have hcarries : CarriesState (locationOf "a&b") "a&b" :=
    h AmpersandExample.deps 0 AmpersandExample.pool 1 AmpersandExample.query _ "a&b"
      AmpersandExample.run AmpersandExample.finished rfl
  have hplain := (carriesState_iff "a&b").mp hcarries
  exact hplain.ampersand (by decide)

end Laye
