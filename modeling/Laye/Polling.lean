import Laye.Lib.Retry
import Laye.Results

/-!
# A login that is polled for

`open_login_popup` and `poll_atproto_result` of `crates/laye-p2p/src/wasm.rs`. The popup may have no
way back to its opener, so the tab asks the relay for the result itself, every two seconds for five
minutes. The tab, the browser's connections and the relay move independently of each other.
-/

namespace Laye

open Interaction

/-! ### What the tab does -/

def zeroBytes : Bytes := List.replicate 16 0

/-- The `state` of a login, of the bytes that `getrandom::fill` gives. -/
def randomStateHex (filled : Except String Bytes) : String :=
  hexLower (match filled with
    | .ok bytes => bytes
    | .error _ => zeroBytes)

def ATPROTO_RESULT_URL : String := "https://relaye.sbvh.nl/me/sign/atproto/result"

def resultUrl (state : String) : String := ATPROTO_RESULT_URL ++ "?state=" ++ state

/-- How a timeout of 2000 ms goes that is to resolve a promise. -/
inductive Timer
  | fired
  | noWindow
  | refused (jsErr : String)

/-- A response, with what `text()` makes of its body if that is a string. -/
structure FetchResponse where
  status : UInt16
  text : Option String

inductive PollOp
  | sleep
  | fetch (url : String)
  | handleLoginMessage (message : String)
  | emit (e : Failure)
  /-- a promise that nothing resolves -/
  | never

@[reducible] def PollOp.Ans : PollOp → Type
  | .sleep => Timer
  | .fetch _ => Option FetchResponse
  | .handleLoginMessage _ => Unit
  | .emit _ => Unit
  | .never => Empty

abbrev PollEvent := Event PollOp PollOp.Ans

abbrev Poll (α : Type) := Program PollOp PollOp.Ans Empty α

namespace Poll

def never {α : Type} : Poll α := .op .never Empty.elim

def refusal (jsErr : String) : Failure :=
  ⟨.warn, "atproto-poll-timer", "set_timeout failed to schedule next atproto poll", jsErr⟩

/-- Without a timeout nothing ever resolves the promise. -/
def sleep : Poll Unit :=
  .op .sleep fun
    | .fired => .done ()
    | .noWindow => never
    | .refused jsErr => .op (.emit (refusal jsErr)) fun _ => never

def fetch (url : String) : Poll (Option FetchResponse) := .op (.fetch url) .done

def handleLoginMessage (message : String) : Poll Unit := .op (.handleLoginMessage message) .done

end Poll

/-- What a round makes of a response; `none` is `continue`. -/
def takeResponse : Option FetchResponse → Poll (Option Unit)
  | none => return none
  | some resp =>
    if resp.status ≠ 200 then return none
    else
      match resp.text with
      | none => return none
      | some text => do
        Poll.handleLoginMessage (envelope text)
        return some ()

/-- One round of the loop. -/
def pollRound (state : String) : Poll (Option Unit) := do
  Poll.sleep
  takeResponse (← Poll.fetch (resultUrl state))

def pollAtprotoResult (state : String) : Poll (Option Unit) := retry (pollRound state) 150

/-! ### Runs of the loop -/

def PollEvent.fetched : PollEvent → Option (Option FetchResponse)
  | ⟨.fetch _, r⟩ => some r
  | _ => none

def PollEvent.handled : PollEvent → Option String
  | ⟨.handleLoginMessage message, _⟩ => some message
  | _ => none

/-- What the fetches brought. -/
def fetchedIn (tr : List PollEvent) : List (Option FetchResponse) := tr.filterMap PollEvent.fetched

/-- The messages that were handled. -/
def handledIn (tr : List PollEvent) : List String := tr.filterMap PollEvent.handled

/-- No message comes of what a fetch brought. -/
def Fruitless : Option FetchResponse → Prop
  | none => True
  | some resp => resp.status ≠ 200 ∨ resp.text = none

lemma fetchedIn_append (tr tr' : List PollEvent) :
    fetchedIn (tr ++ tr') = fetchedIn tr ++ fetchedIn tr' := List.filterMap_append

lemma handledIn_append (tr tr' : List PollEvent) :
    handledIn (tr ++ tr') = handledIn tr ++ handledIn tr' := List.filterMap_append

/-- A round that brings a message. -/
def hit (state text : String) : List PollEvent :=
  [⟨.sleep, .fired⟩, ⟨.fetch (resultUrl state), some ⟨200, some text⟩⟩,
    ⟨.handleLoginMessage (envelope text), ()⟩]

/-- A round that brings none. -/
def miss (state : String) (r : Option FetchResponse) : List PollEvent :=
  [⟨.sleep, .fired⟩, ⟨.fetch (resultUrl state), r⟩]

section Rounds

variable {state : String} {tr : List PollEvent}

lemma after_never {α : Type} {q : Poll α} (h : After tr Poll.never q) :
    tr = [] ∧ ∀ x, q ≠ .done x := by
  rcases after_op_iff.mp h with ⟨rfl, rfl⟩ | ⟨x, -⟩
  · exact ⟨rfl, by simp⟩
  · exact x.elim

/-- Only a timer that fires lets a round go on. -/
lemma after_sleep {q : Poll Unit} (h : After tr Poll.sleep q) :
    (∀ e ∈ tr, e.op = .sleep ∨ ∃ e', e.op = .emit e') ∧
      ∀ x, q = .done x → tr = [⟨.sleep, .fired⟩] := by
  rcases after_op_iff.mp h with ⟨rfl, rfl⟩ | ⟨timer, tr', rfl, hrest⟩
  · exact ⟨by simp, by simp⟩
  · cases timer with
    | fired =>
      obtain ⟨rfl, rfl⟩ := after_done_iff.mp hrest
      exact ⟨by simp, fun _ _ => rfl⟩
    | noWindow =>
      obtain ⟨rfl, hopen⟩ := after_never hrest
      exact ⟨by simp, fun x hx => absurd hx (hopen x)⟩
    | refused jsErr =>
      rcases after_op_iff.mp hrest with ⟨rfl, rfl⟩ | ⟨_, tr'', rfl, hnever⟩
      · exact ⟨by simp, by simp⟩
      · obtain ⟨rfl, hopen⟩ := after_never hnever
        exact ⟨by simp, fun x hx => absurd hx (hopen x)⟩

lemma after_takeResponse {r : Option FetchResponse} {q : Poll (Option Unit)}
    (h : After tr (takeResponse r) q) :
    (tr = [] ∧ ∀ x, q = .done x → x = none ∧ Fruitless r) ∨
      ∃ text, r = some ⟨200, some text⟩ ∧ tr = [⟨.handleLoginMessage (envelope text), ()⟩] ∧
        q = .done (some ()) := by
  have hnone : Fruitless r → After tr (.done none) q →
      tr = [] ∧ ∀ x, q = .done x → x = none ∧ Fruitless r := by
    intro hr hdone
    obtain ⟨rfl, rfl⟩ := after_done_iff.mp hdone
    refine ⟨rfl, ?_⟩
    rintro x ⟨⟩
    exact ⟨rfl, hr⟩
  unfold takeResponse at h
  split at h
  · exact Or.inl (hnone trivial h)
  · rename_i resp
    split at h
    · rename_i hstatus
      exact Or.inl (hnone (Or.inl hstatus) h)
    · rename_i hstatus
      split at h
      · rename_i htext
        exact Or.inl (hnone (Or.inr htext) h)
      · rename_i text htext
        obtain ⟨status, _⟩ := resp
        obtain rfl : status = 200 := not_not.mp hstatus
        cases htext
        rcases after_op_iff.mp h with ⟨rfl, rfl⟩ | ⟨_, tr', rfl, hdone⟩
        · exact Or.inl ⟨rfl, fun x hx => by cases hx⟩
        · obtain ⟨rfl, rfl⟩ := after_done_iff.mp hdone
          exact Or.inr ⟨text, rfl, rfl, rfl⟩

/-- How far a round has come. -/
lemma after_pollRound {q : Poll (Option Unit)} (h : After tr (pollRound state) q) :
    (∃ text, tr = hit state text ∧ q = .done (some ())) ∨
    (∃ r, tr = miss state r ∧ ∀ x, q = .done x → x = none ∧ Fruitless r) ∨
    ((∀ e ∈ tr, e.op = .sleep ∨ ∃ e', e.op = .emit e') ∧ ∀ x, q ≠ .done x) := by
  rcases after_bind_iff.mp h with ⟨r, hsleep, rfl, hopen⟩ | ⟨tr₁, tr₂, _, rfl, hsleep, hfetch⟩
  · refine Or.inr (Or.inr ⟨(after_sleep hsleep).1, fun x hx => ?_⟩)
    cases r with
    | done a => exact hopen a rfl
    | fail e => cases hx
    | op o next => cases hx
  · obtain rfl := (after_sleep hsleep).2 _ rfl
    rcases after_op_iff.mp hfetch with ⟨rfl, rfl⟩ | ⟨r, tr', rfl, hrest⟩
    · exact Or.inr (Or.inr ⟨by simp, by simp⟩)
    · rcases after_takeResponse hrest with ⟨rfl, hq⟩ | ⟨text, rfl, rfl, rfl⟩
      · exact Or.inr (Or.inl ⟨r, rfl, hq⟩)
      · exact Or.inl ⟨text, rfl, rfl⟩

/-- Rounds that miss bring one fruitless answer each, and no message. -/
lemma misses_pollRound {k : Nat} (h : Misses (pollRound state) k tr) :
    (fetchedIn tr).length = k ∧ handledIn tr = [] ∧ ∀ r ∈ fetchedIn tr, Fruitless r := by
  induction h with
  | nil => exact ⟨rfl, rfl, by simp [fetchedIn]⟩
  | cons hround _ ih =>
    obtain ⟨hlength, hhandled, hfruitless⟩ := ih
    rcases after_pollRound hround with ⟨text, -, hq⟩ | ⟨r, rfl, hq⟩ | ⟨-, hq⟩
    · cases hq
    · rw [fetchedIn_append, handledIn_append, hhandled]
      refine ⟨?_, rfl, ?_⟩
      · rw [List.length_append, hlength]
        exact Nat.add_comm _ _
      · intro r' hr'
        rcases List.mem_append.mp hr' with hr' | hr'
        · obtain rfl : r = r' := by simpa [fetchedIn, miss, PollEvent.fetched] using hr'
          exact (hq none rfl).2
        · exact hfruitless r' hr'
    · exact absurd rfl (hq none)

/-- What the loop has done on its way. -/
structure Polled (state : String) (tr : List PollEvent) : Prop where
  fetches : (fetchedIn tr).length ≤ 150
  once : (handledIn tr).length ≤ 1
  read : ∀ message ∈ handledIn tr, ∃ text, message = envelope text ∧
    ⟨.fetch (resultUrl state), some ⟨200, some text⟩⟩ ∈ tr

lemma polled_of_after {q : Poll (Option Unit)} (h : After tr (pollAtprotoResult state) q) :
    Polled state tr := by
  rcases h.retry with hmiss | ⟨k, missed, last, r, hk, rfl, hmiss, hlast⟩
  · obtain ⟨hlength, hhandled, -⟩ := misses_pollRound hmiss
    exact ⟨hlength.le, by simp [hhandled], by simp [hhandled]⟩
  · obtain ⟨hlength, hhandled, -⟩ := misses_pollRound hmiss
    rcases after_pollRound hlast with ⟨text, rfl, -⟩ | ⟨r', rfl, -⟩ | ⟨hquiet, -⟩
    · refine ⟨?_, ?_, ?_⟩
      · rw [fetchedIn_append, List.length_append, hlength]
        exact hk
      · rw [handledIn_append, hhandled]
        exact Nat.le_refl 1
      · intro message hmessage
        rw [handledIn_append, hhandled] at hmessage
        obtain rfl : envelope text = message := by
          simpa [handledIn, hit, PollEvent.handled] using hmessage
        exact ⟨text, rfl, by simp [hit]⟩
    · refine ⟨?_, ?_, ?_⟩
      · rw [fetchedIn_append, List.length_append, hlength]
        exact hk
      · rw [handledIn_append, hhandled]
        exact Nat.zero_le 1
      · intro message hmessage
        rw [handledIn_append, hhandled] at hmessage
        simp [handledIn, miss, PollEvent.handled] at hmessage
    · have hfetched : fetchedIn last = [] := by
        refine List.filterMap_eq_nil_iff.mpr fun e he => ?_
        obtain ⟨op, answer⟩ := e
        rcases hquiet _ he with hop | ⟨_, hop⟩ <;> cases hop <;> rfl
      have hnone : handledIn last = [] := by
        refine List.filterMap_eq_nil_iff.mpr fun e he => ?_
        obtain ⟨op, answer⟩ := e
        rcases hquiet _ he with hop | ⟨_, hop⟩ <;> cases hop <;> rfl
      refine ⟨?_, ?_, ?_⟩
      · rw [fetchedIn_append, List.length_append, hlength, hfetched]
        exact hk.le
      · rw [handledIn_append, hhandled, hnone]
        exact Nat.zero_le 1
      · intro message hmessage
        rw [handledIn_append, hhandled, hnone] at hmessage
        cases hmessage

/-- The loop gives up after 150 fruitless answers. -/
lemma gaveUp_iff (h : After tr (pollAtprotoResult state) (.done none)) :
    (fetchedIn tr).length = 150 ∧ ∀ r ∈ fetchedIn tr, Fruitless r := by
  rcases returns_retry_iff.mp h with ⟨-, hmiss⟩ | ⟨_, _, _, _, hsome, -⟩
  · obtain ⟨hlength, -, hfruitless⟩ := misses_pollRound hmiss
    exact ⟨hlength, hfruitless⟩
  · cases hsome

def PollOp.FetchesOnly (url : String) : PollOp → Prop
  | .fetch url' => url' = url
  | _ => True

lemma fetchesOnly_pollAtprotoResult :
    AsksOnly (PollOp.FetchesOnly (resultUrl state)) (pollAtprotoResult state) := by
  apply AsksOnly.retry
  have hnever : AsksOnly (PollOp.FetchesOnly (resultUrl state)) (Poll.never : Poll Unit) :=
    .op trivial fun x => x.elim
  refine AsksOnly.bind (.op trivial fun timer => ?_) fun _ =>
    AsksOnly.bind (.op rfl fun r => .done r) fun r => ?_
  · cases timer with
    | fired => exact .done ()
    | noWindow => exact hnever
    | refused jsErr => exact .op trivial fun _ => hnever
  · unfold takeResponse
    split
    · exact .done none
    · split
      · exact .done none
      · split
        · exact .done none
        · exact .op trivial fun _ => .done _

end Rounds

/-! ### The tab and the relay -/

/-- What a browser's `fetch` makes of the bytes of a response. -/
structure FetchApi where
  read : Bytes → Option (UInt16 × Bytes)
  text : Bytes → String

/-- Responses are taken apart, and `text()` decodes UTF-8 without its byte order mark. -/
structure FetchApi.Documented (fetchApi : FetchApi) : Prop where
  reads : ∀ status ∈ STATUSES, ∀ body : Bytes, body.length < 2 ^ 64 →
    fetchApi.read (buildJsonResponse status body) = some (status, body)
  decodes : ∀ text : String, text.toList.head? ≠ some '\uFEFF' → fetchApi.text (intoBytes text) = text

/-- A connection that the browser opens for an URL of the relay. -/
structure Fetches (c : Connection) (url : String) : Prop where
  plain : handleConn c.peek = some .notUpgrade
  read : ∃ target, url = "https://relaye.sbvh.nl" ++ target ∧
    readFullRequest c.reads = .ok (some ⟨"GET", target, []⟩)

structure PollEntry where
  event : PollEvent
  /-- the connection that answered a fetch -/
  server : Option Nat

/-- A tab that polls, and the relay. -/
structure Link where
  relay : ServerPool
  rest : Poll (Option Unit)
  /-- the connection of the fetch that is under way -/
  asked : Option Nat
  log : List PollEntry

namespace Link

def start (now : Instant) (state : String) : Link :=
  ⟨.start ⟨now, .new⟩, pollAtprotoResult state, none, []⟩

def events (L : Link) : List PollEvent := L.log.map PollEntry.event

def answered (L : Link) (e : PollEvent) (server : Option Nat) (rest : Poll (Option Unit)) : Link :=
  { L with rest, asked := none, log := L.log ++ [⟨e, server⟩] }

inductive Step (d : RelayDeps) (fetchApi : FetchApi) : Link → Link → Prop
  | relay {L : Link} {R : ServerPool} (h : Interaction.Step (httpSystem d) L.relay R) :
      Step d fetchApi L { L with relay := R }
  | request {L : Link} {url : String} {next : Option FetchResponse → Poll (Option Unit)}
      {c : Connection} (hrest : L.rest = .op (.fetch url) next) (hasked : L.asked = none)
      (hc : Fetches c url) : Step d fetchApi L
        { L with relay := L.relay.arrive (httpSystem d) c, asked := some L.relay.threads.length }
  | lost {L : Link} {url : String} {next : Option FetchResponse → Poll (Option Unit)}
      (hrest : L.rest = .op (.fetch url) next) :
      Step d fetchApi L (L.answered ⟨.fetch url, none⟩ none (next none))
  | response {L : Link} {url : String} {next : Option FetchResponse → Poll (Option Unit)} {i : Nat}
      {c : Connection} {out body : Bytes} {status : UInt16} {text : Option String}
      (hrest : L.rest = .op (.fetch url) next) (hasked : L.asked = some i)
      (hi : L.relay.threads[i]? = some (c, .done (.responded out))) (hfits : out.length < 2 ^ 64)
      (hread : fetchApi.read out = some (status, body))
      (htext : text = none ∨ text = some (fetchApi.text body)) :
      Step d fetchApi L
        (L.answered ⟨.fetch url, some ⟨status, text⟩⟩ (some i) (next (some ⟨status, text⟩)))
  | own {L : Link} {o : PollOp} {next : o.Ans → Poll (Option Unit)} {x : o.Ans}
      (hrest : L.rest = .op o next) (ho : ∀ url, o ≠ .fetch url) :
      Step d fetchApi L (L.answered ⟨o, x⟩ none (next x))

abbrev Run (d : RelayDeps) (fetchApi : FetchApi) : Link → Link → Prop :=
  Relation.ReflTransGen (Step d fetchApi)

/-- The response is the relay's answer on connection `i`, which the browser opened for the state. -/
structure AnsweredBy (fetchApi : FetchApi) (state : String) (P : ServerPool) (i : Nat)
    (resp : FetchResponse) : Prop where
  ended : ∃ c out body, P.threads[i]? = some (c, .done (.responded out)) ∧
    Fetches c (resultUrl state) ∧ out.length < 2 ^ 64 ∧
    fetchApi.read out = some (resp.status, body) ∧
    (resp.text = none ∨ resp.text = some (fetchApi.text body))

structure Sound (d : RelayDeps) (fetchApi : FetchApi) (now : Instant) (state : String) (L : Link) :
    Prop where
  relay : Interaction.Run (httpSystem d) (.start ⟨now, .new⟩) L.relay
  after : After L.events (pollAtprotoResult state) L.rest
  asked : ∀ i, L.asked = some i →
    ∃ c, L.relay.connection i = some c ∧ Fetches c (resultUrl state)
  answered : ∀ e ∈ L.log, ∀ url resp, e.event = ⟨.fetch url, some resp⟩ →
    ∃ i, e.server = some i ∧ AnsweredBy fetchApi state L.relay i resp

section Runs

variable {d : RelayDeps} {fetchApi : FetchApi} {now : Instant} {state : String} {L M : Link}

lemma sound_start : Sound d fetchApi now state (start now state) := by
  constructor
  · exact .refl
  · exact .nil _
  · simp [start]
  · simp [start]

/-- A fetch is for the result of the state. -/
lemma Sound.url (hL : Sound d fetchApi now state L) {url : String}
    {next : Option FetchResponse → Poll (Option Unit)} (hrest : L.rest = .op (.fetch url) next) :
    url = resultUrl state := by
  have hafter := hL.after
  rw [hrest] at hafter
  have hasks : Asks (pollAtprotoResult state) L.events (.fetch url) := ⟨next, hafter⟩
  exact fetchesOnly_pollAtprotoResult.asks hasks

/-- A relay that moves on keeps its connections and what it has answered. -/
lemma Sound.relayed (hL : Sound d fetchApi now state L) {R : ServerPool}
    (h : Interaction.Step (httpSystem d) L.relay R) {asked : Option Nat}
    (hasked : ∀ i, asked = some i → L.asked = some i ∨
      ∃ c, R.connection i = some c ∧ Fetches c (resultUrl state)) :
    Sound d fetchApi now state { L with relay := R, asked } := by
  constructor
  · exact hL.relay.tail h
  · exact hL.after
  · intro i hi
    rcases hasked i hi with hold | hnew
    · obtain ⟨c, hc, hfetches⟩ := hL.asked i hold
      exact ⟨c, h.job hc, hfetches⟩
    · exact hnew
  · intro e he url resp hevent
    obtain ⟨i, hserver, c, out, body, hi, hrest⟩ := hL.answered e he url resp hevent
    exact ⟨i, hserver, c, out, body, h.ended hi, hrest⟩

lemma Sound.answers (hL : Sound d fetchApi now state L) {o : PollOp} {x : o.Ans}
    {next : o.Ans → Poll (Option Unit)} (hrest : L.rest = .op o next) {server : Option Nat}
    (h : ∀ url resp, (⟨o, x⟩ : PollEvent) = ⟨.fetch url, some resp⟩ →
      ∃ i, server = some i ∧ AnsweredBy fetchApi state L.relay i resp) :
    Sound d fetchApi now state (L.answered ⟨o, x⟩ server (next x)) := by
  constructor
  · exact hL.relay
  · have hafter := hL.after
    rw [hrest] at hafter
    have hevents : (L.answered ⟨o, x⟩ server (next x)).events = L.events ++ [⟨o, x⟩] := by
      simp [events, Link.answered]
    rw [hevents]
    exact hafter.snoc x
  · simp [Link.answered]
  · intro e he url resp hevent
    rcases List.mem_append.mp he with hold | hnew
    · exact hL.answered e hold url resp hevent
    · rw [List.mem_singleton.mp hnew] at hevent ⊢
      exact h url resp hevent

lemma Sound.step (hL : Sound d fetchApi now state L) (h : Step d fetchApi L M) :
    Sound d fetchApi now state M := by
  cases h with
  | relay h => exact hL.relayed h fun i hi => Or.inl hi
  | @request url next c hrest hasked hc =>
    refine hL.relayed (.arrive L.relay c) fun i hi => Or.inr ⟨c, ?_, hL.url hrest ▸ hc⟩
    cases hi
    simp [ServerPool.connection, Pool.arrive]
  | lost hrest =>
    refine hL.answers hrest fun url resp hevent => ?_
    cases hevent
  | @response url next i c out body status text hrest hasked hi hfits hread htext =>
    refine hL.answers hrest fun url' resp hevent => ⟨i, rfl, c, out, body, hi, ?_⟩
    cases hevent
    obtain ⟨c', hc', hfetches⟩ := hL.asked i hasked
    rw [ServerPool.connection, hi] at hc'
    cases hc'
    exact ⟨hfetches, hfits, hread, htext⟩
  | own hrest ho =>
    refine hL.answers hrest fun url resp hevent => ?_
    simp only [Event.mk.injEq] at hevent
    exact absurd hevent.1 (ho url)

lemma sound_run (h : Run d fetchApi (start now state) L) : Sound d fetchApi now state L := by
  induction h with
  | refl => exact sound_start
  | tail _ hstep ih => exact ih.step hstep

/-- The relay may go on alone. -/
lemma run_relay {R : ServerPool} (h : Interaction.Run (httpSystem d) L.relay R) :
    Run d fetchApi L { L with relay := R } := by
  induction h with
  | refl => exact .refl
  | tail _ hstep ih => exact ih.tail (.relay hstep)

end Runs

end Link

/-! ### What a round learns -/

lemma encodedChars_hexByte (i : UInt8) : Query.encodedChars (hexByte i) = [hexChar i] := by
  have hdigits : HEX.all (fun c => Query.encodedChars (UInt8.ofNat c.toNat) == [c]) = true := by decide
  exact eq_of_beq (List.all_eq_true.mp hdigits _ (hexChar_mem i))

/-- A state of hex digits stands in an URL as it is. -/
lemma percentEncode_hexLower (bytes : Bytes) : percentEncode (hexLower bytes) = hexLower bytes := by
  apply String.toList_inj.mp
  rw [Query.percentEncode_toList, intoBytes_hexLower, hexLower_toList, List.flatMap_assoc]
  simp only [List.flatMap_cons, List.flatMap_nil, encodedChars_hexByte, List.cons_append,
    List.nil_append]

lemma asked_of_fetches {c : Connection} {bytes : Bytes}
    (h : Fetches c (resultUrl (hexLower bytes))) : ∃ query,
      Asked c "GET" "/me/sign/atproto/result" query [] ∧ query "state" = some (hexLower bytes) := by
  obtain ⟨hplain, target, hurl, hread⟩ := h
  have hform : urlEncodeForm [("state", hexLower bytes)] = "state=" ++ hexLower bytes := by
    have hkey : percentEncode "state" ++ "=" = "state=" := by decide
    rw [urlEncodeForm, List.map_singleton, percentEncode_hexLower, hkey]
    rfl
  have htarget : target = "/me/sign/atproto/result" ++ "?" ++
      urlEncodeForm [("state", hexLower bytes)] := by
    have hsplit : ATPROTO_RESULT_URL ++ "?state=" =
        "https://relaye.sbvh.nl" ++ ("/me/sign/atproto/result" ++ "?" ++ "state=") := by decide
    rw [resultUrl, hsplit, String.append_assoc] at hurl
    rw [hform, ← String.append_assoc]
    exact (String.append_right_inj _).mp hurl.symm
  refine ⟨fun key => Query.lastValue key [("state", hexLower bytes)], ⟨hplain, target, hread, ?_⟩, rfl⟩
  rw [htarget]
  exact Query.splitPathAndQuery_form (by decide) _

lemma fails_handleResult {d : RelayDeps} {query : HashMap String String} {state : String}
    {tr : List RelayEvent} {e : FlowError} (hstate : query "state" = some state)
    (h : Fails (handleResult d query) tr e) : tr = [⟨.getResult state, none⟩] ∧ e = .unknownState := by
  simp only [handleResult, hstate, Relay.okOr, Option.elim_some, Program.ofExcept, Relay.getResult,
    Program.op_bind, Program.done_bind, fails_op_iff] at h
  obtain ⟨found, tr', rfl, hrest⟩ := h
  cases found with
  | none =>
    obtain ⟨rfl, rfl⟩ := fails_fail_iff.mp hrest
    exact ⟨rfl, rfl⟩
  | some signed => exact absurd hrest (by simp)

/-- The connection looked for a result under the state, at place `k` of the relay's log. -/
def Looked (P : ServerPool) (state : String) (i k : Nat) (found : Option SignedBinding) : Prop :=
  ∃ e, P.log[k]? = some e ∧ e.thread = i ∧ e.event = ⟨.getResult state, found⟩

lemma looked_of_mem {P : ServerPool} {state : String} {i : Nat} {found : Option SignedBinding}
    (h : ⟨.getResult state, found⟩ ∈ eventsOf i P.log) : ∃ k, Looked P state i k found := by
  obtain ⟨k, e, hk, hthread, hevent⟩ := mem_eventsOf.mp h
  exact ⟨k, e, hk, hthread, hevent⟩

section Rounds

variable {d : RelayDeps} {fetchApi : FetchApi} {now : Instant} {P : ServerPool} {i : Nat}
  {resp : FetchResponse} {bytes : Bytes}

/-- The status tells what the relay has found. -/
lemma Link.AnsweredBy.found (hdoc : fetchApi.Documented)
    (hrun : Interaction.Run (httpSystem d) (.start ⟨now, .new⟩) P)
    (h : Link.AnsweredBy fetchApi (hexLower bytes) P i resp) :
    (∃ k b, Looked P (hexLower bytes) i k (some b) ∧ resp.status = 200 ∧
      (resp.text = none ∨ resp.text = some (fetchApi.text (d.serde.toVec b.toJson)))) ∨
    ∃ k, Looked P (hexLower bytes) i k none ∧ resp.status = 404 := by
  obtain ⟨c, out, body, hi, hfetches, hfits, hread, htext⟩ := h.ended
  obtain ⟨query, hasked, hstate⟩ := asked_of_fetches hfetches
  have hreturns : Returns (c.serve d) (eventsOf i P.log) (.responded out) := hrun.returns hi
  rw [serve_result hasked] at hreturns
  obtain ⟨_, hroute, heq⟩ := returns_responded_iff.mp hreturns
  cases heq
  have hjson : ∀ status ∈ STATUSES, ∀ reply, out = buildJsonResponse status reply →
      resp.status = status ∧ body = reply := by
    rintro status hstatus reply rfl
    have hreply : reply.length < 2 ^ 64 := by
      rw [buildJsonResponse, List.length_append] at hfits
      omega
    rw [hdoc.reads status hstatus reply hreply] at hread
    cases hread
    exact ⟨rfl, rfl⟩
  rcases returns_respond_iff.mp hroute with ⟨reply, hresult, hout⟩ | ⟨e, hfails, hout⟩
  · obtain ⟨state, b, hstate', hget, rfl⟩ := returns_handleResult hresult
    obtain rfl : hexLower bytes = state := Option.some.inj (hstate.symm.trans hstate')
    obtain ⟨k, hk⟩ := looked_of_mem hget
    obtain ⟨hstatus, rfl⟩ := hjson 200 (by decide) _ hout
    exact Or.inl ⟨k, b, hk, hstatus, htext⟩
  · obtain ⟨htr, rfl⟩ := fails_handleResult hstate hfails
    obtain ⟨k, hk⟩ := looked_of_mem (htr ▸ List.mem_singleton_self _)
    exact Or.inr ⟨k, hk, (hjson 404 (by decide) _ hout).1⟩

end Rounds

/-! ### The message -/

/-- A browser reads a document as the text that was written. -/
lemma text_of_toVec {serde : SerdeJson} {fetchApi : FetchApi} (hdoc : fetchApi.Documented)
    (hcompact : serde.Compact) (htexts : serde.WritesText) (b : SignedBinding) :
    intoBytes (fetchApi.text (serde.toVec b.toJson)) = serde.toVec b.toJson := by
  obtain ⟨text, htext⟩ := htexts b.toJson
  have hplain : text.toList.head? ≠ some '\uFEFF' := by
    intro hmark
    obtain ⟨rest, hrest⟩ := List.head?_eq_some_iff.mp hmark
    have hobject : ∃ tail, serde.toVec b.toJson = 123 :: tail := ⟨_, hcompact.object _⟩
    obtain ⟨tail, htail⟩ := hobject
    rw [htail, intoBytes_eq, hrest, List.flatMap_cons] at htext
    have hbyte : String.utf8EncodeChar '\uFEFF' = [239, 187, 191] := by decide
    rw [hbyte] at htext
    cases htext
  rw [htext, hdoc.decodes text hplain]

lemma takenBy_of_vouched {d : RelayDeps} {client : Deps d.lib} (hserde : client.serde = d.serde)
    (htrip : d.serde.RoundTripsWithin 3) (hcompact : d.serde.Compact) (hkeys : d.lib.SignVerify)
    {P : ServerPool} {state text : String} {b : SignedBinding} (h : Vouched d P state b)
    (htext : intoBytes text = d.serde.toVec b.toJson) : TakenBy client b (envelope text) := by
  rw [← hserde] at htrip hcompact htext
  have hredeem := redeemable_of_signed htrip hcompact hkeys h.byKey h.signer
  exact hredeem.taken _ (hredeem.polled text htext)

/-- The connection found nothing under the state, where no result of the last ten minutes was. -/
def FoundNothing (P : ServerPool) (state : String) (i : Nat) : Prop :=
  ∃ k looking, P.log[k]? = some looking ∧ looking.thread = i ∧
    looking.event = ⟨.getResult state, none⟩ ∧
    ∀ (n : Nat) (inserting : RelayEntry) (b : SignedBinding), n < k → P.log[n]? = some inserting →
      inserting.event = ⟨.insertResult state b, ()⟩ →
      inserting.before.now + FLOW_TTL ≤ looking.before.now

lemma foundNothing_of_looked {d : RelayDeps} {now : Instant} {P : ServerPool} {state : String}
    {i k : Nat} (hrun : Run (httpSystem d) (.start ⟨now, .new⟩) P) (h : Looked P state i k none) :
    FoundNothing P state i := by
  obtain ⟨looking, hk, hthread, hget⟩ := h
  exact ⟨k, looking, hk, hthread, hget, (answer_of_getResult hrun hk hget).2 rfl⟩

lemma vouched_of_looked {d : RelayDeps} {now : Instant} {P : ServerPool} {state : String} {i k : Nat}
    {b : SignedBinding} (hhex : d.hex.RoundTrips) (hrun : Run (httpSystem d) (.start ⟨now, .new⟩) P)
    (h : Looked P state i k (some b)) : Vouched d P state b := by
  obtain ⟨looking, hk, -, hget⟩ := h
  obtain ⟨n, -, hinserted, -⟩ := (answer_of_getResult hrun hk hget).1 b rfl
  exact vouched_of_inserted hhex hrun hinserted

lemma fetch_of_fetched {e : PollEvent} {resp : FetchResponse} (h : e.fetched = some (some resp)) :
    ∃ url, e = ⟨.fetch url, some resp⟩ := by
  obtain ⟨o, x⟩ := e
  cases o with
  | fetch url => exact ⟨url, by rw [Option.some.inj h]⟩
  | _ => cases h

/-- However the tab, its connections and the relay move: a message that the tab takes from polling
carries a binding that a callback under the tab's state had earned, which only a client with the key
of the start accepts; there is one at most, after at most 150 fetches; and if the tab gives up, each
of its 150 fetches was lost, could not be read, or found no result of the last ten minutes. -/
theorem login_by_polling {d : RelayDeps} {client : Deps d.lib} {fetchApi : FetchApi} {now : Instant}
    {filled : Except String Bytes} {L : Link} (hserde : client.serde = d.serde) (htrip : d.serde.RoundTripsWithin 3)
    (hcompact : d.serde.Compact) (htexts : d.serde.WritesText) (hhex : d.hex.RoundTrips)
    (hkeys : d.lib.SignVerify) (hdoc : fetchApi.Documented)
    (hrun : Link.Run d fetchApi (.start now (randomStateHex filled)) L) :
    (∀ message ∈ handledIn L.events, ∃ b, Vouched d L.relay (randomStateHex filled) b ∧
      TakenBy client b message) ∧
    (handledIn L.events).length ≤ 1 ∧ (fetchedIn L.events).length ≤ 150 ∧
    (L.rest = .done none → (fetchedIn L.events).length = 150 ∧
      ∀ e ∈ L.log, ∀ r, e.event.fetched = some r → r = none ∨ r = some ⟨200, none⟩ ∨
        ∃ i, e.server = some i ∧ FoundNothing L.relay (randomStateHex filled) i) := by
  have hsound := Link.sound_run hrun
  have hpolled := polled_of_after hsound.after
  refine ⟨?_, hpolled.once, hpolled.fetches, ?_⟩
  · intro message hmessage
    obtain ⟨text, rfl, hfetch⟩ := hpolled.read message hmessage
    obtain ⟨e, he, hevent⟩ := List.mem_map.mp hfetch
    obtain ⟨i, -, hby⟩ := hsound.answered e he _ _ hevent
    rcases hby.found hdoc hsound.relay with ⟨k, b, hlooked, -, htext⟩ | ⟨k, -, hstatus⟩
    · have hvouched := vouched_of_looked hhex hsound.relay hlooked
      refine ⟨b, hvouched, takenBy_of_vouched hserde htrip hcompact hkeys hvouched ?_⟩
      rcases htext with hnone | hsome
      · cases hnone
      · rw [Option.some.inj hsome]
        exact text_of_toVec hdoc hcompact htexts b
    · exact absurd hstatus (show (200 : UInt16) ≠ 404 by decide)
  · intro hdone
    have hafter := hsound.after
    rw [hdone] at hafter
    obtain ⟨hlength, hfruitless⟩ := gaveUp_iff hafter
    refine ⟨hlength, fun e he r hr => ?_⟩
    cases r with
    | none => exact Or.inl rfl
    | some resp =>
      obtain ⟨url, hevent⟩ := fetch_of_fetched hr
      obtain ⟨i, hserver, hby⟩ := hsound.answered e he url resp hevent
      rcases hby.found hdoc hsound.relay with ⟨k, b, -, hstatus, -⟩ | ⟨k, hlooked, -⟩
      · -- a result that was found can only have stayed unread
        have hmem : some resp ∈ fetchedIn L.events :=
          List.mem_filterMap.mpr ⟨e.event, List.mem_map_of_mem he, hr⟩
        obtain ⟨status, text⟩ := resp
        obtain rfl : status = 200 := hstatus
        rcases hfruitless _ hmem with hne | hnone
        · exact absurd rfl hne
        · obtain rfl : text = none := hnone
          exact Or.inr (Or.inl rfl)
      · exact Or.inr (Or.inr ⟨i, hserver, foundNothing_of_looked hsound.relay hlooked⟩)

/-! ### Alice polls -/

namespace PollingExample

def state : String := randomStateHex (.error "")

def startBody : Bytes := SerdeJson.compact.toVec (.object [
  ("peer_pubkey_hex", .string (hexLower AtprotoExample.peer.bytes)),
  ("handle", .string "@Alice.example"), ("main_state", .string state)])

def startBytes : Bytes :=
  intoBytes "POST /me/oauth/atproto/start HTTP/1.1\r\nContent-Length: 160\r\n\r\n" ++ startBody

def callbackBytes : Bytes := intoBytes
  "GET /me/callback/atproto?code=c&state=00000000000000000000000000000000 HTTP/1.1\r\n\r\n"

def resultBytes : Bytes := intoBytes
  "GET /me/sign/atproto/result?state=00000000000000000000000000000000 HTTP/1.1\r\n\r\n"

set_option maxRecDepth 4000 in
def startConnection : Connection := .whole startBytes (by decide) (by decide)

def callbackConnection : Connection := .whole callbackBytes (by decide) (by decide)

def resultConnection : Connection := .whole resultBytes (by decide) (by decide)

def query : HashMap String String := fun key => Query.lastValue key [("code", "c"), ("state", state)]

set_option maxRecDepth 4000 in
lemma asked_start : Asked startConnection "POST" "/me/oauth/atproto/start" HashMap.empty startBody := by
  have hutf8 : fromUtf8 (startBytes.take 58) =
      some "POST /me/oauth/atproto/start HTTP/1.1\r\nContent-Length: 160" :=
    fromUtf8_eq_some.mpr (by decide)
  have hline : methodAndPath (firstLine
      "POST /me/oauth/atproto/start HTTP/1.1\r\nContent-Length: 160".toList) =
      some ("POST", "/me/oauth/atproto/start") := by decide
  refine ⟨by decide, "/me/oauth/atproto/start", ?_, by rfl⟩
  exact Connection.readFullRequest_whole (by decide) hutf8 hline (by decide)

lemma asked_callback : Asked callbackConnection "GET" "/me/callback/atproto" query [] := by
  have hutf8 : fromUtf8 (callbackBytes.take 79) =
      some "GET /me/callback/atproto?code=c&state=00000000000000000000000000000000 HTTP/1.1" :=
    fromUtf8_eq_some.mpr (by decide)
  have htarget : "/me/callback/atproto?code=c&state=00000000000000000000000000000000" =
      "/me/callback/atproto" ++ "?" ++ urlEncodeForm [("code", "c"), ("state", state)] := by decide
  refine ⟨by decide, "/me/callback/atproto?code=c&state=00000000000000000000000000000000", ?_, ?_⟩
  · exact Connection.readFullRequest_whole (by decide) hutf8 (by decide) (by decide)
  · rw [htarget]
    exact Query.splitPathAndQuery_form (by decide) _

lemma fetches_result : Fetches resultConnection (resultUrl state) := by
  have hutf8 : fromUtf8 (resultBytes.take 75) =
      some "GET /me/sign/atproto/result?state=00000000000000000000000000000000 HTTP/1.1" :=
    fromUtf8_eq_some.mpr (by decide)
  refine ⟨by decide, "/me/sign/atproto/result?state=00000000000000000000000000000000", by decide, ?_⟩
  exact Connection.readFullRequest_whole (by decide) hutf8 (by decide) (by decide)

/-- A browser that takes heads of lines only. -/
def fetchApi : FetchApi where
  read out := do
    let r ← readResponse out
    let (status, body) ← r.message
    return (UInt16.ofNat status, body)
  text body := (fromUtf8 body).getD ""

lemma documented_fetchApi : fetchApi.Documented := by
  constructor
  · intro status hstatus body hbody
    obtain ⟨r, hread, -, hmessage⟩ := reads_buildJsonResponse hstatus hbody
    simp [fetchApi, hread, hmessage]
  · intro text _
    have hread : fromUtf8 (intoBytes text) = some text := fromUtf8_eq_some.mpr rfl
    simp [fetchApi, hread]

abbrev deps : RelayDeps := AcceptanceExample.deps

/-- Alice has started and come back. -/
def signedIn : ServerPool :=
  ((Pool.start ⟨0, .new⟩ : ServerPool).serial (httpSystem deps) AcceptanceExample.answer
    startConnection).serial (httpSystem deps) AcceptanceExample.answer callbackConnection

set_option maxRecDepth 20000 in
lemma body_start : (httpSystem deps).body startConnection =
    (do return .responded (← handleAtprotoStartRoute deps startBody)) :=
  serve_start asked_start

lemma body_callback : (httpSystem deps).body callbackConnection =
    (do return .responded (← handleAtprotoCallbackRoute deps query)) :=
  serve_callback asked_callback

lemma body_result : ∃ next, (httpSystem deps).body resultConnection = .op (.getResult state) next ∧
    ∀ b : SignedBinding, next (some b) =
      .done (.responded (buildJsonResponse 200 (deps.serde.toVec b.toJson))) := by
  obtain ⟨query, hasked, hstate⟩ := asked_of_fetches fetches_result
  have hbody : (httpSystem deps).body resultConnection =
      (do return .responded (← handleAtprotoResultRoute deps query)) := serve_result hasked
  simp only [hbody, handleAtprotoResultRoute, respond, handleResult, hstate]
  exact ⟨_, rfl, fun b => rfl⟩

set_option maxRecDepth 20000 in
lemma signedIn_result : (signedIn.shared.cache.getResult signedIn.shared.now state).1 =
    some AcceptanceExample.binding := by
  simp only [signedIn, Pool.serial, Pool.arrive, body_start, body_callback]
  rfl

lemma run_signedIn : Run (httpSystem deps) (.start ⟨0, .new⟩) signedIn :=
  (run_serial AcceptanceExample.serves_of_answer _ _).trans
    (run_serial AcceptanceExample.serves_of_answer _ _)

section Fetch

variable {P : ServerPool} {b : SignedBinding}

/-- The relay has answered the tab's fetch with `b`. -/
def afterFetch (P : ServerPool) (b : SignedBinding) : ServerPool :=
  (P.arrive (httpSystem deps) resultConnection).served P.threads.length resultConnection
    ⟨.getResult state, some b⟩ (.done (.responded (buildJsonResponse 200 (deps.serde.toVec b.toJson))))
    ⟨P.shared.now, (P.shared.cache.getResult P.shared.now state).2⟩

lemma step_afterFetch (h : (P.shared.cache.getResult P.shared.now state).1 = some b) :
    Interaction.Step (httpSystem deps) (P.arrive (httpSystem deps) resultConnection)
      (afterFetch P b) := by
  obtain ⟨next, hbody, hfound⟩ := body_result
  rw [afterFetch, ← hfound b]
  apply Interaction.Step.turn
  · simp [Pool.arrive, hbody]
  · exact ⟨h.symm, rfl⟩

lemma afterFetch_thread : (afterFetch P b).threads[P.threads.length]? = some (resultConnection,
    .done (.responded (buildJsonResponse 200 (deps.serde.toVec b.toJson)))) := by
  simp [afterFetch, Pool.served, Pool.arrive]

/-- A tab that polls once, when the relay has got to `P`. -/
lemma exists_run (hrun : Run (httpSystem deps) (.start ⟨0, .new⟩) P)
    (hfound : (P.shared.cache.getResult P.shared.now state).1 = some b)
    (hlength : (buildJsonResponse 200 (deps.serde.toVec b.toJson)).length < 2 ^ 64) :
    ∃ L message, Link.Run deps fetchApi (.start 0 state) L ∧ handledIn L.events = [message] := by
  obtain ⟨text, htext⟩ : ∃ text, fetchApi.text (deps.serde.toVec b.toJson) = text := ⟨_, rfl⟩
  obtain ⟨awaken, hsleep, take, hfetch, finish, hhandle⟩ :
      ∃ next, pollAtprotoResult state = .op .sleep next ∧
        ∃ next', next .fired = .op (.fetch (resultUrl state)) next' ∧
          ∃ next'', next' (some ⟨200, some text⟩) =
            .op (.handleLoginMessage (envelope text)) next'' := ⟨_, rfl, _, rfl, _, rfl⟩
  let asleep : Link := { Link.start 0 state with relay := P }
  let awake : Link := asleep.answered ⟨.sleep, .fired⟩ none (awaken .fired)
  let asking : Link :=
    { awake with relay := P.arrive (httpSystem deps) resultConnection, asked := some P.threads.length }
  let served : Link := { asking with relay := afterFetch P b }
  let told : Link := served.answered ⟨.fetch (resultUrl state), some ⟨200, some text⟩⟩
    (some P.threads.length) (take (some ⟨200, some text⟩))
  let handled : Link := told.answered ⟨.handleLoginMessage (envelope text), ()⟩ none (finish ())
  have hasleep : Link.Run deps fetchApi (.start 0 state) asleep := Link.run_relay hrun
  have hawake : Link.Step deps fetchApi asleep awake := .own hsleep (by simp)
  have hasking : Link.Step deps fetchApi awake asking := .request hfetch rfl fetches_result
  have hserved : Link.Step deps fetchApi asking served := .relay (step_afterFetch hfound)
  have hbody : (deps.serde.toVec b.toJson).length < 2 ^ 64 := by
    rw [buildJsonResponse, List.length_append] at hlength
    omega
  have hread := documented_fetchApi.reads 200 (by decide) _ hbody
  have htold : Link.Step deps fetchApi served told :=
    .response hfetch rfl afterFetch_thread hlength hread (Or.inr (congrArg some htext.symm))
  have hhandled : Link.Step deps fetchApi told handled := .own hhandle (by simp)
  exact ⟨handled, envelope text,
    ((((hasleep.tail hawake).tail hasking).tail hserved).tail htold).tail hhandled, rfl⟩

end Fetch

set_option maxRecDepth 20000 in
lemma length_reply : (buildJsonResponse 200
    (deps.serde.toVec AcceptanceExample.binding.toJson)).length < 2 ^ 64 := by decide

end PollingExample

theorem login_by_polling_alice : ∃ L message b,
    Link.Run PollingExample.deps PollingExample.fetchApi (.start 0 PollingExample.state) L ∧
      handledIn L.events = [message] ∧ Vouched PollingExample.deps L.relay PollingExample.state b ∧
      TakenBy AcceptanceExample.client b message := by
  obtain ⟨L, message, hrun, hhandled⟩ :=
    PollingExample.exists_run PollingExample.run_signedIn PollingExample.signedIn_result
      PollingExample.length_reply
  obtain ⟨htaken, -⟩ := login_by_polling
    (show AcceptanceExample.client.serde = PollingExample.deps.serde from rfl)
    (SerdeJson.roundTrips_compact 3) SerdeJson.compact_writes SerdeJson.compact_writesText
    hexDecode_hexLower signVerify_clear PollingExample.documented_fetchApi hrun
  obtain ⟨b, hvouched, htakenBy⟩ := htaken _ (hhandled ▸ List.mem_singleton_self _)
  exact ⟨L, message, b, hrun, hhandled, hvouched, htakenBy⟩

end Laye
