import Laye.AtprotoRuns
import Laye.Lib.Interleaving

/-!
# Signing for atproto accounts

Requests are served concurrently and meet only in the flow cache. Whatever the remote servers
answer and however the requests interleave, a claim is signed only on the evidence gathered in
the start whose flow the callback took.
-/

namespace Laye

open Interaction

/-! ### The relay and its requests -/

/-- The clock behind `Instant::now()` and the cache behind its lock. -/
structure RelayState where
  now : Instant
  cache : FlowCacheInner

inductive Job
  | start (body : Bytes)
  | callback (query : HashMap String String)
  | result (query : HashMap String String)

inductive Reply
  | json (body : Bytes)
  | redirect (location : String)

def Job.program (d : RelayDeps) : Job → Relay FlowError Reply
  | .start body => do return .json (← handleStart d body)
  | .callback query => do return .redirect (← handleCallback d query)
  | .result query => do return .json (← handleResult d query)

/-- What an operation may be answered, and what it does to the relay. Remote servers, the wall
clock and the random number generator may answer anything. -/
def RelayState.Serves (d : RelayDeps) (s : RelayState) :
    (o : RelayOp) → o.Ans → RelayState → Prop
  | .instantNow, x, s' => x = s.now ∧ s' = s
  | .sign claim, x, s' => x = d.lib.sign d.keypair claim.canonicalBytes ∧ s' = s
  | .insertFlow state flow, _, s' => s' = ⟨s.now, s.cache.insertFlow s.now state flow⟩
  | .takeFlow state, x, s' =>
    x = (s.cache.takeFlow s.now state).1 ∧ s' = ⟨s.now, (s.cache.takeFlow s.now state).2⟩
  | .insertResult state signed, _, s' => ∃ createdAt, s.now ≤ createdAt ∧
    s' = ⟨createdAt, s.cache.insertResult s.now createdAt state signed⟩
  | .getResult state, x, s' =>
    x = (s.cache.getResult s.now state).1 ∧ s' = ⟨s.now, (s.cache.getResult s.now state).2⟩
  | _, _, s' => s' = s

def relaySystem (d : RelayDeps) : System RelayState RelayOp RelayOp.Ans FlowError Reply Job where
  body := Job.program d
  serve := RelayState.Serves d
  tick s s' := s.now ≤ s'.now ∧ s'.cache = s.cache

abbrev RelayEntry := Entry RelayState RelayOp RelayOp.Ans

abbrev RelayPool := Pool RelayState RelayOp RelayOp.Ans FlowError Reply Job

def RelayPool.job (P : RelayPool) (i : Nat) : Option Job := (P.threads[i]?).map Prod.fst

/-! ### Where a cached flow comes from -/

/-- The event puts a flow under the state or takes the one that is there. -/
def Touches (state : String) (e : RelayEvent) : Prop :=
  (∃ flow, e = ⟨.insertFlow state flow, ()⟩) ∨ ∃ flow, e = ⟨.takeFlow state, some flow⟩

lemma touches_insertFlow {state state' : String} {flow : FlowState}
    (h : Touches state ⟨.insertFlow state' flow, ()⟩) : state = state' := by
  rcases h with ⟨flow', h⟩ | ⟨flow', h⟩
  · cases h
    rfl
  · cases h

lemma touches_takeFlow {state state' : String} {x : Option FlowState}
    (h : Touches state ⟨.takeFlow state', x⟩) : state = state' := by
  rcases h with ⟨flow, h⟩ | ⟨flow, h⟩
  · cases h
  · injection h with hop
    injection hop with hstate
    exact hstate.symm

/-- A flow that is in the cache after an operation was just put there, or was there before and is
left alone. -/
lemma RelayState.Serves.flows {d : RelayDeps} {s s' : RelayState} {o : RelayOp} {x : o.Ans}
    (h : s.Serves d o x s') {state : String} {flow : FlowState}
    (hflow : s'.cache.flows state = some flow) :
    (⟨o, x⟩ : RelayEvent) = ⟨.insertFlow state flow, ()⟩ ∨
      s.cache.flows state = some flow ∧ ¬Touches state ⟨o, x⟩ := by
  have hother : ∀ {e : RelayEvent}, (∀ flow, e.op ≠ .insertFlow state flow) →
      e.op ≠ .takeFlow state → ¬Touches state e := by
    rintro e hins htake (⟨f, rfl⟩ | ⟨f, rfl⟩)
    · exact hins f rfl
    · exact htake rfl
  cases o with
  | insertFlow state' flow' =>
    cases h
    by_cases hne : state = state'
    · subst hne
      rw [FlowCacheInner.insertFlow_flows_self] at hflow
      cases hflow
      exact Or.inl rfl
    · exact Or.inr ⟨FlowCacheInner.flows_of_insertFlow hne hflow,
        fun htouch => hne (touches_insertFlow htouch)⟩
  | takeFlow state' =>
    obtain ⟨rfl, rfl⟩ := h
    refine Or.inr ⟨FlowCacheInner.flows_of_takeFlow hflow, fun htouch => ?_⟩
    have hstate := touches_takeFlow htouch
    subst hstate
    rw [FlowCacheInner.takeFlow_flows_self] at hflow
    cases hflow
  | insertResult state' signed =>
    obtain ⟨createdAt, _, rfl⟩ := h
    exact Or.inr ⟨FlowCacheInner.flows_of_insertResult hflow, hother (by simp) (by simp)⟩
  | getResult state' =>
    obtain ⟨_, rfl⟩ := h
    have hkept : (s.cache.getResult s.now state').2.flows state = some flow := hflow
    exact Or.inr ⟨FlowCacheInner.flows_of_getResult hkept, hother (by simp) (by simp)⟩
  | instantNow =>
    obtain ⟨_, rfl⟩ := h
    exact Or.inr ⟨hflow, hother (by simp) (by simp)⟩
  | sign claim =>
    obtain ⟨_, rfl⟩ := h
    exact Or.inr ⟨hflow, hother (by simp) (by simp)⟩
  | _ =>
    cases h
    exact Or.inr ⟨hflow, hother (by simp) (by simp)⟩

/-- Place `n` of the log is where `flow` was put under `state`, and nothing up to place `m` has
touched the state since. -/
def StandsFrom (log : List RelayEntry) (state : String) (flow : FlowState) (n m : Nat) : Prop :=
  n < m ∧ (log[n]?).map Entry.event = some ⟨.insertFlow state flow, ()⟩ ∧
    ∀ k e, n < k → k < m → log[k]? = some e → ¬Touches state e.event

/-- Every cached flow stands in the log. -/
def FlowsStand (P : RelayPool) : Prop :=
  ∀ state flow, P.shared.cache.flows state = some flow →
    ∃ n, StandsFrom P.log state flow n P.log.length

lemma StandsFrom.snoc {log : List RelayEntry} {state : String} {flow : FlowState} {n : Nat}
    (h : StandsFrom log state flow n log.length) {e : RelayEntry}
    (he : ¬Touches state e.event) : StandsFrom (log ++ [e]) state flow n (log.length + 1) := by
  obtain ⟨hlt, hins, hquiet⟩ := h
  refine ⟨by omega, ?_, ?_⟩
  · rw [List.getElem?_append_left hlt]
    exact hins
  · intro k e' hnk hk hk'
    by_cases hkl : k < log.length
    · rw [List.getElem?_append_left hkl] at hk'
      exact hquiet k e' hnk hkl hk'
    · have hk0 : k = log.length := by omega
      rw [hk0, List.getElem?_concat_length] at hk'
      cases hk'
      exact he

lemma FlowsStand.step {d : RelayDeps} {P Q : RelayPool} (hP : FlowsStand P)
    (h : Step (relaySystem d) P Q) : FlowsStand Q := by
  cases h with
  | arrive job => exact hP
  | tick s' htick =>
    intro state flow hflow
    exact hP state flow (htick.2 ▸ hflow)
  | turn i job o next x s' hi hserve =>
    intro state flow hflow
    simp only [Pool.served, List.length_append, List.length_cons, List.length_nil, Nat.zero_add]
    rcases RelayState.Serves.flows hserve hflow with hins | ⟨hold, hquiet⟩
    · refine ⟨P.log.length, by omega, ?_, ?_⟩
      · rw [List.getElem?_concat_length]
        exact congrArg some hins
      · intro k e hnk hk
        omega
    · obtain ⟨n, hn⟩ := hP state flow hold
      exact ⟨n, hn.snoc hquiet⟩

lemma FlowsStand.run {d : RelayDeps} {now : Instant} {P : RelayPool}
    (h : Run (relaySystem d) (.start ⟨now, .new⟩) P) : FlowsStand P := by
  induction h with
  | refl =>
    intro state flow hflow
    cases hflow
  | tail _ hstep ih => exact ih.step hstep

/-- The taking at place `m` got the flow that was put in at place `n`. -/
def Consumes (log : List RelayEntry) (state : String) (flow : FlowState) (n m : Nat) : Prop :=
  StandsFrom log state flow n m ∧ (log[m]?).map Entry.event = some ⟨.takeFlow state, some flow⟩

/-- A flow is consumed once. -/
lemma Consumes.unique {log : List RelayEntry} {state : String} {flow flow' : FlowState}
    {n m m' : Nat} (h : Consumes log state flow n m) (h' : Consumes log state flow' n m') :
    m = m' := by
  have hle : ∀ {f f' : FlowState} {i j : Nat}, Consumes log state f n i →
      Consumes log state f' n j → j ≤ i := by
    intro f f' i j hi hj
    by_contra hlt
    obtain ⟨e, he, hev⟩ := Option.map_eq_some_iff.mp hi.2
    exact hj.1.2.2 i e hi.1.1 (by omega) he (Or.inr ⟨f, hev⟩)
  exact le_antisymm (hle h' h) (hle h h')

/-! ### Alice's sign-in -/

namespace AtprotoExample

def peer : PubKey := PubKey.replicate 7

def deps : RelayDeps where
  lib := Libp2pIdentity.recorded []
  keypair := PubKey.replicate 1
  serde := SerdeJson.ofTexts [
    ([1], .object [("peer_pubkey_hex", .string (hexLower peer.bytes)),
      ("handle", .string "@Alice.example"), ("main_state", .string "tab")]),
    (intoBytes "par", .object [("request_uri", .string "urn:1")]),
    (intoBytes "token", .object [("sub", .string "did:plc:alice")])]
  hex := ⟨hexLower, hexDecode⟩
  crypto := ⟨fun _ => "", id, fun _ msg => msg, fun _ => (none, none)⟩
  statusText _ := ""
  cfg := ⟨"client", "redirect", ⟨[]⟩, "kid"⟩

/-- A success with a JSON body. -/
def found (doc : Json) : Except String HttpResponse := .ok ⟨200, none, .error "", .ok doc, ""⟩

def respond (req : HttpRequest) : Except String HttpResponse :=
  if req.url = DOH_ENDPOINT then
    found (.object [("Answer", .array [.object [("data", .string "\"did=did:plc:alice\"")]])])
  else if req.url = "https://plc.directory/did:plc:alice" then
    found (.object [("alsoKnownAs", .array [.string "at://alice.example"]),
      ("service", .array [.object [("type", .string "AtprotoPersonalDataServer"),
        ("serviceEndpoint", .string "https://pds.example/")]])])
  else if req.url = "https://pds.example/.well-known/oauth-protected-resource" then
    found (.object [("authorization_servers", .array [.string "https://as.example"])])
  else if req.url = "https://as.example/.well-known/oauth-authorization-server" then
    found (.object [("issuer", .string "https://as.example"),
      ("authorization_endpoint", .string "https://as.example/auth"),
      ("token_endpoint", .string "https://as.example/token"),
      ("pushed_authorization_request_endpoint", .string "https://as.example/par")])
  else if req.url = "https://as.example/par" then
    .ok ⟨201, some "nonce", .ok "par", .error "", ""⟩
  else
    .ok ⟨200, none, .ok "token", .error "", ""⟩

def answer (s : RelayState) : (o : RelayOp) → Option (o.Ans × RelayState)
  | .buildClient => some (.ok (), s)
  | .send req => some (respond req, s)
  | .unixTime => some (some 0, s)
  | .instantNow => some (s.now, s)
  | .fillBytes n => some (List.replicate n 0, s)
  | .randomKey => some (⟨[]⟩, s)
  | .sign claim => some (deps.lib.sign deps.keypair claim.canonicalBytes, s)
  | .insertFlow state flow => some ((), ⟨s.now, s.cache.insertFlow s.now state flow⟩)
  | .takeFlow state =>
    some ((s.cache.takeFlow s.now state).1, ⟨s.now, (s.cache.takeFlow s.now state).2⟩)
  | .insertResult state signed =>
    some ((), ⟨s.now, s.cache.insertResult s.now s.now state signed⟩)
  | .getResult state =>
    some ((s.cache.getResult s.now state).1, ⟨s.now, (s.cache.getResult s.now state).2⟩)
  | .panicked => none

lemma serves_of_answer (s : RelayState) (o : RelayOp) (x : o.Ans) (s' : RelayState)
    (h : answer s o = some (x, s')) : s.Serves deps o x s' := by
  cases o with
  | panicked => cases h
  | insertResult state signed =>
    cases h
    exact ⟨s.now, le_rfl, rfl⟩
  | instantNow =>
    cases h
    exact ⟨rfl, rfl⟩
  | sign claim =>
    cases h
    exact ⟨rfl, rfl⟩
  | takeFlow state =>
    cases h
    exact ⟨rfl, rfl⟩
  | getResult state =>
    cases h
    exact ⟨rfl, rfl⟩
  | _ =>
    cases h
    rfl

def query : HashMap String String := (HashMap.empty.insert "code" "c").insert "state" "tab"

/-- Alice starts and comes back. -/
def pool : RelayPool :=
  ((Pool.start ⟨0, .new⟩ : RelayPool).serial (relaySystem deps) answer (.start [1])).serial
    (relaySystem deps) answer (.callback query)

lemma run : Run (relaySystem deps) (.start ⟨0, .new⟩) pool :=
  (run_serial serves_of_answer _ _).trans (run_serial serves_of_answer _ _)

end AtprotoExample

/-! ### Whenever a callback signs -/

section Runs

variable {d : RelayDeps} {now : Instant} {P : RelayPool}

/-- Every successful taking consumed a flow, younger than `FLOW_TTL`, that was put in before. -/
lemma consumes_of_taking (hrun : Run (relaySystem d) (.start ⟨now, .new⟩) P) {m : Nat}
    {taking : RelayEntry} {state : String} {flow : FlowState} (hm : P.log[m]? = some taking)
    (htake : taking.event = ⟨.takeFlow state, some flow⟩) :
    taking.before.now.durationSince flow.createdAt < FLOW_TTL ∧
      ∃ n, Consumes P.log state flow n m := by
  obtain ⟨i, before, event⟩ := taking
  cases htake
  obtain ⟨Q, job, next, s', hQ, hQlog, hshared, _, hserve, _⟩ := hrun.entry hm
  obtain ⟨hflow, hfresh⟩ := FlowCacheInner.takeFlow_eq_some.mp hserve.1.symm
  obtain ⟨n, hlt, hins, hquiet⟩ := FlowsStand.run hQ state flow (hshared ▸ hflow)
  have hlen : Q.log.length = m := by
    rw [hQlog, List.length_take]
    exact min_eq_left (List.getElem?_eq_some_iff.mp hm).1.le
  rw [hlen] at hlt hquiet
  rw [hQlog, List.getElem?_take_of_lt hlt] at hins
  refine ⟨hfresh, n, ⟨hlt, hins, ?_⟩, by rw [hm]; rfl⟩
  intro k e hnk hkm hk
  refine hquiet k e hnk hkm ?_
  rw [hQlog, List.getElem?_take_of_lt hkm]
  exact hk

lemma start_of_asks_insertFlow {job : Job} {tr : List RelayEvent} {state : String}
    {flow : FlowState} (h : Asks (job.program d) tr (.insertFlow state flow)) :
    ∃ body, job = .start body ∧ Asks (handleStart d body) tr (.insertFlow state flow) := by
  cases job with
  | start body =>
    refine ⟨body, rfl, ?_⟩
    simpa [Job.program, asks_bind_iff] using h
  | callback query =>
    have hkeeps : AsksOnly RelayOp.Keeps (Job.program d (.callback query)) :=
      AsksOnly.bind keeps_handleCallback (fun _ => .done _)
    exact absurd (hkeeps.asks h) id
  | result query =>
    have hkeeps : AsksOnly RelayOp.Keeps (Job.program d (.result query)) :=
      AsksOnly.bind keeps_handleResult (fun _ => .done _)
    exact absurd (hkeeps.asks h) id

/-- A flow in the log was put there by a start that had found it out. -/
lemma started_of_inserted (hrun : Run (relaySystem d) (.start ⟨now, .new⟩) P) {n : Nat}
    {state : String} {flow : FlowState}
    (h : (P.log[n]?).map Entry.event = some ⟨.insertFlow state flow, ()⟩) :
    ∃ (entry : RelayEntry) (body : Bytes) (peer : PubKey), P.log[n]? = some entry ∧
      entry.event = ⟨.insertFlow state flow, ()⟩ ∧ P.job entry.thread = some (.start body) ∧
      Started d body (eventsOf entry.thread (P.log.take n)) state flow peer := by
  obtain ⟨inserting, hn, hins⟩ := Option.map_eq_some_iff.mp h
  obtain ⟨job, hstart, hasks⟩ := hrun.asks hn
  rw [hins] at hasks
  obtain ⟨body, rfl, hstashes⟩ := start_of_asks_insertFlow hasks
  obtain ⟨peer, hstarted⟩ := started_of_asks_insertFlow hstashes
  exact ⟨inserting, body, peer, hn, hins, hstart, hstarted⟩

/-- A flow that was taken had been stashed by a start under the same state. -/
lemma started_of_taking (hrun : Run (relaySystem d) (.start ⟨now, .new⟩) P) {i : Nat}
    {state : String} {flow : FlowState} (h : ⟨.takeFlow state, some flow⟩ ∈ eventsOf i P.log) :
    ∃ (n : Nat) (entry : RelayEntry) (body : Bytes) (peer : PubKey), P.log[n]? = some entry ∧
      P.job entry.thread = some (.start body) ∧
      Started d body (eventsOf entry.thread (P.log.take n)) state flow peer := by
  obtain ⟨m, taking, hm, -, htake⟩ := mem_eventsOf.mp h
  obtain ⟨-, n, hconsumes⟩ := consumes_of_taking hrun hm htake
  obtain ⟨inserting, body, peer, hn, -, hstart, hstarted⟩ :=
    started_of_inserted hrun hconsumes.1.2.1
  exact ⟨n, inserting, body, peer, hn, hstart, hstarted⟩

/-- Whenever a callback signs, it signs for the account and the key of a completed start under
its `state`, whose flow it took in time and alone, and whose authorization server has confirmed
the account. -/
theorem atproto_issuance_sound (hhex : d.hex.RoundTrips)
    (hrun : Run (relaySystem d) (.start ⟨now, .new⟩) P) {k : Nat} {signing : RelayEntry}
    {query : HashMap String String} {claim : BindingClaim} (hk : P.log[k]? = some signing)
    (hjob : P.job signing.thread = some (.callback query))
    (hsign : signing.event.op = .sign claim) :
    ∃ state flow peer issuedAt n m inserting taking body, n < m ∧ m < k ∧
      P.log[n]? = some inserting ∧ inserting.event = ⟨.insertFlow state flow, ()⟩ ∧
      P.job inserting.thread = some (.start body) ∧
      Started d body (eventsOf inserting.thread (P.log.take n)) state flow peer ∧
      P.log[m]? = some taking ∧ taking.event = ⟨.takeFlow state, some flow⟩ ∧
      taking.thread = signing.thread ∧ query "state" = some state ∧
      taking.before.now.durationSince flow.createdAt < FLOW_TTL ∧
      Consumes P.log state flow n m ∧
      (∀ m' other flow', P.log[m']? = some other →
        other.event = ⟨.takeFlow state, some flow'⟩ → m' ≠ m →
        ∃ n', n' ≠ n ∧ Consumes P.log state flow' n' m') ∧
      Redeemed d flow.authMeta flow.did (eventsOf signing.thread (P.log.take k)) ∧
      claim = ⟨peer, "atproto", flow.did, some ("@" ++ flow.handle), issuedAt⟩ := by
  obtain ⟨job, hcallback, hasks⟩ := hrun.asks hk
  obtain rfl : job = .callback query := Option.some.inj (hcallback.symm.trans hjob)
  rw [hsign] at hasks
  have hsigns : Asks (handleCallback d query) (eventsOf signing.thread (P.log.take k))
      (.sign claim) := by
    simpa [relaySystem, Job.program, asks_bind_iff] using hasks
  obtain ⟨state, flow, hquery, htaken, hredeemed, peer, issuedAt, hpeer, hclaim⟩ :=
    earned_of_asks_sign hsigns
  -- the taking, and the insertion whose flow it consumed
  obtain ⟨m, taking, hm, hthread, htake⟩ := mem_eventsOf.mp htaken
  obtain ⟨hmk, hm⟩ := getElem?_of_take hm
  obtain ⟨hfresh, n, hconsumes⟩ := consumes_of_taking hrun hm htake
  obtain ⟨inserting, body, peer', hn, hins, hstart, hstarted⟩ :=
    started_of_inserted hrun hconsumes.1.2.1
  have hkey : peer' = peer := by
    have hdecode := hpeer
    rw [hstarted.peerHex, Atproto.decodePeerPubkey, decodePubkey_encode hhex] at hdecode
    exact Except.ok.inj hdecode
  subst hkey
  refine ⟨state, flow, peer', issuedAt, n, m, inserting, taking, body, hconsumes.1.1, hmk, hn, hins,
    hstart, hstarted, hm, htake, hthread, hquery, hfresh, hconsumes, ?_, hredeemed, hclaim⟩
  intro m' other flow' hm' hother hne
  obtain ⟨_, n', hconsumes'⟩ := consumes_of_taking hrun hm' hother
  refine ⟨n', ?_, hconsumes'⟩
  rintro rfl
  exact hne (hconsumes'.unique hconsumes)

end Runs

theorem atproto_issuance_sound_alice :
    ∃ state flow n m, n < m ∧ flow.did = "did:plc:alice" ∧
      Consumes AtprotoExample.pool.log state flow n m ∧
      Redeemed AtprotoExample.deps flow.authMeta flow.did
        (eventsOf 1 (AtprotoExample.pool.log.take 26)) := by
  have hhex : AtprotoExample.deps.hex.RoundTrips := hexDecode_hexLower
  obtain ⟨state, flow, _, _, n, m, _, _, _, hnm, _, _, _, _, _, _, _, _, _, _, hconsumes, _,
    hredeemed, hclaim⟩ := atproto_issuance_sound hhex AtprotoExample.run
      (show AtprotoExample.pool.log[26]? = some _ from rfl)
      (show AtprotoExample.pool.job 1 = some (.callback AtprotoExample.query) from rfl)
      (show _ = RelayOp.sign ⟨AtprotoExample.peer, "atproto", "did:plc:alice",
        some "@alice.example", 0⟩ from rfl)
  injection hclaim with _ _ hdid
  exact ⟨state, flow, n, m, hnm, hdid.symm, hconsumes, hredeemed⟩

end Laye
