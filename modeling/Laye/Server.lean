import Laye.Budgets

/-!
# The relay as a server

Connections come in and are served concurrently. They share the flow cache and the relay's key,
and nothing else: what is signed on one connection is signed on what was read from it and from the
connections whose flows it took.
-/

namespace Laye

open Interaction

def httpSystem (d : RelayDeps) :
    System RelayState RelayOp RelayOp.Ans Empty Served Connection where
  body := Connection.serve d
  serve := RelayState.Serves d
  tick s s' := s.now ≤ s'.now ∧ s'.cache = s.cache

abbrev ServerPool := Pool RelayState RelayOp RelayOp.Ans Empty Served Connection

def ServerPool.connection (P : ServerPool) (i : Nat) : Option Connection :=
  (P.threads[i]?).map Prod.fst

/-! ### A token was shown -/

/-- The instance a sign request names has told that the token it came with is of the account that
the claim is about. -/
def TokenShown (d : RelayDeps) (body : Bytes) (tr : List RelayEvent) (claim : BindingClaim) : Prop :=
  ∃ resp req peer actor now, Accepts d body resp req peer actor ∧
    ⟨.send req.verifyCredentials, .ok resp⟩ ∈ tr ∧ claim = req.claim peer now

lemma outward_fetchMastodonActorUrl {host token : String} :
    Outward (fetchMastodonActorUrl host token) := by
  refine AsksOnly.bind outward_buildClient fun _ => AsksOnly.bind outward_orElse fun _ =>
    AsksOnly.bind outward_send fun _ => AsksOnly.bind outward_orElse fun resp => ?_
  split
  · exact AsksOnly.bind outward_orElse fun _ => outward_okOr
  · exact .fail _

lemma tokenShown_of_asks_sign {d : RelayDeps} {body : Bytes} {tr : List RelayEvent}
    {claim : BindingClaim} (h : Asks (handleSign d body) tr (.sign claim)) :
    TokenShown d body tr claim := by
  obtain ⟨next, h⟩ := h
  unfold handleSign at h
  obtain ⟨_, _, req, rfl, hread, h₁⟩ := Outward.after_bind outward_orElse id h
  obtain ⟨rfl, hreq⟩ := Relay.returns_orElse_iff.mp hread
  split at h₁
  · rename_i hprovider
    obtain ⟨_, _, peer, rfl, hpeer, h₂⟩ := Outward.after_bind (AsksOnly.ofExcept _) id h₁
    obtain ⟨rfl, hkey⟩ := returns_ofExcept_iff.mp hpeer
    obtain ⟨tr₁, _, url, rfl, hfetch, h₃⟩ := Outward.after_bind outward_fetchMastodonActorUrl id h₂
    obtain ⟨resp, actor, hsuccess, hjson, hurl, rfl⟩ := returns_fetchMastodonActorUrl_iff.mp hfetch
    split at h₃
    · rename_i heq
      subst heq
      simp only [Relay.unixTime, Program.op_bind, after_op_iff] at h₃
      rcases h₃ with ⟨_, hop⟩ | ⟨now, tr', rfl, h₄⟩
      · cases hop
      · simp only [Program.done_bind, Relay.sign, Program.op_bind, after_op_iff] at h₄
        rcases h₄ with ⟨rfl, hop⟩ | ⟨signature, tr', _, h₅⟩
        · cases hop
          exact ⟨resp, req, peer, actor, now, ⟨hreq, hprovider, hkey, hsuccess, hjson, hurl⟩,
            by simp [SignRequest.verifyCredentials], rfl⟩
        · -- nothing is signed after the signature
          obtain ⟨_, _, _, _, _, h₆⟩ := Outward.after_bind outward_orElse id h₅
          obtain ⟨_, _, _, _, _, h₇⟩ := Outward.after_bind outward_orElse id h₆
          cases h₇
    · simp at h₃
  · simp at h₁

/-! ### Who signs, and who stashes -/

/-- A program without a budget for signatures makes none. -/
lemma not_asks_sign {ε α : Type} {p : Relay ε α} {sends ops : ℕ} (h : Within (sends, 0, ops) p)
    {tr : List RelayEvent} {claim : BindingClaim} : ¬Asks p tr (.sign claim) := by
  intro hasks
  have hle := (h.asks_le hasks).2.1
  rw [spent_eq] at hle
  simp [RelayOp.cost] at hle

/-- A sign request reads clocks, asks servers and signs. -/
lemma asksOnly_handleSign {d : RelayDeps} {body : Bytes} {allowed : RelayOp → Prop}
    (hexternal : ∀ o : RelayOp, o.External → allowed o) (hsign : ∀ claim, allowed (.sign claim)) :
    AsksOnly allowed (handleSign d body) := by
  have hout : ∀ {α : Type} {p : Relay SignError α}, Outward p → AsksOnly allowed p :=
    fun hp => hp.mono hexternal
  refine AsksOnly.bind (hout outward_orElse) fun req => ?_
  split
  · refine AsksOnly.bind (AsksOnly.ofExcept _) fun peer =>
      AsksOnly.bind (hout outward_fetchMastodonActorUrl) fun url => ?_
    split
    · refine AsksOnly.bind (.op (hexternal .unixTime trivial) fun _ => .done _) fun now =>
        AsksOnly.bind (.op (hsign _) fun _ => .done _) fun _ => AsksOnly.bind (hout outward_orElse)
          fun signature => AsksOnly.bind (hout outward_orElse) fun signer => .done _
    · exact .fail _
  · exact .fail _

lemma keeps_handleSign {d : RelayDeps} {body : Bytes} :
    AsksOnly RelayOp.Keeps (handleSign d body) :=
  asksOnly_handleSign (fun _ => RelayOp.External.keeps) fun _ => trivial

section Connections

variable {d : RelayDeps} {c : Connection} {tr : List RelayEvent}

lemma asks_serve_sign {claim : BindingClaim} (h : Asks (c.serve d) tr (.sign claim)) :
    ∃ query body,
      (Asked c "POST" "/me/sign/mastodon" query body ∧ TokenShown d body tr claim) ∨
      (Asked c "GET" "/me/callback/atproto" query body ∧
        ∃ state flow, Earned d query tr state flow claim) := by
  obtain ⟨query, body, h | h | h | h⟩ := asks_serve h
  · exact ⟨query, body, Or.inl ⟨h.1, tokenShown_of_asks_sign h.2⟩⟩
  · exact absurd h.2 (not_asks_sign within_handleStart)
  · exact ⟨query, body, Or.inr ⟨h.1, earned_of_asks_sign h.2⟩⟩
  · exact absurd h.2 (not_asks_sign within_handleResult)

lemma asks_serve_insertFlow {state : String} {flow : FlowState}
    (h : Asks (c.serve d) tr (.insertFlow state flow)) : ∃ query body,
      Asked c "POST" "/me/oauth/atproto/start" query body ∧
        Asks (handleStart d body) tr (.insertFlow state flow) := by
  obtain ⟨query, body, h | h | h | h⟩ := asks_serve h
  · exact absurd (keeps_handleSign.asks h.2) id
  · exact ⟨query, body, h⟩
  · exact absurd (keeps_handleCallback.asks h.2) id
  · exact absurd (keeps_handleResult.asks h.2) id

/-- A connection signs once. -/
lemma asks_serve_sign_first {claim : BindingClaim} (h : Asks (c.serve d) tr (.sign claim)) :
    signedClaims tr = [] := by
  have hle := ((within_serve c).asks_le h).2.1
  rw [spent_eq] at hle
  simpa [RelayOp.cost] using hle

end Connections

/-! ### Flows between connections -/

/-- A flow that the cache holds after an operation stands in the log with that operation, if the
flows it held before stand in the log. -/
lemma stands_snoc {d : RelayDeps} {s s' : RelayState} {o : RelayOp} {x : o.Ans} {i : Nat}
    {log : List RelayEntry}
    (hstands : ∀ state flow, s.cache.flows state = some flow →
      ∃ n, StandsFrom log state flow n log.length)
    (hserve : s.Serves d o x s') {state : String} {flow : FlowState}
    (hflow : s'.cache.flows state = some flow) :
    ∃ n, StandsFrom (log ++ [⟨i, s, ⟨o, x⟩⟩]) state flow n (log.length + 1) := by
  rcases hserve.flows hflow with hins | ⟨hold, hquiet⟩
  · refine ⟨log.length, by omega, ?_, ?_⟩
    · rw [List.getElem?_concat_length]
      exact congrArg some hins
    · intro k e hnk hk
      omega
  · obtain ⟨n, hn⟩ := hstands state flow hold
    exact ⟨n, hn.snoc hquiet⟩

section Runs

variable {d : RelayDeps} {now : Instant} {P : ServerPool}

lemma flowsStand_run (h : Run (httpSystem d) (.start ⟨now, .new⟩) P) :
    ∀ state flow, P.shared.cache.flows state = some flow →
      ∃ n, StandsFrom P.log state flow n P.log.length := by
  induction h with
  | refl =>
    intro state flow hflow
    cases hflow
  | tail _ hstep ih =>
    cases hstep with
    | arrive c => exact ih
    | tick s' htick =>
      intro state flow hflow
      exact ih state flow (htick.2 ▸ hflow)
    | turn i c o next x s' hi hserve =>
      intro state flow hflow
      rw [Pool.served, List.length_append]
      exact stands_snoc ih hserve hflow

/-- A connection that took a flow took it in time, and from where it was put in. -/
lemma consumes_of_takeFlow (hrun : Run (httpSystem d) (.start ⟨now, .new⟩) P) {m : Nat}
    {taking : RelayEntry} {state : String} {flow : FlowState} (hm : P.log[m]? = some taking)
    (htake : taking.event = ⟨.takeFlow state, some flow⟩) :
    taking.before.now.durationSince flow.createdAt < FLOW_TTL ∧
      ∃ n, Consumes P.log state flow n m := by
  obtain ⟨i, before, event⟩ := taking
  cases htake
  obtain ⟨Q, c, next, s', hQ, hQlog, hshared, _, hserve, _⟩ := hrun.entry hm
  obtain ⟨hflow, hfresh⟩ := FlowCacheInner.takeFlow_eq_some.mp hserve.1.symm
  obtain ⟨n, hlt, hins, hquiet⟩ := flowsStand_run hQ state flow (hshared ▸ hflow)
  have hlen : Q.log.length = m := by
    rw [hQlog, List.length_take]
    exact min_eq_left (List.getElem?_eq_some_iff.mp hm).1.le
  rw [hlen] at hlt hquiet
  rw [hQlog, List.getElem?_take_of_lt hlt] at hins
  refine ⟨hfresh, n, ⟨hlt, hins, ?_⟩, by rw [hm]; rfl⟩
  intro k e hnk hkm hk
  refine hquiet k e hnk hkm ?_
  rw [hQlog, List.getElem?_take_of_lt hkm]
  exact hk

/-- The connection at place `n` asked for a start with this body, and stashed the flow. -/
def StashedBy (d : RelayDeps) (P : ServerPool) (n : Nat) (state : String) (flow : FlowState)
    (entry : RelayEntry) (body : Bytes) : Prop :=
  P.log[n]? = some entry ∧ entry.event = ⟨.insertFlow state flow, ()⟩ ∧
    (∃ c query, P.connection entry.thread = some c ∧
      Asked c "POST" "/me/oauth/atproto/start" query body) ∧
    Asks (handleStart d body) (eventsOf entry.thread (P.log.take n)) (.insertFlow state flow)

lemma stashedBy_of_inserted (hrun : Run (httpSystem d) (.start ⟨now, .new⟩) P) {n : Nat}
    {state : String} {flow : FlowState}
    (h : (P.log[n]?).map Entry.event = some ⟨.insertFlow state flow, ()⟩) :
    ∃ entry body, StashedBy d P n state flow entry body := by
  obtain ⟨entry, hn, hins⟩ := Option.map_eq_some_iff.mp h
  obtain ⟨c, hc, hasks⟩ := hrun.asks hn
  rw [hins] at hasks
  obtain ⟨query, body, hasked, hstarts⟩ := asks_serve_insertFlow hasks
  exact ⟨entry, body, hn, hins, ⟨c, query, hc, hasked⟩, hstarts⟩

/-- The flow at place `n` was stashed for the key `peer`, by a start that had found it out. -/
def Stashed (d : RelayDeps) (P : ServerPool) (n : Nat) (state : String) (flow : FlowState)
    (peer : PubKey) : Prop :=
  ∃ entry body, StashedBy d P n state flow entry body ∧
    Started d body (eventsOf entry.thread (P.log.take n)) state flow peer

lemma stashed_of_inserted (hrun : Run (httpSystem d) (.start ⟨now, .new⟩) P) {n : Nat}
    {state : String} {flow : FlowState}
    (h : (P.log[n]?).map Entry.event = some ⟨.insertFlow state flow, ()⟩) :
    ∃ peer, Stashed d P n state flow peer := by
  obtain ⟨entry, body, hstashed⟩ := stashedBy_of_inserted hrun h
  obtain ⟨peer, hstarted⟩ := started_of_asks_insertFlow hstashed.2.2.2
  exact ⟨peer, entry, body, hstashed, hstarted⟩

/-- The evidence of a callback's signature at place `k`: the flow of a start, taken in time by the
same connection, whose authorization server has confirmed the account. -/
def FlowRedeemed (d : RelayDeps) (P : ServerPool) (k i : Nat) (query : HashMap String String)
    (claim : BindingClaim) (n : Nat) : Prop :=
  ∃ (m : Nat) (taking : RelayEntry) (state : String) (flow : FlowState) (peer : PubKey)
    (issuedAt : UInt64), m < k ∧ P.log[m]? = some taking ∧ taking.thread = i ∧
      query "state" = some state ∧ Consumes P.log state flow n m ∧
      taking.before.now.durationSince flow.createdAt < FLOW_TTL ∧ Stashed d P n state flow peer ∧
      Redeemed d flow.authMeta flow.did (eventsOf i (P.log.take k)) ∧
      claim = ⟨peer, "atproto", flow.did, some ("@" ++ flow.handle), issuedAt⟩

/-- What a signature at place `k` rests on. -/
inductive SignedOn (d : RelayDeps) (P : ServerPool) (k i : Nat) (claim : BindingClaim) : Prop
  | token {c : Connection} {query : HashMap String String} {body : Bytes}
      (hc : P.connection i = some c) (h : Asked c "POST" "/me/sign/mastodon" query body)
      (hshown : TokenShown d body (eventsOf i (P.log.take k)) claim)
  | flow {c : Connection} {query : HashMap String String} {body : Bytes} {n : Nat}
      (hc : P.connection i = some c) (h : Asked c "GET" "/me/callback/atproto" query body)
      (hredeemed : FlowRedeemed d P k i query claim n)

lemma flowRedeemed_of_earned (hhex : d.hex.RoundTrips)
    (hrun : Run (httpSystem d) (.start ⟨now, .new⟩) P) {k i : Nat}
    {query : HashMap String String} {state : String} {flow : FlowState} {claim : BindingClaim}
    (h : Earned d query (eventsOf i (P.log.take k)) state flow claim) :
    ∃ n, FlowRedeemed d P k i query claim n := by
  obtain ⟨hquery, htaken, hredeemed, peer, issuedAt, hpeer, hclaim⟩ := h
  obtain ⟨m, taking, hm, hthread, htake⟩ := mem_eventsOf.mp htaken
  obtain ⟨hmk, hm⟩ := getElem?_of_take hm
  obtain ⟨hfresh, n, hconsumes⟩ := consumes_of_takeFlow hrun hm htake
  obtain ⟨peer', hstashed⟩ := stashed_of_inserted hrun hconsumes.1.2.1
  have hkey : peer' = peer := by
    obtain ⟨_, _, -, hstarted⟩ := hstashed
    rw [hstarted.peerHex, Atproto.decodePeerPubkey, decodePubkey_encode hhex] at hpeer
    exact Except.ok.inj hpeer
  subst hkey
  exact ⟨n, m, taking, state, flow, peer', issuedAt, hmk, hm, hthread, hquery, hconsumes, hfresh,
    hstashed, hredeemed, hclaim⟩

/-- However connections come in and their handlers interleave, everything the relay signs rests on
what was read from the wire: a token shown to the instance the request names, or a start whose flow
the callback took, and the confirmation of its authorization server. -/
theorem server_signs_on_evidence (hhex : d.hex.RoundTrips)
    (hrun : Run (httpSystem d) (.start ⟨now, .new⟩) P) {k : Nat} {signing : RelayEntry}
    {claim : BindingClaim} (hk : P.log[k]? = some signing)
    (hsign : signing.event.op = .sign claim) : SignedOn d P k signing.thread claim := by
  obtain ⟨c, hc, hasks⟩ := hrun.asks hk
  rw [hsign] at hasks
  obtain ⟨query, body, ⟨hasked, hshown⟩ | ⟨hasked, state, flow, hearned⟩⟩ := asks_serve_sign hasks
  · exact .token hc hasked hshown
  · obtain ⟨n, hredeemed⟩ := flowRedeemed_of_earned hhex hrun hearned
    exact .flow hc hasked hredeemed

/-- Whatever the servers answer and however the connections interleave, each makes the relay send at
most seven requests and sign at most once, and ask for at most 27 operations in all. -/
theorem server_bounded (hrun : Run (httpSystem d) (.start ⟨now, .new⟩) P) (i : Nat) :
    (sentRequests (eventsOf i P.log)).length ≤ 7 ∧ (signedClaims (eventsOf i P.log)).length ≤ 1 ∧
      (eventsOf i P.log).length ≤ 27 := by
  have hthreaded := Threaded.run hrun
  cases hi : P.threads[i]? with
  | none =>
    have hfresh := hthreaded.fresh i (List.getElem?_eq_none_iff.mp hi)
    rw [hfresh]
    simp [sentRequests, signedClaims]
  | some thread =>
    obtain ⟨c, p⟩ := thread
    exact connection_bounded (hthreaded.after i c p hi)

/-- No two places of the log at which the same connection signs. -/
lemma sign_unique (hrun : Run (httpSystem d) (.start ⟨now, .new⟩) P) {k k' : Nat}
    {signing signing' : RelayEntry} {claim claim' : BindingClaim}
    (hk : P.log[k]? = some signing) (hk' : P.log[k']? = some signing')
    (hsign : signing.event.op = .sign claim) (hsign' : signing'.event.op = .sign claim')
    (hthread : signing.thread = signing'.thread) : k = k' := by
  have hle : ∀ {j j' : Nat} {e e' : RelayEntry} {b b' : BindingClaim}, P.log[j]? = some e →
      P.log[j']? = some e' → e.event.op = .sign b → e'.event.op = .sign b' →
      e.thread = e'.thread → j' ≤ j := by
    intro j j' e e' b b' hj hj' he he' hsame
    by_contra hlt
    obtain ⟨c, -, hasks⟩ := hrun.asks hj'
    rw [he'] at hasks
    have hnone := asks_serve_sign_first hasks
    have hmem : e.event ∈ eventsOf e'.thread (P.log.take j') := by
      refine mem_eventsOf.mpr ⟨j, e, ?_, hsame, rfl⟩
      rw [List.getElem?_take_of_lt (by omega)]
      exact hj
    have hclaim : b ∈ signedClaims (eventsOf e'.thread (P.log.take j')) :=
      List.mem_filterMap.mpr ⟨e.event, hmem, by rw [he]; rfl⟩
    rw [hnone] at hclaim
    cases hclaim
  exact le_antisymm (hle hk' hk hsign' hsign hthread.symm) (hle hk hk' hsign hsign' hthread)

/-- At place `k` a connection signs that came with a callback. -/
def CallbackSigns (P : ServerPool) (k i : Nat) (query : HashMap String String)
    (claim : BindingClaim) : Prop :=
  ∃ (signing : RelayEntry) (c : Connection) (body : Bytes), P.log[k]? = some signing ∧
    signing.thread = i ∧ signing.event.op = .sign claim ∧ P.connection i = some c ∧
      Asked c "GET" "/me/callback/atproto" query body

lemma flowRedeemed_of_signs (hhex : d.hex.RoundTrips)
    (hrun : Run (httpSystem d) (.start ⟨now, .new⟩) P) {k i : Nat} {query : HashMap String String}
    {claim : BindingClaim} (h : CallbackSigns P k i query claim) :
    ∃ n query' claim', CallbackSigns P k i query' claim' ∧ FlowRedeemed d P k i query' claim' n := by
  obtain ⟨signing, c, body, hk, rfl, hsign, hc, hasked⟩ := h
  obtain ⟨c', hc', hasks⟩ := hrun.asks hk
  obtain rfl : c' = c := Option.some.inj (hc'.symm.trans hc)
  rw [hsign] at hasks
  obtain ⟨query', body', ⟨hpost, -⟩ | ⟨hget, state, flow, hearned⟩⟩ := asks_serve_sign hasks
  · obtain ⟨target, hread, -⟩ := hasked.read
    obtain ⟨target', hread', -⟩ := hpost.read
    rw [hread] at hread'
    simp at hread'
  · obtain ⟨n, hredeemed⟩ := flowRedeemed_of_earned hhex hrun hearned
    exact ⟨n, query', claim, ⟨signing, c', body', hk, rfl, hsign, hc, hget⟩, hredeemed⟩

/-- Signatures that consumed the flow of one insertion are one signature. -/
lemma signature_of_flow (hrun : Run (httpSystem d) (.start ⟨now, .new⟩) P) {k k' i i' n : Nat}
    {query query' : HashMap String String} {claim claim' : BindingClaim}
    (h : CallbackSigns P k i query claim) (h' : CallbackSigns P k' i' query' claim')
    (hredeemed : FlowRedeemed d P k i query claim n)
    (hredeemed' : FlowRedeemed d P k' i' query' claim' n) : k = k' := by
  obtain ⟨signing, _, _, hk, rfl, hsign, -⟩ := h
  obtain ⟨signing', _, _, hk', rfl, hsign', -⟩ := h'
  obtain ⟨m, taking, state, flow, peer, issuedAt, -, hm, hthread, -, hconsumes, -⟩ := hredeemed
  obtain ⟨m', taking', state', flow', peer', issuedAt', -, hm', hthread', -, hconsumes', -⟩ :=
    hredeemed'
  have hsame := hconsumes.1.2.1.symm.trans hconsumes'.1.2.1
  simp only [Option.some.injEq, Event.mk.injEq, RelayOp.insertFlow.injEq] at hsame
  obtain ⟨⟨rfl, rfl⟩, -⟩ := hsame
  obtain rfl := hconsumes.unique hconsumes'
  obtain rfl : taking = taking' := Option.some.inj (hm.symm.trans hm')
  exact sign_unique hrun hk hk' hsign hsign' (hthread.symm.trans hthread')

/-- One start, one signature: every signature of a callback rests on a start of its own. -/
theorem one_signature_per_start (hhex : d.hex.RoundTrips)
    (hrun : Run (httpSystem d) (.start ⟨now, .new⟩) P) :
    ∃ source : Nat → Nat,
      (∀ k, (∃ i query claim, CallbackSigns P k i query claim) →
        ∃ i query claim, CallbackSigns P k i query claim ∧
          FlowRedeemed d P k i query claim (source k)) ∧
      Set.InjOn source {k | ∃ i query claim, CallbackSigns P k i query claim} := by
  have hsource : ∀ k, (∃ i query claim, CallbackSigns P k i query claim) →
      ∃ n i query claim, CallbackSigns P k i query claim ∧ FlowRedeemed d P k i query claim n := by
    rintro k ⟨i, query, claim, hsigns⟩
    obtain ⟨n, query', claim', hsigns', hredeemed⟩ := flowRedeemed_of_signs hhex hrun hsigns
    exact ⟨n, i, query', claim', hsigns', hredeemed⟩
  choose! source hsource using hsource
  refine ⟨source, hsource, ?_⟩
  intro k hk k' hk' heq
  obtain ⟨i, query, claim, hsigns, hredeemed⟩ := hsource k hk
  obtain ⟨i', query', claim', hsigns', hredeemed'⟩ := hsource k' hk'
  rw [← heq] at hredeemed'
  exact signature_of_flow hrun hsigns hsigns' hredeemed hredeemed'

end Runs

/-! ### Alice's sign-in, from the wire -/

namespace ServerExample

def startBytes : Bytes :=
  intoBytes "POST /me/oauth/atproto/start HTTP/1.1\r\nContent-Length: 1\r\n\r\n" ++ [1]

def callbackBytes : Bytes :=
  intoBytes "GET /me/callback/atproto?code=c&state=tab HTTP/1.1\r\n\r\n"

def startConnection : Connection := .whole startBytes (by decide) (by decide)

def callbackConnection : Connection := .whole callbackBytes (by decide) (by decide)

/-- The query of a callback, decoded. -/
def query : HashMap String String := fun key => Query.lastValue key [("code", "c"), ("state", "tab")]

lemma asked_start : Asked startConnection "POST" "/me/oauth/atproto/start" HashMap.empty [1] := by
  have hutf8 : fromUtf8 (startBytes.take 56) =
      some "POST /me/oauth/atproto/start HTTP/1.1\r\nContent-Length: 1" :=
    fromUtf8_eq_some.mpr (by decide)
  have hline : methodAndPath (firstLine
      "POST /me/oauth/atproto/start HTTP/1.1\r\nContent-Length: 1".toList) =
      some ("POST", "/me/oauth/atproto/start") := by decide
  refine ⟨by decide, "/me/oauth/atproto/start", ?_, by rfl⟩
  exact Connection.readFullRequest_whole (by decide) hutf8 hline (by decide)

lemma asked_callback : Asked callbackConnection "GET" "/me/callback/atproto" query [] := by
  have hutf8 : fromUtf8 (callbackBytes.take 50) =
      some "GET /me/callback/atproto?code=c&state=tab HTTP/1.1" :=
    fromUtf8_eq_some.mpr (by decide)
  have htarget : "/me/callback/atproto?code=c&state=tab" =
      "/me/callback/atproto" ++ "?" ++ urlEncodeForm [("code", "c"), ("state", "tab")] := by decide
  refine ⟨by decide, "/me/callback/atproto?code=c&state=tab", ?_, ?_⟩
  · exact Connection.readFullRequest_whole (by decide) hutf8 (by decide) (by decide)
  · rw [htarget]
    exact Query.splitPathAndQuery_form (by decide) _

def pool : ServerPool :=
  ((Pool.start ⟨0, .new⟩ : ServerPool).serial (httpSystem AtprotoExample.deps) AtprotoExample.answer
    startConnection).serial (httpSystem AtprotoExample.deps) AtprotoExample.answer callbackConnection

lemma run : Run (httpSystem AtprotoExample.deps) (.start ⟨0, .new⟩) pool :=
  (run_serial AtprotoExample.serves_of_answer _ _).trans (run_serial AtprotoExample.serves_of_answer _ _)

lemma body_start : (httpSystem AtprotoExample.deps).body startConnection =
    (do return .responded (← handleAtprotoStartRoute AtprotoExample.deps [1])) :=
  serve_start asked_start

lemma body_callback : (httpSystem AtprotoExample.deps).body callbackConnection =
    (do return .responded (← handleAtprotoCallbackRoute AtprotoExample.deps query)) :=
  serve_callback asked_callback

/-- The log is that of the two handlers. -/
lemma log_eq : pool.log = AtprotoExample.pool.log := by
  simp only [pool, Pool.serial, Pool.arrive, body_start, body_callback]
  rfl

lemma connection_callback : pool.connection 1 = some callbackConnection := by
  simp only [ServerPool.connection, pool, Pool.serial, Pool.arrive, body_start, body_callback]
  rfl

end ServerExample

/-- The start sends five requests; the callback redeems the code and signs. -/
theorem server_bounded_alice :
    (sentRequests (eventsOf 0 ServerExample.pool.log)).length = 5 ∧
    (sentRequests (eventsOf 1 ServerExample.pool.log)).map HttpRequest.url =
      ["https://as.example/token"] ∧
    signedClaims (eventsOf 1 ServerExample.pool.log) =
      [⟨AtprotoExample.peer, "atproto", "did:plc:alice", some "@alice.example", 0⟩] ∧
    ∀ i, (sentRequests (eventsOf i ServerExample.pool.log)).length ≤ 7 ∧
      (signedClaims (eventsOf i ServerExample.pool.log)).length ≤ 1 ∧
      (eventsOf i ServerExample.pool.log).length ≤ 27 := by
  refine ⟨?_, ?_, ?_, server_bounded ServerExample.run⟩
  all_goals rw [ServerExample.log_eq]
  · rfl
  · rfl
  · rfl

theorem server_signs_on_evidence_alice : SignedOn AtprotoExample.deps ServerExample.pool 26 1
    ⟨AtprotoExample.peer, "atproto", "did:plc:alice", some "@alice.example", 0⟩ := by
  have hsigning : ServerExample.pool.log[26]? = AtprotoExample.pool.log[26]? := by
    rw [ServerExample.log_eq]
  exact server_signs_on_evidence (show AtprotoExample.deps.hex.RoundTrips from hexDecode_hexLower)
    ServerExample.run (hsigning.trans rfl) rfl

theorem one_signature_per_start_alice : ∃ source : Nat → Nat,
    Set.InjOn source {k | ∃ i query claim, CallbackSigns ServerExample.pool k i query claim} := by
  obtain ⟨source, -, hinj⟩ := one_signature_per_start
    (show AtprotoExample.deps.hex.RoundTrips from hexDecode_hexLower) ServerExample.run
  exact ⟨source, hinj⟩

end Laye
