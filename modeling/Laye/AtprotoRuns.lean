import Laye.Atproto

/-!
# What the atproto handlers ask for

A start stashes a flow only after every check on the handle has succeeded, and a callback signs
only for a flow it has taken and whose code it has redeemed.
-/

namespace Laye

open Interaction

/-! ### Helpers neither sign nor use the cache -/

def RelayOp.External : RelayOp → Prop
  | .sign _ => False
  | .insertFlow _ _ => False
  | .takeFlow _ => False
  | .insertResult _ _ => False
  | .getResult _ => False
  | _ => True

/-- The program keeps to the network, the clocks and the random numbers. -/
abbrev Outward {ε α : Type} (p : Relay ε α) : Prop := AsksOnly RelayOp.External p

section Outward

variable {ε α β : Type}

lemma outward_orElse {f : β → ε} {r : Except β α} : Outward (Relay.orElse f r) :=
  AsksOnly.ofExcept _

lemma outward_okOr {e : ε} {r : Option α} : Outward (Relay.okOr e r) := AsksOnly.ofExcept _

lemma outward_send {req : HttpRequest} : Outward (Relay.send req : Relay ε _) :=
  .op trivial (fun _ => .done _)

lemma outward_randomKey : Outward (Relay.randomKey : Relay ε _) := .op trivial (fun _ => .done _)

lemma outward_instantNow : Outward (Relay.instantNow : Relay ε _) := .op trivial (fun _ => .done _)

lemma outward_buildClient : Outward (Relay.buildClient : Relay ε _) :=
  .op trivial (fun _ => .done _)

variable {d : RelayDeps}

lemma outward_httpClient : Outward httpClient :=
  AsksOnly.bind outward_buildClient (fun _ => outward_orElse)

lemma outward_nowUnixSecs : Outward (nowUnixSecs : Relay ε _) := .op trivial (fun _ => .done _)

lemma outward_randomB64 {n : Nat} : Outward (randomB64 d n : Relay ε _) :=
  .op trivial (fun _ => .done _)

lemma outward_getJson {err : String → ResolveError} {decode : Json → Option α} {url : String} :
    Outward (getJson d err decode url) := by
  refine AsksOnly.bind outward_send (fun _ => AsksOnly.bind outward_orElse (fun resp => ?_))
  split
  · exact outward_orElse
  · exact .fail _

lemma outward_resolveHandleViaDoh {handle : String} : Outward (resolveHandleViaDoh d handle) := by
  refine AsksOnly.bind outward_httpClient.mapError (fun _ => AsksOnly.bind outward_send
    (fun _ => AsksOnly.bind outward_orElse (fun resp => ?_)))
  split
  · exact AsksOnly.bind outward_orElse (fun _ => AsksOnly.bind outward_okOr
      (fun _ => outward_okOr))
  · exact .fail _

lemma outward_resolveHandleViaWellKnown {handle : String} :
    Outward (resolveHandleViaWellKnown d handle) := by
  refine AsksOnly.bind outward_httpClient.mapError (fun _ => AsksOnly.bind outward_send
    (fun _ => AsksOnly.bind outward_orElse (fun resp => ?_)))
  split
  · refine AsksOnly.bind outward_orElse (fun body => ?_)
    dsimp only
    split
    · exact .done _
    · split
      · exact .op trivial (fun x => x.elim)
      · exact .fail _
  · exact .fail _

lemma outward_resolveHandleToDid {handle : String} : Outward (resolveHandleToDid d handle) := by
  unfold resolveHandleToDid
  refine AsksOnly.bind (AsksOnly.ofExcept _) (fun handle => ?_)
  refine AsksOnly.bind outward_resolveHandleViaDoh.attempt (fun r => ?_)
  cases r with
  | ok did => exact .done _
  | error dns =>
    refine AsksOnly.bind outward_resolveHandleViaWellKnown.attempt (fun r => ?_)
    cases r with
    | ok did => exact .done _
    | error https => exact .fail _

lemma outward_fetchDidDocument {did : String} : Outward (fetchDidDocument d did) := by
  unfold fetchDidDocument
  split
  · exact AsksOnly.bind outward_httpClient (fun _ => AsksOnly.bind outward_okOr
      (fun _ => outward_getJson))
  · exact .fail _

lemma outward_discoverAuthServer {didDoc : DidDocument} :
    Outward (discoverAuthServer d didDoc) := by
  refine AsksOnly.bind (AsksOnly.ofExcept _) (fun pdsUrl => AsksOnly.bind ?_ (fun server => ?_))
  · exact AsksOnly.bind outward_httpClient (fun _ => AsksOnly.bind outward_getJson
      (fun _ => outward_okOr))
  · refine AsksOnly.bind outward_httpClient (fun _ => AsksOnly.bind outward_getJson
      (fun metadata => ?_))
    split
    · exact .done _
    · exact .fail _

lemma outward_resolveAccount {handle : String} : Outward (resolveAccount d handle) := by
  unfold resolveAccount
  exact AsksOnly.bind outward_resolveHandleToDid (fun _ => AsksOnly.bind outward_fetchDidDocument
    (fun _ => AsksOnly.bind (AsksOnly.ofExcept _) (fun _ => AsksOnly.bind
      outward_discoverAuthServer (fun _ => .done _))))

lemma outward_dpopProof {key : SigningKey} {method url : String} {nonce token : Option String} :
    Outward (dpopProof d key method url nonce token : Relay ε _) :=
  AsksOnly.bind outward_randomB64 (fun _ => AsksOnly.bind outward_nowUnixSecs (fun _ => .done _))

lemma outward_clientAssertion {audience : String} {now : UInt64} :
    Outward (clientAssertion d audience now : Relay ε _) :=
  AsksOnly.bind outward_randomB64 (fun _ => .done _)

lemma outward_postFormAttempts {url : String} {key : SigningKey}
    {form : Relay FlowError (List (String × String))} (hform : Outward form)
    {attempts : List Nat} {nonce : Option String} :
    Outward (postFormAttempts d url key form attempts nonce) := by
  induction attempts generalizing nonce with
  | nil => exact .fail _
  | cons attempt rest ih =>
    refine AsksOnly.bind outward_dpopProof (fun _ => AsksOnly.bind hform (fun _ =>
      AsksOnly.bind outward_send (fun _ => AsksOnly.bind outward_orElse (fun resp =>
        AsksOnly.bind outward_orElse (fun body => ?_)))))
    split
    · exact ih
    · exact .done _

lemma outward_postFormWithDpop {url : String} {key : SigningKey} {nonce : Option String}
    {form : Relay FlowError (List (String × String))} (hform : Outward form) :
    Outward (postFormWithDpop d url key nonce form) :=
  outward_postFormAttempts hform

lemma outward_parForm {issuer state challenge hint : String} :
    Outward (parForm d issuer state challenge hint) :=
  AsksOnly.bind outward_nowUnixSecs (fun _ => AsksOnly.bind outward_clientAssertion
    (fun _ => .done _))

lemma outward_tokenForm {issuer code verifier : String} :
    Outward (tokenForm d issuer code verifier) :=
  AsksOnly.bind outward_nowUnixSecs (fun _ => AsksOnly.bind outward_clientAssertion
    (fun _ => .done _))

lemma outward_pushRequest {authMeta : AuthServerMetadata} {key : SigningKey}
    {state challenge did : String} : Outward (pushRequest d authMeta key state challenge did) := by
  refine AsksOnly.bind outward_httpClient.mapError (fun _ => AsksOnly.bind
    (outward_postFormWithDpop outward_parForm) (fun resp => ?_))
  split
  · exact AsksOnly.bind outward_orElse (fun _ => AsksOnly.bind outward_okOr (fun _ => .done _))
  · exact .fail _

lemma outward_redeemCode {flow : FlowState} {code : String} :
    Outward (redeemCode d flow code) := by
  refine AsksOnly.bind outward_httpClient.mapError (fun _ => AsksOnly.bind
    (outward_postFormWithDpop outward_tokenForm) (fun resp => ?_))
  split
  · exact AsksOnly.bind outward_orElse (fun _ => outward_okOr)
  · exact .fail _

/-- An outward program runs through before the programs after it sign or use the cache. -/
lemma Outward.after_bind {p : Relay ε α} (hp : Outward p) {f : α → Relay ε β}
    {tr : List RelayEvent} {o : RelayOp} {next : o.Ans → Relay ε β} (ho : ¬o.External)
    (h : After tr (p >>= f) (.op o next)) :
    ∃ tr₁ tr₂ a, tr = tr₁ ++ tr₂ ∧ Returns p tr₁ a ∧ After tr₂ (f a) (.op o next) := by
  rcases after_bind_iff.mp h with ⟨r, hr, hq, hdone⟩ | h
  · cases r with
    | done a => exact absurd rfl (hdone a)
    | fail e => cases hq
    | op o' next' =>
      cases hq
      cases hp.after hr with
      | op ho' _ => exact absurd ho' ho
  · exact h

end Outward

section

variable {d : RelayDeps}

/-! ### Start -/

/-- What a start has found out when it stashes `flow` under `state` for the key `peer`; `tr` are
the events that led there. -/
structure Started (d : RelayDeps) (body : Bytes) (tr : List RelayEvent) (state : String)
    (flow : FlowState) (peer : PubKey) : Prop where
  request : ∃ req, d.serde.read StartRequest.ofJson body = .ok req ∧
    Atproto.decodePeerPubkey d.hex req.peerPubkeyHex = .ok peer ∧
    normalizeHandle req.handle = .ok flow.handle ∧ req.mainState.getD state = state
  peerHex : flow.peerPubkeyHex = d.hex.encode peer.bytes
  account : ∃ didDoc tr₁ tr₂ tr₃ rest, tr = tr₁ ++ tr₂ ++ tr₃ ++ rest ∧
    Returns (resolveHandleToDid d flow.handle) tr₁ flow.did ∧
    Returns (fetchDidDocument d flow.did) tr₂ didDoc ∧
    "at://" ++ flow.handle ∈ didDoc.alsoKnownAs ∧
    Returns (discoverAuthServer d didDoc) tr₃ flow.authMeta
  clock : ⟨.instantNow, flow.createdAt⟩ ∈ tr
  succeeds : ∃ reply, Returns (handleStart d body) (tr ++ [⟨.insertFlow state flow, ()⟩]) reply

lemma verifyHandleClaim_eq_ok {handle : String} {didDoc : DidDocument} :
    verifyHandleClaim handle didDoc = .ok () ↔ "at://" ++ handle ∈ didDoc.alsoKnownAs := by
  unfold verifyHandleClaim
  split
  · rename_i h
    simpa using h
  · rename_i h
    simpa using h

lemma returns_resolveAccount {handle did : String} {authMeta : AuthServerMetadata}
    {tr : List RelayEvent} (h : Returns (resolveAccount d handle) tr (did, authMeta)) :
    ∃ didDoc tr₁ tr₂ tr₃, tr = tr₁ ++ tr₂ ++ tr₃ ∧ Returns (resolveHandleToDid d handle) tr₁ did ∧
      Returns (fetchDidDocument d did) tr₂ didDoc ∧ "at://" ++ handle ∈ didDoc.alsoKnownAs ∧
      Returns (discoverAuthServer d didDoc) tr₃ authMeta := by
  unfold resolveAccount at h
  simp only [returns_bind_iff, returns_ofExcept_iff, Program.pure_eq, returns_done_iff,
    Prod.mk.injEq] at h
  obtain ⟨tr₁, _, did', rfl, h₁, tr₂, _, didDoc, rfl, h₂, _, _, _, rfl, ⟨rfl, hclaim⟩, tr₃, _,
    authMeta', rfl, h₃, rfl, rfl, rfl⟩ := h
  exact ⟨didDoc, tr₁, tr₂, tr₃, by simp, h₁, h₂, verifyHandleClaim_eq_ok.mp hclaim, h₃⟩

lemma started_of_asks_insertFlow {body : Bytes} {tr : List RelayEvent} {state : String}
    {flow : FlowState} (h : Asks (handleStart d body) tr (.insertFlow state flow)) :
    ∃ peer, Started d body tr state flow peer := by
  obtain ⟨next, hstart⟩ := h
  have h := hstart
  unfold handleStart at h
  obtain ⟨_, _, req, rfl, hread, h₁⟩ := Outward.after_bind outward_orElse id h
  obtain ⟨_, _, peer, rfl, hpeer, h₂⟩ := Outward.after_bind (AsksOnly.ofExcept _) id h₁
  obtain ⟨_, _, handle, rfl, hhandle, h₃⟩ := Outward.after_bind outward_orElse id h₂
  obtain ⟨tr₁, _, ⟨did, authMeta⟩, rfl, haccount, h₄⟩ :=
    Outward.after_bind outward_resolveAccount.mapError id h₃
  obtain ⟨tr₂, _, dpopKey, rfl, _, h₅⟩ := Outward.after_bind outward_randomKey id h₄
  obtain ⟨tr₃, _, verifier, rfl, _, h₆⟩ := Outward.after_bind outward_randomB64 id h₅
  have hstate : Outward (req.mainState.elim (randomState d) Program.done : Relay FlowError _) := by
    cases req.mainState with
    | none => exact outward_randomB64
    | some state => exact .done state
  obtain ⟨tr₄, _, state', rfl, hstate', h₇⟩ := Outward.after_bind hstate id h₆
  obtain ⟨tr₅, _, ⟨requestUri, nonce⟩, rfl, _, h₈⟩ := Outward.after_bind outward_pushRequest id h₇
  obtain ⟨tr₆, tr₇, createdAt, rfl, hclock, h₉⟩ := Outward.after_bind outward_instantNow id h₈
  simp only [Relay.insertFlow, Program.op_bind, after_op_iff] at h₉
  rcases h₉ with ⟨rfl, hop⟩ | ⟨x, tr', _, hlast⟩
  · cases hop
    obtain ⟨rfl, hreq⟩ := Relay.returns_orElse_iff.mp hread
    obtain ⟨rfl, hkey⟩ := returns_ofExcept_iff.mp hpeer
    obtain ⟨rfl, hnormal⟩ := Relay.returns_orElse_iff.mp hhandle
    obtain ⟨didDoc, seg₁, seg₂, seg₃, rfl, h₁, h₂, hclaims, h₃⟩ :=
      returns_resolveAccount (returns_mapError_iff.mp haccount)
    refine ⟨peer, ⟨req, hreq, hkey, hnormal, ?_⟩, rfl, ⟨didDoc, seg₁, seg₂, seg₃,
      tr₂ ++ (tr₃ ++ (tr₄ ++ (tr₅ ++ (tr₆ ++ [])))), by simp, h₁, h₂, hclaims, h₃⟩, ?_,
      _, hstart.snoc ()⟩
    · cases hmain : req.mainState with
      | none => rfl
      | some s =>
        rw [hmain] at hstate'
        exact (returns_done_iff.mp hstate').2.symm
    · rw [Relay.instantNow, returns_op_iff] at hclock
      obtain ⟨x, _, rfl, hx⟩ := hclock
      obtain ⟨rfl, rfl⟩ := returns_done_iff.mp hx
      simp
  · simp at hlast

/-! ### Callback -/

/-- The token endpoint of `authMeta` answered success with `sub`. -/
def Redeemed (d : RelayDeps) (authMeta : AuthServerMetadata) (sub : String)
    (tr : List RelayEvent) : Prop :=
  ∃ req resp body doc, ⟨.send req, .ok resp⟩ ∈ tr ∧ req.method = .post ∧
    req.url = authMeta.tokenEndpoint ∧ resp.isSuccess = true ∧ resp.text = .ok body ∧
    fromStr d body = .ok doc ∧ (doc.get "sub").bind Json.asStr = some sub

/-- A form post returns what the last request it made was answered. -/
lemma returns_postFormAttempts {url : String} {key : SigningKey}
    {form : Relay FlowError (List (String × String))} {attempts : List Nat}
    {nonce : Option String} {tr : List RelayEvent} {resp : DpopResponse}
    (h : Returns (postFormAttempts d url key form attempts nonce) tr resp) :
    ∃ req raw, ⟨.send req, .ok raw⟩ ∈ tr ∧ req.method = .post ∧ req.url = url ∧
      raw.status = resp.status ∧ raw.text = .ok resp.body := by
  induction attempts generalizing nonce tr with
  | nil => simp [postFormAttempts] at h
  | cons attempt rest ih =>
    unfold postFormAttempts at h
    simp only [returns_bind_iff, Relay.returns_orElse_iff] at h
    obtain ⟨tr₁, _, dpop, rfl, _, tr₂, _, fields, rfl, _, tr₃, _, answer, rfl, hsend, _, _, raw, rfl,
      ⟨rfl, hraw⟩, _, tr₄, body, rfl, ⟨rfl, hbody⟩, h⟩ := h
    rw [Relay.send, returns_op_iff] at hsend
    obtain ⟨x, _, rfl, hx⟩ := hsend
    obtain ⟨rfl, rfl⟩ := returns_done_iff.mp hx
    subst hraw
    split at h
    · obtain ⟨req, raw', hmem, hrest⟩ := ih h
      exact ⟨req, raw', by simp [hmem], hrest⟩
    · obtain ⟨_, rfl⟩ := returns_done_iff.mp h
      exact ⟨postForm url dpop fields, raw, by simp, rfl, rfl, rfl, hbody⟩

lemma redeemed_of_returns {flow : FlowState} {code sub : String} {tr : List RelayEvent}
    (h : Returns (redeemCode d flow code) tr sub) : Redeemed d flow.authMeta sub tr := by
  unfold redeemCode at h
  simp only [returns_bind_iff] at h
  obtain ⟨tr₁, _, _, rfl, _, tr₂, tr₃, resp, rfl, hpost, h⟩ := h
  obtain ⟨req, raw, hmem, hmethod, hurl, hstatus, htext⟩ := returns_postFormAttempts hpost
  split at h
  · rename_i hsuccess
    simp only [returns_bind_iff, Relay.returns_orElse_iff, Relay.returns_okOr_iff] at h
    obtain ⟨_, _, doc, rfl, ⟨rfl, hdoc⟩, rfl, hsub⟩ := h
    refine ⟨req, raw, resp.body, doc, by simp [hmem], hmethod, hurl, ?_, htext, hdoc, hsub⟩
    rw [HttpResponse.isSuccess, hstatus]
    exact hsuccess
  · simp at h

/-- A callback signs for the flow it took, after the token endpoint confirmed the flow's DID. -/
structure Earned (d : RelayDeps) (query : HashMap String String) (tr : List RelayEvent)
    (state : String) (flow : FlowState) (claim : BindingClaim) : Prop where
  asked : query "state" = some state
  taken : ⟨.takeFlow state, some flow⟩ ∈ tr
  redeemed : Redeemed d flow.authMeta flow.did tr
  claim : ∃ peer issuedAt, Atproto.decodePeerPubkey d.hex flow.peerPubkeyHex = .ok peer ∧
    claim = ⟨peer, "atproto", flow.did, some ("@" ++ flow.handle), issuedAt⟩

lemma asks_sign_signFlow {state : String} {flow : FlowState} {tr : List RelayEvent}
    {claim : BindingClaim} (h : Asks (signFlow d state flow) tr (.sign claim)) :
    ∃ peer issuedAt, Atproto.decodePeerPubkey d.hex flow.peerPubkeyHex = .ok peer ∧
      claim = ⟨peer, "atproto", flow.did, some ("@" ++ flow.handle), issuedAt⟩ := by
  obtain ⟨next, h⟩ := h
  unfold signFlow at h
  obtain ⟨_, _, peer, rfl, hpeer, h₁⟩ := Outward.after_bind (AsksOnly.ofExcept _) id h
  obtain ⟨_, _, issuedAt, rfl, _, h₂⟩ := Outward.after_bind outward_nowUnixSecs id h₁
  simp only [Relay.sign, Program.op_bind, after_op_iff] at h₂
  rcases h₂ with ⟨_, hop⟩ | ⟨signature, tr', _, h₂⟩
  · cases hop
    exact ⟨peer, issuedAt, (returns_ofExcept_iff.mp hpeer).2, rfl⟩
  · -- nothing is signed after the signature
    obtain ⟨_, _, _, _, _, h₃⟩ := Outward.after_bind outward_orElse id h₂
    obtain ⟨_, _, _, _, _, h₄⟩ := Outward.after_bind outward_orElse id h₃
    simp only [Relay.insertResult, after_op_iff] at h₄
    rcases h₄ with ⟨_, hop⟩ | ⟨_, _, _, hlast⟩
    · cases hop
    · simp at hlast

lemma earned_of_asks_sign {query : HashMap String String} {tr : List RelayEvent}
    {claim : BindingClaim} (h : Asks (handleCallback d query) tr (.sign claim)) :
    ∃ state flow, Earned d query tr state flow claim := by
  obtain ⟨next, h⟩ := h
  unfold handleCallback at h
  obtain ⟨_, _, code, rfl, hcode, h₁⟩ := Outward.after_bind outward_okOr id h
  obtain ⟨_, _, state, rfl, hstate, h₂⟩ := Outward.after_bind outward_okOr id h₁
  simp only [Relay.takeFlow, Program.op_bind, after_op_iff] at h₂
  rcases h₂ with ⟨_, hop⟩ | ⟨taken, tr', rfl, h₂⟩
  · cases hop
  · obtain ⟨_, _, flow, rfl, hflow, h₃⟩ := Outward.after_bind outward_okOr id h₂
    obtain ⟨tr₁, tr₂, sub, rfl, hredeem, h₄⟩ := Outward.after_bind outward_redeemCode id h₃
    obtain ⟨rfl, rfl⟩ := Relay.returns_okOr_iff.mp hflow
    split at h₄
    · rename_i hsub
      subst hsub
      rcases asks_bind_iff.mp ⟨next, h₄⟩ with hsign | ⟨_, _, _, _, _, hlast⟩
      · refine ⟨state, flow, (Relay.returns_okOr_iff.mp hstate).2, by simp, ?_,
          asks_sign_signFlow hsign⟩
        obtain ⟨req, resp, body, doc, hmem, hrest⟩ := redeemed_of_returns hredeem
        exact ⟨req, resp, body, doc, by simp [hmem], hrest⟩
      · simp at hlast
    · simp at h₄

/-! ### Only a start stashes flows -/

def RelayOp.Keeps : RelayOp → Prop
  | .insertFlow _ _ => False
  | _ => True

lemma RelayOp.External.keeps {o : RelayOp} (h : o.External) : o.Keeps := by
  cases o <;> trivial

lemma keeps_handleCallback {query : HashMap String String} :
    AsksOnly RelayOp.Keeps (handleCallback d query) := by
  have hout : ∀ {α : Type} {p : Relay FlowError α}, Outward p → AsksOnly RelayOp.Keeps p :=
    fun hp => hp.mono (fun _ => RelayOp.External.keeps)
  refine AsksOnly.bind (hout outward_okOr) (fun code => AsksOnly.bind (hout outward_okOr)
    (fun state => AsksOnly.bind (.op trivial (fun _ => .done _)) (fun taken =>
      AsksOnly.bind (hout outward_okOr) (fun flow => AsksOnly.bind (hout outward_redeemCode)
        (fun sub => ?_)))))
  split
  · refine AsksOnly.bind ?_ (fun _ => .done _)
    exact AsksOnly.bind (AsksOnly.ofExcept _) (fun _ => AsksOnly.bind (hout outward_nowUnixSecs)
      (fun _ => AsksOnly.bind (.op trivial (fun _ => .done _)) (fun _ => AsksOnly.bind
        (hout outward_orElse) (fun _ => AsksOnly.bind (hout outward_orElse)
          (fun _ => .op trivial (fun _ => .done _))))))
  · exact .fail _

lemma keeps_handleResult {query : HashMap String String} :
    AsksOnly RelayOp.Keeps (handleResult d query) :=
  AsksOnly.bind (AsksOnly.ofExcept _) (fun _ => AsksOnly.bind (.op trivial (fun _ => .done _))
    (fun _ => AsksOnly.bind (AsksOnly.ofExcept _) (fun _ => .done _)))

end

end Laye
