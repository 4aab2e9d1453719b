import Laye.Server

/-!
# What binds the two halves of a sign-in

The start of a sign-in pushes the challenge of a verifier and proves the possession of a key; the
callback redeems the code with that verifier and that key, at the token endpoint that the start has
discovered, and nowhere else.
-/

namespace Laye

open Interaction

/-- A form posted to `url` with a proof that `dpop_proof` has made under the key. -/
def PostedForm (d : RelayDeps) (url : String) (key : SigningKey)
    (form : Relay FlowError (List (String × String))) (req : HttpRequest) : Prop :=
  ∃ nonce proof fields tr₁ tr₂,
    Returns (dpopProof d key "POST" url nonce none : Relay FlowError String) tr₁ proof ∧
      Returns form tr₂ fields ∧ req = postForm url proof fields

/-- Every request that an operation sends is such a form. -/
def RelayOp.SendsOnly (good : HttpRequest → Prop) (o : RelayOp) : Prop :=
  ∀ req, o = .send req → good req

section Forms

variable {ε α : Type} {d : RelayDeps} {good : HttpRequest → Prop}

lemma sendsOnly_of_ne {o : RelayOp} (h : ∀ req, o ≠ .send req) : o.SendsOnly good :=
  fun req hsend => absurd hsend (h req)

lemma silent_dpopProof {key : SigningKey} {method url : String} {nonce token : Option String} :
    AsksOnly (RelayOp.SendsOnly good) (dpopProof d key method url nonce token : Relay ε _) := by
  refine AsksOnly.bind (.op (sendsOnly_of_ne (by simp)) fun _ => .done _) fun jti => ?_
  exact AsksOnly.bind (.op (sendsOnly_of_ne (by simp)) fun _ => .done _) fun now => .done _

lemma silent_clientAssertion {audience : String} {now : UInt64} :
    AsksOnly (RelayOp.SendsOnly good) (clientAssertion d audience now : Relay ε _) :=
  AsksOnly.bind (.op (sendsOnly_of_ne (by simp)) fun _ => .done _) fun jti => .done _

lemma silent_tokenForm {issuer code verifier : String} :
    AsksOnly (RelayOp.SendsOnly good) (tokenForm d issuer code verifier) :=
  AsksOnly.bind (.op (sendsOnly_of_ne (by simp)) fun _ => .done _) fun now =>
    AsksOnly.bind silent_clientAssertion fun assertion => .done _

/-- The retry loop sends its form and nothing else. -/
lemma sendsOnly_postFormAttempts {url : String} {key : SigningKey}
    {form : Relay FlowError (List (String × String))}
    (hform : AsksOnly (RelayOp.SendsOnly (PostedForm d url key form)) form) {attempts : List Nat}
    {nonce : Option String} : AsksOnly (RelayOp.SendsOnly (PostedForm d url key form))
      (postFormAttempts d url key form attempts nonce) := by
  induction attempts generalizing nonce with
  | nil => exact .fail _
  | cons attempt rest ih =>
    refine AsksOnly.bind_returns silent_dpopProof fun tr₁ proof hproof =>
      AsksOnly.bind_returns hform fun tr₂ fields hfields => AsksOnly.bind (.op ?_ fun _ => .done _)
        fun answer => AsksOnly.bind (AsksOnly.ofExcept _) fun resp =>
          AsksOnly.bind (AsksOnly.ofExcept _) fun body => ?_
    · intro req hsend
      cases hsend
      exact ⟨nonce, proof, fields, tr₁, tr₂, hproof, hfields, rfl⟩
    · split
      · exact ih
      · exact .done _

/-- What a form post returned, a form of it was answered. -/
lemma posted_of_returns {url : String} {key : SigningKey}
    {form : Relay FlowError (List (String × String))} {attempts : List Nat} {nonce : Option String}
    {tr : List RelayEvent} {resp : DpopResponse}
    (h : Returns (postFormAttempts d url key form attempts nonce) tr resp) :
    ∃ req raw, ⟨.send req, .ok raw⟩ ∈ tr ∧ PostedForm d url key form req ∧
      raw.status = resp.status ∧ raw.text = .ok resp.body := by
  induction attempts generalizing nonce tr with
  | nil => simp [postFormAttempts] at h
  | cons attempt rest ih =>
    unfold postFormAttempts at h
    simp only [returns_bind_iff, Relay.returns_orElse_iff] at h
    obtain ⟨tr₁, _, proof, rfl, hproof, tr₂, _, fields, rfl, hfields, tr₃, _, answer, rfl, hsend, _,
      _, raw, rfl, ⟨rfl, hraw⟩, _, tr₄, body, rfl, ⟨rfl, hbody⟩, h⟩ := h
    rw [Relay.send, returns_op_iff] at hsend
    obtain ⟨x, _, rfl, hx⟩ := hsend
    obtain ⟨rfl, rfl⟩ := returns_done_iff.mp hx
    subst hraw
    split at h
    · obtain ⟨req, raw', hmem, hrest⟩ := ih h
      exact ⟨req, raw', by simp [hmem], hrest⟩
    · obtain ⟨_, rfl⟩ := returns_done_iff.mp h
      exact ⟨postForm url proof fields, raw, by simp, ⟨nonce, proof, fields, tr₁, tr₂, hproof,
        hfields, rfl⟩, rfl, hbody⟩

end Forms

/-! ### The fields of the two forms -/

section Fields

variable {d : RelayDeps} {tr : List RelayEvent} {fields : List (String × String)}

lemma fields_of_parForm {issuer state challenge hint : String}
    (h : Returns (parForm d issuer state challenge hint) tr fields) :
    ("state", state) ∈ fields ∧ ("code_challenge", challenge) ∈ fields ∧
      ("code_challenge_method", "S256") ∈ fields ∧ ("client_id", d.cfg.clientId) ∈ fields ∧
      ("redirect_uri", d.cfg.redirectUri) ∈ fields ∧ ("login_hint", hint) ∈ fields := by
  simp only [parForm, returns_bind_iff, Program.pure_eq, returns_done_iff] at h
  obtain ⟨_, _, _, _, _, _, _, assertion, _, _, _, rfl⟩ := h
  simp

lemma fields_of_tokenForm {issuer code verifier : String}
    (h : Returns (tokenForm d issuer code verifier) tr fields) :
    ("code", code) ∈ fields ∧ ("code_verifier", verifier) ∈ fields ∧
      ("client_id", d.cfg.clientId) ∈ fields ∧ ("redirect_uri", d.cfg.redirectUri) ∈ fields := by
  simp only [tokenForm, returns_bind_iff, Program.pure_eq, returns_done_iff] at h
  obtain ⟨_, _, _, _, _, _, _, assertion, _, _, _, rfl⟩ := h
  simp

end Fields

/-! ### The two halves -/

/-- The start has pushed the challenge of the flow's verifier, under the flow's key, to the server
that the flow names. -/
def Pushed (d : RelayDeps) (tr : List RelayEvent) (state : String) (flow : FlowState) : Prop :=
  ∃ req raw, ⟨.send req, .ok raw⟩ ∈ tr ∧ raw.isSuccess = true ∧
    PostedForm d flow.authMeta.pushedAuthorizationRequestEndpoint flow.dpopKey
      (parForm d flow.authMeta.issuer state (pkceChallenge d flow.pkceVerifier) flow.did) req

/-- The request redeems a code with the flow's verifier, under the flow's key, at the token endpoint
that the flow names. -/
def Redeems (d : RelayDeps) (flow : FlowState) (code : String) (req : HttpRequest) : Prop :=
  PostedForm d flow.authMeta.tokenEndpoint flow.dpopKey
    (tokenForm d flow.authMeta.issuer code flow.pkceVerifier) req

section Halves

variable {d : RelayDeps} {tr : List RelayEvent}

lemma pushed_of_returns {authMeta : AuthServerMetadata} {key : SigningKey}
    {state challenge did : String} {answer : String × Option String}
    (h : Returns (pushRequest d authMeta key state challenge did) tr answer) :
    ∃ req raw, ⟨.send req, .ok raw⟩ ∈ tr ∧ raw.isSuccess = true ∧
      PostedForm d authMeta.pushedAuthorizationRequestEndpoint key
        (parForm d authMeta.issuer state challenge did) req := by
  unfold pushRequest at h
  simp only [returns_bind_iff] at h
  obtain ⟨tr₁, _, _, rfl, _, tr₂, tr₃, resp, rfl, hpost, h⟩ := h
  obtain ⟨req, raw, hmem, hposted, hstatus, -⟩ := posted_of_returns hpost
  split at h
  · rename_i hsuccess
    refine ⟨req, raw, by simp [hmem], ?_, hposted⟩
    rw [HttpResponse.isSuccess, hstatus]
    exact hsuccess
  · simp at h

lemma pushed_of_asks_insertFlow {body : Bytes} {state : String} {flow : FlowState}
    (h : Asks (handleStart d body) tr (.insertFlow state flow)) : Pushed d tr state flow := by
  obtain ⟨next, h⟩ := h
  unfold handleStart at h
  obtain ⟨_, _, req, rfl, -, h₁⟩ := Outward.after_bind outward_orElse id h
  obtain ⟨_, _, peer, rfl, -, h₂⟩ := Outward.after_bind (AsksOnly.ofExcept _) id h₁
  obtain ⟨_, _, handle, rfl, -, h₃⟩ := Outward.after_bind outward_orElse id h₂
  obtain ⟨_, _, ⟨did, authMeta⟩, rfl, -, h₄⟩ :=
    Outward.after_bind outward_resolveAccount.mapError id h₃
  obtain ⟨_, _, dpopKey, rfl, -, h₅⟩ := Outward.after_bind outward_randomKey id h₄
  obtain ⟨_, _, verifier, rfl, -, h₆⟩ := Outward.after_bind outward_randomB64 id h₅
  have hstate : Outward (req.mainState.elim (randomState d) Program.done : Relay FlowError _) := by
    cases req.mainState with
    | none => exact outward_randomB64
    | some state => exact .done state
  obtain ⟨_, _, state', rfl, -, h₇⟩ := Outward.after_bind hstate id h₆
  obtain ⟨_, _, ⟨requestUri, nonce⟩, rfl, hpush, h₈⟩ := Outward.after_bind outward_pushRequest id h₇
  obtain ⟨_, _, createdAt, rfl, -, h₉⟩ := Outward.after_bind outward_instantNow id h₈
  simp only [Relay.insertFlow, Program.op_bind, after_op_iff] at h₉
  rcases h₉ with ⟨rfl, hop⟩ | ⟨x, tr', _, hlast⟩
  · cases hop
    obtain ⟨req', raw, hmem, hsuccess, hposted⟩ := pushed_of_returns hpush
    exact ⟨req', raw, by simp [hmem], hsuccess, hposted⟩
  · simp at hlast

lemma sendsOnly_redeemCode {flow : FlowState} {code : String} :
    AsksOnly (RelayOp.SendsOnly (Redeems d flow code)) (redeemCode d flow code) := by
  have hclient : AsksOnly (RelayOp.SendsOnly (Redeems d flow code))
      (httpClient.mapError FlowError.resolve) :=
    (AsksOnly.bind (.op (sendsOnly_of_ne (by simp)) fun _ => .done _)
      fun _ => AsksOnly.ofExcept _).mapError
  refine AsksOnly.bind hclient fun _ => AsksOnly.bind (sendsOnly_postFormAttempts silent_tokenForm)
    fun resp => ?_
  split
  · exact AsksOnly.bind (AsksOnly.ofExcept _) fun doc => AsksOnly.ofExcept _
  · exact .fail _

lemma silent_signFlow {good : HttpRequest → Prop} {state : String} {flow : FlowState} :
    AsksOnly (RelayOp.SendsOnly good) (signFlow d state flow) :=
  AsksOnly.bind (AsksOnly.ofExcept _) fun peer =>
    AsksOnly.bind (.op (sendsOnly_of_ne (by simp)) fun _ => .done _) fun issuedAt =>
      AsksOnly.bind (.op (sendsOnly_of_ne (by simp)) fun _ => .done _) fun answer =>
        AsksOnly.bind (AsksOnly.ofExcept _) fun signature =>
          AsksOnly.bind (AsksOnly.ofExcept _) fun signer =>
            .op (sendsOnly_of_ne (by simp)) fun _ => .done _

/-- Whatever a callback sends redeems its code, for the flow that it took. -/
lemma redeems_of_asks_send {query : HashMap String String} {req : HttpRequest}
    (h : Asks (handleCallback d query) tr (.send req)) : ∃ code state flow,
      query "code" = some code ∧ query "state" = some state ∧
        ⟨.takeFlow state, some flow⟩ ∈ tr ∧ Redeems d flow code req := by
  unfold handleCallback Relay.takeFlow at h
  have hnone : ∀ {α : Type} {e : FlowError} {r : Option α} {tr : List RelayEvent},
      Asks (Relay.okOr e r) tr (.send req) ↔ False := asks_ofExcept_iff
  simp only [asks_bind_iff, Relay.returns_okOr_iff, hnone, false_or] at h
  obtain ⟨_, _, code, rfl, ⟨rfl, hcode⟩, _, _, state, rfl, ⟨rfl, hstate⟩, h⟩ := h
  rcases h with ⟨next, htake⟩ | ⟨tr₁, _, taken, rfl, htake, _, _, flow, rfl, ⟨rfl, rfl⟩, h⟩
  · rcases after_op_iff.mp htake with ⟨-, hop⟩ | ⟨_, _, -, hend⟩
    · cases hop
    · simp at hend
  · obtain ⟨x, _, rfl, hx⟩ := returns_op_iff.mp htake
    obtain ⟨rfl, rfl⟩ := returns_done_iff.mp hx
    refine ⟨code, state, flow, hcode, hstate, by simp, ?_⟩
    rcases h with h | ⟨_, _, sub, -, -, h⟩
    · exact sendsOnly_redeemCode.asks h req rfl
    · split at h
      · have hsign : AsksOnly (RelayOp.SendsOnly (Redeems d flow code)) (signFlow d state flow) :=
          silent_signFlow
        have hsilent := AsksOnly.bind hsign fun _ => .done (s!"/me/?atproto_result={state}")
        exact hsilent.asks h req rfl
      · simp at h

end Halves

/-! ### Over a run of the relay -/

/-- The request posts the fields, with a proof under the key. -/
def PostsUnder (d : RelayDeps) (key : SigningKey) (url : String) (fields : List (String × String))
    (req : HttpRequest) : Prop :=
  ∃ nonce proof tr, Returns (dpopProof d key "POST" url nonce none : Relay FlowError String) tr proof ∧
    req = postForm url proof fields

/-- A pushed request and a redemption that belong together: one key, and the verifier whose
challenge was pushed. -/
structure Bound (d : RelayDeps) (flow : FlowState) (state code : String)
    (push redemption : HttpRequest) : Prop where
  push : ∃ fields, PostsUnder d flow.dpopKey flow.authMeta.pushedAuthorizationRequestEndpoint fields
    push ∧ ("state", state) ∈ fields ∧
      ("code_challenge", pkceChallenge d flow.pkceVerifier) ∈ fields ∧
      ("code_challenge_method", "S256") ∈ fields
  redemption : ∃ fields, PostsUnder d flow.dpopKey flow.authMeta.tokenEndpoint fields redemption ∧
    ("code", code) ∈ fields ∧ ("code_verifier", flow.pkceVerifier) ∈ fields

lemma bound_of_halves {d : RelayDeps} {flow : FlowState} {state code : String}
    {push redemption : HttpRequest}
    (hpush : PostedForm d flow.authMeta.pushedAuthorizationRequestEndpoint flow.dpopKey
      (parForm d flow.authMeta.issuer state (pkceChallenge d flow.pkceVerifier) flow.did) push)
    (hredeems : Redeems d flow code redemption) : Bound d flow state code push redemption := by
  obtain ⟨nonce, proof, fields, tr₁, tr₂, hproof, hfields, rfl⟩ := hpush
  obtain ⟨nonce', proof', fields', tr₁', tr₂', hproof', hfields', rfl⟩ := hredeems
  obtain ⟨hstate, hchallenge, hmethod, -⟩ := fields_of_parForm hfields
  obtain ⟨hcode, hverifier, -⟩ := fields_of_tokenForm hfields'
  exact ⟨⟨fields, ⟨nonce, proof, tr₁, hproof, rfl⟩, hstate, hchallenge, hmethod⟩,
    ⟨fields', ⟨nonce', proof', tr₁', hproof', rfl⟩, hcode, hverifier⟩⟩

section Runs

variable {d : RelayDeps} {now : Instant} {P : ServerPool}

/-- Every request that a callback sends, in whatever run, redeems its code for the one start whose
flow it took: at the token endpoint that the start had found out, under the key and with the
verifier that the start had committed to in a request which that server accepted. -/
theorem callback_bound_to_start (hrun : Run (httpSystem d) (.start ⟨now, .new⟩) P) {k : Nat}
    {sending : RelayEntry} {req : HttpRequest} {c : Connection} {query : HashMap String String}
    {body : Bytes} (hk : P.log[k]? = some sending) (hsend : sending.event.op = .send req)
    (hc : P.connection sending.thread = some c)
    (hasked : Asked c "GET" "/me/callback/atproto" query body) :
    ∃ code state flow n m starting startBody push pushed,
      query "code" = some code ∧ query "state" = some state ∧ n < m ∧ m < k ∧
      Consumes P.log state flow n m ∧ StashedBy d P n state flow starting startBody ∧
      ⟨.send push, .ok pushed⟩ ∈ eventsOf starting.thread (P.log.take n) ∧
      pushed.isSuccess = true ∧ Bound d flow state code push req := by
  obtain ⟨c', hc', hasks⟩ := hrun.asks hk
  obtain rfl : c' = c := Option.some.inj (hc'.symm.trans hc)
  rw [hsend] at hasks
  have hbody : (httpSystem d).body c' = _ := serve_callback hasked
  rw [hbody, asks_responded_iff] at hasks
  obtain ⟨code, state, flow, hcode, hstate, htaken, hredeems⟩ :=
    redeems_of_asks_send (asks_respond_iff.mp hasks)
  obtain ⟨m, taking, hm, -, htake⟩ := mem_eventsOf.mp htaken
  obtain ⟨hmk, hm⟩ := getElem?_of_take hm
  obtain ⟨-, n, hconsumes⟩ := consumes_of_takeFlow hrun hm htake
  obtain ⟨starting, startBody, hstashed⟩ := stashedBy_of_inserted hrun hconsumes.1.2.1
  obtain ⟨push, pushed, hmem, hsuccess, hposted⟩ := pushed_of_asks_insertFlow hstashed.2.2.2
  exact ⟨code, state, flow, n, m, starting, startBody, push, pushed, hcode, hstate, hconsumes.1.1,
    hmk, hconsumes, hstashed, hmem, hsuccess, bound_of_halves hposted hredeems⟩

end Runs

theorem callback_bound_to_start_alice : ∃ code state flow push redemption,
    ServerExample.query "state" = some state ∧
      Bound AtprotoExample.deps flow state code push redemption := by
  have hsending : ServerExample.pool.log[24]? = AtprotoExample.pool.log[24]? := by
    rw [ServerExample.log_eq]
  obtain ⟨code, state, flow, _, _, _, _, push, _, -, hstate, -, -, -, -, -, -, hbound⟩ :=
    callback_bound_to_start ServerExample.run (hsending.trans rfl) rfl
      ServerExample.connection_callback ServerExample.asked_callback
  exact ⟨code, state, flow, push, _, hstate, hbound⟩

end Laye
