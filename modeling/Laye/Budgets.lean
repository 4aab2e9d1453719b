import Mathlib.Algebra.Order.Group.Nat
import Mathlib.Algebra.Order.Monoid.Prod
import Laye.Lib.Spending
import Laye.Routes

/-!
# What a connection costs the relay

The handlers send requests to servers that a stranger names. However those answer, one connection
makes the relay send few requests, sign at most once, and come to an end.
-/

namespace Laye

open Interaction

/-- Requests sent, signatures made, operations. -/
abbrev Cost := ℕ × ℕ × ℕ

def RelayOp.cost : RelayOp → Cost
  | .send _ => (1, 0, 1)
  | .sign _ => (0, 1, 1)
  | _ => (0, 0, 1)

/-- The program keeps to a budget. -/
abbrev Within {ε α : Type} (n : Cost) (p : Relay ε α) : Prop := Spends RelayOp.cost n p

section Helpers

variable {ε α β : Type} {d : RelayDeps}

lemma within_op (o : RelayOp) {next : o.Ans → α} :
    Within o.cost (.op o (fun x => .done (next x)) : Relay ε α) := by
  rw [← add_zero o.cost]
  exact .op fun x => .done 0 (next x)

lemma within_send {req : HttpRequest} : Within (1, 0, 1) (Relay.send req : Relay ε _) :=
  within_op (.send req)

lemma within_buildClient : Within (0, 0, 1) (Relay.buildClient : Relay ε _) :=
  within_op .buildClient

lemma within_unixTime : Within (0, 0, 1) (Relay.unixTime : Relay ε _) :=
  within_op .unixTime

lemma within_instantNow : Within (0, 0, 1) (Relay.instantNow : Relay ε _) :=
  within_op .instantNow

lemma within_randomKey : Within (0, 0, 1) (Relay.randomKey : Relay ε _) :=
  within_op .randomKey

lemma within_sign {claim : BindingClaim} : Within (0, 1, 1) (Relay.sign claim : Relay ε _) :=
  within_op (.sign claim)

lemma within_insertFlow {state : String} {flow : FlowState} :
    Within (0, 0, 1) (Relay.insertFlow state flow : Relay ε _) :=
  within_op (.insertFlow state flow)

lemma within_takeFlow {state : String} : Within (0, 0, 1) (Relay.takeFlow state : Relay ε _) :=
  within_op (.takeFlow state)

lemma within_insertResult {state : String} {signed : SignedBinding} :
    Within (0, 0, 1) (Relay.insertResult state signed : Relay ε _) :=
  within_op (.insertResult state signed)

lemma within_getResult {state : String} : Within (0, 0, 1) (Relay.getResult state : Relay ε _) :=
  within_op (.getResult state)

lemma within_panic : Within (0, 0, 1) (Relay.panic : Relay ε α) := by
  have hcost : ((0, 0, 1) : Cost) = RelayOp.cost .panicked + 0 := by decide
  rw [hcost]
  exact .op fun x : Empty => x.elim

/-- What does nothing before it goes on costs what it goes on with. -/
lemma within_after_except {n : Cost} {r : Except ε α} {f : α → Relay ε β}
    (h : ∀ a, Within n (f a)) : Within n (Program.ofExcept r >>= f) := by
  rw [← zero_add n]
  exact (Spends.ofExcept r).bind h

lemma within_httpClient : Within (0, 0, 1) httpClient :=
  within_buildClient.bind_le (n := 0) (fun _ => Spends.ofExcept _) (by decide)

lemma within_randomB64 {n : Nat} : Within (0, 0, 1) (randomB64 d n : Relay ε _) :=
  within_op (.fillBytes n)

lemma within_nowUnixSecs : Within (0, 0, 1) (nowUnixSecs : Relay ε _) := within_op .unixTime

lemma within_getJson {err : String → ResolveError} {decode : Json → Option α} {url : String} :
    Within (1, 0, 1) (getJson d err decode url) := by
  refine within_send.bind_le (n := 0) (fun _ => within_after_except fun resp => ?_) (by decide)
  split
  · exact Spends.ofExcept _
  · exact .fail _ _

lemma within_resolveHandleViaDoh {handle : String} :
    Within (1, 0, 2) (resolveHandleViaDoh d handle) := by
  refine within_httpClient.mapError.bind_le (n := (1, 0, 1)) (fun _ => ?_) (by decide)
  refine within_send.bind_le (n := 0) (fun _ => within_after_except fun resp => ?_) (by decide)
  split
  · exact within_after_except fun _ => within_after_except fun _ => Spends.ofExcept _
  · exact .fail _ _

lemma within_resolveHandleViaWellKnown {handle : String} :
    Within (1, 0, 3) (resolveHandleViaWellKnown d handle) := by
  refine within_httpClient.mapError.bind_le (n := (1, 0, 2)) (fun _ => ?_) (by decide)
  refine within_send.bind_le (n := (0, 0, 1)) (fun _ => within_after_except fun resp => ?_)
    (by decide)
  split
  · refine within_after_except fun body => ?_
    dsimp only
    split
    · exact .done _ _
    · split
      · exact within_panic
      · exact .fail _ _
  · exact .fail _ _

lemma within_resolveHandleToDid {handle : String} :
    Within (2, 0, 5) (resolveHandleToDid d handle) := by
  unfold resolveHandleToDid
  refine within_after_except fun handle => ?_
  refine within_resolveHandleViaDoh.attempt.bind_le (n := (1, 0, 3)) (fun r => ?_) (by decide)
  cases r with
  | ok did => exact .done _ _
  | error dns =>
    refine within_resolveHandleViaWellKnown.attempt.bind_le (n := 0) (fun r => ?_) (by decide)
    cases r with
    | ok did => exact .done _ _
    | error https => exact .fail _ _

lemma within_fetchDidDocument {did : String} : Within (1, 0, 2) (fetchDidDocument d did) := by
  unfold fetchDidDocument
  split
  · exact within_httpClient.bind_le (fun _ => within_after_except fun _ => within_getJson) (by decide)
  · exact .fail _ _

lemma within_discoverAuthServer {didDoc : DidDocument} :
    Within (2, 0, 4) (discoverAuthServer d didDoc) := by
  refine within_after_except fun pdsUrl => ?_
  have hpds : Within (1, 0, 2) (fetchPdsMetadata d pdsUrl) := by
    refine within_httpClient.bind_le (n := (1, 0, 1)) (fun _ => ?_) (by decide)
    exact within_getJson.bind_le (n := 0) (fun _ => Spends.ofExcept _) (by decide)
  refine hpds.bind_le (n := (1, 0, 2)) (fun server => ?_) (by decide)
  refine within_httpClient.bind_le (n := (1, 0, 1)) (fun _ => ?_) (by decide)
  refine within_getJson.bind_le (n := 0) (fun metadata => ?_) (by decide)
  split
  · exact .done _ _
  · exact .fail _ _

lemma within_resolveAccount {handle : String} : Within (5, 0, 11) (resolveAccount d handle) := by
  unfold resolveAccount
  refine within_resolveHandleToDid.bind_le (n := (3, 0, 6)) (fun _ => ?_) (by decide)
  refine within_fetchDidDocument.bind_le (n := (2, 0, 4)) (fun _ => ?_) (by decide)
  refine within_after_except fun _ => ?_
  exact within_discoverAuthServer.bind_le (n := 0) (fun _ => .done _ _) (by decide)

lemma within_dpopProof {key : SigningKey} {method url : String} {nonce token : Option String} :
    Within (0, 0, 2) (dpopProof d key method url nonce token : Relay ε _) := by
  refine within_randomB64.bind_le (n := (0, 0, 1)) (fun _ => ?_) (by decide)
  exact within_nowUnixSecs.bind_le (n := 0) (fun _ => .done _ _) (by decide)

lemma within_clientAssertion {audience : String} {now : UInt64} :
    Within (0, 0, 1) (clientAssertion d audience now : Relay ε _) :=
  within_randomB64.bind_le (n := 0) (fun _ => .done _ _) (by decide)

/-- Every turn of the retry loop that is left costs its request and four operations. -/
lemma within_postFormAttempts {url : String} {key : SigningKey}
    {form : Relay FlowError (List (String × String))} (hform : Within (0, 0, 2) form)
    {attempts : List Nat} {nonce : Option String} :
    Within (attempts.length • ((1, 0, 5) : Cost)) (postFormAttempts d url key form attempts nonce) := by
  induction attempts generalizing nonce with
  | nil => exact .fail _ _
  | cons attempt rest ih =>
    rw [List.length_cons, succ_nsmul']
    have hturn : ((0, 0, 2) : Cost) + ((0, 0, 2) + ((1, 0, 1) + rest.length • ((1, 0, 5) : Cost))) ≤
        (1, 0, 5) + rest.length • ((1, 0, 5) : Cost) := by
      rw [← add_assoc, ← add_assoc]
      exact le_rfl
    refine Spends.mono ?_ hturn
    refine within_dpopProof.bind fun _ => hform.bind fun _ => within_send.bind fun _ => ?_
    refine within_after_except fun resp => within_after_except fun body => ?_
    split
    · exact ih
    · exact .done _ _

lemma within_postFormWithDpop {url : String} {key : SigningKey} {nonce : Option String}
    {form : Relay FlowError (List (String × String))} (hform : Within (0, 0, 2) form) :
    Within (2, 0, 10) (postFormWithDpop d url key nonce form) := by
  have htwo : (List.range 2).length • ((1, 0, 5) : Cost) = (2, 0, 10) := rfl
  rw [← htwo]
  exact within_postFormAttempts hform

lemma within_parForm {issuer state challenge hint : String} :
    Within (0, 0, 2) (parForm d issuer state challenge hint) := by
  refine within_nowUnixSecs.bind_le (n := (0, 0, 1)) (fun _ => ?_) (by decide)
  exact within_clientAssertion.bind_le (n := 0) (fun _ => .done _ _) (by decide)

lemma within_tokenForm {issuer code verifier : String} :
    Within (0, 0, 2) (tokenForm d issuer code verifier) := by
  refine within_nowUnixSecs.bind_le (n := (0, 0, 1)) (fun _ => ?_) (by decide)
  exact within_clientAssertion.bind_le (n := 0) (fun _ => .done _ _) (by decide)

lemma within_pushRequest {authMeta : AuthServerMetadata} {key : SigningKey}
    {state challenge did : String} :
    Within (2, 0, 11) (pushRequest d authMeta key state challenge did) := by
  refine within_httpClient.mapError.bind_le (n := (2, 0, 10)) (fun _ => ?_) (by decide)
  refine (within_postFormWithDpop within_parForm).bind_le (n := 0) (fun resp => ?_) (by decide)
  split
  · exact within_after_except fun _ => within_after_except fun _ => .done _ _
  · exact .fail _ _

lemma within_redeemCode {flow : FlowState} {code : String} :
    Within (2, 0, 11) (redeemCode d flow code) := by
  refine within_httpClient.mapError.bind_le (n := (2, 0, 10)) (fun _ => ?_) (by decide)
  refine (within_postFormWithDpop within_tokenForm).bind_le (n := 0) (fun resp => ?_) (by decide)
  split
  · exact within_after_except fun _ => Spends.ofExcept _
  · exact .fail _ _

lemma within_signFlow {state : String} {flow : FlowState} :
    Within (0, 1, 3) (signFlow d state flow) := by
  refine within_after_except fun _ => ?_
  refine within_nowUnixSecs.bind_le (n := (0, 1, 2)) (fun _ => ?_) (by decide)
  refine within_sign.bind_le (n := (0, 0, 1)) (fun _ => ?_) (by decide)
  exact within_after_except fun _ => within_after_except fun _ => within_insertResult

end Helpers

/-! ### Handlers -/

section Handlers

variable {d : RelayDeps} {body : Bytes} {query : HashMap String String}

lemma within_handleSign : Within (1, 1, 4) (handleSign d body) := by
  have hfetch : ∀ {host token : String}, Within (1, 0, 2) (fetchMastodonActorUrl host token) := by
    intro host token
    refine within_buildClient.bind_le (n := (1, 0, 1)) (fun _ => within_after_except fun _ => ?_)
      (by decide)
    refine within_send.bind_le (n := 0) (fun _ => within_after_except fun resp => ?_) (by decide)
    split
    · exact within_after_except fun _ => Spends.ofExcept _
    · exact .fail _ _
  refine within_after_except fun req => ?_
  split
  · refine within_after_except fun peerPubkey => ?_
    refine hfetch.bind_le (n := (0, 1, 2)) (fun url => ?_) (by decide)
    split
    · refine within_unixTime.bind_le (n := (0, 1, 1)) (fun now => ?_) (by decide)
      refine within_sign.bind_le (n := 0) (fun _ => ?_) (by decide)
      exact within_after_except fun _ => within_after_except fun _ => .done _ _
    · exact .fail _ _
  · exact .fail _ _

lemma within_handleStart : Within (7, 0, 27) (handleStart d body) := by
  refine within_after_except fun req => within_after_except fun peerPubkey =>
    within_after_except fun handle => ?_
  refine within_resolveAccount.mapError.bind_le (n := (2, 0, 16)) (fun account => ?_) (by decide)
  refine within_randomKey.bind_le (n := (2, 0, 15)) (fun dpopKey => ?_) (by decide)
  refine within_randomB64.bind_le (n := (2, 0, 14)) (fun verifier => ?_) (by decide)
  have hstate : Within (0, 0, 1)
      (req.mainState.elim (randomState d) Program.done : Relay FlowError String) := by
    cases req.mainState with
    | none => exact within_randomB64
    | some state => exact .done _ _
  refine hstate.bind_le (n := (2, 0, 13)) (fun state => ?_) (by decide)
  refine within_pushRequest.bind_le (n := (0, 0, 2)) (fun pushed => ?_) (by decide)
  refine within_instantNow.bind_le (n := (0, 0, 1)) (fun createdAt => ?_) (by decide)
  exact within_insertFlow.bind_le (n := 0) (fun _ => .done _ _) (by decide)

lemma within_handleCallback : Within (2, 1, 15) (handleCallback d query) := by
  refine within_after_except fun code => within_after_except fun state => ?_
  refine within_takeFlow.bind_le (n := (2, 1, 14)) (fun taken => within_after_except fun flow => ?_)
    (by decide)
  refine within_redeemCode.bind_le (n := (0, 1, 3)) (fun sub => ?_) (by decide)
  split
  · exact within_signFlow.bind_le (n := 0) (fun _ => .done _ _) (by decide)
  · exact .fail _ _

lemma within_handleResult : Within (0, 0, 1) (handleResult d query) := by
  refine within_after_except fun state => ?_
  exact within_getResult.bind_le (n := 0) (fun _ => within_after_except fun _ => .done _ _)
    (by decide)

lemma within_respond {ε α : Type} {n : Cost} {ok : α → Bytes} {err : ε → Bytes}
    {handler : Relay ε α} (h : Within n handler) : Within n (respond ok err handler) := by
  refine h.attempt.bind_le (n := 0) (fun x => ?_) (by simp)
  cases x <;> exact .done _ _

lemma within_responded {n : Cost} {p : Relay Empty Bytes} (h : Within n p) :
    Within n (do return Served.responded (← p) : Relay Empty Served) :=
  h.bind_le (n := 0) (fun _ => .done _ _) (by simp)

lemma within_serve (c : Connection) : Within (7, 1, 27) (c.serve d) := by
  have hserve := dispatched d c
  generalize c.serve d = p at hserve
  cases hserve with
  | unread how _ => exact .done _ _
  | page => exact .done _ _
  | sign => exact (within_responded (within_respond within_handleSign)).mono (by decide)
  | start => exact (within_responded (within_respond within_handleStart)).mono (by decide)
  | callback => exact (within_responded (within_respond within_handleCallback)).mono (by decide)
  | result => exact (within_responded (within_respond within_handleResult)).mono (by decide)

end Handlers

def RelayOp.request : RelayOp → Option HttpRequest
  | .send req => some req
  | _ => none

def RelayOp.claim : RelayOp → Option BindingClaim
  | .sign claim => some claim
  | _ => none

/-- The requests some events sent. -/
def sentRequests (tr : List RelayEvent) : List HttpRequest := tr.filterMap fun e => e.op.request

/-- The claims that were to be signed. -/
def signedClaims (tr : List RelayEvent) : List BindingClaim := tr.filterMap fun e => e.op.claim

lemma spent_eq (tr : List RelayEvent) :
    spent RelayOp.cost tr = ((sentRequests tr).length, (signedClaims tr).length, tr.length) := by
  induction tr with
  | nil => rfl
  | cons e tr ih =>
    obtain ⟨op, x⟩ := e
    rw [spent_cons, ih]
    cases op <;> simp [RelayOp.cost, sentRequests, signedClaims, RelayOp.request, RelayOp.claim,
      add_comm]

/-- What a run of a connection has cost, whatever the servers answered. -/
theorem connection_bounded {d : RelayDeps} {c : Connection} {tr : List RelayEvent}
    {p : Relay Empty Served} (h : After tr (c.serve d) p) :
    (sentRequests tr).length ≤ 7 ∧ (signedClaims tr).length ≤ 1 ∧ tr.length ≤ 27 := by
  have hspent := (within_serve (d := d) c).spent_le h
  rw [spent_eq] at hspent
  exact ⟨hspent.1, hspent.2.1, hspent.2.2⟩

end Laye
