import Laye.Acceptance
import Laye.Server

/-!
# How a sign request ends

The answer to `POST /me/sign/mastodon` says what happened: 400 for a request that cannot be signed,
401 when the instance does not bear the claim out, 502 when it says nothing that can be used, 500
when the relay itself fails, and 200 with the signature.
-/

namespace Laye

open Interaction

/-- The request is not one that can be signed. -/
inductive Malformed (d : RelayDeps) (body : Bytes) : SignError → Prop
  | unread {e : String} (h : d.serde.read SignRequest.ofJson body = .error e) :
      Malformed d body (.badRequestJson e)
  | provider {req : SignRequest} (h : d.serde.read SignRequest.ofJson body = .ok req)
      (hne : req.provider ≠ "mastodon") : Malformed d body (.unsupportedProvider req.provider)
  | peer {req : SignRequest} {e : SignError} (h : d.serde.read SignRequest.ofJson body = .ok req)
      (hprovider : req.provider = "mastodon")
      (he : SignEndpoint.decodePeerPubkey d.hex req.peerPubkeyHex = .error e) : Malformed d body e

/-- The request is one for a Mastodon account, with a key. -/
structure WellFormed (d : RelayDeps) (body : Bytes) (req : SignRequest) (peer : PubKey) : Prop where
  read : d.serde.read SignRequest.ofJson body = .ok req
  provider : req.provider = "mastodon"
  peer : SignEndpoint.decodePeerPubkey d.hex req.peerPubkeyHex = .ok peer

/-- What was asked on the way to an answer, its status and its body. -/
inductive SignOutcome (d : RelayDeps) (body : Bytes) : List RelayEvent → UInt16 → Bytes → Prop
  | malformed {e : SignError} (h : Malformed d body e) :
      SignOutcome d body [] 400 (errorBody d e.message)
  | noClient {req : SignRequest} {peer : PubKey} (h : WellFormed d body req peer) (e : String) :
      SignOutcome d body [⟨.buildClient, .error e⟩] 500 (errorBody d (SignError.httpClient e).message)
  | unreachable {req : SignRequest} {peer : PubKey} (h : WellFormed d body req peer) (e : String) :
      SignOutcome d body [⟨.buildClient, .ok ()⟩, ⟨.send req.verifyCredentials, .error e⟩] 502
        (errorBody d (SignError.mastodonRequest e).message)
  -- whatever an instance answers but success counts as a refusal, also when it is out of order
  | unsuccessful {req : SignRequest} {peer : PubKey} (h : WellFormed d body req peer)
      (resp : HttpResponse) (hresp : resp.isSuccess = false) :
      SignOutcome d body [⟨.buildClient, .ok ()⟩, ⟨.send req.verifyCredentials, .ok resp⟩] 401
        (errorBody d (SignError.mastodonStatus resp.status).message)
  | notJson {req : SignRequest} {peer : PubKey} (h : WellFormed d body req peer)
      (resp : HttpResponse) {e : String} (hresp : resp.isSuccess = true)
      (hjson : resp.json = .error e) :
      SignOutcome d body [⟨.buildClient, .ok ()⟩, ⟨.send req.verifyCredentials, .ok resp⟩] 502
        (errorBody d (SignError.mastodonJson e).message)
  | noUrl {req : SignRequest} {peer : PubKey} (h : WellFormed d body req peer)
      (resp : HttpResponse) {actor : Json} (hresp : resp.isSuccess = true)
      (hjson : resp.json = .ok actor) (hurl : actorUrl actor = none) :
      SignOutcome d body [⟨.buildClient, .ok ()⟩, ⟨.send req.verifyCredentials, .ok resp⟩] 502
        (errorBody d SignError.mastodonActorMissingUrl.message)
  | mismatch {req : SignRequest} {peer : PubKey} (h : WellFormed d body req peer)
      (resp : HttpResponse) {actor : Json} {url : String} (hresp : resp.isSuccess = true)
      (hjson : resp.json = .ok actor) (hurl : actorUrl actor = some url)
      (hne : url ≠ req.canonicalId) :
      SignOutcome d body [⟨.buildClient, .ok ()⟩, ⟨.send req.verifyCredentials, .ok resp⟩] 401
        (errorBody d (SignError.canonicalIdMismatch url req.canonicalId).message)
  | unsigned {req : SignRequest} {peer : PubKey} {resp : HttpResponse} {actor : Json}
      (h : Accepts d body resp req peer actor) (now : Option UInt64) (e : String) :
      SignOutcome d body [⟨.buildClient, .ok ()⟩, ⟨.send req.verifyCredentials, .ok resp⟩,
        ⟨.unixTime, now⟩, ⟨.sign (req.claim peer now), .error e⟩] 500
        (errorBody d (SignError.sign e).message)
  -- the claim is signed before the key is looked at; the signature is dropped
  | foreignKey {req : SignRequest} {peer : PubKey} {resp : HttpResponse} {actor : Json}
      (h : Accepts d body resp req peer actor) (now : Option UInt64) (signature : Bytes) {e : String}
      (hkey : d.lib.tryIntoEd25519 d.keypair = .error e) :
      SignOutcome d body [⟨.buildClient, .ok ()⟩, ⟨.send req.verifyCredentials, .ok resp⟩,
        ⟨.unixTime, now⟩, ⟨.sign (req.claim peer now), .ok signature⟩] 500
        (errorBody d (SignError.sign s!"signer pubkey not Ed25519: {e}").message)
  | signed {req : SignRequest} {peer : PubKey} {resp : HttpResponse} {actor : Json}
      (h : Accepts d body resp req peer actor) (now : Option UInt64) (signature : Bytes)
      {signer : PubKey} (hkey : d.lib.tryIntoEd25519 d.keypair = .ok signer) :
      SignOutcome d body [⟨.buildClient, .ok ()⟩, ⟨.send req.verifyCredentials, .ok resp⟩,
        ⟨.unixTime, now⟩, ⟨.sign (req.claim peer now), .ok signature⟩] 200
        (d.serde.toVec (signResponse d.hex (req.claim peer now) signature signer))

section Runs

variable {d : RelayDeps} {body : Bytes} {tr : List RelayEvent}

@[simp] lemma fails_orElse_iff {ε α β : Type} {f : β → ε} {r : Except β α} {e : ε} :
    Fails (Relay.orElse f r) tr e ↔ tr = [] ∧ ∃ b, r = .error b ∧ e = f b := by
  cases r <;> simp [Relay.orElse, Except.mapError, eq_comm]

@[simp] lemma fails_okOr_iff {ε α : Type} {e e' : ε} {a : Option α} :
    Fails (Relay.okOr e a) tr e' ↔ tr = [] ∧ a = none ∧ e' = e := by
  cases a <;> simp [Relay.okOr, eq_comm]

lemma fails_fetchMastodonActorUrl {host token : String} {e : SignError}
    (h : Fails (fetchMastodonActorUrl host token) tr e) :
    (∃ b, tr = [⟨.buildClient, .error b⟩] ∧ e = .httpClient b) ∨
      (∃ b, tr = [⟨.buildClient, .ok ()⟩, ⟨.send (verifyCredentials host token), .error b⟩] ∧
        e = .mastodonRequest b) ∨
      ∃ resp, tr = [⟨.buildClient, .ok ()⟩, ⟨.send (verifyCredentials host token), .ok resp⟩] ∧
        (resp.isSuccess = false ∧ e = .mastodonStatus resp.status ∨
          resp.isSuccess = true ∧ ((∃ b, resp.json = .error b ∧ e = .mastodonJson b) ∨
            ∃ actor, resp.json = .ok actor ∧ actorUrl actor = none ∧ e = .mastodonActorMissingUrl)) := by
  unfold fetchMastodonActorUrl Relay.buildClient Relay.send at h
  simp only [Program.op_bind, Program.done_bind, fails_op_iff, fails_bind_iff, fails_orElse_iff,
    Relay.returns_orElse_iff] at h
  obtain ⟨client, tr₁, rfl, ⟨rfl, b, rfl, rfl⟩ | ⟨_, _, _, rfl, ⟨rfl, rfl⟩, answer, tr₂, rfl, h⟩⟩ := h
  · exact Or.inl ⟨b, rfl, rfl⟩
  · rcases h with ⟨rfl, b, rfl, rfl⟩ | ⟨_, _, resp, rfl, ⟨rfl, rfl⟩, h⟩
    · exact Or.inr (Or.inl ⟨b, rfl, rfl⟩)
    · refine Or.inr (Or.inr ⟨resp, ?_⟩)
      split at h
      · rename_i hsuccess
        simp only [fails_bind_iff, fails_orElse_iff, fails_okOr_iff, Relay.returns_orElse_iff] at h
        rcases h with ⟨rfl, b, hjson, rfl⟩ | ⟨_, _, actor, rfl, ⟨rfl, hjson⟩, rfl, hurl, rfl⟩
        · exact ⟨rfl, Or.inr ⟨hsuccess, Or.inl ⟨b, hjson, rfl⟩⟩⟩
        · exact ⟨rfl, Or.inr ⟨hsuccess, Or.inr ⟨actor, hjson, hurl, rfl⟩⟩⟩
      · rename_i hsuccess
        obtain ⟨rfl, rfl⟩ := fails_fail_iff.mp h
        exact ⟨rfl, Or.inl ⟨by simpa using hsuccess, rfl⟩⟩

lemma Malformed.httpStatus {e : SignError} (h : Malformed d body e) : e.httpStatus = 400 := by
  cases h with
  | unread h => rfl
  | provider h hne => rfl
  | peer h hprovider he =>
    unfold SignEndpoint.decodePeerPubkey decodePubkey at he
    split at he
    · cases he
      rfl
    · split at he <;> cases he
      rfl

lemma Malformed.outcome {e : SignError} (h : Malformed d body e) :
    SignOutcome d body [] e.httpStatus (errorBody d e.message) := by
  rw [h.httpStatus]
  exact .malformed h

/-- A failed request has one of the outcomes, and says which. -/
lemma outcome_of_fails {e : SignError} (h : Fails (handleSign d body) tr e) :
    SignOutcome d body tr e.httpStatus (errorBody d e.message) := by
  unfold handleSign at h
  simp only [fails_bind_iff, fails_orElse_iff, Relay.returns_orElse_iff] at h
  rcases h with ⟨rfl, b, hread, rfl⟩ | ⟨_, _, req, rfl, ⟨rfl, hread⟩, h⟩
  · exact .malformed (.unread hread)
  split at h
  · rename_i hprovider
    simp only [fails_bind_iff, fails_ofExcept_iff, returns_ofExcept_iff,
      returns_fetchMastodonActorUrl_iff] at h
    rcases h with ⟨rfl, hpeer⟩ | ⟨_, _, peer, rfl, ⟨rfl, hpeer⟩, h⟩
    · exact (Malformed.peer hread hprovider hpeer).outcome
    have hformed : WellFormed d body req peer := ⟨hread, hprovider, hpeer⟩
    rcases h with h | ⟨_, _, url, rfl, ⟨resp, actor, hsuccess, hjson, hurl, rfl⟩, h⟩
    · rcases fails_fetchMastodonActorUrl h with ⟨b, rfl, rfl⟩ | ⟨b, rfl, rfl⟩ |
        ⟨resp, rfl, ⟨hresp, rfl⟩ | ⟨hresp, ⟨b, hjson, rfl⟩ | ⟨actor, hjson, hurl, rfl⟩⟩⟩
      · exact .noClient hformed b
      · exact .unreachable hformed b
      · exact .unsuccessful hformed resp hresp
      · exact .notJson hformed resp hresp hjson
      · exact .noUrl hformed resp hresp hjson hurl
    · split at h
      · rename_i heq
        subst heq
        have haccepts : Accepts d body resp req peer actor :=
          ⟨hread, hprovider, hpeer, hsuccess, hjson, hurl⟩
        simp only [Relay.unixTime, Relay.sign, Program.op_bind, Program.done_bind, fails_op_iff,
          fails_bind_iff, fails_orElse_iff, Relay.returns_orElse_iff, Program.pure_eq,
          fails_done_iff, and_false, exists_false, or_false] at h
        obtain ⟨now, _, rfl, answer, _, rfl, ⟨rfl, b, rfl, rfl⟩ |
          ⟨_, _, signature, rfl, ⟨rfl, rfl⟩, rfl, b, hkey, rfl⟩⟩ := h
        · exact .unsigned haccepts now b
        · exact .foreignKey haccepts now signature hkey
      · rename_i hne
        obtain ⟨rfl, rfl⟩ := fails_fail_iff.mp h
        exact .mismatch hformed resp hsuccess hjson hurl hne
  · rename_i hprovider
    obtain ⟨rfl, rfl⟩ := fails_fail_iff.mp h
    exact .malformed (.provider hread hprovider)

/-- In the run the relay has made a signature that can be handed out. -/
def SignedBy (d : RelayDeps) (tr : List RelayEvent) (signer : PubKey) : Prop :=
  d.lib.tryIntoEd25519 d.keypair = .ok signer ∧
    ∃ claim signature, (⟨.sign claim, .ok signature⟩ : RelayEvent) ∈ tr

lemma SignOutcome.success_iff {status : UInt16} {reply : Bytes} (h : SignOutcome d body tr status reply) :
    status = 200 ↔ ∃ signer, SignedBy d tr signer := by
  cases h with
  | malformed | noClient | unreachable | unsuccessful | notJson | noUrl | mismatch | unsigned =>
    refine iff_of_false (by decide) ?_
    rintro ⟨signer, -, claim, signature, hmem⟩
    simp at hmem
  | foreignKey h now signature hkey =>
    refine iff_of_false (by decide) ?_
    rintro ⟨signer, hsigner, -⟩
    rw [hkey] at hsigner
    cases hsigner
  | @signed req peer _ _ _ now signature signer hkey =>
    exact iff_of_true rfl ⟨signer, hkey, req.claim peer now, signature, by simp⟩

/-- However the instance answers, the relay's answer tells what happened; it succeeds exactly when a
signature was made under a key that a receiver can check, and any other answer is an error's
message. -/
theorem sign_answer_tells_outcome {c : Connection} {query : HashMap String String} {out : Bytes}
    (hasked : Asked c "POST" "/me/sign/mastodon" query body)
    (h : Returns (c.serve d) tr (.responded out)) :
    ∃ status reply, out = buildJsonResponse status reply ∧ SignOutcome d body tr status reply ∧
      (status = 200 ↔ ∃ signer, SignedBy d tr signer) ∧
      (status ≠ 200 → ∃ e : SignError, reply = errorBody d e.message) := by
  rw [serve_sign hasked] at h
  obtain ⟨_, hroute, heq⟩ := returns_responded_iff.mp h
  cases heq
  rcases returns_respond_iff.mp hroute with ⟨reply, hreturns, rfl⟩ | ⟨e, hfails, rfl⟩
  · obtain ⟨resp, req, peer, actor, now, signature, signer, haccepts, hkey, rfl, rfl⟩ :=
      returns_handleSign_iff.mp hreturns
    have houtcome : SignOutcome d body _ 200 _ := .signed haccepts now signature hkey
    exact ⟨200, _, rfl, houtcome, houtcome.success_iff, fun hne => absurd rfl hne⟩
  · have houtcome := outcome_of_fails hfails
    exact ⟨e.httpStatus, _, rfl, houtcome, houtcome.success_iff, fun _ => ⟨e, rfl⟩⟩

end Runs

/-! ### Alice's Mastodon account -/

namespace RefusalsExample

open AcceptanceExample

def body : Bytes := SerdeJson.compact.toVec requestJson

def signHead : String := "POST /me/sign/mastodon HTTP/1.1\r\nContent-Length: 221"

def signBytes : Bytes := intoBytes signHead ++ [13, 10, 13, 10] ++ body

lemma length_body : body.length = 221 := by decide +kernel

lemma length_head : (intoBytes signHead).length = 52 := by decide

lemma length_signBytes : signBytes.length = 277 := by
  rw [signBytes, List.length_append, List.length_append, length_head, length_body]
  rfl

def signConnection : Connection :=
  .whole signBytes (by simp [signBytes]) (by rw [length_signBytes]; decide)

lemma asked_sign : Asked signConnection "POST" "/me/sign/mastodon" HashMap.empty body := by
  have hhead : signBytes.take 52 = intoBytes signHead := by
    rw [signBytes, List.append_assoc, ← length_head, List.take_left]
  have hbody : signBytes.drop 56 = body := by
    have hlength : (intoBytes signHead ++ [13, 10, 13, 10]).length = 56 := by
      rw [List.length_append, length_head]
      rfl
    rw [signBytes, ← hlength, List.drop_left]
  have hutf8 : fromUtf8 (signBytes.take 52) = some signHead := fromUtf8_eq_some.mpr hhead
  have hline : methodAndPath (firstLine signHead.toList) = some ("POST", "/me/sign/mastodon") := by decide
  have hend : 52 + 4 + (contentLengthIn (Str.splitCrlf signHead)).getD 0 = signBytes.length := by
    rw [length_signBytes]
    decide
  refine ⟨by decide +kernel, "/me/sign/mastodon", ?_, by rfl⟩
  rw [← hbody]
  exact Connection.readFullRequest_whole (by decide +kernel) hutf8 hline hend

end RefusalsExample

/-- The instance confirms the token: the answer has status 200. -/
theorem sign_answer_tells_outcome_alice : ∃ out reply,
    Returns (RefusalsExample.signConnection.serve AcceptanceExample.deps) AcceptanceExample.trace
      (.responded out) ∧ out = buildJsonResponse 200 reply ∧
    SignOutcome AcceptanceExample.deps RefusalsExample.body AcceptanceExample.trace 200 reply := by
  have hreturns : Returns (RefusalsExample.signConnection.serve AcceptanceExample.deps)
      AcceptanceExample.trace (.responded (buildJsonResponse 200 (SerdeJson.compact.toVec
        (signResponse AcceptanceExample.deps.hex AcceptanceExample.mastodon.claim
          AcceptanceExample.mastodon.signature AcceptanceExample.mastodon.signerPubkey)))) := by
    rw [serve_sign RefusalsExample.asked_sign]
    exact returns_responded_iff.mpr
      ⟨_, returns_respond_iff.mpr (Or.inl ⟨_, AcceptanceExample.returns, rfl⟩), rfl⟩
  obtain ⟨status, reply, hout, houtcome, hsuccess, -⟩ :=
    sign_answer_tells_outcome RefusalsExample.asked_sign hreturns
  have hsigned : SignedBy AcceptanceExample.deps AcceptanceExample.trace (PubKey.replicate 1) :=
    ⟨rfl, AcceptanceExample.mastodon.claim, AcceptanceExample.mastodon.signature,
      by simp [AcceptanceExample.trace]⟩
  obtain rfl := hsuccess.mpr ⟨_, hsigned⟩
  exact ⟨_, reply, hreturns, hout, houtcome⟩

end Laye
