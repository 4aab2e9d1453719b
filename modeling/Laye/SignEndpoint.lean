import Laye.Lib.Delimited
import Laye.Relay
import Laye.Text

/-!
# Signing for Mastodon accounts

The relay signs a claim for whoever shows an access token of the claimed account: it asks the
instance the request names which account the token belongs to, and compares the answer's `url`
with the claimed `canonical_id`.
-/

namespace Laye

open Interaction

structure SignRequest where
  peerPubkeyHex : String
  provider : String
  canonicalId : String
  handle : Option String
  mastodonToken : String
  mastodonInstance : String

def SignRequest.ofJson (doc : Json) : Option SignRequest := do
  let fields ← doc.structFields ["peer_pubkey_hex", "provider", "canonical_id", "handle",
    "mastodon_token", "mastodon_instance"] 6
  let peerPubkeyHex ← Json.stringField fields[0]!
  let provider ← Json.stringField fields[1]!
  let canonicalId ← Json.stringField fields[2]!
  let handle ← Json.optionStringField fields[3]!
  let mastodonToken ← Json.stringField fields[4]!
  let mastodonInstance ← Json.stringField fields[5]!
  return { peerPubkeyHex, provider, canonicalId, handle, mastodonToken, mastodonInstance }

inductive SignError
  | badRequestJson (e : String)
  | unsupportedProvider (provider : String)
  | badPeerPubkeyHex
  | badPeerPubkeyLen (len : Nat)
  | canonicalIdMismatch (tokenActor claimActor : String)
  | httpClient (e : String)
  | mastodonRequest (e : String)
  | mastodonStatus (status : UInt16)
  | mastodonJson (e : String)
  | mastodonActorMissingUrl
  | sign (e : String)
deriving DecidableEq

def verifyCredentials (host token : String) : HttpRequest :=
  { HttpRequest.get ("https://" ++ host ++ "/api/v1/accounts/verify_credentials") with
    bearerAuth := some token }

/-- `actor.get("url").and_then(|v| v.as_str())` -/
def actorUrl (actor : Json) : Option String := (actor.get "url").bind Json.asStr

def fetchMastodonActorUrl (host token : String) : Relay SignError String := do
  Relay.orElse .httpClient (← Relay.buildClient)
  let resp ← Relay.orElse .mastodonRequest (← Relay.send (verifyCredentials host token))
  if resp.isSuccess then
    let actor ← Relay.orElse .mastodonJson resp.json
    Relay.okOr .mastodonActorMissingUrl (actorUrl actor)
  else
    .fail (.mastodonStatus resp.status)

namespace SignEndpoint

def decodePeerPubkey (hex : HexCrate) (hexstr : String) : Except SignError PubKey :=
  decodePubkey hex .badPeerPubkeyHex .badPeerPubkeyLen hexstr

end SignEndpoint

def signResponse (hex : HexCrate) (claim : BindingClaim) (signature : Bytes) (signer : PubKey) :
    Json :=
  .object [
    ("claim", .object [("peer_pubkey_hex", .string (hex.encode claim.peerPubkey.bytes)),
      ("provider", .string claim.provider), ("canonical_id", .string claim.canonicalId),
      ("handle", claim.handle.elim .null .string), ("issued_at", .number (.posInt claim.issuedAt))]),
    ("signature_hex", .string (hex.encode signature)),
    ("signer_pubkey_hex", .string (hex.encode signer.bytes))]

def handleSign (d : RelayDeps) (body : Bytes) : Relay SignError Bytes := do
  let req ← Relay.orElse .badRequestJson (d.serde.read SignRequest.ofJson body)
  if req.provider = "mastodon" then
    let peerPubkey ← Program.ofExcept (SignEndpoint.decodePeerPubkey d.hex req.peerPubkeyHex)
    let url ← fetchMastodonActorUrl req.mastodonInstance req.mastodonToken
    if url = req.canonicalId then
      let now ← Relay.unixTime
      let claim : BindingClaim :=
        { peerPubkey
          provider := req.provider
          canonicalId := req.canonicalId
          handle := req.handle
          issuedAt := now.getD 0 }
      let signature ← Relay.orElse .sign (← Relay.sign claim)
      let signer ← Relay.orElse (fun e => .sign s!"signer pubkey not Ed25519: {e}")
        (d.lib.tryIntoEd25519 d.keypair)
      return d.serde.toVec (signResponse d.hex claim signature signer)
    else
      .fail (.canonicalIdMismatch url req.canonicalId)
  else
    .fail (.unsupportedProvider req.provider)

/-! ### The successful runs -/

section Runs

variable {d : RelayDeps} {body : Bytes}

lemma returns_fetchMastodonActorUrl_iff {host token url : String} {tr : List RelayEvent} :
    Returns (fetchMastodonActorUrl host token) tr url ↔
      ∃ resp actor, resp.isSuccess = true ∧ resp.json = .ok actor ∧ actorUrl actor = some url ∧
        tr = [⟨.buildClient, .ok ()⟩, ⟨.send (verifyCredentials host token), .ok resp⟩] := by
  unfold fetchMastodonActorUrl Relay.buildClient Relay.send
  simp only [Program.op_bind, Program.done_bind, returns_op_iff, returns_bind_iff,
    Relay.returns_orElse_iff]
  constructor
  · rintro ⟨x, _, rfl, _, _, u, rfl, ⟨rfl, rfl⟩, y, _, rfl, _, _, resp, rfl, ⟨rfl, rfl⟩, h⟩
    split at h
    · rename_i hsuccess
      simp only [returns_bind_iff, Relay.returns_orElse_iff, Relay.returns_okOr_iff] at h
      obtain ⟨_, _, actor, rfl, ⟨rfl, hjson⟩, rfl, hurl⟩ := h
      exact ⟨resp, actor, hsuccess, hjson, hurl, rfl⟩
    · simp at h
  · rintro ⟨resp, actor, hsuccess, hjson, hurl, rfl⟩
    refine ⟨_, _, rfl, [], _, (), rfl, ⟨rfl, rfl⟩, _, _, rfl, [], _, resp, rfl, ⟨rfl, rfl⟩, ?_⟩
    rw [if_pos hsuccess, hjson]
    simp [returns_bind_iff, hurl]

/-- What `handle_sign` asks of a request and of the server's answer to it. -/
structure Accepts (d : RelayDeps) (body : Bytes) (resp : HttpResponse) (req : SignRequest)
    (peer : PubKey) (actor : Json) : Prop where
  read : d.serde.read SignRequest.ofJson body = .ok req
  provider : req.provider = "mastodon"
  peer : SignEndpoint.decodePeerPubkey d.hex req.peerPubkeyHex = .ok peer
  success : resp.isSuccess = true
  json : resp.json = .ok actor
  url : actorUrl actor = some req.canonicalId

/-- The claim signed for a request at a time. -/
def SignRequest.claim (req : SignRequest) (peer : PubKey) (now : Option UInt64) : BindingClaim :=
  { peerPubkey := peer
    provider := req.provider
    canonicalId := req.canonicalId
    handle := req.handle
    issuedAt := now.getD 0 }

def SignRequest.verifyCredentials (req : SignRequest) : HttpRequest :=
  Laye.verifyCredentials req.mastodonInstance req.mastodonToken

theorem returns_handleSign_iff {tr : List RelayEvent} {out : Bytes} :
    Returns (handleSign d body) tr out ↔
      ∃ resp req peer actor now signature signer, Accepts d body resp req peer actor ∧
        d.lib.tryIntoEd25519 d.keypair = .ok signer ∧
        tr = [⟨.buildClient, .ok ()⟩, ⟨.send req.verifyCredentials, .ok resp⟩, ⟨.unixTime, now⟩,
          ⟨.sign (req.claim peer now), .ok signature⟩] ∧
        out = d.serde.toVec (signResponse d.hex (req.claim peer now) signature signer) := by
  unfold handleSign
  simp only [returns_bind_iff, Relay.returns_orElse_iff]
  constructor
  · rintro ⟨_, _, req, rfl, ⟨rfl, hread⟩, h⟩
    split at h
    · rename_i hprovider
      simp only [returns_bind_iff, returns_ofExcept_iff, returns_fetchMastodonActorUrl_iff] at h
      obtain ⟨_, _, peer, rfl, ⟨rfl, hpeer⟩, _, _, url, rfl,
        ⟨resp, actor, hsuccess, hjson, hurl, rfl⟩, h⟩ := h
      split at h
      · rename_i heq
        subst heq
        simp only [Relay.unixTime, Relay.sign, Program.op_bind, Program.done_bind, returns_op_iff,
          returns_bind_iff, Relay.returns_orElse_iff, Program.pure_eq, returns_done_iff] at h
        obtain ⟨now, _, rfl, x, _, rfl, _, _, signature, rfl, ⟨rfl, rfl⟩, _, _, signer, rfl,
          ⟨rfl, hsigner⟩, rfl, rfl⟩ := h
        exact ⟨resp, req, peer, actor, now, signature, signer,
          ⟨hread, hprovider, hpeer, hsuccess, hjson, hurl⟩, hsigner, rfl, rfl⟩
      · simp at h
    · simp at h
  · rintro ⟨resp, req, peer, actor, now, signature, signer, hacc, hsigner, rfl, rfl⟩
    refine ⟨[], _, req, rfl, ⟨rfl, hacc.read⟩, ?_⟩
    rw [if_pos hacc.provider]
    simp only [returns_bind_iff, returns_ofExcept_iff, returns_fetchMastodonActorUrl_iff]
    refine ⟨[], _, peer, rfl, ⟨rfl, hacc.peer⟩, _, _, req.canonicalId, rfl,
      ⟨resp, actor, hacc.success, hacc.json, hacc.url, rfl⟩, ?_⟩
    rw [if_pos rfl]
    simp only [Relay.unixTime, Relay.sign, Program.op_bind, Program.done_bind, returns_op_iff,
      returns_bind_iff, Relay.returns_orElse_iff, Program.pure_eq, returns_done_iff]
    exact ⟨now, _, rfl, .ok signature, _, rfl, [], _, signature, rfl, ⟨rfl, rfl⟩, [], _, signer,
      rfl, ⟨rfl, hsigner⟩, rfl, rfl⟩

end Runs

end Laye
