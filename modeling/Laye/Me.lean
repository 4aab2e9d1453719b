import Laye.Wire

/-!
# Signed values of `crates/me`

Binding claims, which the relay signs, and chat messages, which every peer signs for itself.
Ed25519 and the protobuf form of keys belong to `libp2p_identity` and are parameters.
-/

namespace Laye

/-- The calls the code makes into `libp2p_identity`. -/
structure Libp2pIdentity where
  Keypair : Type
  /-- `keypair.sign(msg)` -/
  sign : Keypair → Bytes → Except String Bytes
  /-- `keypair.public().try_into_ed25519()`, as bytes -/
  tryIntoEd25519 : Keypair → Except String PubKey
  /-- `ed25519::PublicKey::try_from_bytes`, which rejects bytes that are no curve point -/
  tryFromBytes : PubKey → Except String Unit
  /-- `public.verify(msg, sig)` -/
  verify : PubKey → Bytes → Bytes → Bool

inductive VerifyError
  | badSignerKey (why : String)
  | badSignature
deriving DecidableEq

structure BindingClaim where
  peerPubkey : PubKey
  provider : String
  canonicalId : String
  handle : Option String
  issuedAt : UInt64
deriving DecidableEq

structure SignedBinding where
  claim : BindingClaim
  signature : Bytes
  signerPubkey : PubKey
deriving DecidableEq

structure SignedChat where
  authorPeerPubkey : PubKey
  body : String
  atMs : UInt64
  signature : Bytes
deriving DecidableEq

/-! ### Canonical bytes and verification -/

/-- The check both `verify` methods make: the key must decode, then the signature must match. -/
def verifyUnder (lib : Libp2pIdentity) (key : PubKey) (msg sig : Bytes) : Except VerifyError Unit := do
  match lib.tryFromBytes key with
  | .error e => throw (.badSignerKey e)
  | .ok () => if lib.verify key msg sig then .ok () else throw .badSignature

/-- `format!("laye-chat/v1|{}|{}|{}", ..)`. -/
def SignedChat.canonicalText (chat : SignedChat) : String :=
  "laye-chat/v1|" ++ hexLower chat.authorPeerPubkey.bytes ++ "|" ++ toString chat.atMs ++ "|" ++
    chat.body

def SignedChat.canonicalBytes (chat : SignedChat) : Bytes := intoBytes chat.canonicalText

def SignedChat.verify (lib : Libp2pIdentity) (chat : SignedChat) : Except VerifyError Unit :=
  verifyUnder lib chat.authorPeerPubkey chat.canonicalBytes chat.signature

/-- `format!("laye-binding/v1|{}|{}|{}|{}|{}", ..)`, an absent handle written as the empty string. -/
def BindingClaim.canonicalText (claim : BindingClaim) : String :=
  "laye-binding/v1|" ++ hexLower claim.peerPubkey.bytes ++ "|" ++ claim.provider ++ "|" ++
    claim.canonicalId ++ "|" ++ claim.handle.getD "" ++ "|" ++ toString claim.issuedAt

def BindingClaim.canonicalBytes (claim : BindingClaim) : Bytes := intoBytes claim.canonicalText

def SignedBinding.verify (lib : Libp2pIdentity) (b : SignedBinding) : Except VerifyError Unit :=
  verifyUnder lib b.signerPubkey b.claim.canonicalBytes b.signature

lemma verifyUnder_ok_iff (lib : Libp2pIdentity) (key : PubKey) (msg sig : Bytes) :
    verifyUnder lib key msg sig = .ok () ↔
      lib.tryFromBytes key = .ok () ∧ lib.verify key msg sig = true := by
  unfold verifyUnder
  cases lib.tryFromBytes key with
  | error e => simp [throw, throwThe, MonadExceptOf.throw]
  | ok u => cases h : lib.verify key msg sig <;> simp [throw, throwThe, MonadExceptOf.throw]

lemma verifyUnder_verified {lib : Libp2pIdentity} {key : PubKey} {msg sig : Bytes}
    (h : verifyUnder lib key msg sig = .ok ()) : lib.verify key msg sig = true :=
  ((verifyUnder_ok_iff lib key msg sig).mp h).2

/-- An ideal scheme that runs: a signature shows its key and message in the clear, and verifies
only when the holder of the key signed that message, which `log` records. -/
def Libp2pIdentity.recorded (log : List (PubKey × Bytes)) : Libp2pIdentity where
  Keypair := PubKey
  sign key msg := .ok (key.bytes ++ msg)
  tryIntoEd25519 key := .ok key
  tryFromBytes _ := .ok ()
  verify key msg sig := decide ((key, msg) ∈ log) && sig == key.bytes ++ msg

lemma recorded_verify {log : List (PubKey × Bytes)} {key : PubKey} {msg sig : Bytes} :
    (Libp2pIdentity.recorded log).verify key msg sig = true ↔
      (key, msg) ∈ log ∧ sig = key.bytes ++ msg := by
  simp [Libp2pIdentity.recorded]

/-! ### Wire form -/

def BindingClaim.toJson (claim : BindingClaim) : Json :=
  .object [("peer_pubkey_hex", .string (hexLower claim.peerPubkey.bytes)),
    ("provider", .string claim.provider), ("canonical_id", .string claim.canonicalId),
    ("handle", claim.handle.elim .null .string), ("issued_at", .number (.posInt claim.issuedAt))]

def BindingClaim.ofJson (doc : Json) : Option BindingClaim := do
  let fields ← doc.structFields
    ["peer_pubkey_hex", "provider", "canonical_id", "handle", "issued_at"] 5
  let peerPubkey ← Json.hexBytes32 fields[0]!
  let provider ← Json.stringField fields[1]!
  let canonicalId ← Json.stringField fields[2]!
  let handle ← Json.optionStringField fields[3]!
  let issuedAt ← Json.u64Field fields[4]!
  return { peerPubkey, provider, canonicalId, handle, issuedAt }

def SignedBinding.toJson (b : SignedBinding) : Json :=
  .object [("claim", b.claim.toJson), ("signature_hex", .string (hexLower b.signature)),
    ("signer_pubkey_hex", .string (hexLower b.signerPubkey.bytes))]

def SignedBinding.ofJson (doc : Json) : Option SignedBinding := do
  let fields ← doc.structFields ["claim", "signature_hex", "signer_pubkey_hex"] 3
  let claim ← fields[0]!.bind BindingClaim.ofJson
  let signature ← Json.hexBytesVec fields[1]!
  let signerPubkey ← Json.hexBytes32 fields[2]!
  return { claim, signature, signerPubkey }

def SignedChat.toJson (chat : SignedChat) : Json :=
  .object [("author_peer_pubkey_hex", .string (hexLower chat.authorPeerPubkey.bytes)),
    ("body", .string chat.body), ("at_ms", .number (.posInt chat.atMs)),
    ("signature_hex", .string (hexLower chat.signature))]

def SignedChat.ofJson (doc : Json) : Option SignedChat := do
  let fields ← doc.structFields ["author_peer_pubkey_hex", "body", "at_ms", "signature_hex"] 4
  let authorPeerPubkey ← Json.hexBytes32 fields[0]!
  let body ← Json.stringField fields[1]!
  let atMs ← Json.u64Field fields[2]!
  let signature ← Json.hexBytesVec fields[3]!
  return { authorPeerPubkey, body, atMs, signature }

/-! ### Reading a written value back -/

@[simp] lemma BindingClaim.ofJson_toJson (claim : BindingClaim) :
    BindingClaim.ofJson claim.toJson = some claim := by
  obtain ⟨key, provider, canonicalId, handle, issuedAt⟩ := claim
  cases handle <;>
    simp [BindingClaim.ofJson, BindingClaim.toJson, Json.structFields, Json.stringField,
      Json.optionStringField, Json.u64Field]

@[simp] lemma SignedBinding.ofJson_toJson (b : SignedBinding) :
    SignedBinding.ofJson b.toJson = some b := by
  simp [SignedBinding.ofJson, SignedBinding.toJson, Json.structFields]

@[simp] lemma SignedChat.ofJson_toJson (chat : SignedChat) :
    SignedChat.ofJson chat.toJson = some chat := by
  simp [SignedChat.ofJson, SignedChat.toJson, Json.structFields, Json.stringField, Json.u64Field]

end Laye
