import Laye.Binding
import Laye.CanonicalBytes
import Laye.Text

/-!
# The chat protocol

Signed messages on `laye-chat/v1`, legacy plaintext on `rave-chat/v1`, and the names the chat
window shows for their authors.
-/

namespace Laye

def CHAT_TOPIC : String := "laye-chat/v1"

def LEGACY_CHAT_TOPIC : String := "rave-chat/v1"

def HISTORY_CAP : Nat := 40

def MAX_BODY_BYTES : Nat := 512

structure PlaintextChat where
  peer : String
  body : String
  atMs : UInt64
deriving DecidableEq

def PlaintextChat.ofJson (doc : Json) : Option PlaintextChat := do
  let fields ← doc.structFields ["peer", "body", "at_ms"] 3
  let peer ← Json.stringField fields[0]!
  let body ← Json.stringField fields[1]!
  let atMs ← Json.u64Field fields[2]!
  return { peer, body, atMs }

inductive IncomingChat
  | signed (chat : SignedChat)
  | plaintext (chat : PlaintextChat)
deriving DecidableEq

structure ChatEntry where
  who : String
  body : String
deriving DecidableEq

structure ChatState where
  history : List ChatEntry
  cap : Nat
deriving DecidableEq

def ChatState.default : ChatState := ⟨[], HISTORY_CAP⟩

/-- `push_back`, then `pop_front` while the history is longer than `cap`. -/
def ChatState.push (chat : ChatState) (entry : ChatEntry) : ChatState :=
  let history := chat.history ++ [entry]
  { chat with history := history.drop (history.length - chat.cap) }

def selfPeerPubkey (lib : Libp2pIdentity) (keypair : lib.Keypair) : Option PubKey :=
  (lib.tryIntoEd25519 keypair).toOption

def buildSignedWire (lib : Libp2pIdentity) (serde : SerdeJson) (keypair : lib.Keypair)
    (body : String) (atMs : UInt64) : Option Bytes := do
  let author ← selfPeerPubkey lib keypair
  let unsigned : SignedChat := ⟨author, body, atMs, []⟩
  let signature ← (lib.sign keypair unsigned.canonicalBytes).toOption
  return serde.toVec { unsigned with signature }.toJson

/-- `while !body.is_char_boundary(end) { end -= 1 }` -/
def boundaryFrom (body : String) : Nat → Nat
  | 0 => 0
  | n + 1 => if Str.isCharBoundary body (n + 1) then n + 1 else boundaryFrom body n

def trimToCharBoundary (body : String) (maxBytes : Nat) : String :=
  if Str.len body ≤ maxBytes then body
  else (Str.sliceTo body (boundaryFrom body maxBytes)).getD ""

/-! ### Names shown for authors -/

def shortPeerDisplay (peer : String) : String := String.ofList (peer.toList.take 8)

def shortAuthorDisplay (pubkey : PubKey) : String := hexLower (pubkey.bytes.take 4)

def attributeAuthor (bindings : Option BindingTable) (author : PubKey) : String :=
  match bindings.bind (fun table => table.resolveHandle author) with
  | some handle => handle
  | none => shortAuthorDisplay author

/-! ### Inbound messages -/

/-- None on unknown topic, parse failure, bad signature, or self-echo. -/
def ingest (lib : Libp2pIdentity) (serde : SerdeJson) (topic : String) (bytes : Bytes)
    (selfPubkey : Option PubKey) (selfPeerId : String) : Option IncomingChat :=
  if topic = CHAT_TOPIC then do
    let chat ← (serde.read SignedChat.ofJson bytes).toOption
    let () ← (chat.verify lib).toOption
    if selfPubkey = some chat.authorPeerPubkey then none
    else some (.signed chat)
  else if topic = LEGACY_CHAT_TOPIC then do
    let chat ← (serde.read PlaintextChat.ofJson bytes).toOption
    if chat.peer = selfPeerId then none
    else some (.plaintext chat)
  else none

lemma toOption_eq_some {ε α : Type} {r : Except ε α} {a : α} :
    r.toOption = some a ↔ r = .ok a := by
  cases r <;> simp [Except.toOption]

/-- What `ingest` has checked when it accepts a signed message. -/
lemma ingest_signed {lib : Libp2pIdentity} {serde : SerdeJson} {topic : String} {bytes : Bytes}
    {selfPubkey : Option PubKey} {selfPeerId : String} {chat : SignedChat}
    (h : ingest lib serde topic bytes selfPubkey selfPeerId = some (.signed chat)) :
    topic = CHAT_TOPIC ∧ serde.read SignedChat.ofJson bytes = .ok chat ∧
      chat.verify lib = .ok () ∧ selfPubkey ≠ some chat.authorPeerPubkey := by
  unfold ingest at h
  split at h
  · rename_i htopic
    simp only [Option.bind_eq_bind, Option.bind_eq_some_iff, toOption_eq_some] at h
    obtain ⟨c, hread, _, hverify, hself⟩ := h
    split at hself
    · cases hself
    · rename_i hne
      cases hself
      exact ⟨htopic, hread, hverify, hne⟩
  · split at h
    · simp only [Option.bind_eq_bind, Option.bind_eq_some_iff] at h
      obtain ⟨c, _, hself⟩ := h
      split at hself <;> cases hself
    · cases h

/-! ### Who wrote an accepted message -/

/-- The signing calls of honest key holders: chat messages and issued bindings. -/
inductive HonestCall (lib : Libp2pIdentity)
  | buildSignedWire (keypair : lib.Keypair) (body : String) (atMs : UInt64)
  | issueBinding (keypair : lib.Keypair) (claim : BindingClaim)

/-- What an honest holder of a key can have signed: a chat message of its own or a claim. -/
inductive HonestDocument
  | chat (author : PubKey) (body : String) (atMs : UInt64)
  | binding (claim : BindingClaim)

def HonestDocument.encode : HonestDocument → Bytes
  | .chat author body atMs => SignedChat.canonicalBytes ⟨author, body, atMs, []⟩
  | .binding claim => claim.canonicalBytes

/-- The document a call signs, and the key it signs under. -/
def HonestCall.Issues {lib : Libp2pIdentity} (call : HonestCall lib) (pk : PubKey) :
    HonestDocument → Prop
  | .chat author body atMs => author = pk ∧ ∃ keypair, selfPeerPubkey lib keypair = some pk ∧
      call = .buildSignedWire keypair body atMs
  | .binding claim => ∃ keypair, selfPeerPubkey lib keypair = some pk ∧ call = .issueBinding keypair claim

/-- A message that reads, verifies and is no self-echo is accepted. -/
lemma ingest_of_read {lib : Libp2pIdentity} {serde : SerdeJson} {bytes : Bytes}
    {selfPubkey : Option PubKey} {selfPeerId : String} {chat : SignedChat}
    (hread : serde.read SignedChat.ofJson bytes = .ok chat) (hverify : chat.verify lib = .ok ())
    (hself : selfPubkey ≠ some chat.authorPeerPubkey) :
    ingest lib serde CHAT_TOPIC bytes selfPubkey selfPeerId = some (.signed chat) := by
  simp [ingest, hread, hverify, hself, Except.toOption]

lemma chat_encode_unique (author : PubKey) (body : String) (atMs : UInt64) (doc : HonestDocument)
    (h : doc.encode = (HonestDocument.chat author body atMs).encode) :
    doc = .chat author body atMs := by
  cases doc with
  | chat author' body' atMs' =>
    obtain ⟨rfl, rfl, rfl⟩ := SignedChat.canonicalBytes_inj.mp h
    rfl
  | binding claim => exact absurd h.symm (chat_ne_binding _ claim)

/-- Canonical bytes leave the signature out. -/
lemma SignedChat.canonicalBytes_eq_encode (chat : SignedChat) :
    chat.canonicalBytes =
      (HonestDocument.chat chat.authorPeerPubkey chat.body chat.atMs).encode := rfl

/-- Every message accepted with an honest author was built by that author with
`build_signed_wire`, from exactly this body and time. -/
theorem chat_authenticity (lib : Libp2pIdentity) (serde : SerdeJson)
    (signed : PubKey → Bytes → Prop) (calls : PubKey → HonestCall lib → Prop) (honest : PubKey → Prop)
    (hverify : Signatures.Unforgeable lib.verify signed)
    (hhonest : ∀ pk, honest pk → Signatures.SignsOnly signed
      (fun key doc => ∃ call, calls key call ∧ call.Issues key doc) HonestDocument.encode pk) :
    (∀ (bytes : Bytes) (selfPubkey : Option PubKey) (selfPeerId : String) (chat : SignedChat),
      ingest lib serde CHAT_TOPIC bytes selfPubkey selfPeerId = some (.signed chat) →
      honest chat.authorPeerPubkey →
      ∃ keypair, selfPeerPubkey lib keypair = some chat.authorPeerPubkey ∧
        calls chat.authorPeerPubkey (.buildSignedWire keypair chat.body chat.atMs)) ∧
    (∀ a b : SignedChat, a.canonicalBytes = b.canonicalBytes →
      a.authorPeerPubkey = b.authorPeerPubkey ∧ a.atMs = b.atMs ∧ a.body = b.body) ∧
    ∀ (a : SignedChat) (claim : BindingClaim), a.canonicalBytes ≠ claim.canonicalBytes := by
  refine ⟨?_, fun a b h => SignedChat.canonicalBytes_inj.mp h, chat_ne_binding⟩
  intro bytes selfPubkey selfPeerId chat hingest hauthor
  have hv := verifyUnder_verified (ingest_signed hingest).2.2.1
  rw [chat.canonicalBytes_eq_encode] at hv
  obtain ⟨call, hcall, _, keypair, hkey, rfl⟩ :=
    Signatures.issued_of_verified hverify (hhonest _ hauthor) (chat_encode_unique _ _ _) hv
  exact ⟨keypair, hkey, hcall⟩

/-- A message with body `hi` from an author who made this one call. -/
theorem chat_authenticity_hi :
    let author := PubKey.replicate 0xab
    let chat : SignedChat := ⟨author, "hi", 1,
      author.bytes ++ SignedChat.canonicalBytes ⟨author, "hi", 1, []⟩⟩
    let lib := Libp2pIdentity.recorded [(author, chat.canonicalBytes)]
    let calls : PubKey → HonestCall lib → Prop :=
      fun pk call => pk = author ∧ call = .buildSignedWire author "hi" 1
    ∃ keypair, selfPeerPubkey lib keypair = some author ∧ calls author (.buildSignedWire keypair "hi" 1) := by
  intro author chat lib calls
  let serde := SerdeJson.single (intoBytes "chat") chat.toJson
  have hverify : chat.verify lib = .ok () := by
    rw [SignedChat.verify, verifyUnder_ok_iff, recorded_verify]
    exact ⟨rfl, List.mem_singleton_self _, rfl⟩
  have hread : ingest lib serde CHAT_TOPIC (intoBytes "chat") none "" = some (.signed chat) :=
    ingest_of_read (SerdeJson.read_single chat.ofJson_toJson) hverify (by simp)
  refine (chat_authenticity lib serde (fun pk m => pk = author ∧ m = chat.canonicalBytes) calls
    (fun pk => pk = author) ?_ ?_).1 (intoBytes "chat") none "" chat hread rfl
  · intro pk m s hv
    have hlog := (recorded_verify.mp hv).1
    simpa using hlog
  · rintro pk rfl m ⟨_, rfl⟩
    exact ⟨.chat author "hi" 1, ⟨_, ⟨rfl, rfl⟩, rfl, author, rfl, rfl⟩, rfl⟩

end Laye
