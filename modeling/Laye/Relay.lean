import Laye.FlowCache
import Laye.Lib.Interaction

/-!
# The operations of the relay's request handlers

The handlers under `/me/sign` read clocks and random numbers, send HTTP requests, use the flow
cache and sign with the relay's key. Everything between two of these is a computation.
-/

namespace Laye

open Interaction

/-! ### HTTP, as `reqwest` offers it -/

inductive Method
  | get
  | post
deriving DecidableEq

structure HttpRequest where
  method : Method
  url : String
  query : List (String × String)
  headers : List (String × String)
  bearerAuth : Option String
  body : Option String
deriving DecidableEq

/-- `client.get(url)` -/
def HttpRequest.get (url : String) : HttpRequest :=
  { method := .get, url, query := [], headers := [], bearerAuth := none, body := none }

/-- An answer, with what `text()` and `json()` make of its body; `shapeError` is the error of a
`json()` that reads a document of another type. -/
structure HttpResponse where
  status : UInt16
  dpopNonce : Option String
  text : Except String String
  json : Except String Json
  shapeError : String

/-- `StatusCode::is_success` -/
def HttpResponse.isSuccess (resp : HttpResponse) : Bool := 200 ≤ resp.status && resp.status < 300

/-- `resp.json::<T>()` for the derived decoder `decode` of `T`. -/
def HttpResponse.jsonAs {α : Type} (decode : Json → Option α) (resp : HttpResponse) :
    Except String α :=
  match resp.json with
  | .error e => .error e
  | .ok doc => (decode doc).elim (.error resp.shapeError) .ok

/-! ### Operations -/

inductive RelayOp
  /-- `Client::builder().timeout(10 s).build()` -/
  | buildClient
  | send (req : HttpRequest)
  /-- `SystemTime::now().duration_since(UNIX_EPOCH)`, in seconds -/
  | unixTime
  /-- `Instant::now()` -/
  | instantNow
  /-- `thread_rng().fill_bytes` on an array of `n` bytes -/
  | fillBytes (n : Nat)
  /-- `SigningKey::random` -/
  | randomKey
  /-- `keypair.sign(&claim.canonical_bytes())`, under the relay's key -/
  | sign (claim : BindingClaim)
  | insertFlow (state : String) (flow : FlowState)
  | takeFlow (state : String)
  | insertResult (state : String) (signed : SignedBinding)
  | getResult (state : String)
  /-- a panic, which ends the request's task -/
  | panicked

@[reducible] def RelayOp.Ans : RelayOp → Type
  | .buildClient => Except String Unit
  | .send _ => Except String HttpResponse
  | .unixTime => Option UInt64
  | .instantNow => Instant
  | .fillBytes _ => Bytes
  | .randomKey => SigningKey
  | .sign _ => Except String Bytes
  | .insertFlow _ _ => Unit
  | .takeFlow _ => Option FlowState
  | .insertResult _ _ => Unit
  | .getResult _ => Option SignedBinding
  | .panicked => Empty

abbrev RelayEvent := Event RelayOp RelayOp.Ans

/-- A handler that fails with an `ε`. -/
abbrev Relay (ε α : Type) := Program RelayOp RelayOp.Ans ε α

namespace Relay

variable {ε α : Type}

def buildClient : Relay ε (Except String Unit) := .op .buildClient .done

def send (req : HttpRequest) : Relay ε (Except String HttpResponse) := .op (.send req) .done

def unixTime : Relay ε (Option UInt64) := .op .unixTime .done

def instantNow : Relay ε Instant := .op .instantNow .done

def fillBytes (n : Nat) : Relay ε Bytes := .op (.fillBytes n) .done

def randomKey : Relay ε SigningKey := .op .randomKey .done

def sign (claim : BindingClaim) : Relay ε (Except String Bytes) := .op (.sign claim) .done

def insertFlow (state : String) (flow : FlowState) : Relay ε Unit :=
  .op (.insertFlow state flow) .done

def takeFlow (state : String) : Relay ε (Option FlowState) := .op (.takeFlow state) .done

def insertResult (state : String) (signed : SignedBinding) : Relay ε Unit :=
  .op (.insertResult state signed) .done

def getResult (state : String) : Relay ε (Option SignedBinding) := .op (.getResult state) .done

def panic : Relay ε α := .op .panicked Empty.elim

/-- `result.map_err(f)?` -/
def orElse {β : Type} (f : β → ε) (r : Except β α) : Relay ε α := Program.ofExcept (r.mapError f)

/-- `option.ok_or(e)?` -/
def okOr (e : ε) (a : Option α) : Relay ε α := Program.ofExcept (a.elim (.error e) .ok)

@[simp] lemma returns_orElse_iff {β : Type} {f : β → ε} {r : Except β α} {tr : List RelayEvent}
    {a : α} : Returns (orElse f r) tr a ↔ tr = [] ∧ r = .ok a := by
  cases r <;> simp [orElse, Except.mapError]

@[simp] lemma returns_okOr_iff {e : ε} {r : Option α} {tr : List RelayEvent} {a : α} :
    Returns (okOr e r) tr a ↔ tr = [] ∧ r = some a := by
  cases r <;> simp [okOr]

end Relay

/-! ### What the handlers are given -/

/-- What the code uses of the `hex` crate. -/
structure HexCrate where
  encode : Bytes → String
  decode : String → Except String Bytes

/-- What the code uses of the cryptographic crates and `base64`. -/
structure CryptoCrates where
  /-- `URL_SAFE_NO_PAD.encode` -/
  b64urlEncode : Bytes → String
  sha256 : Bytes → Bytes
  /-- the ES256 signature of a message -/
  es256Sign : SigningKey → Bytes → Bytes
  /-- the coordinates of the public point -/
  publicPoint : SigningKey → Option Bytes × Option Bytes

structure ClientConfig where
  clientId : String
  redirectUri : String
  clientKey : SigningKey
  clientKid : String

/-- The crates the handlers call, the relay's signing key and its OAuth configuration. -/
structure RelayDeps where
  lib : Libp2pIdentity
  keypair : lib.Keypair
  serde : SerdeJson
  hex : HexCrate
  crypto : CryptoCrates
  /-- `StatusCode` as `Display` prints it -/
  statusText : UInt16 → String
  cfg : ClientConfig

/-- `hex::decode(hexstr)`, then the length; the two callers word the failures differently. -/
def decodePubkey (hex : HexCrate) {ε : Type} (badHex : ε) (badLen : Nat → ε) (hexstr : String) :
    Except ε PubKey :=
  match hex.decode hexstr with
  | .error _ => .error badHex
  | .ok bytes => if h : bytes.length = 32 then .ok ⟨bytes, h⟩ else .error (badLen bytes.length)

/-- `hex::decode` undoes `hex::encode`. -/
def HexCrate.RoundTrips (hex : HexCrate) : Prop := ∀ bytes, hex.decode (hex.encode bytes) = .ok bytes

lemma decodePubkey_encode {hex : HexCrate} (hhex : hex.RoundTrips) {ε : Type} {badHex : ε}
    {badLen : Nat → ε} (key : PubKey) :
    decodePubkey hex badHex badLen (hex.encode key.bytes) = .ok key := by
  simp [decodePubkey, hhex key.bytes, key.length_eq]

end Laye
