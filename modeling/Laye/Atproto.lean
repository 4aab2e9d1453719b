import Laye.Resolve

/-!
# The OAuth flow for atproto accounts

`handle_start` resolves a handle, pushes an authorization request and stashes a flow under its
`state`; `handle_callback` takes the flow, redeems the code and signs; `handle_result` hands the
signed binding out.
-/

namespace Laye

open Interaction

inductive FlowError
  | badRequestJson (e : String)
  | badPeerPubkey
  | resolve (e : ResolveError)
  | http (e : String)
  | dpopRetryExhausted
  | par (status : UInt16) (body : String)
  | parNoRequestUri (e : String)
  | token (status : UInt16) (body : String)
  | tokenMissing (field : String)
  | subMismatch (expected got : String)
  | unknownState
  | sign (e : String)
deriving DecidableEq

/-! ### Tokens and proofs -/

def randomB64 {ε : Type} (d : RelayDeps) (n : Nat) : Relay ε String := do
  return d.crypto.b64urlEncode (← Relay.fillBytes n)

def pkceVerifier {ε : Type} (d : RelayDeps) : Relay ε String := randomB64 d 96

def pkceChallenge (d : RelayDeps) (verifier : String) : String :=
  d.crypto.b64urlEncode (d.crypto.sha256 (intoBytes verifier))

def randomJti {ε : Type} (d : RelayDeps) : Relay ε String := randomB64 d 16

def randomState {ε : Type} (d : RelayDeps) : Relay ε String := randomB64 d 32

def nowUnixSecs {ε : Type} : Relay ε UInt64 := do
  return (← Relay.unixTime).getD 0

def signEs256Jwt (d : RelayDeps) (header claims : Json) (key : SigningKey) : String :=
  let input := d.crypto.b64urlEncode (d.serde.toVec header) ++ "." ++
    d.crypto.b64urlEncode (d.serde.toVec claims)
  input ++ "." ++ d.crypto.b64urlEncode (d.crypto.es256Sign key (intoBytes input))

/-- The `jwk` of a proof's header. -/
def dpopJwk (d : RelayDeps) (key : SigningKey) : Json :=
  let coordinate (c : Option Bytes) : Json := .string (c.elim "" d.crypto.b64urlEncode)
  .object [("kty", .string "EC"), ("crv", .string "P-256"),
    ("x", coordinate (d.crypto.publicPoint key).1), ("y", coordinate (d.crypto.publicPoint key).2)]

def dpopProof {ε : Type} (d : RelayDeps) (dpopKey : SigningKey) (method url : String)
    (nonce accessToken : Option String) : Relay ε String := do
  let header : Json := .object [("typ", .string "dpop+jwt"), ("alg", .string "ES256"),
    ("jwk", dpopJwk d dpopKey)]
  let jti ← randomJti d
  let now ← nowUnixSecs
  let ath := accessToken.map (fun t => d.crypto.b64urlEncode (d.crypto.sha256 (intoBytes t)))
  let claims : Json := .object ([("jti", .string jti), ("htm", .string method.toUpper),
    ("htu", .string url), ("iat", .number (.posInt now))] ++
    (nonce.map (fun n => ("nonce", Json.string n))).toList ++
    (ath.map (fun a => ("ath", Json.string a))).toList)
  return signEs256Jwt d header claims dpopKey

def clientAssertion {ε : Type} (d : RelayDeps) (audience : String) (now : UInt64) :
    Relay ε String := do
  let header : Json := .object [("typ", .string "JWT"), ("alg", .string "ES256"),
    ("kid", .string d.cfg.clientKid)]
  let jti ← randomJti d
  let claims : Json := .object [("iss", .string d.cfg.clientId), ("sub", .string d.cfg.clientId),
    ("aud", .string audience), ("jti", .string jti), ("iat", .number (.posInt now)),
    ("exp", .number (.posInt (now + 60)))]
  return signEs256Jwt d header claims d.cfg.clientKey

/-! ### Forms -/

def isUnreserved (b : UInt8) : Bool :=
  (65 ≤ b && b ≤ 90) || (97 ≤ b && b ≤ 122) || (48 ≤ b && b ≤ 57) ||
    b == 45 || b == 95 || b == 46 || b == 126

def upperHexDigit (n : UInt8) : Char :=
  Char.ofNat (if n < 10 then 48 + n.toNat else 55 + n.toNat)

/-- The text `percent_encode_into` appends for `s`. -/
def percentEncode (s : String) : String :=
  String.ofList ((intoBytes s).flatMap fun b =>
    if isUnreserved b then [Char.ofNat b.toNat]
    else ['%', upperHexDigit (b >>> 4), upperHexDigit (b &&& 0x0f)])

def urlEncodeForm (pairs : List (String × String)) : String :=
  "&".intercalate (pairs.map (fun kv => percentEncode kv.1 ++ "=" ++ percentEncode kv.2))

structure DpopResponse where
  status : UInt16
  body : String
  newNonce : Option String

def DpopResponse.isSuccess (resp : DpopResponse) : Bool := 200 ≤ resp.status && resp.status < 300

def postForm (url dpop : String) (form : List (String × String)) : HttpRequest :=
  { method := .post
    url := url
    query := []
    headers := [("DPoP", dpop), ("Content-Type", "application/x-www-form-urlencoded")]
    bearerAuth := none
    body := some (urlEncodeForm form) }

/-- The turns of the retry loop that are left. Only the first may end with another turn. -/
def postFormAttempts (d : RelayDeps) (url : String) (dpopKey : SigningKey)
    (form : Relay FlowError (List (String × String))) :
    List Nat → Option String → Relay FlowError DpopResponse
  | [], _ => .fail .dpopRetryExhausted
  | attempt :: rest, nonce => do
    let dpop ← dpopProof d dpopKey "POST" url nonce none
    let fields ← form
    let resp ← Relay.orElse (fun e => .http s!"post {url}: {e}")
      (← Relay.send (postForm url dpop fields))
    let body ← Relay.orElse (fun e => .http s!"body {url}: {e}") resp.text
    if attempt = 0 ∧ resp.isSuccess = false ∧ resp.dpopNonce.isSome ∧
        Str.containsText body "use_dpop_nonce" then
      postFormAttempts d url dpopKey form rest resp.dpopNonce
    else
      return { status := resp.status, body, newNonce := resp.dpopNonce }

def postFormWithDpop (d : RelayDeps) (url : String) (dpopKey : SigningKey)
    (initialNonce : Option String) (form : Relay FlowError (List (String × String))) :
    Relay FlowError DpopResponse :=
  postFormAttempts d url dpopKey form (List.range 2) initialNonce

/-! ### Start -/

structure StartRequest where
  peerPubkeyHex : String
  handle : String
  mainState : Option String

def StartRequest.ofJson (doc : Json) : Option StartRequest := do
  let fields ← doc.structFields ["peer_pubkey_hex", "handle", "main_state"] 2
  let peerPubkeyHex ← Json.stringField fields[0]!
  let handle ← Json.stringField fields[1]!
  let mainState ← Json.optionStringField fields[2]!
  return { peerPubkeyHex, handle, mainState }

namespace Atproto

def decodePeerPubkey (hex : HexCrate) (hexstr : String) : Except FlowError PubKey :=
  decodePubkey hex .badPeerPubkey (fun _ => .badPeerPubkey) hexstr

end Atproto

def ASSERTION_TYPE : String := "urn:ietf:params:oauth:client-assertion-type:jwt-bearer"

/-- The form of the pushed authorization request, with an assertion of its own. -/
def parForm (d : RelayDeps) (issuer state challenge loginHint : String) :
    Relay FlowError (List (String × String)) := do
  let now ← nowUnixSecs
  let assertion ← clientAssertion d issuer now
  return [("client_id", d.cfg.clientId), ("client_assertion_type", ASSERTION_TYPE),
    ("client_assertion", assertion), ("response_type", "code"),
    ("scope", "atproto transition:generic"), ("redirect_uri", d.cfg.redirectUri),
    ("state", state), ("code_challenge", challenge), ("code_challenge_method", "S256"),
    ("login_hint", loginHint)]

/-- `serde_json::from_str::<Value>` -/
def fromStr (d : RelayDeps) (s : String) : Except String Json := d.serde.fromSlice (intoBytes s)

def authorizeUrl (d : RelayDeps) (endpoint requestUri : String) : String :=
  endpoint ++ (if Str.containsChar endpoint '?' then "&" else "?") ++
    percentEncode "client_id" ++ "=" ++ percentEncode d.cfg.clientId ++ "&" ++
    percentEncode "request_uri" ++ "=" ++ percentEncode requestUri

/-- The authorization server of the account a document describes. -/
def discoverAuthServer (d : RelayDeps) (didDoc : DidDocument) :
    Relay ResolveError AuthServerMetadata := do
  let pdsUrl ← Program.ofExcept (extractPdsUrl didDoc)
  let authServerUrl ← fetchPdsMetadata d pdsUrl
  fetchAuthServerMetadata d authServerUrl

/-- What `handle_start` finds out about a handle before it talks to the authorization server. -/
def resolveAccount (d : RelayDeps) (handle : String) :
    Relay ResolveError (String × AuthServerMetadata) := do
  let did ← resolveHandleToDid d handle
  let didDoc ← fetchDidDocument d did
  Program.ofExcept (verifyHandleClaim handle didDoc)
  let authMeta ← discoverAuthServer d didDoc
  return (did, authMeta)

/-- The pushed authorization request: its `request_uri` and the server's last nonce. -/
def pushRequest (d : RelayDeps) (authMeta : AuthServerMetadata) (dpopKey : SigningKey)
    (state challenge did : String) : Relay FlowError (String × Option String) := do
  httpClient.mapError .resolve
  let resp ← postFormWithDpop d authMeta.pushedAuthorizationRequestEndpoint dpopKey none
    (parForm d authMeta.issuer state challenge did)
  if resp.isSuccess then
    let parBody ← Relay.orElse (fun e => .parNoRequestUri s!"par body json: {e}")
      (fromStr d resp.body)
    let requestUri ← Relay.okOr (.parNoRequestUri resp.body)
      ((parBody.get "request_uri").bind Json.asStr)
    return (requestUri, resp.newNonce)
  else
    .fail (.par resp.status resp.body)

def handleStart (d : RelayDeps) (body : Bytes) : Relay FlowError Bytes := do
  let req ← Relay.orElse (fun e => .badRequestJson s!"StartRequest parse: {e}")
    (d.serde.read StartRequest.ofJson body)
  let peerPubkey ← Program.ofExcept (Atproto.decodePeerPubkey d.hex req.peerPubkeyHex)
  let handle ← Relay.orElse .resolve (normalizeHandle req.handle)
  let (did, authMeta) ← (resolveAccount d handle).mapError .resolve
  let dpopKey ← Relay.randomKey
  let verifier ← pkceVerifier d
  let state ← req.mainState.elim (randomState d) Program.done
  let (requestUri, nonce) ← pushRequest d authMeta dpopKey state (pkceChallenge d verifier) did
  let createdAt ← Relay.instantNow
  Relay.insertFlow state
    { peerPubkeyHex := d.hex.encode peerPubkey.bytes
      handle
      did
      authMeta
      dpopKey
      pkceVerifier := verifier
      dpopNonceAuth := nonce
      createdAt }
  return d.serde.toVec (.object [("state", .string state),
    ("authorize_url", .string (authorizeUrl d authMeta.authorizationEndpoint requestUri))])

/-! ### Callback and result -/

def tokenForm (d : RelayDeps) (issuer code verifier : String) :
    Relay FlowError (List (String × String)) := do
  let now ← nowUnixSecs
  let assertion ← clientAssertion d issuer now
  return [("grant_type", "authorization_code"), ("code", code), ("code_verifier", verifier),
    ("client_id", d.cfg.clientId), ("client_assertion_type", ASSERTION_TYPE),
    ("client_assertion", assertion), ("redirect_uri", d.cfg.redirectUri)]

/-- Redeem the code: the `sub` the token endpoint answers with. -/
def redeemCode (d : RelayDeps) (flow : FlowState) (code : String) : Relay FlowError String := do
  httpClient.mapError .resolve
  let resp ← postFormWithDpop d flow.authMeta.tokenEndpoint flow.dpopKey flow.dpopNonceAuth
    (tokenForm d flow.authMeta.issuer code flow.pkceVerifier)
  if resp.isSuccess then
    let tokenBody ← Relay.orElse (fun e => .tokenMissing s!"token body json: {e}")
      (fromStr d resp.body)
    Relay.okOr (.tokenMissing "sub") ((tokenBody.get "sub").bind Json.asStr)
  else
    .fail (.token resp.status resp.body)

/-- Sign the claim a flow has earned and keep it for `handle_result`. -/
def signFlow (d : RelayDeps) (state : String) (flow : FlowState) : Relay FlowError Unit := do
  let peerPubkey ← Program.ofExcept (Atproto.decodePeerPubkey d.hex flow.peerPubkeyHex)
  let issuedAt ← nowUnixSecs
  let claim : BindingClaim :=
    { peerPubkey
      provider := "atproto"
      canonicalId := flow.did
      handle := some ("@" ++ flow.handle)
      issuedAt }
  let signature ← Relay.orElse .sign (← Relay.sign claim)
  let signerPubkey ← Relay.orElse (fun e => .sign s!"relay pubkey not Ed25519: {e}")
    (d.lib.tryIntoEd25519 d.keypair)
  Relay.insertResult state { claim, signature, signerPubkey }

def handleCallback (d : RelayDeps) (query : HashMap String String) : Relay FlowError String := do
  let code ← Relay.okOr (.badRequestJson "missing ?code") (query "code")
  let state ← Relay.okOr (.badRequestJson "missing ?state") (query "state")
  let flow ← Relay.okOr .unknownState (← Relay.takeFlow state)
  let sub ← redeemCode d flow code
  if sub = flow.did then
    signFlow d state flow
    return s!"/me/?atproto_result={state}"
  else
    .fail (.subMismatch flow.did sub)

def handleResult (d : RelayDeps) (query : HashMap String String) : Relay FlowError Bytes := do
  let state ← Relay.okOr (.badRequestJson "missing ?state") (query "state")
  let signed ← Relay.okOr .unknownState (← Relay.getResult state)
  return d.serde.toVec signed.toJson

end Laye
