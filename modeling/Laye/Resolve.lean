import Laye.Relay
import Laye.Text

/-!
# From a handle to its authorization server

A handle resolves to a DID over DNS or a well-known file, the DID to its document, which must
claim the handle back and names the personal data server, and that server to the authorization
server whose metadata the OAuth flow uses.
-/

namespace Laye

open Interaction

inductive ResolveError
  | badHandle (raw : String)
  | handleNotResolved (dns https : String)
  | badDid (did : String)
  | didDocFetch (e : String)
  | handleNotClaimedByDid (did handle : String)
  | noPdsService
  | pdsMetaFetch (e : String)
  | noAuthServer
  | authMetaFetch (e : String)
  | issuerMismatch (expected got : String)
  | http (e : String)
deriving DecidableEq

/-- The messages of the derived `Display`. -/
def ResolveError.display : ResolveError → String
  | .badHandle raw => s!"handle format rejected: {raw}"
  | .handleNotResolved dns https =>
    s!"handle DNS TXT + well-known both failed: dns={dns} https={https}"
  | .badDid did => s!"did format rejected: {did}"
  | .didDocFetch e => s!"did document fetch: {e}"
  | .handleNotClaimedByDid did handle =>
    s!"did document does not claim this handle: did={did} handle={handle}"
  | .noPdsService => "did document has no atproto PDS service"
  | .pdsMetaFetch e => s!"pds metadata fetch: {e}"
  | .noAuthServer => "pds metadata has no authorization_servers entry"
  | .authMetaFetch e => s!"auth server metadata fetch: {e}"
  | .issuerMismatch expected got =>
    s!"auth server issuer mismatch: expected={expected} got={got}"
  | .http e => s!"HTTP client: {e}"

def DOH_ENDPOINT : String := "https://cloudflare-dns.com/dns-query"

def PLC_DIRECTORY : String := "https://plc.directory"

def httpClient : Relay ResolveError Unit := do
  Relay.orElse .http (← Relay.buildClient)

def normalizeHandle (raw : String) : Except ResolveError String :=
  let trimmed := Str.toAsciiLowercase (Str.trimStartMatches '@' (Str.trim raw))
  if trimmed = "" ∨ Str.containsChar trimmed '.' = false then .error (.badHandle raw)
  else .ok trimmed

def isValidDid (s : String) : Bool :=
  (Str.startsWith s "did:plc:" && Str.len s > Str.len "did:plc:") ||
    (Str.startsWith s "did:web:" && Str.len s > Str.len "did:web:")

/-! ### Handle to DID -/

def dohRequest (handle : String) : HttpRequest :=
  { HttpRequest.get DOH_ENDPOINT with
    query := [("name", s!"_atproto.{handle}"), ("type", "TXT")]
    headers := [("Accept", "application/dns-json")] }

/-- The DID of one TXT answer, whose data comes in quotes. -/
def txtDid (answer : Json) : Option String :=
  let data := ((answer.get "data").bind Json.asStr).getD ""
  (Str.strip "did=" (Str.trimMatches '"' (Str.trim data))).filter isValidDid

def resolveHandleViaDoh (d : RelayDeps) (handle : String) : Relay String String := do
  httpClient.mapError ResolveError.display
  let resp ← Relay.orElse (fun e => s!"doh get: {e}") (← Relay.send (dohRequest handle))
  if resp.isSuccess then
    let body ← Relay.orElse (fun e => s!"doh json: {e}") resp.json
    let answers ← Relay.okOr "doh no Answer array" ((body.get "Answer").bind Json.asArray)
    Relay.okOr "doh no did= TXT entry" (answers.findSome? txtDid)
  else
    let status := d.statusText resp.status
    .fail s!"doh http {status}"

def resolveHandleViaWellKnown (d : RelayDeps) (handle : String) : Relay String String := do
  httpClient.mapError ResolveError.display
  let url := s!"https://{handle}/.well-known/atproto-did"
  let resp ← Relay.orElse (fun e => s!"well-known get: {e}") (← Relay.send (.get url))
  if resp.isSuccess then
    let body ← Relay.orElse (fun e => s!"well-known body: {e}") resp.text
    let did := Str.trim body
    if isValidDid did then
      return did
    else
      -- the excerpt is cut by bytes
      match Str.sliceTo did (min (Str.len did) 32) with
      | none => Relay.panic
      | some excerpt => .fail s!"well-known body not a did: {excerpt}"
  else
    let status := d.statusText resp.status
    .fail s!"well-known http {status}"

def resolveHandleToDid (d : RelayDeps) (handle : String) : Relay ResolveError String := do
  let handle ← Program.ofExcept (normalizeHandle handle)
  match ← (resolveHandleViaDoh d handle).attempt with
  | .ok did => return did
  | .error dns =>
    match ← (resolveHandleViaWellKnown d handle).attempt with
    | .ok did => return did
    | .error https => .fail (.handleNotResolved dns https)

/-! ### DID to document to servers -/

namespace Json

/-- A field with `#[serde(default)]`. -/
def defaultField {α : Type} (fallback : α) (read : Json → Option α) : Option Json → Option α
  | none => some fallback
  | some doc => read doc

def strings (doc : Json) : Option (List String) := do
  let items ← doc.asArray
  items.mapM asStr

end Json

structure DidService where
  id : String
  type : String
  serviceEndpoint : String
deriving DecidableEq

def DidService.ofJson (doc : Json) : Option DidService := do
  let fields ← doc.structFields ["id", "type", "serviceEndpoint"] 0
  let id ← Json.defaultField "" Json.asStr fields[0]!
  let type ← Json.defaultField "" Json.asStr fields[1]!
  let serviceEndpoint ← Json.defaultField "" Json.asStr fields[2]!
  return { id, type, serviceEndpoint }

structure DidDocument where
  id : String
  alsoKnownAs : List String
  service : List DidService
deriving DecidableEq

def DidDocument.ofJson (doc : Json) : Option DidDocument := do
  let fields ← doc.structFields ["id", "alsoKnownAs", "service"] 0
  let id ← Json.defaultField "" Json.asStr fields[0]!
  let alsoKnownAs ← Json.defaultField [] Json.strings fields[1]!
  let service ← Json.defaultField [] (fun items => do (← items.asArray).mapM DidService.ofJson)
    fields[2]!
  return { id, alsoKnownAs, service }

/-- A GET whose answer must be a success and hold a `T`. -/
def getJson {α : Type} (d : RelayDeps) (err : String → ResolveError) (decode : Json → Option α)
    (url : String) : Relay ResolveError α := do
  let resp ← Relay.orElse (fun e => err s!"get {url}: {e}") (← Relay.send (.get url))
  if resp.isSuccess then
    Relay.orElse (fun e => err s!"json {url}: {e}") (resp.jsonAs decode)
  else
    let status := d.statusText resp.status
    .fail (err s!"{url} http {status}")

/-- Where the document of a `did:web` lies: `did:web:h` at `h`, `did:web:h:a:b` under a path. -/
def didWebUrl (hostname : String) : String :=
  match Str.splitOnce hostname ':' with
  | some (host, rest) =>
    let path := Str.replaceChar rest ':' "/"
    s!"https://{host}/{path}/did.json"
  | none => s!"https://{hostname}/.well-known/did.json"

def didDocumentUrl (did : String) : Option String :=
  match Str.strip "did:plc:" did with
  | some rest => some s!"{PLC_DIRECTORY}/did:plc:{rest}"
  | none => (Str.strip "did:web:" did).map didWebUrl

def fetchDidDocument (d : RelayDeps) (did : String) : Relay ResolveError DidDocument := do
  if isValidDid did then
    httpClient
    let url ← Relay.okOr (.badDid did) (didDocumentUrl did)
    getJson d .didDocFetch DidDocument.ofJson url
  else
    .fail (.badDid did)

def verifyHandleClaim (handle : String) (didDoc : DidDocument) : Except ResolveError Unit :=
  if didDoc.alsoKnownAs.any (· == "at://" ++ handle) then .ok ()
  else .error (.handleNotClaimedByDid didDoc.id handle)

def extractPdsUrl (didDoc : DidDocument) : Except ResolveError String :=
  match didDoc.service.find? (fun s => s.type == "AtprotoPersonalDataServer") with
  | some s => .ok (Str.trimEndMatches '/' s.serviceEndpoint)
  | none => .error .noPdsService

/-- `PdsProtectedResource::authorization_servers` -/
def authorizationServers (doc : Json) : Option (List String) := do
  let fields ← doc.structFields ["authorization_servers"] 0
  Json.defaultField [] Json.strings fields[0]!

def fetchPdsMetadata (d : RelayDeps) (pdsUrl : String) : Relay ResolveError String := do
  httpClient
  let servers ← getJson d .pdsMetaFetch authorizationServers
    s!"{pdsUrl}/.well-known/oauth-protected-resource"
  Relay.okOr .noAuthServer servers.head?

def AuthServerMetadata.ofJson (doc : Json) : Option AuthServerMetadata := do
  let fields ← doc.structFields ["issuer", "authorization_endpoint", "token_endpoint",
    "pushed_authorization_request_endpoint"] 4
  let issuer ← Json.stringField fields[0]!
  let authorizationEndpoint ← Json.stringField fields[1]!
  let tokenEndpoint ← Json.stringField fields[2]!
  let pushedAuthorizationRequestEndpoint ← Json.stringField fields[3]!
  return { issuer, authorizationEndpoint, tokenEndpoint, pushedAuthorizationRequestEndpoint }

def fetchAuthServerMetadata (d : RelayDeps) (authServerUrl : String) :
    Relay ResolveError AuthServerMetadata := do
  httpClient
  let wantOrigin := Str.trimEndMatches '/' authServerUrl
  let metadata ← getJson d .authMetaFetch AuthServerMetadata.ofJson
    s!"{wantOrigin}/.well-known/oauth-authorization-server"
  if Str.trimEndMatches '/' metadata.issuer = wantOrigin then
    return metadata
  else
    .fail (.issuerMismatch wantOrigin metadata.issuer)

end Laye
