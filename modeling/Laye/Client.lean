import Mathlib.Data.Finset.Basic
import Mathlib.Data.List.Induction
import Laye.Errors
import Laye.RxState
import Laye.Lib.Outbox

/-!
# The browser client

`crates/laye-p2p/src/wasm.rs`: the state behind the wasm exports and what each export, each chat
send, each login message and each batch of network events does to it.
-/

namespace Laye

def PENDING_SENDS_CAP : Nat := 8

/-- The arguments of `build` at a boundary that failed. -/
structure Failure where
  severity : Severity
  region : String
  title : String
  why : String

/-- Code of other crates that the client calls, next to `libp2p_identity`. -/
structure Deps (lib : Libp2pIdentity) where
  serde : SerdeJson
  /-- `peer_id_str_to_pubkey` -/
  peerKey : String → Option PubKey
  /-- `laye_me::load`, with the text of its error -/
  loadKeypair : Bytes → Except String lib.Keypair
  /-- `laye_me::to_bytes`, with the text of its error -/
  keypairBytes : lib.Keypair → Except String Bytes
  /-- the `Debug` form of a string -/
  debugString : String → String

/-- No stored key decodes, and strings print as they are. -/
def Deps.plain {lib : Libp2pIdentity} (serde : SerdeJson) (peerKey : String → Option PubKey) :
    Deps lib where
  serde := serde
  peerKey := peerKey
  loadKeypair _ := .error "keypair protobuf decode"
  keypairBytes _ := .ok []
  debugString s := s

/-- The payloads handed to a closed command channel are gone; every call reports the failure. -/
structure Net (lib : Libp2pIdentity) where
  keypair : lib.Keypair
  closed : Bool

def Net.command {lib : Libp2pIdentity} (net : Net lib) (name : String) : Except NetError Unit :=
  if net.closed then
    .error (.providerInternal (name ++ " cmd send: send failed because receiver is gone"))
  else .ok ()

/-! ### History

The state keeps, next to the fields of `AppState`, a record of what happened that no function
reads: payloads submitted and handed to `net.publish`, events polled, chat entries pushed. -/

/-- Where a chat entry comes from, with what its name is made of. -/
inductive Provenance
  | own
  | signed (author : PubKey) (handle : Option String)
  | plaintext (peer : String)
deriving DecidableEq

inductive Observation
  | started (selfPubkey : PubKey)
  | submitted (topic : String) (bytes : Bytes) (meshed : Bool)
  | handed (topic : String) (bytes : Bytes)
  | polled (event : NetEvent)
  | appended (origin : Provenance) (entry : ChatEntry)
deriving DecidableEq

structure AppState (lib : Libp2pIdentity) where
  net : Option (Net lib)
  rx : RxState
  peerIdHex : String
  selfPubkey : Option PubKey
  chat : ChatState
  bindings : BindingTable
  selfBindings : List SignedBinding
  topicPeers : HashMap String (Finset String)
  pendingSends : HashMap String (List Bytes)
  page : Page
  log : List Observation

/-- The order in which a `HashSet` is walked. -/
structure IterOrder (α : Type) where
  walk : List α → List α
  perm : ∀ set, (walk set).Perm set

def isInternalTopic (topic : String) : Bool :=
  topic == CHAT_TOPIC || topic == LEGACY_CHAT_TOPIC || topic == IDENTITY_TOPIC

/-- What `sendOrBuffer` did with a payload: `none` inside `attempted` stands for a missing net. -/
inductive SendOutcome
  | buffered
  | attempted (result : Option (Except NetError Unit))

/-- The accumulators of `drain_net_events`. -/
structure DrainAcc (lib : Libp2pIdentity) where
  st : AppState lib
  opaqueEvents : List NetEvent
  chatAppended : Nat
  bindingsChanged : Bool
  collectedErrors : List LayeError
  topicsToFlush : List String

namespace AppState

variable {lib : Libp2pIdentity}

def start (dom : DomContext) : AppState lib where
  net := none
  rx := RxState.new
  peerIdHex := ""
  selfPubkey := none
  chat := ChatState.default
  bindings := HashMap.empty
  selfBindings := []
  topicPeers := HashMap.empty
  pendingSends := HashMap.empty
  page := Page.start dom
  log := []

def observe (st : AppState lib) (o : Observation) : AppState lib := { st with log := st.log ++ [o] }

def setPage (st : AppState lib) (page : Page) : AppState lib := { st with page }

def setRx (st : AppState lib) (rx : RxState) : AppState lib := { st with rx }

def setBindings (st : AppState lib) (bindings : BindingTable) : AppState lib := { st with bindings }

def report (st : AppState lib) (severity : Severity) (region title why : String) : AppState lib :=
  st.setPage (st.page.report severity region title why)

def fail (st : AppState lib) (severity : Severity) (region title why : String) :
    Option LayeError × AppState lib :=
  let (err, page) := st.page.build severity region title why
  (some err, st.setPage page)

def failWith (st : AppState lib) (e : Failure) : Option LayeError × AppState lib :=
  st.fail e.severity e.region e.title e.why

def emit (st : AppState lib) (err : LayeError) : AppState lib := st.setPage (st.page.emit err)

def renderErrors (st : AppState lib) : AppState lib := st.setPage st.page.renderErrors

def renderChat (st : AppState lib) : AppState lib := st.setPage (st.page.renderChat st.chat)

def updateLoginButton (st : AppState lib) : AppState lib :=
  let handle := st.selfPubkey.bind (fun self => st.bindings.resolveHandle self)
  st.setPage (st.page.updateLoginButton handle)

/-- `if let Err(err) = .. { errpipe::emit(err); render_errors(); }` -/
def surfaced : Option LayeError × AppState lib → AppState lib
  | (none, st) => st
  | (some err, st) => (st.emit err).renderErrors

/-! ### Outbound -/

def peersOf (st : AppState lib) (topic : String) : Finset String := (st.topicPeers topic).getD ∅

def pendingOf (st : AppState lib) (topic : String) : List Bytes := (st.pendingSends topic).getD []

def hasMeshFor (st : AppState lib) (topic : String) : Bool := decide (st.peersOf topic ≠ ∅)

def enqueueSend (st : AppState lib) (topic : String) (bytes : Bytes) : AppState lib :=
  { st with pendingSends :=
      st.pendingSends.insert topic (Outbox.pushCapped PENDING_SENDS_CAP (st.pendingOf topic) bytes) }

/-- `st.net.as_ref().map(|net| net.publish(..))` -/
def netPublish (st : AppState lib) (topic : String) (bytes : Bytes) :
    Option (Except NetError Unit) × AppState lib :=
  match st.net with
  | none => (none, st)
  | some net => (some (net.command "publish"), st.observe (.handed topic bytes))

def flushOne (topic : String) (st : AppState lib) (bytes : Bytes) : AppState lib :=
  match st.netPublish topic bytes with
  | (some (.ok ()), st) => st
  | (some (.error e), st) =>
    st.report .warn "publish-flush-cmd" "post-mesh flush publish failed" s!"topic={topic} err={e.display}"
  | (none, st) =>
    st.report .error "publish-flush-preinit" "post-mesh flush ran before net init" s!"topic={topic}"

def flushPendingFor (st : AppState lib) (topic : String) : AppState lib :=
  match st.pendingSends topic with
  | none => st
  | some queued => queued.foldl (flushOne topic) { st with pendingSends := st.pendingSends.insert topic [] }

/-- The branch on `has_mesh_for` that `publish_inner`, `publish_chat` and
`republish_self_bindings` share. -/
def sendOrBuffer (st : AppState lib) (topic : String) (bytes : Bytes) : SendOutcome × AppState lib :=
  let st := st.observe (.submitted topic bytes (st.hasMeshFor topic))
  if st.hasMeshFor topic then
    let (result, st) := st.netPublish topic bytes
    (.attempted result, st)
  else (.buffered, st.enqueueSend topic bytes)

def publishInner (st : AppState lib) (topic : String) (bytes : Bytes) :
    Option LayeError × AppState lib :=
  if isInternalTopic topic then
    st.fail .error "publish-internal-topic" "host attempted publish on an internal topic"
      s!"{topic} is owned by laye-p2p"
  else
    match st.sendOrBuffer topic bytes with
    | (.buffered, st) | (.attempted (some (.ok ())), st) => (none, st)
    | (.attempted (some (.error e)), st) =>
      st.fail .warn "publish-cmd" "publish cmd send failed" e.display
    | (.attempted none, st) =>
      st.fail .error "publish-preinit" "publish called before init" "STATE.net is None"

def publish (st : AppState lib) (topic : String) (bytes : Bytes) : AppState lib :=
  surfaced (st.publishInner topic bytes)

def subscribeOpaqueInner (st : AppState lib) (topic : String) : Option LayeError × AppState lib :=
  if isInternalTopic topic then
    st.fail .error "subscribe-internal-topic" "host attempted subscribe_opaque on an internal topic"
      s!"{topic} is subscribed internally"
  else
    match st.net with
    | some net =>
      match net.command "subscribe" with
      | .ok () => (none, st)
      | .error e => st.fail .warn "subscribe-cmd" "subscribe cmd send failed" e.display
    | none => st.fail .error "subscribe-preinit" "subscribe called before init" "STATE.net is None"

def subscribeOpaque (st : AppState lib) (topic : String) : AppState lib :=
  surfaced (st.subscribeOpaqueInner topic)

def pushChat (st : AppState lib) (origin : Provenance) (entry : ChatEntry) : AppState lib :=
  { st.observe (.appended origin entry) with chat := st.chat.push entry }

def publishChat (deps : Deps lib) (st : AppState lib) (body : String) (now : UInt64) :
    Option LayeError × AppState lib :=
  match st.net with
  | none => st.fail .error "chat-publish-preinit" "chat publish before net init" "STATE.net is None"
  | some net =>
    match buildSignedWire lib deps.serde net.keypair body now with
    | none => st.fail .error "chat-sign" "chat signed-wire build failed" "build_signed_wire returned None"
    | some bytes =>
      match st.sendOrBuffer CHAT_TOPIC bytes with
      | (.buffered, st) | (.attempted (some (.ok ())), st) =>
        (none, (st.pushChat .own ⟨"me", body⟩).renderChat)
      | (.attempted (some (.error e)), st) =>
        st.fail .warn "chat-publish-cmd" "chat publish failed" e.display
      | (.attempted none, st) =>
        st.fail .error "chat-publish-preinit" "chat publish before net init" "STATE.net is None"

/-- Enter in the input field. -/
def sendChat (deps : Deps lib) (st : AppState lib) (value : String) (now : UInt64) : AppState lib :=
  if value = "" then st
  else surfaced (publishChat deps st (trimToCharBoundary value MAX_BODY_BYTES) now)

/-- Writing the bindings out cannot fail: all their keys are strings. -/
def republishSelfBindings (deps : Deps lib) (st : AppState lib) : AppState lib :=
  if st.selfBindings.isEmpty then st
  else
    match st.sendOrBuffer IDENTITY_TOPIC (encodeWire deps.serde st.selfBindings) with
    | (.buffered, st) | (.attempted (some (.ok ())), st) | (.attempted none, st) => st
    | (.attempted (some (.error e)), st) =>
      st.report .warn "identity-republish" "self identity republish failed" e.display

/-! ### Login -/

structure BrokerMessageWire where
  type_ : String
  signed : Option SignedBinding

def BrokerMessageWire.ofJson (doc : Json) : Option BrokerMessageWire := do
  let fields ← doc.structFields ["type", "signed"] 2
  let type_ ← Json.stringField fields[0]!
  let signed ← match fields[1]! with
    | none | some .null => some none
    | some doc => (SignedBinding.ofJson doc).map some
  return { type_, signed }

/-- The `Debug` form of the error, which the login path reports. -/
def verifyErrorDebug (deps : Deps lib) : VerifyError → String
  | .badSignerKey why => "BadSignerKey(" ++ deps.debugString why ++ ")"
  | .badSignature => "BadSignature"

/-- The link a broker message carries: `none` for a message of another type. -/
def checkLogin (deps : Deps lib) (st : AppState lib) (json : String) :
    Except Failure (Option (PubKey × SignedBinding)) := do
  let msg ← (deps.serde.read BrokerMessageWire.ofJson (intoBytes json)).mapError fun e =>
    ⟨.warn, "login-parse", "broker postMessage parse failed", e⟩
  if msg.type_ ≠ "laye/identity/link" then return none
  let some binding := msg.signed | throw ⟨.warn, "login-empty", "broker returned no signed binding",
    "msg.type_ == laye/identity/link but msg.signed == null"⟩
  (binding.verify lib).mapError fun e =>
    ⟨.error, "login-verify", "signed binding signature verification failed", verifyErrorDebug deps e⟩
  let some selfPubkey := st.selfPubkey | throw ⟨.error, "login-preinit",
    "login callback fired before self_pubkey is known", "state.self_pubkey is None"⟩
  if binding.claim.peerPubkey ≠ selfPubkey then
    throw ⟨.warn, "login-wrong-peer", "broker signed a binding for a different peer",
      "claim.peer_pubkey != self_pubkey — dropping"⟩
  return some (selfPubkey, binding)

/-- The new binding takes the place of the one from the same provider, in front. -/
def acceptLogin (st : AppState lib) (selfPubkey : PubKey) (binding : SignedBinding) : AppState lib :=
  let kept := st.selfBindings.filter (fun b => b.claim.provider != binding.claim.provider)
  { st with
    selfBindings := binding :: kept
    bindings := st.bindings.insert selfPubkey (binding :: kept) }

def handleLoginMessage (deps : Deps lib) (st : AppState lib) (json : String) :
    Option LayeError × AppState lib :=
  match checkLogin deps st json with
  | .error e => st.failWith e
  | .ok none => (none, st)
  | .ok (some (selfPubkey, binding)) =>
    let st := republishSelfBindings deps (st.acceptLogin selfPubkey binding)
    (none, st.updateLoginButton.renderChat.renderErrors)

def login (deps : Deps lib) (st : AppState lib) (json : String) : AppState lib :=
  surfaced (handleLoginMessage deps st json)

/-! ### Initialisation -/

structure BootConfig where
  bootstrapAddrs : List String
  topics : List String
  identifyProtocol : String

def stringList (doc : Json) : Option (List String) := do
  let items ← doc.asArray
  items.mapM Json.asStr

def BootConfig.ofJson (doc : Json) : Option BootConfig := do
  let fields ← doc.structFields ["bootstrap_addrs", "topics", "identify_protocol"] 1
  let bootstrapAddrs ← fields[0]!.bind stringList
  let topics ← fields[1]!.elim (some []) stringList
  let identifyProtocol ← fields[2]!.elim (some "/laye/1.0.0") Json.asStr
  return { bootstrapAddrs, topics, identifyProtocol }

/-- How far the chat overlay gets: its elements are kept before the login listener is added. -/
inductive ChatOverlay
  | stopped (e : Failure)
  | withoutListener (e : Failure)
  | installed

/-- What IndexedDB, the key generator, `laye_net::new` and the document answer during one `init`. -/
structure InitAnswers (lib : Libp2pIdentity) where
  idbOpen : Except String Unit
  idbLoadBytes : Except String (Option Bytes)
  fresh : lib.Keypair
  idbSaveBytes : Except String Unit
  idbLoadBindings : Except String (List SignedBinding)
  netNew : Except NetError Unit
  errorOverlay : Except Failure Unit
  chatOverlay : ChatOverlay

/-- A first visit on which nothing fails. -/
def InitAnswers.firstVisit (fresh : lib.Keypair) : InitAnswers lib where
  idbOpen := .ok ()
  idbLoadBytes := .ok none
  fresh := fresh
  idbSaveBytes := .ok ()
  idbLoadBindings := .ok []
  netNew := .ok ()
  errorOverlay := .ok ()
  chatOverlay := .installed

structure Identity (lib : Libp2pIdentity) where
  keypair : lib.Keypair
  peerIdHex : String
  selfPubkey : PubKey
  selfBindings : List SignedBinding

/-- `load_or_generate`, and the save of a fresh key. -/
def loadIdentity (deps : Deps lib) (answers : InitAnswers lib) : Except Failure lib.Keypair := do
  answers.idbOpen.mapError (⟨.error, "idb-open", "IndexedDB open failed", ·⟩)
  let existing ← answers.idbLoadBytes.mapError
    (⟨.error, "idb-load-identity", "IndexedDB load identity failed", ·⟩)
  let minted (e : String) : Failure :=
    ⟨.error, "identity-mint", "identity load-or-generate failed", "identity encode/decode: " ++ e⟩
  match existing with
  | some bytes => (deps.loadKeypair bytes).mapError minted
  | none =>
    let _ ← (deps.keypairBytes answers.fresh).mapError minted
    answers.idbSaveBytes.mapError (⟨.error, "idb-save-identity", "IndexedDB save identity failed", ·⟩)
    return answers.fresh

/-- `init_inner` up to the commit, which reads and writes no state. -/
def prepare (deps : Deps lib) (configJson : String) (answers : InitAnswers lib) :
    Except Failure (Identity lib) := do
  let config ← (deps.serde.read BootConfig.ofJson (intoBytes configJson)).mapError
    (⟨.error, "init-config-parse", "init config parse failed", ·⟩)
  if let some bad := config.topics.find? isInternalTopic then
    throw ⟨.error, "init-topic-guard", "host attempted to subscribe to a laye-p2p-internal topic",
      bad ++ " is internal (laye-chat/v1, laye-identity/v1, rave-chat/v1) — subscribed automatically"⟩
  let keypair ← loadIdentity deps answers
  let key ← (lib.tryIntoEd25519 keypair).mapError
    (⟨.error, "identity-nonEd25519", "public key is not Ed25519", ·⟩)
  let some selfPubkey := selfPeerPubkey lib keypair | throw ⟨.error, "identity-nonEd25519",
    "keypair is not Ed25519", "chat::self_peer_pubkey returned None"⟩
  let selfBindings ← answers.idbLoadBindings.mapError
    (⟨.warn, "idb-load-bindings", "IndexedDB load bindings failed", ·⟩)
  answers.netNew.mapError (fun e => ⟨.error, "net-build", "laye_net::new failed", e.display⟩)
  return { keypair, peerIdHex := hexLower key.bytes, selfPubkey, selfBindings }

def commit (st : AppState lib) (identity : Identity lib) : AppState lib :=
  { st.observe (.started identity.selfPubkey) with
    net := some ⟨identity.keypair, false⟩
    peerIdHex := identity.peerIdHex
    selfPubkey := some identity.selfPubkey
    bindings := if identity.selfBindings.isEmpty then st.bindings
      else st.bindings.insert identity.selfPubkey identity.selfBindings
    selfBindings := identity.selfBindings }

def installErrorOverlay (st : AppState lib) : AppState lib := st.setPage st.page.installErrorOverlay

def installChatOverlay (st : AppState lib) : AppState lib := st.setPage st.page.installChatOverlay

def initInner (deps : Deps lib) (st : AppState lib) (configJson : String) (answers : InitAnswers lib) :
    Option LayeError × AppState lib :=
  match prepare deps configJson answers with
  | .error e => st.failWith e
  | .ok identity =>
    let st := st.commit identity
    match answers.errorOverlay, answers.chatOverlay with
    | .error e, _ => st.failWith e
    | .ok (), .stopped e => st.installErrorOverlay.failWith e
    | .ok (), .withoutListener e => st.installErrorOverlay.installChatOverlay.failWith e
    | .ok (), .installed =>
      let st := st.installErrorOverlay.installChatOverlay.updateLoginButton
      (none, republishSelfBindings deps st)

def init (deps : Deps lib) (st : AppState lib) (configJson : String) (answers : InitAnswers lib) :
    AppState lib :=
  match initInner deps st configJson answers with
  | (none, st) => st.renderErrors
  | (some err, st) => (st.emit err).renderErrors

/-! ### Inbound -/

/-- `set.remove` for every topic; a set it empties leaves the map. -/
def dropPeer (topicPeers : HashMap String (Finset String)) (peer : String) :
    HashMap String (Finset String) :=
  fun topic => (topicPeers topic).bind fun set =>
    if peer ∈ set ∧ set.erase peer = ∅ then none else some (set.erase peer)

def join (st : AppState lib) (topic peer : String) : AppState lib :=
  { st with topicPeers := st.topicPeers.insert topic (insert peer (st.peersOf topic)) }

def leave (st : AppState lib) (topic peer : String) : AppState lib :=
  let set := (st.peersOf topic).erase peer
  { st with topicPeers :=
      if set = ∅ then st.topicPeers.remove topic else st.topicPeers.insert topic set }

def chatEntry (bindings : BindingTable) : IncomingChat → Provenance × ChatEntry
  | .signed c => (.signed c.authorPeerPubkey (bindings.resolveHandle c.authorPeerPubkey),
      ⟨attributeAuthor (some bindings) c.authorPeerPubkey, c.body⟩)
  | .plaintext c => (.plaintext c.peer, ⟨shortPeerDisplay c.peer, c.body⟩)

/-- One turn of the loop of `drain_net_events`. -/
def drainEvent (deps : Deps lib) (selfPubkey : Option PubKey) (selfPeerId : String)
    (acc : DrainAcc lib) (e : NetEvent) : DrainAcc lib :=
  let st := acc.st.observe (.polled e)
  match e with
  | .subscriptionChange topic peer joined =>
    if joined then
      { acc with
        st := st.join topic peer
        topicsToFlush := if st.peersOf topic = ∅ then acc.topicsToFlush.insert topic
          else acc.topicsToFlush }
    else { acc with st := st.leave topic peer }
  | .peerDown peer _ =>
    { acc with
      st := { st with topicPeers := dropPeer st.topicPeers peer }
      opaqueEvents := acc.opaqueEvents ++ [e] }
  | .message topic peer bytes _ =>
    if topic = CHAT_TOPIC ∨ topic = LEGACY_CHAT_TOPIC then
      match ingest lib deps.serde topic bytes selfPubkey selfPeerId with
      | some incoming =>
        let (origin, entry) := chatEntry st.bindings incoming
        { acc with st := st.pushChat origin entry, chatAppended := acc.chatAppended + 1 }
      | none => { acc with st }
    else
      match (if topic = IDENTITY_TOPIC then deps.peerKey peer else none) with
      | some publisher =>
        let verified := parseAndVerify lib deps.serde bytes publisher
        { acc with
          st := st.setBindings (absorb st.bindings publisher verified)
          bindingsChanged := true }
      | none => { acc with st, opaqueEvents := acc.opaqueEvents ++ [e] }
  | .error netErr =>
    let (err, page) := st.page.build .warn "net-event" "libp2p transport surfaced an error" netErr.display
    { acc with st := st.setPage page, collectedErrors := acc.collectedErrors ++ [err] }
  | .peerUp .. => { acc with st, opaqueEvents := acc.opaqueEvents ++ [e] }

def drainEvents (deps : Deps lib) (st : AppState lib) (events : List NetEvent) : DrainAcc lib :=
  let selfPubkey := st.net.bind (fun net => selfPeerPubkey lib net.keypair)
  events.foldl (drainEvent deps selfPubkey st.peerIdHex) ⟨st, [], 0, false, [], []⟩

/-- What a turn of the loop keeps, knowing the events before it, holds after a batch. -/
lemma drainEvents_induction (deps : Deps lib) {motive : List NetEvent → DrainAcc lib → Prop}
    (st : AppState lib) (start : motive [] ⟨st, [], 0, false, [], []⟩)
    (turn : ∀ pk id seen acc e, motive seen acc → motive (seen ++ [e]) (drainEvent deps pk id acc e))
    (events : List NetEvent) : motive events (drainEvents deps st events) := by
  induction events using List.reverseRecOn with
  | nil => exact start
  | append_singleton seen e ih =>
    rw [drainEvents, List.foldl_concat]
    exact turn _ _ seen _ e ih

/-- What follows the loop, for the topics to flush in the order they are walked. -/
def finishDrain (topics : List String) (acc : DrainAcc lib) : AppState lib :=
  let st := acc.st.setRx (acc.st.rx.ingest acc.opaqueEvents)
  let st := acc.collectedErrors.foldl emit st
  let st := topics.foldl flushPendingFor st
  let st := if 0 < acc.chatAppended ∨ acc.bindingsChanged then st.renderChat else st
  let st := if acc.bindingsChanged then st.updateLoginButton else st
  st.renderErrors

/-- `drain_net_events` on the events that `poll_events` returns; without a net there are none. -/
def drainNetEvents (deps : Deps lib) (order : IterOrder String) (st : AppState lib)
    (events : List NetEvent) : AppState lib :=
  let acc := drainEvents deps st (if st.net.isSome then events else [])
  finishDrain (order.walk acc.topicsToFlush) acc

def pendingBytes (deps : Deps lib) (order : IterOrder String) (st : AppState lib)
    (events : List NetEvent) (topic : String) : UInt32 × AppState lib :=
  let st := drainNetEvents deps order st events
  (st.rx.pendingBytes topic, st)

/-- The buffer is taken to be allocated; on a 32-bit target there is none of 2 GiB or more. -/
def recvBytes (deps : Deps lib) (order : IterOrder String) (st : AppState lib)
    (events : List NetEvent) (topic : String) : Except Fault (Bytes × AppState lib) := do
  let st := drainNetEvents deps order st events
  let (rx, buf, _) ← st.rx.drainInto topic (List.replicate (st.rx.pendingBytes topic).toNat 0)
  return (buf, st.setRx rx)

end AppState

/-! ### Runs -/

/-- What happens to a client: calls of the host and the user, with what the world answers. -/
inductive ClientOp (lib : Libp2pIdentity)
  | init (configJson : String) (answers : AppState.InitAnswers lib)
  | publish (topic : String) (bytes : Bytes)
  | subscribeOpaque (topic : String)
  | sendChat (value : String) (now : UInt64)
  | login (json : String)
  | pendingBytes (events : List NetEvent) (order : IterOrder String) (topic : String)
  | recvBytes (events : List NetEvent) (order : IterOrder String) (topic : String)
  | emitError (payload : Except String LayeError)
  | dismissError (id : String)
  | driveEnded

namespace AppState

variable {lib : Libp2pIdentity}

def emitError (st : AppState lib) : Except String LayeError → AppState lib
  | .ok err => (st.emit err).renderErrors
  | .error e => (st.report .warn "emit_error-parse" "external emit_error payload rejected" e).renderErrors

/-- One call. A panic ends the program. -/
def step (deps : Deps lib) (st : AppState lib) : ClientOp lib → Except Fault (AppState lib)
  | .init configJson answers => .ok (init deps st configJson answers)
  | .publish topic bytes => .ok (st.publish topic bytes)
  | .subscribeOpaque topic => .ok (st.subscribeOpaque topic)
  | .sendChat value now => .ok (sendChat deps st value now)
  | .login json => .ok (login deps st json)
  | .pendingBytes events order topic => .ok (pendingBytes deps order st events topic).2
  | .recvBytes events order topic => (recvBytes deps order st events topic).map Prod.snd
  | .emitError payload => .ok (st.emitError payload)
  | .dismissError id => .ok (st.setPage (st.page.dismissError id))
  | .driveEnded => .ok { st with net := st.net.map (fun net => { net with closed := true }) }

lemma recvBytes_eq_ok {deps : Deps lib} {order : IterOrder String} {st st' : AppState lib}
    {events : List NetEvent} {topic : String} {buf : Bytes}
    (h : recvBytes deps order st events topic = .ok (buf, st')) :
    ∃ rx written, (drainNetEvents deps order st events).rx.drainInto topic
        (List.replicate ((drainNetEvents deps order st events).rx.pendingBytes topic).toNat 0) =
          .ok (rx, buf, written) ∧
      st' = (drainNetEvents deps order st events).setRx rx := by
  obtain ⟨out, hdrain, hok⟩ := bind_eq_ok.mp h
  cases hok
  exact ⟨_, _, hdrain, rfl⟩

lemma step_recvBytes {deps : Deps lib} {st st' : AppState lib} {events : List NetEvent}
    {order : IterOrder String} {topic : String}
    (h : step deps st (.recvBytes events order topic) = .ok st') :
    ∃ buf, recvBytes deps order st events topic = .ok (buf, st') := by
  simp only [step] at h
  cases hrecv : recvBytes deps order st events topic with
  | error e => simp [hrecv, Except.map] at h
  | ok out =>
    rw [hrecv] at h
    cases h
    exact ⟨out.1, rfl⟩

def run (deps : Deps lib) : AppState lib → List (ClientOp lib) → Except Fault (AppState lib)
  | st, [] => .ok st
  | st, op :: ops => do
    let st ← step deps st op
    run deps st ops

lemma run_cons_eq_ok {deps : Deps lib} {st st' : AppState lib} {op : ClientOp lib}
    {ops : List (ClientOp lib)} :
    run deps st (op :: ops) = .ok st' ↔
      ∃ st₁, step deps st op = .ok st₁ ∧ run deps st₁ ops = .ok st' :=
  bind_eq_ok

/-- What every call establishes from the state before it holds along a run. -/
lemma run_induction {deps : Deps lib} {motive : AppState lib → AppState lib → Prop}
    (refl : ∀ st, motive st st)
    (step : ∀ st op st' st'', AppState.step deps st op = .ok st' → motive st' st'' → motive st st'')
    {st st' : AppState lib} {ops : List (ClientOp lib)} (h : run deps st ops = .ok st') :
    motive st st' := by
  induction ops generalizing st with
  | nil =>
    cases h
    exact refl _
  | cons op ops ih =>
    obtain ⟨st₁, hstep, hrest⟩ := run_cons_eq_ok.mp h
    exact step _ op st₁ st' hstep (ih hrest)

end AppState

end Laye
