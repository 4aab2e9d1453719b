import Laye.BindingHistory
import Laye.Fanout

/-!
# A payload through the gateway

A browser's payload reaches a libp2p receiver under the browser's own identity, or through the
gateway under relaye's. Chat does not look at the sender; identity messages are filed under it.
-/

namespace Laye

/-- `gossipsub::Message` -/
structure GossipMessage where
  source : Option String
  topic : String
  data : Bytes

/-- gossipsub with signed messages: what a node that calls `publish` sends. -/
structure Gossipsub where
  publish : (node topic : String) → Bytes → GossipMessage
  source_publish : ∀ node topic data, (publish node topic data).source = some node
  topic_publish : ∀ node topic data, (publish node topic data).topic = topic
  data_publish : ∀ node topic data, (publish node topic data).data = data

def Gossipsub.signed : Gossipsub where
  publish node topic data := ⟨some node, topic, data⟩
  source_publish _ _ _ := rfl
  topic_publish _ _ _ := rfl
  data_publish _ _ _ := rfl

/-- The main loop of relaye on a command. -/
def Gossipsub.handleCmd (gossip : Gossipsub) (relaye : String) : GatewayCmd → GossipMessage
  | .publish topic bytes => gossip.publish relaye topic bytes

/-- `handle_swarm_event` on a gossipsub message. -/
def messageEvent (propagationSource : String) (message : GossipMessage) (nowMs : UInt64) : NetEvent :=
  .message message.topic (message.source.getD propagationSource) message.data nowMs

lemma messageEvent_publish (gossip : Gossipsub) (hop node topic : String) (bytes : Bytes)
    (now : UInt64) :
    messageEvent hop (gossip.publish node topic bytes) now = .message topic node bytes now := by
  rw [messageEvent, gossip.source_publish, gossip.topic_publish, gossip.data_publish]
  rfl

namespace AppState

variable {lib : Libp2pIdentity} (deps : Deps lib)

/-- The two states show the same chat and know the same bindings. -/
structure SameView (st st' : AppState lib) : Prop where
  chat : st.chat = st'.chat
  bindings : st.bindings = st'.bindings

/-! ### One event -/

/-- What a message adds to the chat. -/
def heardChat (selfPubkey : Option PubKey) (selfPeerId : String) (bindings : BindingTable) :
    NetEvent → Option ChatEntry
  | .message topic _ bytes _ =>
    if topic = CHAT_TOPIC ∨ topic = LEGACY_CHAT_TOPIC then
      (ingest lib deps.serde topic bytes selfPubkey selfPeerId).map (fun c => (chatEntry bindings c).2)
    else none
  | _ => none

lemma chat_drainEvent (selfPubkey : Option PubKey) (selfPeerId : String) (acc : DrainAcc lib)
    (e : NetEvent) :
    (drainEvent deps selfPubkey selfPeerId acc e).st.chat =
      (heardChat deps selfPubkey selfPeerId acc.st.bindings e).elim acc.st.chat acc.st.chat.push := by
  cases e with
  | subscriptionChange topic peer joined => cases joined <;> rfl
  | peerDown | peerUp | error => rfl
  | message topic sender bytes atMs =>
    simp only [drainEvent, heardChat]
    split
    · split
      · rename_i incoming hingest
        rw [hingest]
        rfl
      · rename_i hingest
        rw [hingest]
        rfl
    · split <;> rfl

variable {deps}

/-- Equal views stay equal. -/
lemma SameView.drainEvent {selfPubkey : Option PubKey} {selfPeerId : String} {acc acc' : DrainAcc lib}
    (h : SameView acc.st acc'.st) (e : NetEvent) :
    SameView (AppState.drainEvent deps selfPubkey selfPeerId acc e).st
      (AppState.drainEvent deps selfPubkey selfPeerId acc' e).st where
  chat := by rw [chat_drainEvent, chat_drainEvent, h.chat, h.bindings]
  bindings := by rw [bindings_drainEvent, bindings_drainEvent, h.bindings]

lemma SameView.foldl {selfPubkey : Option PubKey} {selfPeerId : String} (events : List NetEvent)
    {acc acc' : DrainAcc lib} (h : SameView acc.st acc'.st) :
    SameView (events.foldl (AppState.drainEvent deps selfPubkey selfPeerId) acc).st
      (events.foldl (AppState.drainEvent deps selfPubkey selfPeerId) acc').st := by
  induction events generalizing acc acc' with
  | nil => exact h
  | cons e events ih => exact ih (h.drainEvent e)

variable (deps)

/-! ### One message, two senders -/

/-- The table after an identity message whose sender has the key `sender`. -/
def filed (bytes : Bytes) (table : BindingTable) (sender : Option PubKey) : BindingTable :=
  sender.elim table (fun pk => absorb table pk (parseAndVerify lib deps.serde bytes pk))

lemma filed_apply (bytes : Bytes) (table : BindingTable) (sender : Option PubKey) (pk : PubKey) :
    filed deps bytes table sender pk =
      if sender = some pk then listed (parseAndVerify lib deps.serde bytes pk) else table pk := by
  cases sender with
  | none => rfl
  | some publisher =>
    by_cases hpk : publisher = pk
    · subst hpk
      rw [if_pos rfl]
      exact absorb_self table publisher _
    · simpa [filed, hpk] using absorb_of_ne table _ (Ne.symm hpk)

/-- Two senders of one identity message come to the same when they are one, or the message tells
nothing new about either. -/
lemma filed_eq_iff (bytes : Bytes) (table : BindingTable) (sender sender' : Option PubKey) :
    filed deps bytes table sender = filed deps bytes table sender' ↔
      sender = sender' ∨ ∀ pk, sender = some pk ∨ sender' = some pk →
        table pk = listed (parseAndVerify lib deps.serde bytes pk) := by
  constructor
  · intro h
    by_cases hsame : sender = sender'
    · exact Or.inl hsame
    · right
      intro pk hpk
      have hat := congrFun h pk
      rw [filed_apply, filed_apply] at hat
      rcases hpk with hpk | hpk
      · have hother : sender' ≠ some pk := fun h' => hsame (hpk.trans h'.symm)
        rw [if_pos hpk, if_neg hother] at hat
        exact hat.symm
      · have hother : sender ≠ some pk := fun h' => hsame (h'.trans hpk.symm)
        rw [if_neg hother, if_pos hpk] at hat
        exact hat
  · rintro (rfl | h)
    · rfl
    · have hsame : ∀ s : Option PubKey, (∀ pk, s = some pk →
          table pk = listed (parseAndVerify lib deps.serde bytes pk)) → filed deps bytes table s = table := by
        intro s hs
        funext pk
        rw [filed_apply]
        split
        · rename_i hpk
          exact (hs pk hpk).symm
        · rfl
      rw [hsame sender (fun pk hpk => h pk (Or.inl hpk)), hsame sender' (fun pk hpk => h pk (Or.inr hpk))]

lemma bindings_message (selfPubkey : Option PubKey) (selfPeerId : String) (acc : DrainAcc lib)
    (topic sender : String) (bytes : Bytes) (now : UInt64) :
    (drainEvent deps selfPubkey selfPeerId acc (.message topic sender bytes now)).st.bindings =
      if topic = IDENTITY_TOPIC then filed deps bytes acc.st.bindings (deps.peerKey sender)
      else acc.st.bindings := by
  rw [bindings_drainEvent, publication]
  split
  · cases deps.peerKey sender <;> rfl
  · rfl

/-- A message leaves the same view under both senders: always on the chat topic. -/
lemma sameView_message (selfPubkey : Option PubKey) (selfPeerId : String) (acc : DrainAcc lib)
    (topic sender sender' : String) (bytes : Bytes) (now now' : UInt64) :
    SameView (drainEvent deps selfPubkey selfPeerId acc (.message topic sender bytes now)).st
        (drainEvent deps selfPubkey selfPeerId acc (.message topic sender' bytes now')).st ↔
      (topic = IDENTITY_TOPIC → deps.peerKey sender = deps.peerKey sender' ∨
        ∀ pk, deps.peerKey sender = some pk ∨ deps.peerKey sender' = some pk →
          acc.st.bindings pk = listed (parseAndVerify lib deps.serde bytes pk)) := by
  have hchat : (drainEvent deps selfPubkey selfPeerId acc (.message topic sender bytes now)).st.chat =
      (drainEvent deps selfPubkey selfPeerId acc (.message topic sender' bytes now')).st.chat := by
    rw [chat_drainEvent, chat_drainEvent]
    rfl
  have htable := bindings_message deps selfPubkey selfPeerId acc topic
  constructor
  · rintro ⟨-, hbindings⟩ htopic
    rw [htable, htable, if_pos htopic, if_pos htopic] at hbindings
    exact (filed_eq_iff deps bytes _ _ _).mp hbindings
  · intro h
    refine ⟨hchat, ?_⟩
    rw [htable, htable]
    split
    · rename_i htopic
      exact (filed_eq_iff deps bytes _ _ _).mpr (h htopic)
    · rfl

/-! ### A drain -/

lemma sameView_finishDrain (topics topics' : List String) (acc acc' : DrainAcc lib) :
    SameView (finishDrain topics acc) (finishDrain topics' acc') ↔ SameView acc.st acc'.st := by
  have hquiet := quiet_finishDrain topics acc
  have hquiet' := quiet_finishDrain topics' acc'
  constructor
  · rintro ⟨hchat, hbindings⟩
    exact ⟨hquiet.chat.symm.trans (hchat.trans hquiet'.chat),
      hquiet.bindings.symm.trans (hbindings.trans hquiet'.bindings)⟩
  · rintro ⟨hchat, hbindings⟩
    exact ⟨hquiet.chat.trans (hchat.trans hquiet'.chat.symm),
      hquiet.bindings.trans (hbindings.trans hquiet'.bindings.symm)⟩

/-- One message of a batch under two senders, whatever is drained behind it. -/
theorem sameView_drain {st : AppState lib} {net : Net lib} (hnet : st.net = some net)
    (before : List NetEvent) (topic sender sender' : String) (bytes : Bytes) (now now' : UInt64) :
    (∀ after order order', SameView
        (drainNetEvents deps order st (before ++ .message topic sender bytes now :: after))
        (drainNetEvents deps order' st (before ++ .message topic sender' bytes now' :: after))) ↔
      (topic = IDENTITY_TOPIC → deps.peerKey sender = deps.peerKey sender' ∨
        ∀ pk, deps.peerKey sender = some pk ∨ deps.peerKey sender' = some pk →
          (drainEvents deps st before).st.bindings pk =
            listed (parseAndVerify lib deps.serde bytes pk)) := by
  have hdrain : ∀ sender now after order,
      drainNetEvents deps order st (before ++ .message topic sender bytes now :: after) =
        finishDrain (order.walk
          (drainEvents deps st (before ++ .message topic sender bytes now :: after)).topicsToFlush)
          (after.foldl (drainEvent deps (st.net.bind (fun net => selfPeerPubkey lib net.keypair))
              st.peerIdHex)
            (drainEvent deps (st.net.bind (fun net => selfPeerPubkey lib net.keypair)) st.peerIdHex
              (drainEvents deps st before) (.message topic sender bytes now))) := by
    intro sender now after order
    simp only [drainNetEvents, hnet, Option.isSome_some, if_true, drainEvents, List.foldl_append,
      List.foldl_cons]
  rw [← sameView_message deps _ st.peerIdHex (drainEvents deps st before) topic sender sender' bytes
    now now']
  constructor
  · intro h
    have hlast := h [] ⟨id, fun _ => .refl _⟩ ⟨id, fun _ => .refl _⟩
    rw [hdrain, hdrain, sameView_finishDrain] at hlast
    exact hlast
  · intro h after order order'
    rw [hdrain, hdrain, sameView_finishDrain]
    exact h.foldl after

/-! ### Both paths -/

/-- The command for a frame, once it is sent. -/
lemma command_of_frame {ops : List GatewayOp} {g : Gateway} (h : Gateway.start.run ops = some g)
    {id n : Nat} {topic : String} {bytes : Bytes} {cmd : GatewayCmd}
    (hframe : (framesOf id g.log)[n]? = some (topic, bytes))
    (hcmd : (commandsOf id g.log)[n]? = some cmd) : cmd = .publish topic bytes := by
  have hall := congrArg (·[n]?) (Gateway.commandsOf_run h id)
  have hlt : n < (commandsOf id g.log).length := (List.getElem?_eq_some_iff.mp hcmd).1
  simp only [List.getElem?_append_left hlt, hcmd, List.getElem?_map, hframe, Option.map_some,
    Option.some.injEq] at hall
  exact hall

/-- `peer` publishes a payload itself, or sends it to the gateway as the `n`-th frame of a client:
a receiver that drains the one message or the other has the same chat and the same bindings,
whatever it drains before and after, exactly when the message is no identity message, or the peer
and relaye have one key, or the table already says of both keys what the message says of them. -/
theorem gateway_transparent_iff (gossip : Gossipsub) (peer relaye : String)
    {ops : List GatewayOp} {g : Gateway} (hgateway : Gateway.start.run ops = some g) {id n : Nat}
    {topic : String} {bytes : Bytes} {cmd : GatewayCmd}
    (hframe : (framesOf id g.log)[n]? = some (topic, bytes))
    (hcmd : (commandsOf id g.log)[n]? = some cmd)
    {st : AppState lib} {net : Net lib} (hnet : st.net = some net) (before : List NetEvent)
    (hop hop' : String) (now now' : UInt64) :
    (∀ after order order', SameView
        (drainNetEvents deps order st
          (before ++ messageEvent hop (gossip.publish peer topic bytes) now :: after))
        (drainNetEvents deps order' st
          (before ++ messageEvent hop' (gossip.handleCmd relaye cmd) now' :: after))) ↔
      (topic = IDENTITY_TOPIC → deps.peerKey peer = deps.peerKey relaye ∨
        ∀ pk, deps.peerKey peer = some pk ∨ deps.peerKey relaye = some pk →
          (drainEvents deps st before).st.bindings pk =
            listed (parseAndVerify lib deps.serde bytes pk)) := by
  rw [command_of_frame hgateway hframe hcmd, Gossipsub.handleCmd, messageEvent_publish,
    messageEvent_publish]
  exact sameView_drain deps hnet before topic peer relaye bytes now now'

/-- A chat payload that says nothing looks the same on both paths. -/
theorem gateway_transparent_chat :
    let lib := Libp2pIdentity.recorded []
    let config := Json.object [("bootstrap_addrs", .array [])]
    let deps : Deps lib := .plain (.ofTexts [(intoBytes "config", config)]) (fun _ => none)
    ∃ st, run deps (start .document) [.init "config" (.firstVisit (PubKey.replicate 7))] = .ok st ∧
      ∀ after order order', SameView
        (drainNetEvents deps order st
          (messageEvent "hop" (Gossipsub.signed.publish "peer" CHAT_TOPIC [1]) 0 :: after))
        (drainNetEvents deps order' st
          (messageEvent "hop" (Gossipsub.signed.handleCmd "relaye" (.publish CHAT_TOPIC [1])) 0 ::
            after)) := by
  intro lib config deps
  obtain ⟨st, net, hrun, hnet⟩ : ∃ st net, run deps (start .document)
      [.init "config" (.firstVisit (PubKey.replicate 7))] = .ok st ∧ st.net = some net :=
    ⟨_, _, rfl, rfl⟩
  obtain ⟨g, hgateway, hframe, hcmd⟩ : ∃ g,
      Gateway.start.run [.accept CHAT_TOPIC, .frame 0 [1], .send 0] = some g ∧
      (framesOf 0 g.log)[0]? = some (CHAT_TOPIC, [1]) ∧
      (commandsOf 0 g.log)[0]? = some (.publish CHAT_TOPIC [1]) := ⟨_, rfl, rfl, rfl⟩
  refine ⟨st, hrun, (gateway_transparent_iff deps .signed "peer" "relaye" hgateway hframe hcmd hnet []
    "hop" "hop" 0 0).mpr ?_⟩
  intro htopic
  exact absurd htopic (by decide)

/-- A peer's binding arrives when the peer publishes it itself, and does not through the gateway. -/
theorem gateway_loses_binding :
    let key := PubKey.replicate 2
    let relay := PubKey.replicate 3
    let claim : BindingClaim := ⟨key, "mastodon", "https://h/@a", some "@a@h", 0⟩
    let binding : SignedBinding := ⟨claim, relay.bytes ++ claim.canonicalBytes, relay⟩
    let lib := Libp2pIdentity.recorded [(relay, claim.canonicalBytes)]
    let deps : Deps lib := .plain (.ofTexts [
        (intoBytes "config", .object [("bootstrap_addrs", .array [])]),
        ([1], .array [binding.toJson])])
      (fun peer => if peer = "peer" then some key else if peer = "relaye" then some relay else none)
    ∃ st g cmd, run deps (start .document) [.init "config" (.firstVisit (PubKey.replicate 7))] = .ok st ∧
      Gateway.start.run [.accept IDENTITY_TOPIC, .frame 0 [1], .send 0] = some g ∧
      framesOf 0 g.log = [(IDENTITY_TOPIC, [1])] ∧ commandsOf 0 g.log = [cmd] ∧
      ¬∀ after order order', SameView
        (drainNetEvents deps order st
          (messageEvent "hop" (Gossipsub.signed.publish "peer" IDENTITY_TOPIC [1]) 0 :: after))
        (drainNetEvents deps order' st
          (messageEvent "hop" (Gossipsub.signed.handleCmd "relaye" cmd) 0 :: after)) := by
  intro key relay claim binding lib deps
  obtain ⟨st, net, hrun, hnet, hnone⟩ : ∃ st net, run deps (start .document)
      [.init "config" (.firstVisit (PubKey.replicate 7))] = .ok st ∧ st.net = some net ∧
      st.bindings key = none := ⟨_, _, rfl, rfl, rfl⟩
  refine ⟨st, _, _, hrun, rfl, rfl, rfl, fun hsame => ?_⟩
  have hiff := (sameView_drain deps hnet [] IDENTITY_TOPIC "peer" "relaye" [1] 0 0).mp hsame rfl
  rcases hiff with hkeys | htable
  · exact absurd hkeys (by decide)
  · have hparsed : bindingsOfJson (.array [binding.toJson]) = some [binding] := by
      simp [bindingsOfJson, Json.asArray, SignedBinding.ofJson_toJson]
    have hverify : binding.verify lib = .ok () := by
      rw [SignedBinding.verify, verifyUnder_ok_iff, recorded_verify]
      exact ⟨rfl, List.mem_cons_self, rfl⟩
    have hmem : binding ∈ parseAndVerify lib deps.serde [1] key := by
      rw [mem_parseAndVerify]
      refine ⟨?_, rfl, hverify⟩
      have hread : deps.serde.read bindingsOfJson [1] = .ok [binding] :=
        SerdeJson.read_ofTexts rfl hparsed
      rw [wireBindings, hread]
      exact List.mem_cons_self
    have hentry := htable key (Or.inl rfl)
    have hlisted : listed (parseAndVerify lib deps.serde [1] key) = none := hentry.symm.trans hnone
    rw [listed] at hlisted
    split at hlisted
    · rename_i hempty
      rw [List.isEmpty_iff.mp hempty] at hmem
      cases hmem
    · cases hlisted

end AppState

end Laye
