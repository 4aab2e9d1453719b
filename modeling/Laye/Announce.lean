import Laye.Calls
import Laye.Flush

/-!
# Announcing the own identity

`republish_self_bindings` runs at `init` and after a login. A mesh that forms later gets what is
buffered then, which is what the first flush carries; a mesh that forms again gets nothing.
-/

namespace Laye

namespace AppState

variable {lib : Libp2pIdentity} (deps : Deps lib)

/-- If somebody is there to hear after a call and nobody was before, the last payload handed over
on the identity topic in between is the list of own bindings. -/
def Announces (before after : AppState lib) : Prop :=
  before.peersOf IDENTITY_TOPIC = ∅ → after.peersOf IDENTITY_TOPIC ≠ ∅ → after.selfBindings ≠ [] →
    ∃ sent, handedFor IDENTITY_TOPIC after.log = handedFor IDENTITY_TOPIC before.log ++ sent ∧
      sent.getLast? = some (encodeWire deps.serde after.selfBindings)

/-- The list of own bindings is what was buffered last for the identity topic. -/
def AnnouncementWaits (st : AppState lib) : Prop :=
  (st.pendingOf IDENTITY_TOPIC).getLast? = some (encodeWire deps.serde st.selfBindings)

lemma selfBindings_drainNetEvents (st : AppState lib) (order : IterOrder String)
    (events : List NetEvent) : (drainNetEvents deps order st events).selfBindings = st.selfBindings :=
  (quiet_finishDrain _ _).selfBindings.trans (untouched_drainEvents deps st _).selfBindings

/-- A drain announces exactly when, should the mesh form, the own bindings wait to be flushed. -/
lemma announces_drain_iff {st : AppState lib} (order : IterOrder String) (events : List NetEvent) :
    Announces deps st (drainNetEvents deps order st events) ↔
      (st.peersOf IDENTITY_TOPIC = ∅ →
        Mesh.after st.peersOf (if st.net.isSome then events else []) IDENTITY_TOPIC ≠ ∅ →
          st.selfBindings ≠ [] → AnnouncementWaits deps st) := by
  unfold Announces AnnouncementWaits
  rw [selfBindings_drainNetEvents]
  cases hnet : st.net with
  | none =>
    obtain ⟨page, rx, heq⟩ := drainNetEvents_unwired deps hnet order events
    rw [heq]
    refine iff_of_true (fun hempty hmesh => absurd hempty hmesh) (fun hempty hmesh => ?_)
    exact absurd hempty hmesh
  | some net =>
    rw [drainNetEvents_peersOf deps hnet, Option.isSome_some, if_pos rfl]
    refine forall_congr' fun hempty => forall_congr' fun hmesh => forall_congr' fun hsome => ?_
    have hgains := Mesh.gainsFirstPeer_of_nonempty hempty hmesh
    rw [((drainNetEvents_flushed deps hnet order events IDENTITY_TOPIC).1 hgains).1]
    constructor
    · rintro ⟨sent, hsent, hlast⟩
      rw [← List.append_cancel_left hsent] at hlast
      exact hlast
    · exact fun hlast => ⟨_, rfl, hlast⟩

/-- In every run: whenever the identity topic gets its first subscriber the own bindings go out
last, exactly when they are, each time, what was buffered last for the topic. -/
theorem announced_to_every_mesh_iff (dom : DomContext) (ops : List (ClientOp lib)) :
    (∀ before op after, Call deps (start dom) ops before op after → Announces deps before after) ↔
    ∀ before op after, Call deps (start dom) ops before op after →
      before.peersOf IDENTITY_TOPIC = ∅ →
        Mesh.after before.peersOf (polledBy before op) IDENTITY_TOPIC ≠ ∅ →
          before.selfBindings ≠ [] → AnnouncementWaits deps before := by
  refine forall_congr' fun before => forall_congr' fun op => forall_congr' fun after =>
    forall_congr' fun hcall => ?_
  cases hop : op.drains with
  | false =>
    have hpeers : after.peersOf = before.peersOf := by
      funext topic
      rw [peersOf, (undrained_step deps hop hcall.step).topicPeers, peersOf]
    rw [polledBy_of_not_drains before hop, Announces, hpeers]
    exact iff_of_true (fun hempty hmesh => absurd hempty hmesh)
      (fun hempty hmesh => absurd hempty hmesh)
  | true =>
    obtain ⟨order, events, rx, hpolled, rfl⟩ := step_of_drains deps hop hcall.step
    rw [hpolled]
    exact announces_drain_iff deps order events

/-- The relay goes down and comes back: the second mesh hears nothing. -/
theorem reconnect_not_announced :
    let lib := Libp2pIdentity.recorded []
    let config := Json.object [("bootstrap_addrs", .array [])]
    let deps : Deps lib := .plain (.ofTexts [(intoBytes "config", config)]) (fun _ => none)
    let key := PubKey.replicate 7
    let binding : SignedBinding := ⟨⟨key, "mastodon", "https://h/@a", some "@a@h", 0⟩, [], key⟩
    let answers := { (InitAnswers.firstVisit key : InitAnswers lib) with
      idbLoadBindings := .ok [binding] }
    let drain (events : List NetEvent) : ClientOp lib :=
      .pendingBytes events ⟨id, fun _ => .refl _⟩ "pos"
    let ops : List (ClientOp lib) := [.init "config" answers,
      drain [.subscriptionChange IDENTITY_TOPIC "relay" true], drain [.peerDown "relay" "restart"],
      drain [.subscriptionChange IDENTITY_TOPIC "relay" true]]
    ¬∀ before op after, Call deps (start .document) ops before op after →
      Announces deps before after := by
  intro lib config deps key binding answers drain ops h
  obtain ⟨before, hrun, hempty, hmesh, hself, hpending⟩ : ∃ before,
      run deps (start .document) [.init "config" answers,
        drain [.subscriptionChange IDENTITY_TOPIC "relay" true],
        drain [.peerDown "relay" "restart"]] = .ok before ∧
      before.peersOf IDENTITY_TOPIC = ∅ ∧
      Mesh.after before.peersOf (if before.net.isSome then
        [.subscriptionChange IDENTITY_TOPIC "relay" true] else []) IDENTITY_TOPIC ≠ ∅ ∧
      before.selfBindings = [binding] ∧ before.pendingOf IDENTITY_TOPIC = [] := by
    refine ⟨_, rfl, ?_, ?_, ?_, ?_⟩
    · rfl
    · decide
    · rfl
    · rfl
  have hwaits := (announces_drain_iff deps ⟨id, fun _ => .refl _⟩ _).mp
    (h before _ _ ⟨⟨_, [], rfl, hrun⟩, rfl⟩) hempty hmesh (by simp [hself])
  rw [AnnouncementWaits, hpending] at hwaits
  cases hwaits

end AppState

end Laye
