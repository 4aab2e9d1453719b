import Laye.Calls
import Laye.Receive

/-!
# Internal topics

The chat and identity topics belong to the client: nothing the host does is sent on them, and
what arrives on them is not for the host.
-/

namespace Laye

namespace AppState

variable {lib : Libp2pIdentity} (deps : Deps lib)

lemma internal_chat : isInternalTopic CHAT_TOPIC = true := rfl

lemma internal_legacy : isInternalTopic LEGACY_CHAT_TOPIC = true := rfl

lemma internal_identity : isInternalTopic IDENTITY_TOPIC = true := rfl

/-! ### On the way out -/

/-- On an internal topic a call submits an own chat message or the own bindings. -/
lemma maySubmit_internal {before after : AppState lib} {op : ClientOp lib} {topic : String}
    {bytes : Bytes} (hinternal : isInternalTopic topic = true)
    (h : MaySubmit deps before after op topic bytes) :
    OwnChat deps before topic bytes ∨ OwnBindings deps after.selfBindings topic bytes := by
  cases op with
  | publish t b =>
    obtain ⟨rfl, -, hnot⟩ := h
    rw [hinternal] at hnot
    cases hnot
  | sendChat value now => exact Or.inl h
  | login json => exact Or.inr h
  | init configJson answers => exact Or.inr h
  | subscribeOpaque | pendingBytes | recvBytes | emitError | dismissError | driveEnded => exact h.elim

/-- What is handed over on an internal topic was submitted by a call of the client's own. -/
lemma handed_internal (dom : DomContext) (ops : List (ClientOp lib)) (st : AppState lib)
    (h : run deps (start dom) ops = .ok st) {topic : String} {bytes : Bytes}
    (hinternal : isInternalTopic topic = true) (hsent : bytes ∈ handedFor topic st.log) :
    ∃ before op after, Call deps (start dom) ops before op after ∧
      (∃ new, submittedFor topic after.log = submittedFor topic before.log ++ new ∧
        ∃ s ∈ new, s.payload = bytes) ∧
      (OwnChat deps before topic bytes ∨ OwnBindings deps after.selfBindings topic bytes) := by
  obtain ⟨s, hs, rfl⟩ := submitted_of_handed deps dom ops st h hsent
  rcases run_submits deps h hs with hstart | ⟨before, op, after, hcall, ⟨new, hlog, hnew⟩, hmay⟩
  · simp [start, submittedFor] at hstart
  · exact ⟨before, op, after, hcall, ⟨new, hlog, s, hnew, rfl⟩,
      maySubmit_internal deps hinternal hmay⟩

/-- Whatever the host does, what a client hands to `net.publish` on the chat topic is signed with
its own key by `build_signed_wire`, what it hands over on the identity topic is its non-empty list
of own bindings as it was when submitted, and it sends nothing on the legacy chat topic. -/
theorem internal_topics_own_payloads (dom : DomContext) (ops : List (ClientOp lib))
    (st : AppState lib) (h : run deps (start dom) ops = .ok st) :
    (∀ bytes ∈ handedFor CHAT_TOPIC st.log, ∃ before op after net body now,
      Call deps (start dom) ops before op after ∧ before.net = some net ∧
        buildSignedWire lib deps.serde net.keypair body now = some bytes) ∧
    (∀ bytes ∈ handedFor IDENTITY_TOPIC st.log, ∃ before op after new,
      Call deps (start dom) ops before op after ∧
        submittedFor IDENTITY_TOPIC after.log = submittedFor IDENTITY_TOPIC before.log ++ new ∧
        (∃ s ∈ new, s.payload = bytes) ∧ after.selfBindings ≠ [] ∧
        bytes = encodeWire deps.serde after.selfBindings) ∧
    handedFor LEGACY_CHAT_TOPIC st.log = [] := by
  refine ⟨fun bytes hsent => ?_, fun bytes hsent => ?_, ?_⟩
  · obtain ⟨before, op, after, hcall, -, hown⟩ := handed_internal deps dom ops st h internal_chat hsent
    rcases hown with ⟨-, net, body, now, hnet, hwire⟩ | ⟨htopic, -⟩
    · exact ⟨before, op, after, net, body, now, hcall, hnet, hwire⟩
    · exact absurd htopic (by decide)
  · obtain ⟨before, op, after, hcall, ⟨new, hlog, hnew⟩, hown⟩ :=
      handed_internal deps dom ops st h internal_identity hsent
    rcases hown with ⟨htopic, -⟩ | ⟨-, hsome, hbytes⟩
    · exact absurd htopic (by decide)
    · exact ⟨before, op, after, new, hcall, hlog, hnew, hsome, hbytes⟩
  · apply List.eq_nil_iff_forall_not_mem.mpr
    intro bytes hsent
    obtain ⟨before, op, after, -, -, hown⟩ := handed_internal deps dom ops st h internal_legacy hsent
    rcases hown with ⟨htopic, -⟩ | ⟨htopic, -⟩ <;> exact absurd htopic (by decide)

/-- An own binding is stored when the client starts; the first subscriber gets it. -/
theorem internal_topics_own_payloads_binding :
    let lib := Libp2pIdentity.recorded []
    let config := Json.object [("bootstrap_addrs", .array [])]
    let deps : Deps lib := .plain (.ofTexts [(intoBytes "config", config)]) (fun _ => none)
    let key := PubKey.replicate 7
    let binding : SignedBinding := ⟨⟨key, "mastodon", "https://h/@a", some "@a@h", 0⟩, [], key⟩
    let answers := { (InitAnswers.firstVisit key : InitAnswers lib) with
      idbLoadBindings := .ok [binding] }
    ∃ st, run deps (start .document) [.init "config" answers,
        .pendingBytes [.subscriptionChange IDENTITY_TOPIC "a" true] ⟨id, fun _ => .refl _⟩ "pos"] =
          .ok st ∧
      handedFor IDENTITY_TOPIC st.log = [encodeWire deps.serde [binding]] ∧
      handedFor LEGACY_CHAT_TOPIC st.log = [] := by
  intro lib config deps key binding answers
  obtain ⟨st, hrun, hsent⟩ : ∃ st, run deps (start .document) [.init "config" answers,
        .pendingBytes [.subscriptionChange IDENTITY_TOPIC "a" true] ⟨id, fun _ => .refl _⟩ "pos"] =
          .ok st ∧
      handedFor IDENTITY_TOPIC st.log = [encodeWire deps.serde [binding]] := ⟨_, rfl, rfl⟩
  exact ⟨st, hrun, hsent, (internal_topics_own_payloads deps .document _ st hrun).2.2⟩

/-! ### On the way in -/

/-- The events `drain_net_events` passes on to the receive queues. -/
def isOpaque (deps : Deps lib) : NetEvent → Bool
  | .subscriptionChange .. | .error _ => false
  | .peerUp .. | .peerDown .. => true
  | .message topic sender _ _ =>
    decide (topic ≠ CHAT_TOPIC ∧ topic ≠ LEGACY_CHAT_TOPIC ∧
      (topic = IDENTITY_TOPIC → deps.peerKey sender = none))

lemma drainEvent_opaqueEvents (selfPubkey : Option PubKey) (selfPeerId : String) (acc : DrainAcc lib)
    (e : NetEvent) :
    (drainEvent deps selfPubkey selfPeerId acc e).opaqueEvents =
      acc.opaqueEvents ++ [e].filter (isOpaque deps) := by
  cases e with
  | subscriptionChange topic peer joined => cases joined <;> simp [drainEvent, isOpaque]
  | peerDown | peerUp => rfl
  | error => exact (List.append_nil _).symm
  | message topic sender bytes atMs =>
    simp only [drainEvent]
    split
    · rename_i hchat
      have hout : isOpaque deps (.message topic sender bytes atMs) = false := by
        simp only [isOpaque, decide_eq_false_iff_not]
        tauto
      split <;> simp [hout]
    · rename_i hchat
      split
      · rename_i publisher hkey
        split at hkey
        · rename_i htopic
          simp [isOpaque, htopic, hkey]
        · cases hkey
      · rename_i hkey
        have hin : isOpaque deps (.message topic sender bytes atMs) = true := by
          simp only [isOpaque, decide_eq_true_eq]
          refine ⟨fun h => hchat (Or.inl h), fun h => hchat (Or.inr h), fun htopic => ?_⟩
          rwa [if_pos htopic] at hkey
        simp [hin]

lemma drainEvents_opaqueEvents (st : AppState lib) (events : List NetEvent) :
    (drainEvents deps st events).opaqueEvents = events.filter (isOpaque deps) := by
  refine drainEvents_induction deps (motive := fun seen acc =>
    acc.opaqueEvents = seen.filter (isOpaque deps)) st rfl ?_ events
  intro pk id seen acc e ih
  rw [drainEvent_opaqueEvents, ih, ← List.filter_append]

/-! ### The receive queues along a run -/

lemma rx_flushOne (topic : String) (st : AppState lib) (bytes : Bytes) :
    (flushOne topic st bytes).rx = st.rx := by
  cases hnet : st.net with
  | none =>
    simp only [flushOne, netPublish, hnet]
    rfl
  | some net =>
    obtain ⟨page, heq⟩ := flushOne_eq hnet topic bytes
    rw [heq]

/-- What every turn of a loop keeps in the queues, the loop keeps. -/
lemma rx_foldl {α : Type} (f : AppState lib → α → AppState lib) (hf : ∀ st a, (f st a).rx = st.rx)
    (items : List α) (st : AppState lib) : (items.foldl f st).rx = st.rx := by
  induction items generalizing st with
  | nil => rfl
  | cons a items ih => rw [List.foldl_cons, ih, hf]

lemma rx_flushPendingFor (st : AppState lib) (topic : String) :
    (st.flushPendingFor topic).rx = st.rx := by
  unfold flushPendingFor
  split
  · rfl
  · exact rx_foldl _ (rx_flushOne topic) _ _

/-- The events a call passes to `rx.ingest`. -/
def ingestedBy (st : AppState lib) (op : ClientOp lib) : List NetEvent :=
  (drainEvents deps st (polledBy st op)).opaqueEvents

lemma rx_drainNetEvents (st : AppState lib) (order : IterOrder String) (events : List NetEvent) :
    (drainNetEvents deps order st events).rx =
      st.rx.ingest (drainEvents deps st (if st.net.isSome then events else [])).opaqueEvents := by
  unfold drainNetEvents
  obtain ⟨page, page', heq⟩ := finishDrain_eq
    (order.walk (drainEvents deps st (if st.net.isSome then events else [])).topicsToFlush)
    (drainEvents deps st (if st.net.isSome then events else []))
  rw [heq]
  refine (rx_foldl _ rx_flushPendingFor _ _).trans ?_
  exact congrArg (RxState.ingest · _) (untouched_drainEvents deps st _).rx

/-- What the host is told of a topic nothing is queued for. -/
lemma drainInto_empty {rx : RxState} {topic : String} (h : rx.queue topic = []) :
    ∃ rx', rx.drainInto topic [] = .ok (rx', [], 0) ∧ rx'.queue topic = [] := by
  unfold RxState.drainInto
  cases hq : rx.queues topic with
  | none => exact ⟨rx, rfl, h⟩
  | some queue =>
    rw [RxState.queue, hq] at h
    cases h
    exact ⟨_, rfl, by simp [RxState.queue]⟩

lemma pendingBytes_empty {rx : RxState} {topic : String} (h : rx.queue topic = []) :
    rx.pendingBytes topic = 0 := by
  rw [RxState.pendingBytes, h]
  rfl

/-- A call lets no message on `topic` into the queues, and reports none to the host. -/
structure KeepsOut (before : AppState lib) (op : ClientOp lib) (after : AppState lib)
    (topic : String) : Prop where
  ingested : messagesFor topic (ingestedBy deps before op) = []
  queued : after.rx.queue topic = []
  pending : ∀ events order, op = .pendingBytes events order topic →
    (pendingBytes deps order before events topic).1 = 0
  received : ∀ events order, op = .recvBytes events order topic →
    recvBytes deps order before events topic = .ok ([], after)

lemma keepsOut_of_ingested {before after : AppState lib} {op : ClientOp lib} {topic : String}
    (hstep : step deps before op = .ok after) (hempty : before.rx.queue topic = [])
    (hin : messagesFor topic (ingestedBy deps before op) = []) :
    KeepsOut deps before op after topic := by
  have hdrained : ∀ order events, polledBy before op = (if before.net.isSome then events else []) →
      (drainNetEvents deps order before events).rx.queue topic = [] := by
    intro order events hpolled
    rw [rx_drainNetEvents, RxState.queue_ingest, hempty, ← hpolled]
    exact hin
  cases op with
  | pendingBytes events order t =>
    cases hstep
    refine ⟨hin, hdrained order events rfl, fun events' order' heq => ?_, by simp⟩
    cases heq
    exact pendingBytes_empty (hdrained order events rfl)
  | recvBytes events order t =>
    obtain ⟨buf, hrecv⟩ := step_recvBytes hstep
    obtain ⟨rx, written, hdrain, rfl⟩ := recvBytes_eq_ok hrecv
    have hnone := hdrained order events rfl
    by_cases ht : topic = t
    · subst ht
      rw [pendingBytes_empty hnone] at hdrain
      obtain ⟨rx', hdrain', hrx'⟩ := drainInto_empty hnone
      obtain ⟨rfl, rfl, rfl⟩ : rx = rx' ∧ buf = [] ∧ written = 0 := by
        simpa [hdrain'] using hdrain.symm
      refine ⟨hin, hrx', by simp, fun events' order' heq => ?_⟩
      cases heq
      exact hrecv
    · refine ⟨hin, ?_, by simp, ?_⟩
      · change rx.queue topic = []
        rw [RxState.queue, RxState.drainInto_frame hdrain ht]
        exact hnone
      · intro events' order' heq
        cases heq
        exact absurd rfl ht
  | _ => exact ⟨hin, (undrained_step deps rfl hstep).rx ▸ hempty, by simp, by simp⟩

/-- Of the internal topics only the identity topic's messages are passed on, those whose sender
has no key. -/
lemma messagesFor_ingestedBy (st : AppState lib) (op : ClientOp lib) :
    (∀ topic, isInternalTopic topic = true → messagesFor topic (ingestedBy deps st op) = []) ↔
      ∀ sender bytes atMs, .message IDENTITY_TOPIC sender bytes atMs ∈ polledBy st op →
        deps.peerKey sender ≠ none := by
  rw [ingestedBy, drainEvents_opaqueEvents]
  constructor
  · intro h sender bytes atMs hpolled hkey
    have hmem : bytes ∈ messagesFor IDENTITY_TOPIC ((polledBy st op).filter (isOpaque deps)) := by
      simp only [messagesFor, List.mem_filterMap, List.mem_filter]
      exact ⟨_, ⟨hpolled, by simp [isOpaque, hkey, IDENTITY_TOPIC, CHAT_TOPIC, LEGACY_CHAT_TOPIC]⟩,
        by simp⟩
    rw [h _ internal_identity] at hmem
    cases hmem
  · intro h topic hinternal
    apply List.filterMap_eq_nil_iff.mpr
    intro e he
    obtain ⟨hpolled, hopaque⟩ := List.mem_filter.mp he
    cases e with
    | message t sender bytes atMs =>
      simp only [isOpaque, decide_eq_true_eq] at hopaque
      obtain ⟨hchat, hlegacy, hkey⟩ := hopaque
      simp only [ite_eq_right_iff, reduceCtorEq, imp_false]
      rintro rfl
      simp only [isInternalTopic, Bool.or_eq_true, beq_iff_eq] at hinternal
      rcases hinternal with (hc | hl) | hi
      · exact hchat hc
      · exact hlegacy hl
      · subst hi
        exact h sender bytes atMs hpolled (hkey rfl)
    | peerUp | peerDown | subscriptionChange | error => rfl

/-- In every run: no message on an internal topic gets into the receive queues or to the host,
exactly when the senders of all the identity messages polled have a key. -/
theorem internal_topics_stay_internal_iff (dom : DomContext) (ops : List (ClientOp lib)) :
    (∀ before op after, Call deps (start dom) ops before op after →
      ∀ topic, isInternalTopic topic = true → KeepsOut deps before op after topic) ↔
    ∀ before op after, Call deps (start dom) ops before op after →
      ∀ sender bytes atMs, .message IDENTITY_TOPIC sender bytes atMs ∈ polledBy before op →
        deps.peerKey sender ≠ none := by
  constructor
  · intro h before op after hcall
    apply (messagesFor_ingestedBy deps before op).mp
    exact fun topic hinternal => (h before op after hcall topic hinternal).ingested
  · intro h before op after hcall topic hinternal
    have hin : ∀ before op after, Call deps (start dom) ops before op after →
        messagesFor topic (ingestedBy deps before op) = [] := fun before op after hc =>
      (messagesFor_ingestedBy deps before op).mpr (h before op after hc) topic hinternal
    have hempty : before.rx.queue topic = [] := by
      refine Call.invariant deps (motive := fun st => st.rx.queue topic = []) rfl ?_ hcall
      intro b o a hc hb
      exact (keepsOut_of_ingested deps hc.step hb (hin b o a hc)).queued
    exact keepsOut_of_ingested deps hcall.step hempty (hin before op after hcall)

/-- An identity message whose sender has no key stays in the queue of the identity topic. -/
theorem keyless_sender_fills_queue :
    let lib := Libp2pIdentity.recorded []
    let config := Json.object [("bootstrap_addrs", .array [])]
    let deps : Deps lib := .plain (.ofTexts [(intoBytes "config", config)]) (fun _ => none)
    let ops : List (ClientOp lib) := [.init "config" (.firstVisit (PubKey.replicate 7)),
      .pendingBytes [.message IDENTITY_TOPIC "rsa-peer" [1] 0] ⟨id, fun _ => .refl _⟩ "pos"]
    ¬∀ before op after, Call deps (start .document) ops before op after →
      ∀ topic, isInternalTopic topic = true → KeepsOut deps before op after topic := by
  intro lib config deps ops h
  obtain ⟨before, after, hcall, hqueue⟩ : ∃ before after,
      Call deps (start .document) ops before (.pendingBytes
        [.message IDENTITY_TOPIC "rsa-peer" [1] 0] ⟨id, fun _ => .refl _⟩ "pos") after ∧
      after.rx.queue IDENTITY_TOPIC = [[1]] :=
    ⟨_, _, ⟨⟨[.init "config" (.firstVisit (PubKey.replicate 7))], [], rfl, rfl⟩, rfl⟩, rfl⟩
  have hnone := (h _ _ _ hcall IDENTITY_TOPIC rfl).queued
  rw [hqueue] at hnone
  cases hnone

end AppState

end Laye
