import Mathlib.Logic.Relation
import Laye.Client

/-!
# What calls are made of

A call that drains no events is a sequence of few kinds of acts, each of which changes the state
in one way. What every act keeps, every such call keeps.
-/

namespace Laye

/-- The calls that run `drain_net_events`. -/
def ClientOp.drains {lib : Libp2pIdentity} : ClientOp lib → Bool
  | .pendingBytes .. | .recvBytes .. => true
  | _ => false

namespace AppState

variable {lib : Libp2pIdentity} (deps : Deps lib)

/-- A chat message goes out as `build_signed_wire` makes it under the key of the net. -/
def OwnChat (deps : Deps lib) (st : AppState lib) (topic : String) (bytes : Bytes) : Prop :=
  topic = CHAT_TOPIC ∧ ∃ net body now, st.net = some net ∧
    buildSignedWire lib deps.serde net.keypair body now = some bytes

/-- The own bindings go out as `encode_wire` writes them, and only when there are some. -/
def OwnBindings (deps : Deps lib) (selfBindings : List SignedBinding) (topic : String)
    (bytes : Bytes) : Prop :=
  topic = IDENTITY_TOPIC ∧ selfBindings ≠ [] ∧ bytes = encodeWire deps.serde selfBindings

/-- What a call may submit: the host's payload on a topic of the host's, an own chat message, or
the own bindings as they are after the call. -/
def MaySubmit (before after : AppState lib) : ClientOp lib → String → Bytes → Prop
  | .publish topic bytes, t, b => t = topic ∧ b = bytes ∧ isInternalTopic topic = false
  | .sendChat .., t, b => OwnChat deps before t b
  | .login _, t, b | .init .., t, b => OwnBindings deps after.selfBindings t b
  | _, _, _ => False

/-- The events `poll_events` returns to a call: none without a net, or without a drain. -/
def polledBy (st : AppState lib) : ClientOp lib → List NetEvent
  | .pendingBytes events .. | .recvBytes events .. => if st.net.isSome then events else []
  | _ => []

/-- The acts, with the payloads `P` allows to be submitted. -/
inductive Act (P : String → Bytes → Prop) : AppState lib → AppState lib → Prop
  | page (st : AppState lib) (page : Page) : Act P st (st.setPage page)
  | send (st : AppState lib) (topic : String) (bytes : Bytes) (h : P topic bytes) :
      Act P st (st.sendOrBuffer topic bytes).2
  | own (st : AppState lib) (body : String) : Act P st (st.pushChat .own ⟨"me", body⟩)
  | accept (st : AppState lib) (json : String) (self : PubKey) (binding : SignedBinding)
      (h : checkLogin deps st json = .ok (some (self, binding))) :
      Act P st (st.acceptLogin self binding)
  | commit (st : AppState lib) (configJson : String) (answers : InitAnswers lib)
      (identity : Identity lib) (h : prepare deps configJson answers = .ok identity) :
      Act P st (st.commit identity)
  | close (st : AppState lib) :
      Act P st { st with net := st.net.map (fun net => { net with closed := true }) }

abbrev Acts (P : String → Bytes → Prop) : AppState lib → AppState lib → Prop :=
  Relation.ReflTransGen (Act deps P)

/-- What every act establishes from the state before it holds along a sequence of acts. -/
lemma Acts.induction {P : String → Bytes → Prop} {motive : AppState lib → AppState lib → Prop}
    (refl : ∀ st, motive st st)
    (trans : ∀ st st₁ st', motive st st₁ → motive st₁ st' → motive st st')
    (act : ∀ st st', Act deps P st st' → motive st st') {st st' : AppState lib}
    (h : Acts deps P st st') : motive st st' := by
  induction h with
  | refl => exact refl st
  | tail _ hlast ih => exact trans _ _ _ ih (act _ _ hlast)

section Calls

variable {deps} {P : String → Bytes → Prop} {st : AppState lib}

lemma acts_page (st : AppState lib) (page : Page) : Acts deps P st (st.setPage page) :=
  .single (.page st page)

lemma acts_surfaced {r : Option LayeError × AppState lib} (h : Acts deps P st r.2) :
    Acts deps P st (surfaced r) := by
  obtain ⟨_ | err, st'⟩ := r
  · exact h
  · exact h.tail (.page st' _)

lemma acts_send {topic : String} {bytes : Bytes} (h : P topic bytes) :
    Acts deps P st (st.sendOrBuffer topic bytes).2 :=
  .single (.send st topic bytes h)

lemma acts_publish (st : AppState lib) (topic : String) (bytes : Bytes) :
    Acts deps (fun t b => t = topic ∧ b = bytes ∧ isInternalTopic topic = false) st
      (st.publish topic bytes) := by
  apply acts_surfaced
  unfold publishInner
  split
  · exact acts_page st _
  · rename_i hinternal
    have h : Acts deps (fun t b => t = topic ∧ b = bytes ∧ isInternalTopic topic = false) st
        (st.sendOrBuffer topic bytes).2 := acts_send ⟨rfl, rfl, Bool.eq_false_iff.mpr hinternal⟩
    split <;> rename_i hsend <;> rw [hsend] at h
    · exact h
    · exact h
    · exact h.tail (.page _ _)
    · exact h.tail (.page _ _)

lemma acts_subscribeOpaque (st : AppState lib) (topic : String) :
    Acts deps P st (st.subscribeOpaque topic) := by
  apply acts_surfaced
  unfold subscribeOpaqueInner
  split
  · exact acts_page st _
  · split
    · split
      · exact .refl
      · exact acts_page st _
    · exact acts_page st _

/-- What is submitted is the text of the input field, cut to size and signed. -/
lemma acts_sendChat {P : String → Bytes → Prop} (st : AppState lib) (value : String) (now : UInt64)
    (hP : ∀ net bytes, st.net = some net →
      buildSignedWire lib deps.serde net.keypair (trimToCharBoundary value MAX_BODY_BYTES) now =
        some bytes → P CHAT_TOPIC bytes) :
    Acts deps P st (sendChat deps st value now) := by
  unfold sendChat
  split
  · exact .refl
  · apply acts_surfaced
    unfold publishChat
    split
    · exact acts_page st _
    · rename_i net hnet
      split
      · exact acts_page st _
      · rename_i bytes hwire
        have h : Acts deps P st (st.sendOrBuffer CHAT_TOPIC bytes).2 :=
          acts_send (hP net bytes hnet hwire)
        split <;> rename_i hsend <;> rw [hsend] at h
        · exact (h.tail (.own _ _)).tail (.page _ _)
        · exact (h.tail (.own _ _)).tail (.page _ _)
        · exact h.tail (.page _ _)
        · exact h.tail (.page _ _)

lemma selfBindings_surfaced (r : Option LayeError × AppState lib) :
    (surfaced r).selfBindings = r.2.selfBindings := by
  obtain ⟨_ | err, st⟩ := r <;> rfl

lemma selfBindings_sendOrBuffer (st : AppState lib) (topic : String) (bytes : Bytes) :
    (st.sendOrBuffer topic bytes).2.selfBindings = st.selfBindings := by
  unfold sendOrBuffer netPublish
  dsimp only
  split
  · split <;> rfl
  · rfl

lemma selfBindings_republishSelfBindings (deps : Deps lib) (st : AppState lib) :
    (republishSelfBindings deps st).selfBindings = st.selfBindings := by
  unfold republishSelfBindings
  split
  · rfl
  · have h := selfBindings_sendOrBuffer st IDENTITY_TOPIC (encodeWire deps.serde st.selfBindings)
    split <;> rename_i hsend <;> rw [hsend] at h <;> exact h

lemma acts_republishSelfBindings (st : AppState lib) :
    Acts deps (OwnBindings deps st.selfBindings) st (republishSelfBindings deps st) := by
  unfold republishSelfBindings
  split
  · exact .refl
  · rename_i hsome
    have h : Acts deps (OwnBindings deps st.selfBindings) st
        (st.sendOrBuffer IDENTITY_TOPIC (encodeWire deps.serde st.selfBindings)).2 :=
      acts_send ⟨rfl, fun hnil => hsome (by rw [hnil]; rfl), rfl⟩
    split <;> rename_i hsend <;> rw [hsend] at h
    · exact h
    · exact h
    · exact h
    · exact h.tail (.page _ _)

lemma selfBindings_drawn (st : AppState lib) :
    st.updateLoginButton.renderChat.renderErrors.selfBindings = st.selfBindings := rfl

/-- What is drawn after a login. -/
lemma acts_drawn (st : AppState lib) :
    Acts deps P st st.updateLoginButton.renderChat.renderErrors :=
  (acts_page _ _).trans ((acts_page _ _).trans (acts_page _ _))

lemma acts_login (st : AppState lib) (json : String) :
    Acts deps (OwnBindings deps (login deps st json).selfBindings) st (login deps st json) := by
  rw [login, selfBindings_surfaced]
  apply acts_surfaced
  unfold handleLoginMessage
  split
  · exact acts_page st _
  · exact .refl
  · rename_i self binding hcheck
    dsimp only
    rw [selfBindings_drawn, selfBindings_republishSelfBindings]
    have haccept : Acts deps (OwnBindings deps (st.acceptLogin self binding).selfBindings) st
        (st.acceptLogin self binding) := .single (.accept st json self binding hcheck)
    exact haccept.trans ((acts_republishSelfBindings _).trans (acts_drawn _))

lemma acts_init (st : AppState lib) (configJson : String) (answers : InitAnswers lib) :
    Acts deps (OwnBindings deps (init deps st configJson answers).selfBindings) st
      (init deps st configJson answers) := by
  have hinner : Acts deps (OwnBindings deps (initInner deps st configJson answers).2.selfBindings) st
      (initInner deps st configJson answers).2 := by
    unfold initInner
    split
    · exact acts_page st _
    · rename_i identity hprepare
      have hcommit : ∀ P, Acts deps P st (st.commit identity) :=
        fun P => .single (.commit st configJson answers identity hprepare)
      split
      · exact (hcommit _).tail (.page _ _)
      · exact ((hcommit _).tail (.page _ _)).tail (.page _ _)
      · exact (((hcommit _).tail (.page _ _)).tail (.page _ _)).tail (.page _ _)
      · dsimp only
        rw [selfBindings_republishSelfBindings]
        exact ((((hcommit _).tail (.page _ _)).tail (.page _ _)).tail (.page _ _)).trans
          (acts_republishSelfBindings _)
  unfold init
  split <;> rename_i hresult <;> rw [hresult] at hinner
  · exact hinner.tail (.page _ _)
  · exact hinner.tail (.page _ _)

end Calls

/-- A call that drains no events is a sequence of acts. -/
theorem acts_step {st st' : AppState lib} {op : ClientOp lib} (hop : op.drains = false)
    (h : step deps st op = .ok st') : Acts deps (MaySubmit deps st st' op) st st' := by
  cases op with
  | pendingBytes | recvBytes => cases hop
  | init configJson answers => cases h; exact acts_init st configJson answers
  | publish topic bytes => cases h; exact acts_publish st topic bytes
  | subscribeOpaque topic => cases h; exact acts_subscribeOpaque st topic
  | sendChat value now =>
    cases h
    exact acts_sendChat st value now (fun net _ hnet hwire => ⟨rfl, net, _, now, hnet, hwire⟩)
  | login json => cases h; exact acts_login st json
  | emitError payload => cases h; cases payload <;> exact acts_page st _
  | dismissError id => cases h; exact acts_page st _
  | driveEnded => cases h; exact .single (.close st)

lemma polledBy_of_not_drains (st : AppState lib) {op : ClientOp lib} (hop : op.drains = false) :
    polledBy st op = [] := by
  cases op with
  | pendingBytes | recvBytes => cases hop
  | _ => rfl

/-- A call that drains events does nothing else, but for the receive queue it reads. -/
lemma step_of_drains {st st' : AppState lib} {op : ClientOp lib} (hop : op.drains = true)
    (h : step deps st op = .ok st') : ∃ order events rx,
      polledBy st op = (if st.net.isSome then events else []) ∧
        st' = (drainNetEvents deps order st events).setRx rx := by
  cases op with
  | pendingBytes events order topic => cases h; exact ⟨order, events, _, rfl, rfl⟩
  | recvBytes events order topic =>
    obtain ⟨buf, hrecv⟩ := step_recvBytes h
    obtain ⟨rx, written, -, rfl⟩ := recvBytes_eq_ok hrecv
    exact ⟨order, events, rx, rfl, rfl⟩
  | _ => cases hop

end AppState

end Laye
