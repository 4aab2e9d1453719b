import Laye.Outbound

/-!
# What a call can do

Every call is a sequence of moves: an own chat entry, an accepted login, the commit of an `init`,
one network event, and quiet moves in between that send, buffer, report and draw.
-/

namespace Laye

/-- Observations of the sending side. -/
def Observation.Outbound : Observation → Prop
  | .submitted .. | .handed .. => True
  | _ => False

namespace AppState

variable {lib : Libp2pIdentity}

/-- What nobody but the sending side, the page and the receive queues can tell from before. -/
structure Quiet (st st' : AppState lib) : Prop where
  peerIdHex : st'.peerIdHex = st.peerIdHex
  selfPubkey : st'.selfPubkey = st.selfPubkey
  chat : st'.chat = st.chat
  bindings : st'.bindings = st.bindings
  selfBindings : st'.selfBindings = st.selfBindings
  topicPeers : st'.topicPeers = st.topicPeers
  log : ∃ added, st'.log = st.log ++ added ∧ ∀ o ∈ added, o.Outbound

inductive Move (deps : Deps lib) : AppState lib → AppState lib → Prop
  | quiet {st st' : AppState lib} (h : Quiet st st') : Move deps st st'
  | own (st : AppState lib) (body : String) : Move deps st (st.pushChat .own ⟨"me", body⟩)
  | accept (st : AppState lib) (json : String) (self : PubKey) (binding : SignedBinding)
      (h : checkLogin deps st json = .ok (some (self, binding))) :
      Move deps st (st.acceptLogin self binding)
  | commit (st : AppState lib) (configJson : String) (answers : InitAnswers lib)
      (identity : Identity lib) (h : prepare deps configJson answers = .ok identity) :
      Move deps st (st.commit identity)
  | event (selfPubkey : Option PubKey) (selfPeerId : String) (acc : DrainAcc lib) (e : NetEvent) :
      Move deps acc.st (drainEvent deps selfPubkey selfPeerId acc e).st

abbrev Moves (deps : Deps lib) : AppState lib → AppState lib → Prop :=
  Relation.ReflTransGen (Move deps)

lemma quiet_page (st : AppState lib) (page : Page) : Quiet st (st.setPage page) :=
  ⟨rfl, rfl, rfl, rfl, rfl, rfl, [], (List.append_nil _).symm, by simp⟩

lemma Quiet.trans {st₁ st₂ st₃ : AppState lib} (h : Quiet st₁ st₂) (h' : Quiet st₂ st₃) :
    Quiet st₁ st₃ := by
  obtain ⟨added, hlog, hadded⟩ := h.log
  obtain ⟨added', hlog', hadded'⟩ := h'.log
  refine ⟨h'.peerIdHex.trans h.peerIdHex, h'.selfPubkey.trans h.selfPubkey, h'.chat.trans h.chat,
    h'.bindings.trans h.bindings, h'.selfBindings.trans h.selfBindings,
    h'.topicPeers.trans h.topicPeers, added ++ added', ?_, ?_⟩
  · rw [hlog', hlog, List.append_assoc]
  · intro o ho
    exact (List.mem_append.mp ho).elim (hadded o) (hadded' o)

lemma quiet_sendOrBuffer (st : AppState lib) (topic : String) (bytes : Bytes) :
    Quiet st (st.sendOrBuffer topic bytes).2 := by
  obtain ⟨pendingSends, added, heq, hadded⟩ := sendOrBuffer_frame st topic bytes
  rw [heq]
  refine ⟨rfl, rfl, rfl, rfl, rfl, rfl, _, rfl, ?_⟩
  rcases hadded with rfl | rfl <;> simp [Observation.Outbound]

lemma quiet_flushOne (topic : String) (st : AppState lib) (bytes : Bytes) :
    Quiet st (flushOne topic st bytes) := by
  by_cases hnet : st.net = none
  · simp only [flushOne, netPublish, hnet]
    exact quiet_page st _
  · obtain ⟨net, hnet⟩ := Option.ne_none_iff_exists'.mp hnet
    obtain ⟨page, heq⟩ := flushOne_eq hnet topic bytes
    rw [heq]
    exact ⟨rfl, rfl, rfl, rfl, rfl, rfl, _, rfl, by simp [Observation.Outbound]⟩

lemma quiet_foldl {α : Type} (f : AppState lib → α → AppState lib)
    (hf : ∀ st a, Quiet st (f st a)) (items : List α) (st : AppState lib) :
    Quiet st (items.foldl f st) := by
  induction items generalizing st with
  | nil => exact quiet_page st st.page
  | cons a items ih => exact (hf st a).trans (ih _)

lemma quiet_flushPendingFor (st : AppState lib) (topic : String) :
    Quiet st (st.flushPendingFor topic) := by
  unfold flushPendingFor
  split
  · exact quiet_page st st.page
  · rename_i queued _
    have hdrained : Quiet st { st with pendingSends := st.pendingSends.insert topic [] } :=
      ⟨rfl, rfl, rfl, rfl, rfl, rfl, [], (List.append_nil _).symm, by simp⟩
    exact hdrained.trans (quiet_foldl _ (quiet_flushOne topic) queued _)

lemma quiet_setRx (st : AppState lib) (rx : RxState) : Quiet st (st.setRx rx) :=
  ⟨rfl, rfl, rfl, rfl, rfl, rfl, [], (List.append_nil _).symm, by simp⟩

lemma quiet_finishDrain (topics : List String) (acc : DrainAcc lib) :
    Quiet acc.st (finishDrain topics acc) := by
  obtain ⟨page, page', heq⟩ := finishDrain_eq topics acc
  rw [heq]
  exact (quiet_setRx _ _).trans ((quiet_page _ _).trans
    ((quiet_foldl _ quiet_flushPendingFor topics _).trans (quiet_page _ _)))

variable (deps : Deps lib)

lemma quiet_republishSelfBindings (st : AppState lib) : Quiet st (republishSelfBindings deps st) := by
  unfold republishSelfBindings
  split
  · exact quiet_page st st.page
  · have h := quiet_sendOrBuffer st IDENTITY_TOPIC (encodeWire deps.serde st.selfBindings)
    split <;> rename_i hsend <;> rw [hsend] at h
    · exact h
    · exact h
    · exact h
    · exact h.trans (quiet_page _ _)

/-- An accepted login announces the own bindings and draws what shows them. -/
lemma quiet_acceptedLogin (st : AppState lib) :
    Quiet st (republishSelfBindings deps st).updateLoginButton.renderChat.renderErrors :=
  (quiet_republishSelfBindings deps st).trans
    ((quiet_page _ _).trans ((quiet_page _ _).trans (quiet_page _ _)))

/-! ### Calls as moves -/

lemma move_act {deps : Deps lib} {P : String → Bytes → Prop} {st st' : AppState lib}
    (h : Act deps P st st') : Move deps st st' := by
  cases h with
  | page page => exact .quiet (quiet_page st page)
  | send topic bytes => exact .quiet (quiet_sendOrBuffer st topic bytes)
  | own body => exact .own st body
  | accept json self binding h => exact .accept st json self binding h
  | commit configJson answers identity h => exact .commit st configJson answers identity h
  | close => exact .quiet ⟨rfl, rfl, rfl, rfl, rfl, rfl, [], (List.append_nil _).symm, by simp⟩

lemma moves_drainNetEvents (st : AppState lib) (order : IterOrder String) (events : List NetEvent) :
    Moves deps st (drainNetEvents deps order st events) := by
  have hloop := drainEvents_induction deps (motive := fun _ acc => Moves deps st acc.st) st .refl
    (fun pk id _ acc e ih => ih.tail (.event pk id acc e))
  exact (hloop _).tail (.quiet (quiet_finishDrain _ _))

theorem moves_step {st st' : AppState lib} (op : ClientOp lib) (h : step deps st op = .ok st') :
    Moves deps st st' := by
  cases hop : op.drains with
  | false =>
    exact (acts_step deps hop h).induction deps (fun _ => .refl) (fun _ _ _ => .trans)
      (fun _ _ hact => .single (move_act hact))
  | true =>
    obtain ⟨order, events, rx, -, rfl⟩ := step_of_drains deps hop h
    exact (moves_drainNetEvents deps st order events).tail (.quiet (quiet_setRx _ rx))

theorem moves_run {st st' : AppState lib} {ops : List (ClientOp lib)}
    (h : run deps st ops = .ok st') : Moves deps st st' :=
  run_induction (motive := Moves deps) (fun _ => .refl)
    (fun _ op _ _ hstep hrest => (moves_step deps op hstep).trans hrest) h

/-- What every move keeps holds in every state a client reaches. -/
lemma run_invariant {deps : Deps lib} {Inv : AppState lib → Prop}
    (hmove : ∀ st st', Inv st → Move deps st st' → Inv st') {dom : DomContext}
    (hstart : Inv (start dom)) {ops : List (ClientOp lib)} {st : AppState lib}
    (h : run deps (start dom) ops = .ok st) : Inv st := by
  have hmoves := moves_run deps h
  clear h
  induction hmoves with
  | refl => exact hstart
  | tail _ hlast ih => exact hmove _ _ ih hlast

/-- Only a client that knows its key accepts a login, and only for this key. -/
lemma checkLogin_self {deps : Deps lib} {st : AppState lib} {json : String} {self : PubKey}
    {binding : SignedBinding} (h : checkLogin deps st json = .ok (some (self, binding))) :
    st.selfPubkey = some self := by
  simp only [checkLogin, bind, Except.bind, pure, Except.pure, throw, throwThe,
    MonadExceptOf.throw] at h
  repeat' split at h
  all_goals cases h
  all_goals assumption

/-- What events leave alone. -/
structure Untouched (st st' : AppState lib) : Prop where
  rx : st'.rx = st.rx
  selfPubkey : st'.selfPubkey = st.selfPubkey
  selfBindings : st'.selfBindings = st.selfBindings

lemma untouched_drainEvent (selfPubkey : Option PubKey) (selfPeerId : String) (acc : DrainAcc lib)
    (e : NetEvent) : Untouched acc.st (drainEvent deps selfPubkey selfPeerId acc e).st := by
  cases e with
  | subscriptionChange topic peer joined => cases joined <;> exact ⟨rfl, rfl, rfl⟩
  | peerDown | peerUp | error => exact ⟨rfl, rfl, rfl⟩
  | message topic peer bytes atMs =>
    simp only [drainEvent]
    split
    · split <;> exact ⟨rfl, rfl, rfl⟩
    · split <;> exact ⟨rfl, rfl, rfl⟩

lemma untouched_drainEvents (st : AppState lib) (events : List NetEvent) :
    Untouched st (drainEvents deps st events).st := by
  refine drainEvents_induction deps (motive := fun _ acc => Untouched st acc.st) st ⟨rfl, rfl, rfl⟩
    ?_ events
  intro pk id _ acc e ih
  have hturn := untouched_drainEvent deps pk id acc e
  exact ⟨hturn.rx.trans ih.rx, hturn.selfPubkey.trans ih.selfPubkey,
    hturn.selfBindings.trans ih.selfBindings⟩

/-- All that one event does to the history, the chat and the binding table. -/
lemma drainEvent_cases (selfPubkey : Option PubKey) (selfPeerId : String) (acc : DrainAcc lib)
    (e : NetEvent) :
    let st' := (drainEvent deps selfPubkey selfPeerId acc e).st
    (st'.log = acc.st.log ++ [.polled e] ∧ st'.bindings = acc.st.bindings ∧
      st'.selfPubkey = acc.st.selfPubkey) ∨
    (∃ topic peer bytes atMs incoming, e = .message topic peer bytes atMs ∧
      ingest lib deps.serde topic bytes selfPubkey selfPeerId = some incoming ∧
      st' = (acc.st.observe (.polled e)).pushChat (chatEntry acc.st.bindings incoming).1
        (chatEntry acc.st.bindings incoming).2) ∨
    ∃ sender bytes atMs publisher, e = .message IDENTITY_TOPIC sender bytes atMs ∧
      deps.peerKey sender = some publisher ∧
      st' = (acc.st.observe (.polled e)).setBindings
        (absorb acc.st.bindings publisher (parseAndVerify lib deps.serde bytes publisher)) := by
  cases e with
  | subscriptionChange topic peer joined => cases joined <;> exact Or.inl ⟨rfl, rfl, rfl⟩
  | peerDown | peerUp | error => exact Or.inl ⟨rfl, rfl, rfl⟩
  | message topic peer bytes atMs =>
    simp only [drainEvent]
    split
    · split
      · rename_i incoming hingest
        exact Or.inr (Or.inl ⟨topic, peer, bytes, atMs, incoming, rfl, hingest, rfl⟩)
      · exact Or.inl ⟨rfl, rfl, rfl⟩
    · split
      · rename_i publisher hkey
        split at hkey
        · rename_i htopic
          subst htopic
          exact Or.inr (Or.inr ⟨peer, bytes, atMs, publisher, rfl, hkey, rfl⟩)
        · cases hkey
      · exact Or.inl ⟨rfl, rfl, rfl⟩

end AppState

end Laye
