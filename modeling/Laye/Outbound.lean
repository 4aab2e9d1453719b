import Laye.Acts
import Laye.Mesh

/-!
# Outbound payloads

Every topic of the client is a store-and-forward box: direct sends, buffered sends and flushes
are its moves, and a batch of network events settles its link once.
-/

namespace Laye

/-- Payloads submitted for a topic, in order, with whether the topic had a mesh. -/
def submittedFor (topic : String) (log : List Observation) : List (Outbox.Submission Bytes) :=
  log.filterMap fun
    | .submitted t bytes meshed => if t = topic then some ⟨bytes, meshed⟩ else none
    | _ => none

/-- Payloads handed to `net.publish` for a topic, in order. -/
def handedFor (topic : String) (log : List Observation) : List Bytes :=
  log.filterMap fun
    | .handed t bytes => if t = topic then some bytes else none
    | _ => none

lemma submittedFor_append (topic : String) (as bs : List Observation) :
    submittedFor topic (as ++ bs) = submittedFor topic as ++ submittedFor topic bs :=
  List.filterMap_append

lemma handedFor_append (topic : String) (as bs : List Observation) :
    handedFor topic (as ++ bs) = handedFor topic as ++ handedFor topic bs :=
  List.filterMap_append

lemma submittedFor_handed (topic t : String) (queued : List Bytes) :
    submittedFor topic (queued.map (.handed t)) = [] := by
  simp [submittedFor, List.filterMap_map]

lemma handedFor_handed (topic t : String) (queued : List Bytes) :
    handedFor topic (queued.map (.handed t)) = if t = topic then queued else [] := by
  simp only [handedFor, List.filterMap_map, Function.comp_def]
  split <;> simp

namespace AppState

variable {lib : Libp2pIdentity}

/-- A topic of the client, as a box. -/
def outbox (st : AppState lib) (topic : String) : Outbox.Box Bytes where
  up := st.hasMeshFor topic
  queue := st.pendingOf topic
  sent := handedFor topic st.log
  submitted := submittedFor topic st.log

/-- Nobody is subscribed before there is a net. -/
def Wired (st : AppState lib) : Prop := st.net = none → ∀ topic, st.peersOf topic = ∅

/-- What a call may do to the boxes. -/
def Progress (st st' : AppState lib) : Prop :=
  st.Wired → st'.Wired ∧ ∀ topic, Outbox.Run PENDING_SENDS_CAP (st.outbox topic) (st'.outbox topic)

lemma Progress.refl (st : AppState lib) : Progress st st := fun h => ⟨h, fun _ => .refl⟩

lemma Progress.trans {st₁ st₂ st₃ : AppState lib} (h : Progress st₁ st₂) (h' : Progress st₂ st₃) :
    Progress st₁ st₃ := by
  intro hw
  obtain ⟨hw₂, hrun⟩ := h hw
  obtain ⟨hw₃, hrun'⟩ := h' hw₂
  exact ⟨hw₃, fun topic => (hrun topic).trans (hrun' topic)⟩

/-- A call that leaves the boxes and the net as they are. -/
lemma Progress.of_same {st st' : AppState lib} (hnet : st'.net = none → st.net = none)
    (hbox : ∀ topic, st'.outbox topic = st.outbox topic) (hpeers : st'.topicPeers = st.topicPeers) :
    Progress st st' := by
  refine fun hw => ⟨fun hnone topic => ?_, fun topic => ?_⟩
  · rw [peersOf, hpeers]
    exact hw (hnet hnone) topic
  · rw [hbox]

@[simp] lemma outbox_setPage (st : AppState lib) (page : Page) (topic : String) :
    (st.setPage page).outbox topic = st.outbox topic := rfl

@[simp] lemma outbox_setRx (st : AppState lib) (rx : RxState) (topic : String) :
    (st.setRx rx).outbox topic = st.outbox topic := rfl

lemma progress_page (st : AppState lib) (page : Page) : Progress st (st.setPage page) :=
  .of_same id (fun _ => rfl) rfl

/-! ### Submissions -/

lemma netPublish_of_net {st : AppState lib} {net : Net lib} (h : st.net = some net) (topic : String)
    (bytes : Bytes) :
    st.netPublish topic bytes = (some (net.command "publish"), st.observe (.handed topic bytes)) := by
  simp [netPublish, h]

/-- What one observation adds to the history of a box. -/
lemma outbox_observe (st : AppState lib) (o : Observation) (topic : String) :
    (st.observe o).outbox topic =
      { st.outbox topic with
        sent := (st.outbox topic).sent ++ handedFor topic [o]
        submitted := (st.outbox topic).submitted ++ submittedFor topic [o] } := by
  simp only [outbox, observe, handedFor_append, submittedFor_append]
  rfl

lemma outbox_observe_quiet (st : AppState lib) (o : Observation) {topic : String}
    (hsent : handedFor topic [o] = []) (hsub : submittedFor topic [o] = []) :
    (st.observe o).outbox topic = st.outbox topic := by
  rw [outbox_observe, hsent, hsub, List.append_nil, List.append_nil]

lemma outbox_enqueueSend (st : AppState lib) (topic t : String) (bytes : Bytes) :
    (st.enqueueSend topic bytes).outbox t =
      { st.outbox t with
        queue := if topic = t then Outbox.pushCapped PENDING_SENDS_CAP (st.outbox topic).queue bytes
          else (st.outbox t).queue } := by
  by_cases ht : topic = t
  · subst ht
    simp only [outbox, enqueueSend, pendingOf, HashMap.insert_self, if_true, Option.getD_some]
    rfl
  · have hne : t ≠ topic := fun h => ht h.symm
    simp only [outbox, enqueueSend, pendingOf, HashMap.insert_of_ne _ _ hne, if_neg ht]
    rfl

lemma sendOrBuffer_meshed {st : AppState lib} {net : Net lib} (hnet : st.net = some net)
    {topic : String} (hmesh : st.hasMeshFor topic = true) (bytes : Bytes) :
    st.sendOrBuffer topic bytes = (.attempted (some (net.command "publish")),
      (st.observe (.submitted topic bytes true)).observe (.handed topic bytes)) := by
  have hobs : (st.observe (.submitted topic bytes true)).hasMeshFor topic = true := hmesh
  have hnet' : (st.observe (.submitted topic bytes true)).net = some net := hnet
  simp only [sendOrBuffer, hmesh, hobs, if_true, netPublish_of_net hnet']

lemma sendOrBuffer_unmeshed {st : AppState lib} {topic : String}
    (hmesh : st.hasMeshFor topic = false) (bytes : Bytes) :
    st.sendOrBuffer topic bytes =
      (.buffered, (st.observe (.submitted topic bytes false)).enqueueSend topic bytes) := by
  have hobs : (st.observe (.submitted topic bytes false)).hasMeshFor topic = false := hmesh
  simp only [sendOrBuffer, hmesh, hobs, Bool.false_eq_true, if_false]

/-- Sending or buffering is the box's submission. -/
theorem outbox_sendOrBuffer {st : AppState lib} (hw : st.Wired) (topic t : String) (bytes : Bytes) :
    (st.sendOrBuffer topic bytes).2.outbox t =
      if topic = t then (st.outbox t).submit PENDING_SENDS_CAP bytes else st.outbox t := by
  cases hmesh : st.hasMeshFor topic with
  | true =>
    obtain ⟨net, hnet⟩ : ∃ net, st.net = some net := by
      rw [← Option.ne_none_iff_exists']
      intro hnone
      simp [hasMeshFor, hw hnone topic] at hmesh
    rw [sendOrBuffer_meshed hnet hmesh, outbox_observe, outbox_observe]
    by_cases ht : topic = t
    · subst ht
      have hup : (st.outbox topic).up = true := hmesh
      simp [Outbox.Box.submit, hup, submittedFor, handedFor]
    · simp [ht, submittedFor, handedFor]
  | false =>
    rw [sendOrBuffer_unmeshed hmesh, outbox_enqueueSend, outbox_observe, outbox_observe]
    by_cases ht : topic = t
    · subst ht
      have hup : (st.outbox topic).up = false := hmesh
      simp [Outbox.Box.submit, hup, submittedFor, handedFor]
    · simp [ht, submittedFor, handedFor]

/-- All that sending or buffering changes. -/
lemma sendOrBuffer_frame (st : AppState lib) (topic : String) (bytes : Bytes) :
    ∃ pendingSends added, (st.sendOrBuffer topic bytes).2 =
        { st with pendingSends, log := st.log ++ .submitted topic bytes (st.hasMeshFor topic) :: added } ∧
      (added = [] ∨ added = [.handed topic bytes]) := by
  cases hmesh : st.hasMeshFor topic with
  | false => exact ⟨_, [], by rw [sendOrBuffer_unmeshed hmesh]; rfl, Or.inl rfl⟩
  | true =>
    by_cases hnet : st.net = none
    · refine ⟨st.pendingSends, [], ?_, Or.inl rfl⟩
      have hobs : (st.observe (.submitted topic bytes true)).hasMeshFor topic = true := hmesh
      have hnet' : (st.observe (.submitted topic bytes true)).net = none := hnet
      simp only [sendOrBuffer, hmesh, hobs, if_true, netPublish, hnet']
      rfl
    · obtain ⟨net, hnet⟩ := Option.ne_none_iff_exists'.mp hnet
      refine ⟨st.pendingSends, [.handed topic bytes], ?_, Or.inr rfl⟩
      rw [sendOrBuffer_meshed hnet hmesh]
      simp [observe]

lemma progress_sendOrBuffer (st : AppState lib) (topic : String) (bytes : Bytes) :
    Progress st (st.sendOrBuffer topic bytes).2 := by
  obtain ⟨pendingSends, added, hframe, -⟩ := sendOrBuffer_frame st topic bytes
  refine fun hw => ⟨fun hnone t => ?_, fun t => ?_⟩
  · rw [hframe] at hnone ⊢
    exact hw hnone t
  · rw [outbox_sendOrBuffer hw]
    split
    · exact .single (.submit _ bytes)
    · exact .refl

variable {deps : Deps lib}

/-- What an act does to the boxes. -/
lemma progress_act {P : String → Bytes → Prop} {st st' : AppState lib} (h : Act deps P st st') :
    Progress st st' := by
  cases h with
  | page page => exact progress_page st page
  | send topic bytes => exact progress_sendOrBuffer st topic bytes
  | own body =>
    exact .of_same id (fun topic => outbox_observe_quiet st (.appended .own ⟨"me", body⟩) rfl rfl) rfl
  | accept => exact .of_same id (fun _ => rfl) rfl
  | commit _ _ identity =>
    exact .of_same (fun hnone => by simp [commit] at hnone)
      (fun topic => outbox_observe_quiet st (.started identity.selfPubkey) rfl rfl) rfl
  | close => exact .of_same (fun hnone => by simpa using hnone) (fun _ => rfl) rfl

variable (deps)

/-! ### Flushes -/

lemma flushOne_eq {st : AppState lib} {net : Net lib} (hnet : st.net = some net) (topic : String)
    (bytes : Bytes) :
    ∃ page, flushOne topic st bytes = { st with page, log := st.log ++ [.handed topic bytes] } := by
  simp only [flushOne, netPublish_of_net hnet]
  cases net.command "publish" with
  | ok => exact ⟨st.page, rfl⟩
  | error e => exact ⟨_, rfl⟩

lemma foldl_flushOne_eq (st : AppState lib) {net : Net lib} (hnet : st.net = some net)
    (topic : String) (queued : List Bytes) :
    ∃ page, queued.foldl (flushOne topic) st =
      { st with page, log := st.log ++ queued.map (.handed topic) } := by
  induction queued generalizing st with
  | nil => exact ⟨st.page, by simp⟩
  | cons bytes queued ih =>
    obtain ⟨page, hone⟩ := flushOne_eq hnet topic bytes
    rw [List.foldl_cons, hone]
    obtain ⟨page', hrest⟩ := ih { st with page, log := st.log ++ [.handed topic bytes] } hnet
    exact ⟨page', by rw [hrest]; simp⟩

lemma flushPendingFor_eq {st : AppState lib} {net : Net lib} (hnet : st.net = some net)
    (topic : String) :
    ∃ page pendingSends, st.flushPendingFor topic =
        { st with page, pendingSends, log := st.log ++ (st.pendingOf topic).map (.handed topic) } ∧
      ∀ t, (pendingSends t).getD [] = if topic = t then [] else st.pendingOf t := by
  unfold flushPendingFor pendingOf
  cases hq : st.pendingSends topic with
  | none =>
    refine ⟨st.page, st.pendingSends, by simp, fun t => ?_⟩
    by_cases ht : topic = t
    · subst ht
      simp [hq]
    · simp [ht]
  | some queued =>
    obtain ⟨page, hall⟩ := foldl_flushOne_eq
      { st with pendingSends := st.pendingSends.insert topic [] } hnet topic queued
    refine ⟨page, st.pendingSends.insert topic [], hall, fun t => ?_⟩
    by_cases ht : topic = t
    · subst ht
      simp
    · have hne : t ≠ topic := fun h => ht h.symm
      simp [ht, HashMap.insert_of_ne _ _ hne]

/-- A flush settles the box of its topic. -/
lemma outbox_flushPendingFor {st : AppState lib} {net : Net lib} (hnet : st.net = some net)
    (topic t : String) :
    (st.flushPendingFor topic).outbox t =
      (st.outbox t).settle (decide (topic = t)) (st.outbox t).up := by
  obtain ⟨page, pendingSends, heq, hpending⟩ := flushPendingFor_eq hnet topic
  rw [heq]
  simp only [outbox, pendingOf, hpending, handedFor_append, submittedFor_append, handedFor_handed,
    submittedFor_handed, List.append_nil, Outbox.Box.settle, decide_eq_true_eq]
  by_cases ht : topic = t
  · subst ht
    simp only [if_true]
    rfl
  · simp only [if_neg ht, List.append_nil]
    rfl

lemma flushPendingFor_net {st : AppState lib} {net : Net lib} (hnet : st.net = some net)
    (topic : String) : (st.flushPendingFor topic).net = some net := by
  obtain ⟨page, pendingSends, heq, -⟩ := flushPendingFor_eq hnet topic
  rw [heq]
  exact hnet

lemma outbox_foldl_flush {st : AppState lib} {net : Net lib} (hnet : st.net = some net)
    (topics : List String) (t : String) :
    (topics.foldl flushPendingFor st).outbox t =
      (st.outbox t).settle (decide (t ∈ topics)) (st.outbox t).up := by
  induction topics generalizing st with
  | nil => rfl
  | cons topic topics ih =>
    rw [List.foldl_cons, ih (flushPendingFor_net hnet topic), outbox_flushPendingFor hnet]
    by_cases ht : topic = t
    · subst ht
      simp [Outbox.Box.settle]
    · have hne : t ≠ topic := fun h => ht h.symm
      simp [Outbox.Box.settle, ht, hne]

/-! ### A batch of events -/

/-- The loop of `drain_net_events` sends nothing. -/
structure SendsNothing (st st' : AppState lib) : Prop where
  net : st'.net = st.net
  pending : st'.pendingSends = st.pendingSends
  handed : ∀ topic, handedFor topic st'.log = handedFor topic st.log
  submitted : ∀ topic, submittedFor topic st'.log = submittedFor topic st.log

lemma SendsNothing.refl (st : AppState lib) : SendsNothing st st := ⟨rfl, rfl, fun _ => rfl, fun _ => rfl⟩

lemma SendsNothing.trans {st₁ st₂ st₃ : AppState lib} (h : SendsNothing st₁ st₂)
    (h' : SendsNothing st₂ st₃) : SendsNothing st₁ st₃ :=
  ⟨h'.net.trans h.net, h'.pending.trans h.pending, fun t => (h'.handed t).trans (h.handed t),
    fun t => (h'.submitted t).trans (h.submitted t)⟩

lemma sendsNothing_polled (st : AppState lib) (e : NetEvent) : SendsNothing st (st.observe (.polled e)) :=
  ⟨rfl, rfl, fun _ => by simp [observe, handedFor], fun _ => by simp [observe, submittedFor]⟩

lemma sendsNothing_pushChat (st : AppState lib) (origin : Provenance) (entry : ChatEntry) :
    SendsNothing st (st.pushChat origin entry) :=
  ⟨rfl, rfl, fun _ => by simp [pushChat, observe, handedFor],
    fun _ => by simp [pushChat, observe, submittedFor]⟩

lemma sendsNothing_drainEvent (selfPubkey : Option PubKey) (selfPeerId : String) (acc : DrainAcc lib)
    (e : NetEvent) : SendsNothing acc.st (drainEvent deps selfPubkey selfPeerId acc e).st := by
  have hpolled := sendsNothing_polled acc.st e
  have hsame : ∀ st', st'.net = acc.st.net → st'.pendingSends = acc.st.pendingSends →
      st'.log = (acc.st.observe (.polled e)).log → SendsNothing acc.st st' := by
    intro st' hnet hpending hlog
    exact ⟨hnet, hpending, fun t => hlog ▸ hpolled.handed t, fun t => hlog ▸ hpolled.submitted t⟩
  cases e with
  | subscriptionChange topic peer joined => cases joined <;> exact hsame _ rfl rfl rfl
  | peerDown | peerUp | error => exact hsame _ rfl rfl rfl
  | message topic peer bytes atMs =>
    simp only [drainEvent]
    split
    · split
      · exact hpolled.trans (sendsNothing_pushChat _ _ _)
      · exact hpolled
    · split <;> exact hsame _ rfl rfl rfl

lemma sendsNothing_drainEvents (st : AppState lib) (events : List NetEvent) :
    SendsNothing st (drainEvents deps st events).st :=
  drainEvents_induction deps (motive := fun _ acc => SendsNothing st acc.st) st (.refl st)
    (fun pk id _ acc e ih => ih.trans (sendsNothing_drainEvent deps pk id acc e)) events

/-- What follows the loop, as far as the boxes, the net and the receive queues go. -/
lemma finishDrain_eq (topics : List String) (acc : DrainAcc lib) :
    ∃ page page', finishDrain topics acc =
      (topics.foldl flushPendingFor
        ((acc.st.setRx (acc.st.rx.ingest acc.opaqueEvents)).setPage page)).setPage page' := by
  have hemit : ∀ (errors : List LayeError) (st : AppState lib),
      ∃ page, errors.foldl emit st = st.setPage page := by
    intro errors
    induction errors with
    | nil => exact fun st => ⟨st.page, rfl⟩
    | cons err errors ih =>
      intro st
      obtain ⟨page, hpage⟩ := ih (st.emit err)
      exact ⟨page, hpage⟩
  obtain ⟨page, hpage⟩ := hemit acc.collectedErrors (acc.st.setRx (acc.st.rx.ingest acc.opaqueEvents))
  refine ⟨page, ?_⟩
  simp only [finishDrain, hpage]
  split <;> split <;> exact ⟨_, rfl⟩

open Classical in
/-- A batch settles every box once: it is flushed if its topic gains a first peer in the batch,
and its link is what the mesh has become. -/
theorem outbox_drainNetEvents {st : AppState lib} {net : Net lib} (hnet : st.net = some net)
    (order : IterOrder String) (events : List NetEvent) (topic : String) :
    (drainNetEvents deps order st events).outbox topic =
      (st.outbox topic).settle (decide (Mesh.GainsFirstPeer st.peersOf events topic))
        (decide (Mesh.after st.peersOf events topic ≠ ∅)) := by
  have hquiet := sendsNothing_drainEvents deps st events
  have hpeers := drainEvents_peersOf deps st events
  have hflush := mem_drainEvents_topicsToFlush deps st events topic
  simp only [drainNetEvents, hnet, Option.isSome_some, if_true]
  obtain ⟨page, page', heq⟩ := finishDrain_eq
    (order.walk (drainEvents deps st events).topicsToFlush) (drainEvents deps st events)
  have hnet' : (((drainEvents deps st events).st.setRx
      ((drainEvents deps st events).st.rx.ingest (drainEvents deps st events).opaqueEvents)).setPage
        page).net = some net := hquiet.net.trans hnet
  have hbox : (drainEvents deps st events).st.outbox topic =
      { st.outbox topic with up := decide (Mesh.after st.peersOf events topic ≠ ∅) } := by
    simp only [outbox, pendingOf, hasMeshFor, hpeers, hquiet.pending, hquiet.handed, hquiet.submitted]
  have hmark : decide (topic ∈ order.walk (drainEvents deps st events).topicsToFlush) =
      decide (Mesh.GainsFirstPeer st.peersOf events topic) :=
    decide_eq_decide.mpr ((order.perm _).mem_iff.trans hflush)
  rw [heq, outbox_setPage, outbox_foldl_flush hnet', outbox_setPage, outbox_setRx, hbox, hmark]
  rfl

lemma drainNetEvents_unwired {st : AppState lib} (hnet : st.net = none) (order : IterOrder String)
    (events : List NetEvent) : ∃ page rx, drainNetEvents deps order st events = (st.setRx rx).setPage page := by
  have hnone : order.walk (drainEvents deps st []).topicsToFlush = [] :=
    List.perm_nil.mp (order.perm [])
  simp only [drainNetEvents, hnet, Option.isSome_none, Bool.false_eq_true, if_false]
  obtain ⟨page, page', heq⟩ := finishDrain_eq
    (order.walk (drainEvents deps st []).topicsToFlush) (drainEvents deps st [])
  exact ⟨page', _, by rw [heq, hnone]; rfl⟩

lemma drainNetEvents_net (st : AppState lib) (order : IterOrder String) (events : List NetEvent) :
    (drainNetEvents deps order st events).net = st.net := by
  cases hnet : st.net with
  | none =>
    obtain ⟨page, rx, heq⟩ := drainNetEvents_unwired deps hnet order events
    rw [heq]
    exact hnet
  | some net =>
    have hfold : ∀ (topics : List String) (st' : AppState lib), st'.net = some net →
        (topics.foldl flushPendingFor st').net = some net := by
      intro topics
      induction topics with
      | nil => exact fun _ h => h
      | cons topic topics ih => exact fun st' h => ih _ (flushPendingFor_net h topic)
    simp only [drainNetEvents, hnet, Option.isSome_some, if_true]
    obtain ⟨page, page', heq⟩ := finishDrain_eq
      (order.walk (drainEvents deps st events).topicsToFlush) (drainEvents deps st events)
    rw [heq]
    exact hfold _ _ ((sendsNothing_drainEvents deps st events).net.trans hnet)

lemma progress_drainNetEvents (st : AppState lib) (order : IterOrder String) (events : List NetEvent) :
    Progress st (drainNetEvents deps order st events) := by
  cases hnet : st.net with
  | none =>
    obtain ⟨page, rx, heq⟩ := drainNetEvents_unwired deps hnet order events
    rw [heq]
    exact .of_same id (fun _ => rfl) rfl
  | some net =>
    refine fun _ => ⟨fun hnone => ?_, fun topic => ?_⟩
    · rw [drainNetEvents_net, hnet] at hnone
      cases hnone
    · classical
      rw [outbox_drainNetEvents deps hnet]
      refine .single (.settle _ _ _ fun hup => ?_)
      by_cases hempty : st.peersOf topic = ∅
      · exact Or.inr (decide_eq_true (Mesh.gainsFirstPeer_of_nonempty hempty (of_decide_eq_true hup)))
      · exact Or.inl (decide_eq_true hempty)

/-! ### Runs -/

lemma progress_step {st st' : AppState lib} (op : ClientOp lib) (h : step deps st op = .ok st') :
    Progress st st' := by
  cases hop : op.drains with
  | false =>
    exact (acts_step deps hop h).induction deps .refl (fun _ _ _ h h' => h.trans h')
      (fun _ _ => progress_act)
  | true =>
    obtain ⟨order, events, rx, -, rfl⟩ := step_of_drains deps hop h
    exact (progress_drainNetEvents deps st order events).trans (.of_same id (fun _ => rfl) rfl)

lemma progress_run {st st' : AppState lib} {ops : List (ClientOp lib)}
    (h : run deps st ops = .ok st') : Progress st st' :=
  run_induction (motive := Progress) .refl
    (fun _ op _ _ hstep hrest => (progress_step deps op hstep).trans hrest) h

lemma wired_start (dom : DomContext) : (start dom : AppState lib).Wired := fun _ _ => rfl

/-- Every topic's box is sound in every state a client reaches. -/
theorem outbox_sound (dom : DomContext) (ops : List (ClientOp lib)) (st : AppState lib)
    (h : run deps (start dom) ops = .ok st) (topic : String) :
    Outbox.Sound PENDING_SENDS_CAP (st.outbox topic) :=
  (Outbox.Sound.start PENDING_SENDS_CAP false).run (by decide)
    ((progress_run deps h (wired_start dom)).2 topic)

/-- What was handed over and what waits stand, in this order, in increasing places of what was
submitted; a place is skipped only when a full queue's worth of later payloads met no mesh. -/
theorem outbound_accounting (dom : DomContext) (ops : List (ClientOp lib)) (st : AppState lib)
    (h : run deps (start dom) ops = .ok st) (topic : String) :
    let submitted := submittedFor topic st.log
    (∃ places : List Nat, places.Pairwise (· < ·) ∧
      places.map (fun i => (submitted[i]?).map Outbox.Submission.payload) =
        (handedFor topic st.log ++ st.pendingOf topic).map some ∧
      ∀ i < submitted.length, i ∉ places → PENDING_SENDS_CAP ≤ Outbox.downAfter submitted i) ∧
    (st.pendingOf topic).length ≤ PENDING_SENDS_CAP ∧
    (st.peersOf topic ≠ ∅ → st.pendingOf topic = []) := by
  have hsound := outbox_sound deps dom ops st h topic
  obtain ⟨sentAt, queuedAt, hacc⟩ := hsound.accounted
  refine ⟨⟨sentAt ++ queuedAt, hacc.picks.increasing, hacc.picks.holds, hacc.skipped⟩,
    hsound.bounded, fun hmesh => hsound.idle ?_⟩
  simpa [outbox, hasMeshFor] using hmesh

section Example

def oneTopic : Deps (Libp2pIdentity.recorded []) :=
  .plain (.ofTexts [(intoBytes "config", .object [("bootstrap_addrs", .array [])])]) (fun _ => none)

/-- A payload before the first subscriber, one after it, and a chat message. -/
def twoSends (order : IterOrder String) : List (ClientOp (Libp2pIdentity.recorded [])) :=
  [.init "config" (.firstVisit (PubKey.replicate 7)), .publish "pos" [1],
    .pendingBytes [.subscriptionChange "pos" "p" true] order "pos",
    .publish "pos" [2], .sendChat "hello" 3]

/-- The first payload is flushed, the second goes out at once, and the message waits. -/
theorem outbound_accounting_two : ∃ st,
    run oneTopic (start .document) (twoSends ⟨id, fun _ => .refl _⟩) = .ok st ∧
    (∃ places : List Nat, places.Pairwise (· < ·) ∧
      places.map (fun i => ((submittedFor "pos" st.log)[i]?).map Outbox.Submission.payload) =
        [some [1], some [2]]) ∧
    st.pendingOf "pos" = [] ∧ 0 < (st.pendingOf CHAT_TOPIC).length ∧
    (st.pendingOf CHAT_TOPIC).length ≤ PENDING_SENDS_CAP := by
  obtain ⟨st, hrun, hhanded, hmesh, hwaits⟩ : ∃ st,
      run oneTopic (start .document) (twoSends ⟨id, fun _ => .refl _⟩) = .ok st ∧
      handedFor "pos" st.log = [[1], [2]] ∧ st.peersOf "pos" ≠ ∅ ∧
      0 < (st.pendingOf CHAT_TOPIC).length := by
    refine ⟨_, rfl, ?_, ?_, ?_⟩
    all_goals decide +kernel
  obtain ⟨⟨places, hincreasing, hholds, -⟩, -, hidle⟩ :=
    outbound_accounting oneTopic .document _ st hrun "pos"
  rw [hhanded, hidle hmesh] at hholds
  exact ⟨st, hrun, ⟨places, hincreasing, hholds⟩, hidle hmesh, hwaits,
    (outbound_accounting oneTopic .document _ st hrun CHAT_TOPIC).2.1⟩

end Example

end AppState

end Laye
