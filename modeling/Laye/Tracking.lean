import Laye.Moves

/-!
# Mesh tracking

`topic_peers` is what the polled events make of it, in whatever batches they came: a peer is
listed under a topic from its last join on, until it leaves or goes down.
-/

namespace Laye

/-- The events polled so far, in order. -/
def polledIn (log : List Observation) : List NetEvent :=
  log.filterMap fun
    | .polled e => some e
    | _ => none

lemma polledIn_append (as bs : List Observation) :
    polledIn (as ++ bs) = polledIn as ++ polledIn bs :=
  List.filterMap_append

lemma polledIn_outbound {added : List Observation} (h : ∀ o ∈ added, o.Outbound) :
    polledIn added = [] := by
  apply List.filterMap_eq_nil_iff.mpr
  intro o ho
  cases o with
  | submitted | handed | started | appended => rfl
  | polled e => exact (h _ ho).elim

namespace AppState

variable {lib : Libp2pIdentity} (deps : Deps lib)

/-- The peers follow the polled events, and no topic is kept for an empty set. -/
structure TracksMesh (st : AppState lib) : Prop where
  peers : st.peersOf = Mesh.after (fun _ => ∅) (polledIn st.log)
  nonempty : ∀ topic, st.topicPeers topic ≠ some ∅

lemma polledIn_drainEvent (selfPubkey : Option PubKey) (selfPeerId : String) (acc : DrainAcc lib)
    (e : NetEvent) :
    polledIn (drainEvent deps selfPubkey selfPeerId acc e).st.log = polledIn acc.st.log ++ [e] := by
  rcases drainEvent_cases deps selfPubkey selfPeerId acc e with
    ⟨hlog, -, -⟩ | ⟨_, _, _, _, _, -, -, hst⟩ | ⟨_, _, _, _, -, -, hst⟩
  · rw [hlog, polledIn_append]
    rfl
  · rw [hst]
    change polledIn ((acc.st.log ++ [.polled e]) ++ [.appended _ _]) = _
    rw [polledIn_append, polledIn_append]
    exact List.append_nil _
  · rw [hst]
    exact polledIn_append _ _

/-- A call that drains polls what `poll_events` returns, and nothing without a net. -/
lemma polledIn_drainNetEvents (st : AppState lib) (order : IterOrder String) (events : List NetEvent) :
    polledIn (drainNetEvents deps order st events).log =
      polledIn st.log ++ if st.net.isSome then events else [] := by
  have hloop : ∀ events, polledIn (drainEvents deps st events).st.log = polledIn st.log ++ events := by
    refine drainEvents_induction deps (motive := fun seen acc =>
      polledIn acc.st.log = polledIn st.log ++ seen) st (List.append_nil _).symm ?_
    intro pk id seen acc e ih
    rw [polledIn_drainEvent, ih, List.append_assoc]
  unfold drainNetEvents
  obtain ⟨added, hlog, hout⟩ := (quiet_finishDrain
    (order.walk (drainEvents deps st (if st.net.isSome then events else [])).topicsToFlush)
    (drainEvents deps st (if st.net.isSome then events else []))).log
  simp only [hlog, polledIn_append, polledIn_outbound hout, List.append_nil]
  exact hloop _

lemma join_nonempty (st : AppState lib) (topic peer t : String)
    (h : st.topicPeers t ≠ some ∅) : (st.join topic peer).topicPeers t ≠ some ∅ := by
  by_cases ht : t = topic
  · subst ht
    simp [join]
  · simpa [join, HashMap.insert_of_ne _ _ ht] using h

lemma leave_nonempty (st : AppState lib) (topic peer t : String)
    (h : st.topicPeers t ≠ some ∅) : (st.leave topic peer).topicPeers t ≠ some ∅ := by
  by_cases hset : (st.peersOf topic).erase peer = ∅
  · by_cases ht : t = topic
    · subst ht
      simp [leave, hset]
    · simpa [leave, hset, HashMap.remove_of_ne _ ht] using h
  · by_cases ht : t = topic
    · subst ht
      simp [leave, hset]
    · simpa [leave, hset, HashMap.insert_of_ne _ _ ht] using h

lemma dropPeer_nonempty {topicPeers : HashMap String (Finset String)} (peer t : String)
    (h : topicPeers t ≠ some ∅) : dropPeer topicPeers peer t ≠ some ∅ := by
  unfold dropPeer
  cases hset : topicPeers t with
  | none => simp
  | some set =>
    rw [hset] at h
    by_cases hmem : peer ∈ set
    · by_cases hlast : set.erase peer = ∅ <;> simp [hmem, hlast]
    · simpa [hmem] using h

lemma drainEvent_nonempty (selfPubkey : Option PubKey) (selfPeerId : String) (acc : DrainAcc lib)
    (e : NetEvent) (t : String) (h : acc.st.topicPeers t ≠ some ∅) :
    (drainEvent deps selfPubkey selfPeerId acc e).st.topicPeers t ≠ some ∅ := by
  cases e with
  | subscriptionChange topic peer joined =>
    cases joined with
    | true => exact join_nonempty _ topic peer t h
    | false => exact leave_nonempty _ topic peer t h
  | peerDown peer reason => exact dropPeer_nonempty peer t h
  | message topic peer bytes atMs =>
    simp only [drainEvent]
    split
    · split <;> exact h
    · split <;> exact h
  | peerUp | error => exact h

lemma tracksMesh_move (st st' : AppState lib) (h : TracksMesh st) (hmove : Move deps st st') :
    TracksMesh st' := by
  have hsame : ∀ (st' : AppState lib) (added : List Observation),
      st'.topicPeers = st.topicPeers → st'.log = st.log ++ added → polledIn added = [] →
      TracksMesh st' := by
    intro st' added hpeers hlog hadded
    refine ⟨?_, fun topic => hpeers ▸ h.nonempty topic⟩
    have hpeersOf : st'.peersOf = st.peersOf := by
      funext topic
      rw [peersOf, hpeers, peersOf]
    rw [hpeersOf, hlog, polledIn_append, hadded, List.append_nil]
    exact h.peers
  cases hmove with
  | quiet hquiet =>
    obtain ⟨added, hlog, hout⟩ := hquiet.log
    exact hsame st' added hquiet.topicPeers hlog (polledIn_outbound hout)
  | own _ body => exact hsame _ [.appended _ _] rfl rfl rfl
  | accept => exact hsame _ [] rfl (List.append_nil _).symm rfl
  | commit => exact hsame _ [.started _] rfl rfl rfl
  | event selfPubkey selfPeerId acc e =>
    refine ⟨?_, fun topic => drainEvent_nonempty deps selfPubkey selfPeerId acc e topic
      (h.nonempty topic)⟩
    rw [drainEvent_peersOf, polledIn_drainEvent, h.peers, Mesh.after, Mesh.after,
      List.foldl_append]
    rfl

lemma tracksMesh_run (dom : DomContext) (ops : List (ClientOp lib)) (st : AppState lib)
    (h : run deps (start dom) ops = .ok st) : TracksMesh st :=
  run_invariant (tracksMesh_move deps) ⟨rfl, by simp [start]⟩ h

/-- In every state a client reaches, a peer is listed under a topic exactly when it joined it and
neither left it nor went down since; no topic is kept without peers; and there is a mesh for a
topic exactly when such a peer exists. -/
theorem mesh_tracking_exact (dom : DomContext) (ops : List (ClientOp lib)) (st : AppState lib)
    (h : run deps (start dom) ops = .ok st) (topic : String) :
    let subscribed (peer : String) := ∃ pre post,
      polledIn st.log = pre ++ .subscriptionChange topic peer true :: post ∧
        ∀ e ∈ post, ¬Removes topic peer e
    (∀ peer, (∃ set, st.topicPeers topic = some set ∧ peer ∈ set) ↔ subscribed peer) ∧
      st.topicPeers topic ≠ some ∅ ∧ (st.hasMeshFor topic = true ↔ ∃ peer, subscribed peer) := by
  intro subscribed
  have htracks := tracksMesh_run deps dom ops st h
  have hmem : ∀ peer, peer ∈ st.peersOf topic ↔ subscribed peer := by
    intro peer
    rw [htracks.peers, Mesh.mem_after]
    simp [subscribed]
  refine ⟨fun peer => ?_, htracks.nonempty topic, ?_⟩
  · rw [← hmem peer, peersOf]
    cases st.topicPeers topic <;> simp
  · simp only [hasMeshFor, decide_eq_true_eq, ← Finset.nonempty_iff_ne_empty, Finset.Nonempty, hmem]

/-- Two batches: a peer joins twice and goes down; another one stays. -/
theorem mesh_tracking_exact_two :
    let lib := Libp2pIdentity.recorded []
    let config := Json.object [("bootstrap_addrs", .array [])]
    let deps : Deps lib := .plain (.ofTexts [(intoBytes "config", config)]) (fun _ => none)
    ∃ st, run deps (start .document) [
        .init "config" (.firstVisit (PubKey.replicate 7)),
        .pendingBytes [.subscriptionChange "pos" "a" true, .subscriptionChange "pos" "b" true,
          .subscriptionChange "pos" "a" true] ⟨id, fun _ => .refl _⟩ "pos",
        .pendingBytes [.peerDown "a" "bye"] ⟨id, fun _ => .refl _⟩ "pos"] = .ok st ∧
      st.hasMeshFor "pos" = true ∧ ∃ peer pre post,
        polledIn st.log = pre ++ .subscriptionChange "pos" peer true :: post ∧
          ∀ e ∈ post, ¬Removes "pos" peer e := by
  intro lib config deps
  obtain ⟨st, hrun, hmesh⟩ : ∃ st, run deps (start .document) [
        .init "config" (.firstVisit (PubKey.replicate 7)),
        .pendingBytes [.subscriptionChange "pos" "a" true, .subscriptionChange "pos" "b" true,
          .subscriptionChange "pos" "a" true] ⟨id, fun _ => .refl _⟩ "pos",
        .pendingBytes [.peerDown "a" "bye"] ⟨id, fun _ => .refl _⟩ "pos"] = .ok st ∧
      st.hasMeshFor "pos" = true := by
    refine ⟨_, rfl, ?_⟩
    rfl
  exact ⟨st, hrun, hmesh, (mesh_tracking_exact deps .document _ st hrun "pos").2.2.mp hmesh⟩

end AppState

end Laye
