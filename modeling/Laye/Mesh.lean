import Laye.Client

/-!
# Who is subscribed

For every topic, the peers seen to subscribe and not to leave since. The client tracks them in
`topic_peers`, and marks for a flush every topic that gains its first peer during a batch.
-/

namespace Laye

/-- The subscribed peers of each topic. -/
abbrev Mesh := String → Finset String

/-- An event after which `peer` is not subscribed to `topic`. -/
def Removes (topic peer : String) : NetEvent → Prop
  | .subscriptionChange t p joined => t = topic ∧ p = peer ∧ joined = false
  | .peerDown p _ => p = peer
  | _ => False

namespace Mesh

def step (mesh : Mesh) : NetEvent → Mesh
  | .subscriptionChange topic peer true => Function.update mesh topic (insert peer (mesh topic))
  | .subscriptionChange topic peer false => Function.update mesh topic ((mesh topic).erase peer)
  | .peerDown peer _ => fun topic => (mesh topic).erase peer
  | _ => mesh

def after (mesh : Mesh) (events : List NetEvent) : Mesh := events.foldl step mesh

@[simp] lemma after_nil (mesh : Mesh) : mesh.after [] = mesh := rfl

@[simp] lemma after_cons (mesh : Mesh) (e : NetEvent) (events : List NetEvent) :
    mesh.after (e :: events) = (mesh.step e).after events := rfl

lemma mem_step (mesh : Mesh) (e : NetEvent) (topic peer : String) :
    peer ∈ mesh.step e topic ↔
      e = .subscriptionChange topic peer true ∨ (peer ∈ mesh topic ∧ ¬Removes topic peer e) := by
  cases e with
  | subscriptionChange t p joined =>
    by_cases ht : t = topic
    · subst ht
      cases joined with
      | true =>
        simp [step, Removes]
        grind
      | false =>
        simp [step, Removes]
        grind
    · have hne : topic ≠ t := fun h => ht h.symm
      cases joined <;> simp [step, Removes, ht, Function.update_of_ne hne]
  | peerDown p reason =>
    simp [step, Removes]
    grind
  | peerUp | message | error => simp [step, Removes]

/-- A peer is subscribed when it joined, or was there before, and nothing removed it since. -/
theorem mem_after (mesh : Mesh) (events : List NetEvent) (topic peer : String) :
    peer ∈ mesh.after events topic ↔
      (∃ pre post, events = pre ++ .subscriptionChange topic peer true :: post ∧
        ∀ e ∈ post, ¬Removes topic peer e) ∨
      (peer ∈ mesh topic ∧ ∀ e ∈ events, ¬Removes topic peer e) := by
  induction events generalizing mesh with
  | nil => simp
  | cons e events ih =>
    rw [after_cons, ih, mem_step]
    constructor
    · rintro (⟨pre, post, rfl, hpost⟩ | ⟨rfl | ⟨hm, he⟩, hrest⟩)
      · exact Or.inl ⟨e :: pre, post, rfl, hpost⟩
      · exact Or.inl ⟨[], events, rfl, hrest⟩
      · exact Or.inr ⟨hm, List.forall_mem_cons.mpr ⟨he, hrest⟩⟩
    · rintro (⟨pre, post, heq, hpost⟩ | ⟨hm, hall⟩)
      · cases pre with
        | nil =>
          obtain ⟨rfl, rfl⟩ := List.cons.inj heq
          exact Or.inr ⟨Or.inl rfl, hpost⟩
        | cons e' pre =>
          obtain ⟨rfl, rfl⟩ := List.cons.inj heq
          exact Or.inl ⟨pre, post, rfl, hpost⟩
      · obtain ⟨he, hrest⟩ := List.forall_mem_cons.mp hall
        exact Or.inr ⟨Or.inr ⟨hm, he⟩, hrest⟩

/-- Some peer joins `topic` at a moment when nobody is subscribed to it. -/
def GainsFirstPeer (mesh : Mesh) (events : List NetEvent) (topic : String) : Prop :=
  ∃ pre peer post, events = pre ++ .subscriptionChange topic peer true :: post ∧
    mesh.after pre topic = ∅

lemma gainsFirstPeer_nil (mesh : Mesh) (topic : String) : ¬mesh.GainsFirstPeer [] topic := by
  rintro ⟨pre, peer, post, heq, -⟩
  simp at heq

lemma gainsFirstPeer_cons (mesh : Mesh) (e : NetEvent) (events : List NetEvent) (topic : String) :
    mesh.GainsFirstPeer (e :: events) topic ↔
      ((∃ peer, e = .subscriptionChange topic peer true) ∧ mesh topic = ∅) ∨
        (mesh.step e).GainsFirstPeer events topic := by
  constructor
  · rintro ⟨pre, peer, post, heq, hempty⟩
    cases pre with
    | nil =>
      obtain ⟨rfl, rfl⟩ := List.cons.inj heq
      exact Or.inl ⟨⟨peer, rfl⟩, hempty⟩
    | cons e' pre =>
      obtain ⟨rfl, rfl⟩ := List.cons.inj heq
      exact Or.inr ⟨pre, peer, post, rfl, hempty⟩
  · rintro (⟨⟨peer, rfl⟩, hempty⟩ | ⟨pre, peer, post, rfl, hempty⟩)
    · exact ⟨[], peer, events, rfl, hempty⟩
    · exact ⟨e :: pre, peer, post, rfl, hempty⟩

/-- A mesh that was empty and is not has gained a first peer. -/
lemma gainsFirstPeer_of_nonempty {mesh : Mesh} {events : List NetEvent} {topic : String}
    (hempty : mesh topic = ∅) (h : mesh.after events topic ≠ ∅) :
    mesh.GainsFirstPeer events topic := by
  induction events generalizing mesh with
  | nil => exact absurd hempty h
  | cons e events ih =>
    rw [gainsFirstPeer_cons]
    by_cases hstep : mesh.step e topic = ∅
    · exact Or.inr (ih hstep h)
    · obtain ⟨peer, hpeer⟩ := Finset.nonempty_iff_ne_empty.mpr hstep
      rcases (mesh.mem_step e topic peer).mp hpeer with rfl | ⟨hm, -⟩
      · exact Or.inl ⟨⟨peer, rfl⟩, hempty⟩
      · simp [hempty] at hm

end Mesh

namespace AppState

variable {lib : Libp2pIdentity} (deps : Deps lib)

/-! ### One event -/

lemma peersOf_join (st : AppState lib) (topic peer : String) :
    (st.join topic peer).peersOf = Function.update st.peersOf topic (insert peer (st.peersOf topic)) := by
  funext t
  by_cases ht : t = topic
  · subst ht
    simp [join, peersOf]
  · simp [join, peersOf, HashMap.insert_of_ne _ _ ht, Function.update_of_ne ht]

lemma peersOf_leave (st : AppState lib) (topic peer : String) :
    (st.leave topic peer).peersOf = Function.update st.peersOf topic ((st.peersOf topic).erase peer) := by
  have hstore : ∀ (m : HashMap String (Finset String)) (set : Finset String) (t : String),
      ((if set = ∅ then m.remove topic else m.insert topic set) t).getD ∅ =
        if t = topic then set else (m t).getD ∅ := by
    intro m set t
    by_cases ht : t = topic
    · subst ht
      by_cases hset : set = ∅ <;> simp [hset]
    · by_cases hset : set = ∅ <;>
        simp [hset, ht, HashMap.insert_of_ne _ _ ht, HashMap.remove_of_ne _ ht]
  funext t
  rw [Function.update_apply]
  exact hstore _ _ t

lemma peersOf_dropPeer (st : AppState lib) (peer : String) :
    { st with topicPeers := dropPeer st.topicPeers peer }.peersOf =
      fun topic => (st.peersOf topic).erase peer := by
  funext topic
  simp only [peersOf, dropPeer]
  cases hset : st.topicPeers topic with
  | none => simp
  | some set =>
    by_cases hlast : peer ∈ set ∧ set.erase peer = ∅
    · simp [hlast.1, hlast.2]
    · simp [if_neg hlast]

/-- The client follows the mesh. -/
theorem drainEvent_peersOf (selfPubkey : Option PubKey) (selfPeerId : String) (acc : DrainAcc lib)
    (e : NetEvent) :
    (drainEvent deps selfPubkey selfPeerId acc e).st.peersOf = Mesh.step acc.st.peersOf e := by
  cases e with
  | subscriptionChange topic peer joined =>
    cases joined with
    | true => exact peersOf_join _ topic peer
    | false => exact peersOf_leave _ topic peer
  | peerDown peer reason => exact peersOf_dropPeer _ peer
  | message topic peer bytes atMs =>
    simp only [drainEvent]
    split
    · split <;> rfl
    · split <;> rfl
  | peerUp | error => rfl

lemma drainEvent_topicsToFlush (selfPubkey : Option PubKey) (selfPeerId : String) (acc : DrainAcc lib)
    (e : NetEvent) (topic : String) :
    topic ∈ (drainEvent deps selfPubkey selfPeerId acc e).topicsToFlush ↔
      topic ∈ acc.topicsToFlush ∨
        ((∃ peer, e = .subscriptionChange topic peer true) ∧ acc.st.peersOf topic = ∅) := by
  cases e with
  | subscriptionChange t peer joined =>
    cases joined with
    | true =>
      have hobs : (acc.st.observe (.polled (.subscriptionChange t peer true))).peersOf t =
          acc.st.peersOf t := rfl
      simp only [drainEvent, if_true, hobs]
      by_cases hempty : acc.st.peersOf t = ∅
      · rw [if_pos hempty, List.mem_insert_iff]
        constructor
        · rintro (rfl | h)
          · exact Or.inr ⟨⟨peer, rfl⟩, hempty⟩
          · exact Or.inl h
        · rintro (h | ⟨⟨p, hp⟩, -⟩)
          · exact Or.inr h
          · simp only [NetEvent.subscriptionChange.injEq] at hp
            exact Or.inl hp.1.symm
      · rw [if_neg hempty]
        constructor
        · exact Or.inl
        · rintro (h | ⟨⟨p, hp⟩, hnone⟩)
          · exact h
          · simp only [NetEvent.subscriptionChange.injEq] at hp
            exact absurd (hp.1 ▸ hnone) hempty
    | false => simp [drainEvent]
  | peerDown | peerUp | error => simp [drainEvent]
  | message t peer bytes atMs =>
    simp only [drainEvent]
    split
    · split <;> simp
    · split <;> simp

/-! ### A batch -/

lemma foldl_drainEvent_peersOf (selfPubkey : Option PubKey) (selfPeerId : String)
    (events : List NetEvent) (acc : DrainAcc lib) :
    (events.foldl (drainEvent deps selfPubkey selfPeerId) acc).st.peersOf =
      Mesh.after acc.st.peersOf events := by
  induction events generalizing acc with
  | nil => rfl
  | cons e events ih => rw [List.foldl_cons, ih, drainEvent_peersOf, Mesh.after_cons]

lemma foldl_drainEvent_topicsToFlush (selfPubkey : Option PubKey) (selfPeerId : String)
    (events : List NetEvent) (acc : DrainAcc lib) (topic : String) :
    topic ∈ (events.foldl (drainEvent deps selfPubkey selfPeerId) acc).topicsToFlush ↔
      topic ∈ acc.topicsToFlush ∨ Mesh.GainsFirstPeer acc.st.peersOf events topic := by
  induction events generalizing acc with
  | nil => simp [Mesh.gainsFirstPeer_nil]
  | cons e events ih =>
    rw [List.foldl_cons, ih, drainEvent_topicsToFlush, drainEvent_peersOf, Mesh.gainsFirstPeer_cons,
      or_assoc]

theorem drainEvents_peersOf (st : AppState lib) (events : List NetEvent) :
    (drainEvents deps st events).st.peersOf = Mesh.after st.peersOf events :=
  foldl_drainEvent_peersOf deps _ _ events _

/-- The topics to flush are those that gain their first peer somewhere in the batch. -/
theorem mem_drainEvents_topicsToFlush (st : AppState lib) (events : List NetEvent) (topic : String) :
    topic ∈ (drainEvents deps st events).topicsToFlush ↔
      Mesh.GainsFirstPeer st.peersOf events topic := by
  rw [drainEvents, foldl_drainEvent_topicsToFlush]
  simp

end AppState

end Laye
