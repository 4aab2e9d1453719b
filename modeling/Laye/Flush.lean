import Laye.Outbound

/-!
# When a flush meets a mesh

`drain_net_events` decides on a flush when a topic gains its first peer and carries it out after
the batch. By then the peer may be gone.
-/

namespace Laye

namespace AppState

variable {lib : Libp2pIdentity} (deps : Deps lib)

/-- Buffered payloads leave for topics somebody is subscribed to; the others stay. -/
def FlushesIntoLiveMesh (st st' : AppState lib) : Prop :=
  ∀ topic, ∃ flushed, handedFor topic st'.log = handedFor topic st.log ++ flushed ∧
    (flushed ≠ [] → st'.peersOf topic ≠ ∅) ∧
    (st'.peersOf topic = ∅ → st'.pendingOf topic = st.pendingOf topic)

lemma drainNetEvents_peersOf {st : AppState lib} {net : Net lib} (hnet : st.net = some net)
    (order : IterOrder String) (events : List NetEvent) (topic : String) :
    (drainNetEvents deps order st events).peersOf topic ≠ ∅ ↔
      Mesh.after st.peersOf events topic ≠ ∅ := by
  have hup := congrArg Outbox.Box.up (outbox_drainNetEvents deps hnet order events topic)
  exact decide_eq_decide.mp hup

/-- What a batch hands over, and what it leaves. -/
lemma drainNetEvents_flushed {st : AppState lib} {net : Net lib} (hnet : st.net = some net)
    (order : IterOrder String) (events : List NetEvent) (topic : String) :
    (Mesh.GainsFirstPeer st.peersOf events topic →
      handedFor topic (drainNetEvents deps order st events).log =
          handedFor topic st.log ++ st.pendingOf topic ∧
        (drainNetEvents deps order st events).pendingOf topic = []) ∧
    (¬Mesh.GainsFirstPeer st.peersOf events topic →
      handedFor topic (drainNetEvents deps order st events).log = handedFor topic st.log ∧
        (drainNetEvents deps order st events).pendingOf topic = st.pendingOf topic) := by
  classical
  have hbox := outbox_drainNetEvents deps hnet order events topic
  have hsent := congrArg Outbox.Box.sent hbox
  have hqueue := congrArg Outbox.Box.queue hbox
  constructor
  · intro hgains
    simp only [Outbox.Box.settle, hgains, decide_true, if_true] at hsent hqueue
    exact ⟨hsent, hqueue⟩
  · intro hgains
    simp only [Outbox.Box.settle, hgains, decide_false, Bool.false_eq_true, if_false] at hsent hqueue
    exact ⟨hsent, hqueue⟩

/-- Exactly when no payload is flushed into an empty mesh: no topic with buffered payloads gains
its first peer in a batch that leaves the topic without peers. -/
theorem flushesIntoLiveMesh_iff (order : IterOrder String) (st : AppState lib)
    (events : List NetEvent) :
    FlushesIntoLiveMesh st (drainNetEvents deps order st events) ↔
      st.net = none ∨ ∀ topic, st.pendingOf topic ≠ [] →
        Mesh.GainsFirstPeer st.peersOf events topic → Mesh.after st.peersOf events topic ≠ ∅ := by
  by_cases hnet : st.net = none
  · obtain ⟨page, rx, heq⟩ := drainNetEvents_unwired deps hnet order events
    refine iff_of_true (fun topic => ⟨[], ?_, by simp, fun _ => ?_⟩) (Or.inl hnet)
    · rw [heq, List.append_nil]
      rfl
    · rw [heq]
      rfl
  · obtain ⟨net, hnet'⟩ := Option.ne_none_iff_exists'.mp hnet
    have hpeers := drainNetEvents_peersOf deps hnet' order events
    have hmoved := drainNetEvents_flushed deps hnet' order events
    constructor
    · intro hlive
      refine Or.inr fun topic hpending hgains => ?_
      obtain ⟨flushed, hhanded, hmesh, -⟩ := hlive topic
      rw [((hmoved topic).1 hgains).1] at hhanded
      rw [← hpeers topic]
      exact hmesh (List.append_cancel_left hhanded ▸ hpending)
    · rintro (hnone | hcond) topic
      · exact absurd hnone hnet
      · by_cases hgains : Mesh.GainsFirstPeer st.peersOf events topic
        · obtain ⟨hhanded, hqueue⟩ := (hmoved topic).1 hgains
          refine ⟨st.pendingOf topic, hhanded, fun hp => (hpeers topic).mpr (hcond topic hp hgains), ?_⟩
          intro hempty
          by_contra hne
          have hp : st.pendingOf topic ≠ [] := fun hnil => hne (by rw [hqueue, hnil])
          exact (hpeers topic).mpr (hcond topic hp hgains) hempty
        · obtain ⟨hhanded, hqueue⟩ := (hmoved topic).2 hgains
          exact ⟨[], by rw [hhanded, List.append_nil], by simp, fun _ => hqueue⟩

/-- One payload buffered for `pos`, then a batch in which a peer joins `pos` and leaves again. -/
theorem flush_into_empty_mesh :
    let lib := Libp2pIdentity.recorded []
    let deps : Deps lib := .plain (.single [] .null) (fun _ => none)
    let key := PubKey.replicate 7
    let st : AppState lib := ((start .document).commit ⟨key, "", key, []⟩).publish "pos" [1]
    ¬FlushesIntoLiveMesh st (drainNetEvents deps ⟨id, fun _ => .refl _⟩ st
      [.subscriptionChange "pos" "peer" true, .subscriptionChange "pos" "peer" false]) := by
  intro lib deps key st hlive
  obtain ⟨flushed, hhanded, hmesh, -⟩ := hlive "pos"
  have hbefore : handedFor "pos" st.log = [] := by decide
  have hafter : handedFor "pos" (drainNetEvents deps ⟨id, fun _ => .refl _⟩ st
      [.subscriptionChange "pos" "peer" true, .subscriptionChange "pos" "peer" false]).log = [[1]] := by
    decide
  rw [hbefore, hafter, List.nil_append] at hhanded
  exact hmesh (by simp [← hhanded]) (by decide)

end AppState

end Laye
