import Mathlib.Algebra.Ring.Nat
import Mathlib.Data.List.Dedup
import Mathlib.Data.List.Infix
import Laye.Gateway

/-!
# The statistics of the relay

`RelayeStats` in `crates/relaye/src/status_page.rs`, without the start time and the two histories
that only the status page reads, and `handle_event` in `crates/relaye/src/main.rs`, which keeps
the counters.
-/

namespace Laye

/-- `u64::saturating_add` -/
def saturatingAdd (a b : UInt64) : UInt64 :=
  if a.toNat + b.toNat < 2 ^ 64 then a + b else UInt64.ofNat (2 ^ 64 - 1)

/-- `u64::saturating_sub` -/
def saturatingSub (a b : UInt64) : UInt64 := if b ≤ a then a - b else 0

lemma saturatingAdd_one {a : UInt64} {n bound : Nat} (ha : a.toNat = n) (hbound : bound < 2 ^ 64)
    (hn : n < bound) : (saturatingAdd a 1).toNat = n + 1 := by
  have hfits : a.toNat + (1 : UInt64).toNat < 2 ^ 64 := by
    rw [ha]
    change n + 1 < 2 ^ 64
    omega
  rw [saturatingAdd, if_pos hfits, UInt64.toNat_add, Nat.mod_eq_of_lt hfits, ha]
  rfl

lemma saturatingSub_one {a : UInt64} {n : Nat} (ha : a.toNat = n) (hn : 0 < n) :
    (saturatingSub a 1).toNat = n - 1 := by
  have hle : (1 : UInt64) ≤ a := by
    rw [UInt64.le_iff_toNat_le, ha]
    exact hn
  rw [saturatingSub, if_pos hle, UInt64.toNat_sub_of_le _ _ hle, ha]
  rfl

structure RelayeStats where
  peerCount : UInt64 := 0
  connCount : UInt64 := 0
  totalConnsAccepted : UInt64 := 0
  totalMsgsRelayed : UInt64 := 0
deriving DecidableEq

/-- The events of the swarm that `handle_event` tells apart. A connection has an identifier, which
the relay does not look at. -/
inductive SwarmEvent (PeerId : Type)
  | newListenAddr
  | connectionEstablished (peerId : PeerId) (connectionId : Nat)
  | connectionClosed (peerId : PeerId) (connectionId : Nat)
  | incomingConnectionError
  | outgoingConnectionError
  | message (topic : String) (data : Bytes)
  | subscribed (peerId : PeerId) (topic : String)
  | unsubscribed (peerId : PeerId) (topic : String)
  | other

variable {PeerId : Type} [DecidableEq PeerId]

/-- `handle_event`: the counters, and the registry that a message is broadcast to. -/
def handleEvent : RelayeStats × Gateway → SwarmEvent PeerId → RelayeStats × Gateway
  | (s, registry), .connectionEstablished _ _ =>
    ({ s with
        connCount := saturatingAdd s.connCount 1
        peerCount := saturatingAdd s.peerCount 1
        totalConnsAccepted := saturatingAdd s.totalConnsAccepted 1 }, registry)
  | (s, registry), .connectionClosed _ _ =>
    ({ s with
        connCount := saturatingSub s.connCount 1
        peerCount := saturatingSub s.peerCount 1 }, registry)
  | (s, registry), .message topic data =>
    ({ s with totalMsgsRelayed := saturatingAdd s.totalMsgsRelayed 1 }, registry.broadcast topic data)
  | relay, _ => relay

/-- The counters after a sequence of events. -/
def statsAfter (registry : Gateway) (events : List (SwarmEvent PeerId)) : RelayeStats :=
  (events.foldl handleEvent ({}, registry)).1

/-- The connections that are open, with their peers. -/
def openStep (conns : List (Nat × PeerId)) : SwarmEvent PeerId → List (Nat × PeerId)
  | .connectionEstablished peerId connectionId => (connectionId, peerId) :: conns
  | .connectionClosed peerId connectionId => conns.erase (connectionId, peerId)
  | _ => conns

def openAfter (events : List (SwarmEvent PeerId)) : List (Nat × PeerId) := events.foldl openStep []

def SwarmEvent.isEstablished : SwarmEvent PeerId → Bool
  | .connectionEstablished _ _ => true
  | _ => false

/-- A connection closes only while it is open. -/
def ClosesOpen (events : List (SwarmEvent PeerId)) : Prop :=
  ∀ before peerId connectionId, before ++ [.connectionClosed peerId connectionId] <+: events →
    (connectionId, peerId) ∈ openAfter before

/-- What the status page says the counters are. -/
structure CountsPeers (events : List (SwarmEvent PeerId)) (s : RelayeStats) : Prop where
  conns : s.connCount.toNat = (openAfter events).length
  peers : s.peerCount.toNat = ((openAfter events).map Prod.snd).dedup.length
  total : s.totalConnsAccepted.toNat = events.countP SwarmEvent.isEstablished

/-- No peer has two connections open. -/
def OneConnectionEach (events : List (SwarmEvent PeerId)) : Prop :=
  ((openAfter events).map Prod.snd).Nodup

/-- What the counters are: `peer_count` moves with `conn_count`. -/
structure CountsConnections (events : List (SwarmEvent PeerId)) (s : RelayeStats) : Prop where
  conns : s.connCount.toNat = (openAfter events).length
  peers : s.peerCount.toNat = (openAfter events).length
  total : s.totalConnsAccepted.toNat = events.countP SwarmEvent.isEstablished

lemma openAfter_snoc (events : List (SwarmEvent PeerId)) (e : SwarmEvent PeerId) :
    openAfter (events ++ [e]) = openStep (openAfter events) e := List.foldl_concat _ _ _ _

omit [DecidableEq PeerId] in
/-- A message is broadcast as the gateway's main loop does it. -/
lemma step_message (s : RelayeStats) (g : Gateway) (topic : String) (data : Bytes) :
    g.step (.message topic data) =
      some ((handleEvent (s, g) (.message topic data : SwarmEvent PeerId)).2.observe
        (.message topic data)) := rfl

omit [DecidableEq PeerId] in
lemma statsAfter_snoc (registry : Gateway) (events : List (SwarmEvent PeerId))
    (e : SwarmEvent PeerId) : ∃ g : Gateway,
    statsAfter registry (events ++ [e]) = (handleEvent (statsAfter registry events, g) e).1 := by
  have h := List.foldl_concat handleEvent ({}, registry) e events
  exact ⟨(events.foldl handleEvent ({}, registry)).2, congrArg Prod.fst h⟩

omit [DecidableEq PeerId] in
lemma countP_isEstablished_snoc (events : List (SwarmEvent PeerId)) (e : SwarmEvent PeerId) :
    (events ++ [e]).countP SwarmEvent.isEstablished =
      events.countP SwarmEvent.isEstablished + if e.isEstablished then 1 else 0 := by
  rw [List.countP_append, List.countP_singleton]

/-- There are no more connections open than have been established. -/
lemma length_openAfter_le (events : List (SwarmEvent PeerId)) :
    (openAfter events).length ≤ events.countP SwarmEvent.isEstablished := by
  induction events using List.reverseRecOn with
  | nil => exact Nat.le_refl 0
  | append_singleton events e ih =>
    rw [openAfter_snoc, countP_isEstablished_snoc]
    cases e with
    | connectionEstablished peerId connectionId => exact Nat.succ_le_succ ih
    | connectionClosed peerId connectionId =>
      have herase := (openAfter events).length_erase_le (a := (connectionId, peerId))
      exact Nat.le_trans herase ih
    | _ => exact ih

/-- One event: `peer_count` and `conn_count` follow the connections, whoever they belong to. -/
lemma CountsConnections.step {events : List (SwarmEvent PeerId)} {s : RelayeStats}
    (h : CountsConnections events s) (g : Gateway) (e : SwarmEvent PeerId)
    (hclosed : ClosesOpen (events ++ [e]))
    (hcount : (events ++ [e]).countP SwarmEvent.isEstablished < 2 ^ 64) :
    CountsConnections (events ++ [e]) (handleEvent (s, g) e).1 := by
  have hopen := length_openAfter_le events
  rw [countP_isEstablished_snoc] at hcount
  cases e with
  | connectionEstablished peerId connectionId =>
    have hopened : (openAfter (events ++ [.connectionEstablished peerId connectionId])).length =
        (openAfter events).length + 1 := by rw [openAfter_snoc, openStep, List.length_cons]
    have hlt := Nat.lt_succ_of_le hopen
    refine ⟨?_, ?_, ?_⟩
    · rw [hopened]
      exact saturatingAdd_one h.conns hcount hlt
    · rw [hopened]
      exact saturatingAdd_one h.peers hcount hlt
    · rw [countP_isEstablished_snoc]
      exact saturatingAdd_one h.total hcount (Nat.lt_succ_self _)
  | connectionClosed peerId connectionId =>
    have hmem : (connectionId, peerId) ∈ openAfter events :=
      hclosed events peerId connectionId (List.prefix_refl _)
    have hpos : 0 < (openAfter events).length := List.length_pos_of_mem hmem
    have hlength : (openAfter (events ++ [.connectionClosed peerId connectionId])).length =
        (openAfter events).length - 1 := by
      rw [openAfter_snoc, openStep, List.length_erase_of_mem hmem]
    refine ⟨?_, ?_, ?_⟩
    · rw [hlength]
      exact saturatingSub_one h.conns hpos
    · rw [hlength]
      exact saturatingSub_one h.peers hpos
    · rw [countP_isEstablished_snoc]
      exact h.total
  | _ => exact ⟨by rw [openAfter_snoc]; exact h.conns, by rw [openAfter_snoc]; exact h.peers,
      by rw [countP_isEstablished_snoc]; exact h.total⟩

lemma ClosesOpen.of_prefix {before events : List (SwarmEvent PeerId)} (h : ClosesOpen events)
    (hbefore : before <+: events) : ClosesOpen before :=
  fun earlier peerId connectionId hearlier =>
    h earlier peerId connectionId (hearlier.trans hbefore)

lemma closesOpen_nil : ClosesOpen ([] : List (SwarmEvent PeerId)) := by
  intro before peerId connectionId h
  have hle := h.length_le
  simp at hle

lemma ClosesOpen.snoc {events : List (SwarmEvent PeerId)} (h : ClosesOpen events)
    {e : SwarmEvent PeerId} (he : ∀ peerId connectionId, e = .connectionClosed peerId connectionId →
      (connectionId, peerId) ∈ openAfter events) : ClosesOpen (events ++ [e]) := by
  intro before peerId connectionId hbefore
  rcases List.prefix_concat_iff.mp hbefore with heq | hearlier
  · have hlast := List.append_inj' heq rfl
    have hclosed : e = .connectionClosed peerId connectionId := (List.singleton_inj.mp hlast.2).symm
    rw [hlast.1]
    exact he peerId connectionId hclosed
  · exact h before peerId connectionId hearlier

/-- `peer_count` counts connections, in every run. -/
theorem countsConnections (registry : Gateway) {events : List (SwarmEvent PeerId)}
    (hclosed : ClosesOpen events)
    (hcount : events.countP SwarmEvent.isEstablished < 2 ^ 64) :
    CountsConnections events (statsAfter registry events) := by
  induction events using List.reverseRecOn with
  | nil => exact ⟨rfl, rfl, rfl⟩
  | append_singleton events e ih =>
    have hbefore : events <+: events ++ [e] := List.prefix_append _ _
    have hle := hbefore.sublist.countP_le (p := SwarmEvent.isEstablished)
    obtain ⟨g, hg⟩ := statsAfter_snoc registry events e
    rw [hg]
    exact (ih (hclosed.of_prefix hbefore) (by omega)).step g e hclosed hcount

lemma CountsConnections.countsPeers_iff {events : List (SwarmEvent PeerId)} {s : RelayeStats}
    (h : CountsConnections events s) : CountsPeers events s ↔ OneConnectionEach events := by
  have hlength : ((openAfter events).map Prod.snd).length = (openAfter events).length :=
    List.length_map _
  constructor
  · intro hs
    have hpeers : ((openAfter events).map Prod.snd).dedup.length =
        ((openAfter events).map Prod.snd).length := by rw [hlength, ← h.peers, hs.peers]
    exact List.dedup_eq_self.mp ((List.dedup_sublist _).eq_of_length hpeers)
  · intro hone
    have hpeers : s.peerCount.toNat = ((openAfter events).map Prod.snd).dedup.length := by
      rw [List.dedup_eq_self.mpr hone, hlength, h.peers]
    exact ⟨h.conns, hpeers, h.total⟩

/-- The counters are those the status page shows after every event exactly when no peer ever has
two connections open. -/
theorem countsPeers_iff_oneConnectionEach (registry : Gateway) (events : List (SwarmEvent PeerId))
    (hclosed : ClosesOpen events)
    (hcount : events.countP SwarmEvent.isEstablished < 2 ^ 64) :
    (∀ before, before <+: events → CountsPeers before (statsAfter registry before)) ↔
      ∀ before, before <+: events → OneConnectionEach before := by
  have hconns : ∀ before, before <+: events →
      CountsConnections before (statsAfter registry before) := by
    intro before hbefore
    have hle := hbefore.sublist.countP_le (p := SwarmEvent.isEstablished)
    exact countsConnections registry (hclosed.of_prefix hbefore) (by omega)
  constructor
  · intro h before hbefore
    exact (hconns before hbefore).countsPeers_iff.mp (h before hbefore)
  · intro h before hbefore
    exact (hconns before hbefore).countsPeers_iff.mpr (h before hbefore)

/-- Two peers connect, and the first leaves. -/
def twoPeers : List (SwarmEvent String) :=
  [.connectionEstablished "a" 0, .connectionEstablished "b" 1, .connectionClosed "a" 0]

lemma closesOpen_twoPeers : ClosesOpen twoPeers :=
  ((closesOpen_nil.snoc (e := .connectionEstablished "a" 0) nofun).snoc
    (e := .connectionEstablished "b" 1) nofun).snoc (e := .connectionClosed "a" 0)
    (by rintro _ _ ⟨⟩; decide)

lemma oneConnectionEach_twoPeers : ∀ before, before <+: twoPeers → OneConnectionEach before := by
  intro before hbefore
  have hall : ∀ events ∈ twoPeers.inits, ((openAfter events).map Prod.snd).Nodup := by decide
  exact hall before ((List.mem_inits _ _).mpr hbefore)

theorem countsPeers_twoPeers : CountsPeers twoPeers (statsAfter .start twoPeers) :=
  (countsPeers_iff_oneConnectionEach .start twoPeers closesOpen_twoPeers (by decide)).mpr
    oneConnectionEach_twoPeers twoPeers (List.prefix_refl _)

/-- A peer that holds two connections is counted twice. -/
theorem two_connections_of_one_peer :
    ¬∀ events : List (SwarmEvent String), ClosesOpen events →
      events.countP SwarmEvent.isEstablished < 2 ^ 64 →
      ∀ before, before <+: events → CountsPeers before (statsAfter .start before) := by
  intro h
  have hclosed : ClosesOpen [.connectionEstablished "a" 0, .connectionEstablished "a" 1] :=
    (closesOpen_nil.snoc (e := .connectionEstablished "a" 0) nofun).snoc
      (e := .connectionEstablished "a" 1) nofun
  have hcounts := h _ hclosed (by decide) _ (List.prefix_refl _)
  exact absurd hcounts.peers (by decide)

end Laye
