import Laye.Scene
import Laye.Calls

/-!
# The game over the client

The systems that `bevy-starter` runs once a frame, on the client's exports: publish the own
position, take the frames that came in, draw the other players. The throttle of the publisher is
left to the surroundings, which say in which frames it lets a position through.
-/

namespace Laye

structure Game (lib : Libp2pIdentity) (F : Type) where
  st : AppState lib
  scene : Scene F
  history : List Scene.Moment

/-- What the surroundings give to one frame: the own position with its time when one is due, the
events behind the two drains, the two readings of the clock, and the orders of the walks. -/
structure Tick (F : Type) where
  due : Option (Vec3 F × UInt64)
  pendingEvents : List NetEvent
  pendingOrder : IterOrder String
  recvEvents : List NetEvent
  recvOrder : IterOrder String
  drainMs : UInt64
  walk : IterOrder (String × RemoteEntry F)
  renderMs : UInt64

namespace Game

open AppState

variable {lib : Libp2pIdentity} {F : Type}

def start (dom : DomContext) : Game lib F := ⟨AppState.start dom, Scene.empty, []⟩

def publishSelfPosition (deps : Deps lib) (floats : Floats F) (due : Option (Vec3 F × UInt64))
    (st : AppState lib) : AppState lib :=
  match due with
  | none => st
  | some (pos, atMs) =>
    st.publish POSITIONS_TOPIC
      (deps.serde.toVec (StarterPosition.toJson floats ⟨st.peerIdHex, pos.x, pos.y, pos.z, atMs⟩))

def drainPositionEvents (deps : Deps lib) (floats : Floats F) (tick : Tick F) (g : Game lib F) :
    Except Fault (Game lib F) := do
  let (n, st) := pendingBytes deps tick.pendingOrder g.st tick.pendingEvents POSITIONS_TOPIC
  if n = 0 then return { g with st }
  let (buf, st) ← recvBytes deps tick.recvOrder st tick.recvEvents POSITIONS_TOPIC
  let frames ← splitFrames buf
  return {
    st
    scene := frames.foldl (Scene.hear deps.serde floats st.peerIdHex tick.drainMs) g.scene
    history := g.history ++ frames.map (.heard st.peerIdHex tick.drainMs) }

def renderRemotePlayers (tick : Tick F) (g : Game lib F) : Game lib F :=
  { g with
    scene := g.scene.render tick.walk tick.renderMs
    history := g.history ++ [.rendered tick.renderMs] }

/-- `(publish_self_position, drain_position_events, render_remote_players).chain()` -/
def update (deps : Deps lib) (floats : Floats F) (tick : Tick F) (g : Game lib F) :
    Except Fault (Game lib F) := do
  let g := { g with st := publishSelfPosition deps floats tick.due g.st }
  let g ← drainPositionEvents deps floats tick g
  return renderRemotePlayers tick g

/-- The positions that wait are no longer than a slice on wasm32. -/
def Fits (deps : Deps lib) (floats : Floats F) (tick : Tick F) (st : AppState lib) : Prop :=
  let st := publishSelfPosition deps floats tick.due st
  let st := drainNetEvents deps tick.pendingOrder st tick.pendingEvents
  let st := drainNetEvents deps tick.recvOrder st tick.recvEvents
  framedSize (st.rx.queue POSITIONS_TOPIC) ≤ ISIZE_MAX

/-- Calls by the page and the user, and the frames of the game. -/
inductive Step (deps : Deps lib) (floats : Floats F) : Game lib F → Game lib F → Prop
  | call (g : Game lib F) (op : ClientOp lib) (st' : AppState lib) (hop : op.drains = false)
      (h : step deps g.st op = .ok st') : Step deps floats g { g with st := st' }
  | update (g g' : Game lib F) (tick : Tick F) (hfits : Fits deps floats tick g.st)
      (h : update deps floats tick g = .ok g') : Step deps floats g g'

abbrev Run (deps : Deps lib) (floats : Floats F) : Game lib F → Game lib F → Prop :=
  Relation.ReflTransGen (Step deps floats)

/-! ### From the network to the scene -/

/-- What was heard on a topic and what waits there is what was polled for it. -/
def Received (topic : String) (heard : List Bytes) (st : AppState lib) : Prop :=
  heard ++ st.rx.queue topic = messagesFor topic (polledIn st.log)

variable {deps : Deps lib} {floats : Floats F} {dom : DomContext} {st st' : AppState lib}
  {topic : String} {heard : List Bytes}

lemma received_undrained (h : Received topic heard st) (hsame : Undrained st st') :
    Received topic heard st' := by
  rw [Received, RxState.queue, hsame.rx, hsame.polled]
  exact h

/-- Messages on a topic of the host are passed on to the queues, all of them. -/
lemma messagesFor_opaque (htopic : isInternalTopic topic = false) (events : List NetEvent) :
    messagesFor topic (events.filter (isOpaque deps)) = messagesFor topic events := by
  rw [messagesFor, List.filterMap_filter, messagesFor]
  congr 1
  funext e
  cases e with
  | message t sender bytes atMs =>
    by_cases ht : t = topic
    · subst ht
      simp only [isInternalTopic, Bool.or_eq_false_iff, beq_eq_false_iff_ne] at htopic
      obtain ⟨⟨hchat, hlegacy⟩, hidentity⟩ := htopic
      simp [isOpaque, hchat, hlegacy, hidentity]
    · simp [ht]
  | _ => simp

lemma received_drain (deps : Deps lib) (htopic : isInternalTopic topic = false) (h : Received topic heard st)
    (order : IterOrder String) (events : List NetEvent) :
    Received topic heard (drainNetEvents deps order st events) := by
  rw [Received, rx_drainNetEvents, RxState.queue_ingest, drainEvents_opaqueEvents,
    messagesFor_opaque htopic, polledIn_drainNetEvents, messagesFor_append, ← List.append_assoc, h]

lemma framedSize_append (as bs : List Bytes) : framedSize (as ++ bs) = framedSize as + framedSize bs := by
  simp [framedSize]

/-- A drain only adds to a queue. -/
lemma framedSize_drain_le (deps : Deps lib) (st : AppState lib) (order : IterOrder String) (events : List NetEvent)
    (topic : String) : framedSize (st.rx.queue topic) ≤
      framedSize ((drainNetEvents deps order st events).rx.queue topic) := by
  rw [rx_drainNetEvents, RxState.queue_ingest, framedSize_append]
  exact Nat.le_add_right _ _

lemma queue_eq_nil_of_framedSize {queue : List Bytes} (h : framedSize queue = 0) : queue = [] := by
  cases queue with
  | nil => rfl
  | cons b queue => simp [framedSize] at h

lemma positions_not_internal : isInternalTopic POSITIONS_TOPIC = false := by decide

/-- A frame of the game takes in all positions that were polled, in order. -/
lemma drainPositionEvents_spec (deps : Deps lib) (floats : Floats F) (g : Game lib F) {tick : Tick F}
    (h : Received POSITIONS_TOPIC heard g.st) (hsize : framedSize ((drainNetEvents deps tick.recvOrder
      (drainNetEvents deps tick.pendingOrder g.st tick.pendingEvents) tick.recvEvents).rx.queue
        POSITIONS_TOPIC) ≤ ISIZE_MAX) :
    ∃ st' frames, drainPositionEvents deps floats tick g = .ok {
        st := st'
        scene := frames.foldl (Scene.hear deps.serde floats st'.peerIdHex tick.drainMs) g.scene
        history := g.history ++ frames.map (.heard st'.peerIdHex tick.drainMs) } ∧
      Received POSITIONS_TOPIC (heard ++ frames) st' ∧ st'.rx.queue POSITIONS_TOPIC = [] := by
  have hbound : ISIZE_MAX < 2 ^ 32 := by decide
  have hpolled := received_drain deps positions_not_internal h tick.pendingOrder
    tick.pendingEvents
  unfold drainPositionEvents pendingBytes
  generalize drainNetEvents deps tick.pendingOrder g.st tick.pendingEvents = st₂ at *
  have hle := framedSize_drain_le deps st₂ tick.recvOrder tick.recvEvents POSITIONS_TOPIC
  have hpending : (st₂.rx.pendingBytes POSITIONS_TOPIC).toNat = framedSize (st₂.rx.queue POSITIONS_TOPIC) :=
    pendingBytes_eq st₂.rx POSITIONS_TOPIC (by rw [RxState.queuedBytes]; omega)
  by_cases hnone : st₂.rx.pendingBytes POSITIONS_TOPIC = 0
  · have hqueue : st₂.rx.queue POSITIONS_TOPIC = [] := by
      apply queue_eq_nil_of_framedSize
      rw [← hpending, hnone]
      rfl
    refine ⟨st₂, [], ?_, by simpa using hpolled, hqueue⟩
    simp only [hnone, if_true]
    simp [pure, Except.pure]
  · obtain ⟨buf, st₃, hrecv, hbuf, hempty⟩ := recvBytes_spec deps tick.recvOrder st₂
      tick.recvEvents POSITIONS_TOPIC (by rw [RxState.queuedBytes]; omega)
    obtain ⟨rx, written, -, rfl⟩ := recvBytes_eq_ok hrecv
    have hframes : splitFrames buf = .ok _ := hbuf ▸ splitFrames_encode hsize
    refine ⟨_, (drainNetEvents deps tick.recvOrder st₂ tick.recvEvents).rx.queue POSITIONS_TOPIC,
      ?_, ?_, hempty⟩
    · simp only [hnone, if_false, hrecv, hframes, bind, Except.bind, pure, Except.pure]
    · rw [Received, hempty, List.append_nil]
      exact received_drain deps positions_not_internal hpolled tick.recvOrder tick.recvEvents

/-- The frames heard, in order. -/
def heardFrames (history : List Scene.Moment) : List Bytes :=
  history.filterMap fun
    | .heard _ _ frame => some frame
    | .rendered _ => none

lemma heardFrames_append (as bs : List Scene.Moment) :
    heardFrames (as ++ bs) = heardFrames as ++ heardFrames bs :=
  List.filterMap_append

lemma heardFrames_heard (selfPeer : String) (now : UInt64) (frames : List Bytes) :
    heardFrames (frames.map (.heard selfPeer now)) = frames := by
  simp [heardFrames, List.filterMap_map]

/-- What holds between two frames of the game. -/
structure Sound (deps : Deps lib) (floats : Floats F) (g : Game lib F) : Prop where
  received : Received POSITIONS_TOPIC (heardFrames g.history) g.st
  taken : g.st.rx.queue POSITIONS_TOPIC = []
  scene : g.scene.Sound deps.serde floats g.history
  shown : ∀ e ∈ g.scene.remotes, Scene.ShownIn g.scene.world e

lemma received_publishSelf (h : Received topic heard st) (due : Option (Vec3 F × UInt64)) :
    Received topic heard (publishSelfPosition deps floats due st) := by
  cases due with
  | none => exact h
  | some own =>
    obtain ⟨pos, atMs⟩ := own
    have hstep : ∀ bytes, step deps st (.publish POSITIONS_TOPIC bytes) =
        .ok (st.publish POSITIONS_TOPIC bytes) := fun _ => rfl
    exact received_undrained h (undrained_step deps rfl (hstep _))

/-- A frame of the game whose positions fit does not fail, and keeps the invariant. -/
lemma sound_update {g : Game lib F} {tick : Tick F} (h : Sound deps floats g)
    (hfits : Fits deps floats tick g.st) :
    ∃ g', update deps floats tick g = .ok g' ∧ Sound deps floats g' := by
  obtain ⟨st', frames, hdrain, hreceived, hempty⟩ := drainPositionEvents_spec deps floats
    { g with st := publishSelfPosition deps floats tick.due g.st } (received_publishSelf h.received tick.due) hfits
  have hscene := Scene.sound_foldl_hear h.scene st'.peerIdHex tick.drainMs frames
  obtain ⟨hrendered, hshown⟩ := Scene.sound_render hscene tick.walk tick.renderMs
  refine ⟨_, by simp only [update, hdrain]; rfl, ?_, hempty, hrendered, hshown⟩
  have hheard : heardFrames ((g.history ++ frames.map (.heard st'.peerIdHex tick.drainMs)) ++
      [.rendered tick.renderMs]) = heardFrames g.history ++ frames := by
    rw [heardFrames_append, heardFrames_append, heardFrames_heard]
    exact List.append_nil _
  change Received POSITIONS_TOPIC (heardFrames _) st'
  rw [renderRemotePlayers, hheard]
  exact hreceived

lemma sound_step {g g' : Game lib F} (h : Sound deps floats g) (hstep : Step deps floats g g') :
    Sound deps floats g' := by
  cases hstep with
  | call op st' hop hcall =>
    have hsame := undrained_step deps hop hcall
    exact ⟨received_undrained h.received hsame, by rw [RxState.queue, hsame.rx]; exact h.taken,
      h.scene, h.shown⟩
  | update _ tick hfits hupdate =>
    obtain ⟨g₁, heq, hsound⟩ := sound_update h hfits
    rw [hupdate] at heq
    cases heq
    exact hsound

lemma sound_run {g : Game lib F} (hrun : Run deps floats (start dom) g) : Sound deps floats g := by
  induction hrun with
  | refl => exact ⟨rfl, rfl, Scene.sound_empty _ _, by simp [start, Scene.empty]⟩
  | tail _ hstep ih => exact sound_step ih hstep

/-! ### What the player sees -/

/-- The world has a cell for the peer, and it stands there. -/
def Shows (scene : Scene F) (name : String) (pos : Vec3 F) : Prop :=
  ∃ entry id, (name, entry) ∈ scene.remotes ∧ entry.entity = some id ∧
    scene.world.cells id = some pos

/-- The moment neither tells another position of the peer nor finds the one told at `now` stale. -/
def Leaves (deps : Deps lib) (floats : Floats F) (name : String) (now : UInt64) : Scene.Moment → Prop
  | .heard selfPeer _ frame => ∀ pos, Scene.told deps.serde floats selfPeer frame ≠ some (name, pos)
  | .rendered renderMs => Scene.isStale renderMs now = false

lemma shows_iff {g : Game lib F} (h : Sound deps floats g) (name : String) (pos : Vec3 F) :
    Shows g.scene name pos ↔ ∃ seen, (name, pos, seen) ∈ Scene.known g.scene.remotes := by
  constructor
  · rintro ⟨entry, id, hentry, hid, hcell⟩
    obtain ⟨id', hid', hcell'⟩ := h.shown _ hentry
    obtain rfl : id = id' := Option.some.inj (hid.symm.trans hid')
    obtain rfl : pos = entry.pos := Option.some.inj (hcell.symm.trans hcell')
    exact ⟨entry.lastSeenMs, List.mem_map.mpr ⟨_, hentry, rfl⟩⟩
  · rintro ⟨seen, hknown⟩
    obtain ⟨⟨name', entry⟩, hentry, heq⟩ := List.mem_map.mp hknown
    cases heq
    obtain ⟨id, hid, hcell⟩ := h.shown _ hentry
    exact ⟨entry, id, hentry, hid, hcell⟩

lemma spares_iff {name : String} {pos : Vec3 F} {now : UInt64} {later : List Scene.Moment} :
    (∀ a ∈ later.filterMap (Scene.Moment.move deps.serde floats), a.Spares name (pos, now)) ↔
      ∀ m ∈ later, Leaves deps floats name now m := by
  simp only [List.mem_filterMap, forall_exists_index, and_imp]
  constructor
  · intro h m hm
    cases m with
    | heard selfPeer at_ frame =>
      intro pos' htold
      refine h (.put name (pos', at_)) _ hm ?_ rfl
      simp [Scene.Moment.move, htold]
    | rendered renderMs => simpa [Expiry.Move.Spares, Leaves] using h _ _ hm rfl
  · intro h a m hm hmove
    have hleaves := h m hm
    cases m with
    | heard selfPeer at_ frame =>
      obtain ⟨⟨name', pos'⟩, htold, rfl⟩ := Option.map_eq_some_iff.mp hmove
      rintro rfl
      exact hleaves pos' htold
    | rendered renderMs =>
      cases hmove
      simpa [Expiry.Move.Spares, Leaves] using hleaves

/-- In every state of the game: the frames it took in are the positions polled, each once and in
order; a frame whose positions fit does not fail; a peer's cell stands where the last position told
under its name says, as long as no drawing found that one stale; and every cell is of one peer. -/
theorem others_stand_where_last_heard {g : Game lib F} (hrun : Run deps floats (start dom) g) :
    heardFrames g.history = messagesFor POSITIONS_TOPIC (polledIn g.st.log) ∧
    (∀ tick, Fits deps floats tick g.st → ∃ g', update deps floats tick g = .ok g') ∧
    (∀ name pos, Shows g.scene name pos ↔ ∃ earlier selfPeer now frame later,
      g.history = earlier ++ .heard selfPeer now frame :: later ∧
        Scene.told deps.serde floats selfPeer frame = some (name, pos) ∧
        ∀ m ∈ later, Leaves deps floats name now m) ∧
    ∀ id, (g.scene.world.cells id).isSome = true →
      ∃! name, ∃ entry, (name, entry) ∈ g.scene.remotes ∧ entry.entity = some id := by
  have h := sound_run hrun
  refine ⟨?_, fun tick hfits => ?_, fun name pos => ?_, fun id hid => ?_⟩
  · have hreceived := h.received
    rwa [Received, h.taken, List.append_nil] at hreceived
  · obtain ⟨g', hupdate, -⟩ := sound_update h hfits
    exact ⟨g', hupdate⟩
  · simp only [shows_iff h, h.scene.remembers, Expiry.swept_eq_some_iff]
    constructor
    · rintro ⟨now, earlier, later, hmoves, hlater⟩
      obtain ⟨before, rest, hhistory, -, hrest⟩ := List.filterMap_eq_append_iff.mp hmoves
      obtain ⟨quiet, m, after, rfl, -, hm, rfl⟩ := List.filterMap_eq_cons_iff.mp hrest
      cases m with
      | rendered renderMs => cases hm
      | heard selfPeer at_ frame =>
        obtain ⟨⟨name', pos'⟩, htold, hput⟩ := Option.map_eq_some_iff.mp hm
        cases hput
        exact ⟨before ++ quiet, selfPeer, now, frame, after, by simp [hhistory], htold,
          spares_iff.mp hlater⟩
    · rintro ⟨earlier, selfPeer, now, frame, later, hhistory, htold, hlater⟩
      refine ⟨now, earlier.filterMap (Scene.Moment.move deps.serde floats),
        later.filterMap (Scene.Moment.move deps.serde floats), ?_, spares_iff.mpr hlater⟩
      simp [hhistory, Scene.Moment.move, htold]
  · obtain ⟨e, he, hentity⟩ := (h.scene.placed.owned id).mp hid
    refine ⟨e.1, ⟨e.2, he, hentity⟩, ?_⟩
    rintro name ⟨entry, hentry, hid'⟩
    exact h.scene.placed.apart _ hentry e he id hid' hentity

section Example

def exampleFloats : Floats JsonNumber := ⟨id, .number⟩

/-- A configuration, and a position that a peer tells. -/
def exampleDeps : Deps (Libp2pIdentity.recorded []) :=
  .plain (.ofTexts [(intoBytes "config", .object [("bootstrap_addrs", .array [])]),
    ([1], StarterPosition.toJson exampleFloats ⟨"alice", .posInt 1, .posInt 2, .posInt 3, 9⟩)])
    (fun _ => none)

def exampleTick : Tick JsonNumber where
  due := none
  pendingEvents := [.message POSITIONS_TOPIC "peer" [1] 9]
  pendingOrder := ⟨id, fun _ => .refl _⟩
  recvEvents := []
  recvOrder := ⟨id, fun _ => .refl _⟩
  drainMs := 40000
  walk := ⟨id, fun _ => .refl _⟩
  renderMs := 40016

/-- A peer is shown in the frame of the game in which its position comes in. -/
theorem others_stand_where_last_heard_alice :
    ∃ g, Run exampleDeps exampleFloats (start .document) g ∧
      Shows g.scene "alice" ⟨.posInt 1, .posInt 2, .posInt 3⟩ := by
  have hinit : Run exampleDeps exampleFloats (start .document) _ :=
    .single (.call _ (.init "config" (.firstVisit (PubKey.replicate 7))) _ rfl rfl)
  have hrun := hinit.tail (.update _ _ exampleTick (by unfold Fits; decide) rfl)
  refine ⟨_, hrun, ((others_stand_where_last_heard hrun).2.2.1 _ _).mpr ?_⟩
  refine ⟨[], _, 40000, [1], [.rendered 40016], rfl, rfl, fun m hm => ?_⟩
  rw [List.mem_singleton.mp hm]
  exact (by decide : Scene.isStale 40016 40000 = false)

end Example

end Game

end Laye
