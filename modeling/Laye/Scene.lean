import Laye.Stats
import Laye.InternalTopics
import Laye.Receive
import Laye.Lib.Expiry

/-!
# The other players

`bevy-starter/src/scene.rs`: positions go out on one topic and come in on it, the last one of each
peer is kept for thirty seconds, and every peer that is kept has one cell in the world. The floats
are a parameter, and so is the order in which the `HashMap` is walked.
-/

namespace Laye

def POSITIONS_TOPIC : String := "rave-positions/v1"

/-- `f32` or `f64`, and its JSON. -/
structure Floats (F : Type) where
  ofNumber : JsonNumber → F
  toJson : F → Json

def Floats.field {F : Type} (floats : Floats F) : Option Json → Option F
  | some (.number n) => some (floats.ofNumber n)
  | _ => none

structure Vec3 (F : Type) where
  x : F
  y : F
  z : F

structure StarterPosition (F : Type) where
  peer : String
  x : F
  y : F
  z : F
  atMs : UInt64

namespace StarterPosition

variable {F : Type}

def toJson (floats : Floats F) (p : StarterPosition F) : Json :=
  .object [("peer", .string p.peer), ("x", floats.toJson p.x), ("y", floats.toJson p.y),
    ("z", floats.toJson p.z), ("at_ms", .number (.posInt p.atMs))]

def ofJson (floats : Floats F) (doc : Json) : Option (StarterPosition F) := do
  let fields ← doc.structFields ["peer", "x", "y", "z", "at_ms"] 5
  let peer ← Json.stringField fields[0]!
  let x ← floats.field fields[1]!
  let y ← floats.field fields[2]!
  let z ← floats.field fields[3]!
  let atMs ← Json.u64Field fields[4]!
  return { peer, x, y, z, atMs }

end StarterPosition

structure RemoteEntry (F : Type) where
  pos : Vec3 F
  lastSeenMs : UInt64
  entity : Option Nat

/-- The entities with a `RemotePlayerCell`, where they stand, and the next entity. -/
structure World (F : Type) where
  cells : Nat → Option (Vec3 F)
  next : Nat

/-- `RemotePlayers` and the world. -/
structure Scene (F : Type) where
  remotes : List (String × RemoteEntry F)
  world : World F

variable {F : Type}

namespace World

def spawn (w : World F) (pos : Vec3 F) : World F :=
  ⟨Function.update w.cells w.next (some pos), w.next + 1⟩

def despawn (w : World F) (id : Nat) : World F := { w with cells := Function.update w.cells id none }

/-- `transforms.get_mut(entity)` and its translation. -/
def move (w : World F) (id : Nat) (pos : Vec3 F) : World F :=
  if (w.cells id).isSome then { w with cells := Function.update w.cells id (some pos) } else w

end World

namespace Scene

def empty : Scene F := ⟨[], fun _ => none, 0⟩

/-- `remotes.0.entry(peer).or_default()`, and its two assignments. -/
def upsert (peer : String) (pos : Vec3 F) (now : UInt64) :
    List (String × RemoteEntry F) → List (String × RemoteEntry F)
  | [] => [(peer, ⟨pos, now, none⟩)]
  | (name, entry) :: rest =>
    if name = peer then (name, { entry with pos, lastSeenMs := now }) :: rest
    else (name, entry) :: upsert peer pos now rest

/-- One frame in `drain_position_events`. -/
def hear (serde : SerdeJson) (floats : Floats F) (selfPeer : String) (now : UInt64) (scene : Scene F)
    (frame : Bytes) : Scene F :=
  match serde.read (StarterPosition.ofJson floats) frame with
  | .error _ => scene
  | .ok pos =>
    if pos.peer = selfPeer then scene
    else { scene with remotes := upsert pos.peer ⟨pos.x, pos.y, pos.z⟩ now scene.remotes }

def isStale (now : UInt64) (lastSeenMs : UInt64) : Bool :=
  decide (lastSeenMs < saturatingSub now 30000)

/-- `remotes.0.remove(&peer)`, and the cell with it. -/
def forget (scene : Scene F) (peer : String) : Scene F :=
  match scene.remotes.lookup peer with
  | none => scene
  | some entry =>
    { remotes := scene.remotes.filter (fun e => e.1 != peer)
      world := entry.entity.elim scene.world scene.world.despawn }

/-- One entry of the loop that shows them: `scene` has those before it. -/
def showEntry (scene : Scene F) (e : String × RemoteEntry F) : Scene F :=
  match e.2.entity with
  | none =>
    { remotes := scene.remotes ++ [(e.1, { e.2 with entity := some scene.world.next })]
      world := scene.world.spawn e.2.pos }
  | some id => { remotes := scene.remotes ++ [e], world := scene.world.move id e.2.pos }

/-- `render_remote_players` -/
def render (order : IterOrder (String × RemoteEntry F)) (now : UInt64) (scene : Scene F) : Scene F :=
  let stalePeers := ((order.walk scene.remotes).filter (fun e => isStale now e.2.lastSeenMs)).map Prod.fst
  let scene := stalePeers.foldl forget scene
  (order.walk scene.remotes).foldl showEntry ⟨[], scene.world⟩

/-! ### One cell for each entry -/

/-- Every cell is that of one entry. -/
structure Placed (remotes : List (String × RemoteEntry F)) (world : World F) : Prop where
  names : (remotes.map Prod.fst).Nodup
  owned : ∀ id, (world.cells id).isSome = true ↔ ∃ e ∈ remotes, e.2.entity = some id
  apart : ∀ e ∈ remotes, ∀ e' ∈ remotes, ∀ id, e.2.entity = some id → e'.2.entity = some id →
    e.1 = e'.1
  fresh : ∀ id, (world.cells id).isSome = true → id < world.next

/-- The entry has a cell, and it stands where the entry says. -/
def ShownIn (world : World F) (e : String × RemoteEntry F) : Prop :=
  ∃ id, e.2.entity = some id ∧ world.cells id = some e.2.pos

/-- What the table knows of the peers. -/
def known (remotes : List (String × RemoteEntry F)) : List (String × Vec3 F × UInt64) :=
  remotes.map fun e => (e.1, e.2.pos, e.2.lastSeenMs)

lemma known_append (as bs : List (String × RemoteEntry F)) : known (as ++ bs) = known as ++ known bs :=
  List.map_append

lemma Placed.perm {remotes remotes' : List (String × RemoteEntry F)} {world : World F}
    (h : Placed remotes world) (hperm : remotes'.Perm remotes) : Placed remotes' world where
  names := (hperm.map Prod.fst).nodup_iff.mpr h.names
  owned id := by
    rw [h.owned]
    constructor
    · rintro ⟨e, he, hid⟩
      exact ⟨e, hperm.mem_iff.mpr he, hid⟩
    · rintro ⟨e, he, hid⟩
      exact ⟨e, hperm.mem_iff.mp he, hid⟩
  apart e he e' he' := h.apart e (hperm.mem_iff.mp he) e' (hperm.mem_iff.mp he')
  fresh := h.fresh

/-- Two entries of one name are one entry. -/
lemma eq_of_fst_eq {remotes : List (String × RemoteEntry F)} (h : (remotes.map Prod.fst).Nodup)
    {e e' : String × RemoteEntry F} (he : e ∈ remotes) (he' : e' ∈ remotes) (heq : e.1 = e'.1) :
    e = e' :=
  List.inj_on_of_nodup_map h he he' heq

lemma map_fst_upsert (peer : String) (pos : Vec3 F) (now : UInt64)
    (remotes : List (String × RemoteEntry F)) :
    (upsert peer pos now remotes).map Prod.fst =
      if peer ∈ remotes.map Prod.fst then remotes.map Prod.fst else remotes.map Prod.fst ++ [peer] := by
  induction remotes with
  | nil => rfl
  | cons e rest ih =>
    obtain ⟨name, entry⟩ := e
    by_cases hname : name = peer
    · subst hname
      simp [upsert]
    · have hne : peer ≠ name := fun h => hname h.symm
      simp only [upsert, hname, if_false, List.map_cons, ih, List.mem_cons, hne, false_or]
      split <;> rfl

/-- The entry of the peer is new or has kept its entity; the others are as they were. -/
lemma mem_upsert {peer : String} {pos : Vec3 F} {now : UInt64}
    {remotes : List (String × RemoteEntry F)} (h : (remotes.map Prod.fst).Nodup)
    {e : String × RemoteEntry F} :
    e ∈ upsert peer pos now remotes ↔ (e ∈ remotes ∧ e.1 ≠ peer) ∨
      (e.1 = peer ∧ e.2.pos = pos ∧ e.2.lastSeenMs = now ∧
        ((∃ old ∈ remotes, old.1 = peer ∧ e.2.entity = old.2.entity) ∨
          ((∀ old ∈ remotes, old.1 ≠ peer) ∧ e.2.entity = none))) := by
  obtain ⟨n, pos', seen, entity⟩ := e
  induction remotes with
  | nil => simp [upsert]
  | cons first rest ih =>
    obtain ⟨name, entry⟩ := first
    rw [List.map_cons, List.nodup_cons] at h
    have hrest := ih h.2
    by_cases hname : name = peer
    · subst hname
      have hother : ∀ old ∈ rest, old.1 ≠ name := by
        rintro old hold rfl
        exact h.1 (List.mem_map.mpr ⟨old, hold, rfl⟩)
      simp only [upsert, if_true, List.mem_cons, Prod.mk.injEq, RemoteEntry.mk.injEq]
      constructor
      · rintro (⟨rfl, rfl, rfl, rfl⟩ | hmem)
        · exact Or.inr ⟨rfl, rfl, rfl, Or.inl ⟨_, Or.inl rfl, rfl, rfl⟩⟩
        · exact Or.inl ⟨Or.inr hmem, hother _ hmem⟩
      · rintro (⟨⟨rfl, -⟩ | hmem, hne⟩ | ⟨rfl, rfl, rfl, ⟨old, rfl | hold, heq, hentity⟩ | ⟨hnone, -⟩⟩)
        · exact absurd rfl hne
        · exact Or.inr hmem
        · exact Or.inl ⟨rfl, rfl, rfl, hentity⟩
        · exact absurd heq (hother old hold)
        · exact absurd rfl (hnone _ (Or.inl rfl))
    · simp only [upsert, hname, if_false, List.mem_cons, hrest]
      constructor
      · rintro (heq | ⟨hmem, hne⟩ | ⟨rfl, rfl, rfl, ⟨old, hold, heq, hentity⟩ | ⟨hnone, hentity⟩⟩)
        · refine Or.inl ⟨Or.inl heq, ?_⟩
          rw [Prod.mk.injEq] at heq
          rw [heq.1]
          exact hname
        · exact Or.inl ⟨Or.inr hmem, hne⟩
        · exact Or.inr ⟨rfl, rfl, rfl, Or.inl ⟨old, Or.inr hold, heq, hentity⟩⟩
        · refine Or.inr ⟨rfl, rfl, rfl, Or.inr ⟨fun old hold => ?_, hentity⟩⟩
          rcases hold with rfl | hold
          · exact hname
          · exact hnone old hold
      · rintro (⟨heq | hmem, hne⟩ | ⟨rfl, rfl, rfl, ⟨old, rfl | hold, heq, hentity⟩ | ⟨hnone, hentity⟩⟩)
        · exact Or.inl heq
        · exact Or.inr (Or.inl ⟨hmem, hne⟩)
        · exact absurd heq hname
        · exact Or.inr (Or.inr ⟨rfl, rfl, rfl, Or.inl ⟨old, hold, heq, hentity⟩⟩)
        · exact Or.inr (Or.inr ⟨rfl, rfl, rfl, Or.inr ⟨fun old hold => hnone old (Or.inr hold), hentity⟩⟩)

lemma placed_upsert {remotes : List (String × RemoteEntry F)} {world : World F}
    (h : Placed remotes world) (peer : String) (pos : Vec3 F) (now : UInt64) :
    Placed (upsert peer pos now remotes) world := by
  -- an entry with an entity is one that was there, under the same name
  have hwas : ∀ e ∈ upsert peer pos now remotes, ∀ id, e.2.entity = some id →
      ∃ old ∈ remotes, old.1 = e.1 ∧ old.2.entity = some id := by
    intro e he id hid
    rcases (mem_upsert h.names).mp he with ⟨hmem, -⟩ | ⟨hname, -, -, ⟨old, hold, heq, hentity⟩ | ⟨-, hnone⟩⟩
    · exact ⟨e, hmem, rfl, hid⟩
    · exact ⟨old, hold, heq.trans hname.symm, hentity.symm.trans hid⟩
    · rw [hnone] at hid
      cases hid
  refine ⟨?_, fun id => ?_, fun e he e' he' id hid hid' => ?_, h.fresh⟩
  · rw [map_fst_upsert]
    split
    · exact h.names
    · rename_i hnew
      rw [List.nodup_append]
      exact ⟨h.names, List.nodup_singleton _, fun a ha b hb heq =>
        hnew (List.mem_singleton.mp hb ▸ heq ▸ ha)⟩
  · rw [h.owned]
    constructor
    · rintro ⟨old, hold, hid⟩
      by_cases hpeer : old.1 = peer
      · exact ⟨(peer, ⟨pos, now, some id⟩), (mem_upsert h.names).mpr
          (Or.inr ⟨rfl, rfl, rfl, Or.inl ⟨old, hold, hpeer, hid.symm⟩⟩), rfl⟩
      · exact ⟨old, (mem_upsert h.names).mpr (Or.inl ⟨hold, hpeer⟩), hid⟩
    · rintro ⟨e, he, hid⟩
      obtain ⟨old, hold, -, hold'⟩ := hwas e he id hid
      exact ⟨old, hold, hold'⟩
  · obtain ⟨old, hold, heq, hold'⟩ := hwas e he id hid
    obtain ⟨old₂, hold₂, heq₂, hold₂'⟩ := hwas e' he' id hid'
    rw [← heq, ← heq₂]
    exact h.apart old hold old₂ hold₂ id hold' hold₂'

/-- Forgetting a peer takes its entry and its cell, and nothing else. -/
lemma placed_forget {scene : Scene F} (h : Placed scene.remotes scene.world) (peer : String) :
    Placed (scene.forget peer).remotes (scene.forget peer).world ∧
      (scene.forget peer).remotes = scene.remotes.filter (fun e => e.1 != peer) := by
  unfold forget
  cases hlookup : scene.remotes.lookup peer with
  | none =>
    refine ⟨h, (List.filter_eq_self.mpr fun e he => ?_).symm⟩
    have hne := List.lookup_eq_none_iff.mp hlookup e he
    simpa [bne, BEq.comm] using hne
  | some entry =>
    refine ⟨?_, rfl⟩
    have hentry : (peer, entry) ∈ scene.remotes := by
      obtain ⟨before, after, heq, -⟩ := List.lookup_eq_some_iff.mp hlookup
      rw [heq]
      simp
    have hother : ∀ e ∈ scene.remotes, ∀ id, e.2.entity = some id → entry.entity = some id →
        e.1 = peer := fun e he id hid hid' => h.apart e he _ hentry id hid hid'
    -- the cells that are left are those of the other entries
    have hcells : ∀ id, ((entry.entity.elim scene.world scene.world.despawn).cells id).isSome = true ↔
        (scene.world.cells id).isSome = true ∧ entry.entity ≠ some id := by
      intro id
      cases hentity : entry.entity with
      | none => simp
      | some gone =>
        by_cases hid : id = gone
        · subst hid
          simp [World.despawn]
        · have hne : gone ≠ id := fun h => hid h.symm
          simp [World.despawn, Function.update_of_ne hid, hne]
    refine ⟨?_, fun id => ?_, fun e he e' he' => ?_, fun id hid => ?_⟩
    · exact h.names.sublist (List.filter_sublist.map _)
    · rw [hcells, h.owned]
      constructor
      · rintro ⟨⟨e, he, hid⟩, hgone⟩
        refine ⟨e, List.mem_filter.mpr ⟨he, ?_⟩, hid⟩
        rw [bne_iff_ne]
        intro heq
        rw [eq_of_fst_eq h.names he hentry heq] at hid
        exact hgone hid
      · rintro ⟨e, he, hid⟩
        obtain ⟨he, hne⟩ := List.mem_filter.mp he
        exact ⟨⟨e, he, hid⟩, fun hgone => bne_iff_ne.mp hne (hother e he id hid hgone)⟩
    · exact h.apart e (List.mem_filter.mp he).1 e' (List.mem_filter.mp he').1
    · have hnext : (entry.entity.elim scene.world scene.world.despawn).next = scene.world.next := by
        cases entry.entity <;> rfl
      rw [hnext]
      exact h.fresh id ((hcells id).mp hid).1

lemma placed_foldl_forget {scene : Scene F} (h : Placed scene.remotes scene.world)
    (peers : List String) :
    Placed (peers.foldl forget scene).remotes (peers.foldl forget scene).world ∧
      (peers.foldl forget scene).remotes = scene.remotes.filter (fun e => !peers.contains e.1) := by
  induction peers generalizing scene with
  | nil => exact ⟨h, by simp⟩
  | cons peer peers ih =>
    obtain ⟨hplaced, hremotes⟩ := placed_forget h peer
    obtain ⟨hall, heq⟩ := ih hplaced
    refine ⟨hall, ?_⟩
    rw [List.foldl_cons, heq, hremotes, List.filter_filter]
    congr 1
    funext e
    by_cases hpeer : e.1 = peer <;> simp [hpeer]

lemma showEntry_none {scene : Scene F} {e : String × RemoteEntry F} (h : e.2.entity = none) :
    scene.showEntry e =
      { remotes := scene.remotes ++ [(e.1, { e.2 with entity := some scene.world.next })]
        world := scene.world.spawn e.2.pos } := by
  rw [showEntry, h]

lemma showEntry_some {scene : Scene F} {e : String × RemoteEntry F} {id : Nat}
    (h : e.2.entity = some id) :
    scene.showEntry e = { remotes := scene.remotes ++ [e], world := scene.world.move id e.2.pos } := by
  rw [showEntry, h]

/-- An entry without a cell gets one, and the others keep theirs. -/
lemma placed_showEntry_none {scene : Scene F} {e : String × RemoteEntry F}
    {rest : List (String × RemoteEntry F)} (h : Placed (scene.remotes ++ e :: rest) scene.world)
    (hshown : ∀ e ∈ scene.remotes, ShownIn scene.world e) (hentity : e.2.entity = none) :
    Placed ((scene.showEntry e).remotes ++ rest) (scene.showEntry e).world ∧
      (∀ e' ∈ (scene.showEntry e).remotes, ShownIn (scene.showEntry e).world e') ∧
      known (scene.showEntry e).remotes = known (scene.remotes ++ [e]) := by
  obtain ⟨name, entry⟩ := e
  change entry.entity = none at hentity
  rw [showEntry_none hentity]
  have hnext : ¬(scene.world.cells scene.world.next).isSome = true := fun hsome =>
    Nat.lt_irrefl _ (h.fresh _ hsome)
  have hold : ∀ e ∈ scene.remotes ++ rest, ∀ id, e.2.entity = some id → id ≠ scene.world.next := by
    rintro e he id hid rfl
    refine hnext ((h.owned _).mpr ⟨e, ?_, hid⟩)
    rcases List.mem_append.mp he with he | he
    · exact List.mem_append_left _ he
    · exact List.mem_append_right _ (List.mem_cons_of_mem _ he)
  refine ⟨⟨?_, fun id => ?_, ?_, fun id hid => ?_⟩, fun e he => ?_, by simp [known]⟩
  · simpa using h.names
  · by_cases hid : id = scene.world.next
    · subst hid
      simp only [World.spawn, Function.update_self, Option.isSome_some, true_iff]
      exact ⟨(name, { entry with entity := some scene.world.next }), by simp, rfl⟩
    · have hne : scene.world.next ≠ id := fun heq => hid heq.symm
      have howned := h.owned id
      simp only [List.mem_append, List.mem_cons, or_and_right, exists_or, exists_eq_left, hentity,
        reduceCtorEq, false_or] at howned
      simp [World.spawn, Function.update_of_ne hid, howned, or_and_right, exists_or, hne]
  · intro e he e' he' id hid hid'
    simp only [List.append_assoc, List.singleton_append, List.mem_append, List.mem_cons] at he he'
    have hin : ∀ e, e ∈ scene.remotes ∨ e ∈ rest → e ∈ scene.remotes ++ (name, entry) :: rest := by
      intro e he
      simp only [List.mem_append, List.mem_cons]
      tauto
    rcases he with he | rfl | he <;> rcases he' with he' | rfl | he'
    · exact h.apart e (hin e (.inl he)) e' (hin e' (.inl he')) id hid hid'
    · exact absurd (Option.some.inj hid').symm (hold e (List.mem_append_left _ he) id hid)
    · exact h.apart e (hin e (.inl he)) e' (hin e' (.inr he')) id hid hid'
    · exact absurd (Option.some.inj hid).symm (hold e' (List.mem_append_left _ he') id hid')
    · rfl
    · exact absurd (Option.some.inj hid).symm (hold e' (List.mem_append_right _ he') id hid')
    · exact h.apart e (hin e (.inr he)) e' (hin e' (.inl he')) id hid hid'
    · exact absurd (Option.some.inj hid').symm (hold e (List.mem_append_right _ he) id hid)
    · exact h.apart e (hin e (.inr he)) e' (hin e' (.inr he')) id hid hid'
  · by_cases hnew : id = scene.world.next
    · rw [hnew]
      exact Nat.lt_succ_self _
    · simp only [World.spawn, Function.update_of_ne hnew] at hid
      exact Nat.lt_succ_of_lt (h.fresh id hid)
  · rcases List.mem_append.mp he with he | he
    · obtain ⟨id, hid, hcell⟩ := hshown e he
      have hne := hold e (List.mem_append_left _ he) id hid
      exact ⟨id, hid, by simpa [World.spawn, Function.update_of_ne hne] using hcell⟩
    · rw [List.mem_singleton.mp he]
      exact ⟨_, rfl, by simp [World.spawn]⟩

/-- An entry with a cell moves it, and the others keep theirs. -/
lemma placed_showEntry_some {scene : Scene F} {e : String × RemoteEntry F} {id : Nat}
    {rest : List (String × RemoteEntry F)} (h : Placed (scene.remotes ++ e :: rest) scene.world)
    (hshown : ∀ e ∈ scene.remotes, ShownIn scene.world e)
    (hentity : e.2.entity = some id) :
    Placed ((scene.showEntry e).remotes ++ rest) (scene.showEntry e).world ∧
      (∀ e' ∈ (scene.showEntry e).remotes, ShownIn (scene.showEntry e).world e') ∧
      known (scene.showEntry e).remotes = known (scene.remotes ++ [e]) := by
  obtain ⟨name, entry⟩ := e
  change entry.entity = some id at hentity
  rw [showEntry_some hentity]
  have hsome : (scene.world.cells id).isSome = true :=
    (h.owned id).mpr ⟨(name, entry), by simp, hentity⟩
  have hmoved : scene.world.move id entry.pos =
      { scene.world with cells := Function.update scene.world.cells id (some entry.pos) } := by
    rw [World.move, if_pos hsome]
  have hcells : ∀ other, ((scene.world.move id entry.pos).cells other).isSome =
      (scene.world.cells other).isSome := by
    intro other
    rw [hmoved]
    by_cases hother : other = id
    · subst hother
      simp [hsome]
    · simp [Function.update_of_ne hother]
  have hremotes : scene.remotes ++ [(name, entry)] ++ rest =
      scene.remotes ++ (name, entry) :: rest := by simp
  refine ⟨⟨?_, fun other => ?_, ?_, fun other hother => ?_⟩, fun e he => ?_, rfl⟩
  · rw [hremotes]
    exact h.names
  · rw [hremotes, hcells]
    exact h.owned other
  · rw [hremotes]
    exact h.apart
  · rw [hcells] at hother
    rw [hmoved]
    exact h.fresh other hother
  · rw [hmoved]
    rcases List.mem_append.mp he with hbefore | hlast
    · obtain ⟨other, hid, hcell⟩ := hshown e hbefore
      have hne : other ≠ id := by
        rintro rfl
        have heq := h.apart e (List.mem_append_left _ hbefore) (name, entry) (by simp) other hid hentity
        have hnames := h.names
        rw [List.map_append, List.nodup_append] at hnames
        exact hnames.2.2 e.1 (List.mem_map_of_mem hbefore) name (by simp) heq
      exact ⟨other, hid, by simpa [Function.update_of_ne hne] using hcell⟩
    · rw [List.mem_singleton.mp hlast]
      exact ⟨id, hentity, by simp⟩

/-- One entry of the loop: it gets a cell or moves its own, and those before it keep theirs. -/
lemma placed_showEntry {scene : Scene F} {e : String × RemoteEntry F}
    {rest : List (String × RemoteEntry F)} (h : Placed (scene.remotes ++ e :: rest) scene.world)
    (hshown : ∀ e ∈ scene.remotes, ShownIn scene.world e) :
    Placed ((scene.showEntry e).remotes ++ rest) (scene.showEntry e).world ∧
      (∀ e' ∈ (scene.showEntry e).remotes, ShownIn (scene.showEntry e).world e') ∧
      known (scene.showEntry e).remotes = known (scene.remotes ++ [e]) := by
  cases hentity : e.2.entity with
  | none => exact placed_showEntry_none h hshown hentity
  | some id => exact placed_showEntry_some h hshown hentity

lemma placed_foldl_showEntry {walked : List (String × RemoteEntry F)} (scene : Scene F)
    (h : Placed (scene.remotes ++ walked) scene.world)
    (hshown : ∀ e ∈ scene.remotes, ShownIn scene.world e) :
    Placed (walked.foldl showEntry scene).remotes (walked.foldl showEntry scene).world ∧
      (∀ e ∈ (walked.foldl showEntry scene).remotes, ShownIn (walked.foldl showEntry scene).world e) ∧
      known (walked.foldl showEntry scene).remotes = known (scene.remotes ++ walked) := by
  induction walked generalizing scene with
  | nil =>
    rw [List.append_nil] at h
    exact ⟨h, hshown, by simp⟩
  | cons e walked ih =>
    obtain ⟨hplaced, hshown', hknown⟩ := placed_showEntry h hshown
    obtain ⟨hall, hshowns, hknowns⟩ := ih _ hplaced hshown'
    refine ⟨hall, hshowns, hknowns.trans ?_⟩
    rw [known_append, hknown, ← known_append, List.append_assoc]
    rfl

/-- Rendering keeps the entries that are not stale, and gives each of them its cell. -/
lemma placed_render {scene : Scene F} (h : Placed scene.remotes scene.world)
    (order : IterOrder (String × RemoteEntry F)) (now : UInt64) :
    Placed (render order now scene).remotes (render order now scene).world ∧
      (∀ e ∈ (render order now scene).remotes, ShownIn (render order now scene).world e) ∧
      ∀ name pos seen, (name, pos, seen) ∈ known (render order now scene).remotes ↔
        (name, pos, seen) ∈ known scene.remotes ∧ isStale now seen = false := by
  have hwalk := order.perm scene.remotes
  obtain ⟨hplaced, hremotes⟩ := placed_foldl_forget h
    (((order.walk scene.remotes).filter (fun e => isStale now e.2.lastSeenMs)).map Prod.fst)
  have hwalked := hplaced.perm (order.perm _)
  obtain ⟨hall, hshown, hknown⟩ := placed_foldl_showEntry ⟨[], _⟩ hwalked (by simp)
  refine ⟨hall, hshown, fun name pos seen => ?_⟩
  have hmem : ∀ e ∈ scene.remotes, e.1 ∈ ((order.walk scene.remotes).filter
      (fun e => isStale now e.2.lastSeenMs)).map Prod.fst ↔ isStale now e.2.lastSeenMs = true := by
    intro e he
    simp only [List.mem_map, List.mem_filter, hwalk.mem_iff]
    constructor
    · rintro ⟨e', ⟨he', hstale⟩, heq⟩
      rwa [eq_of_fst_eq h.names he' he heq] at hstale
    · exact fun hstale => ⟨e, ⟨he, hstale⟩, rfl⟩
  rw [render, hknown, known, List.nil_append, List.mem_map]
  simp only [(order.perm _).mem_iff, hremotes, List.mem_filter, known, List.mem_map]
  constructor
  · rintro ⟨e, ⟨he, hfresh⟩, heq⟩
    cases heq
    refine ⟨⟨e, he, rfl⟩, ?_⟩
    simpa [hmem e he] using hfresh
  · rintro ⟨⟨e, he, heq⟩, hfresh⟩
    cases heq
    refine ⟨e, ⟨he, ?_⟩, rfl⟩
    simpa [hmem e he] using hfresh

/-! ### The history of a scene -/

/-- What happens to the table, which nothing reads back. -/
inductive Moment
  | heard (selfPeer : String) (now : UInt64) (frame : Bytes)
  | rendered (now : UInt64)

/-- The position a frame tells of another peer. -/
def told (serde : SerdeJson) (floats : Floats F) (selfPeer : String) (frame : Bytes) :
    Option (String × Vec3 F) :=
  match serde.read (StarterPosition.ofJson floats) frame with
  | .error _ => none
  | .ok pos => if pos.peer = selfPeer then none else some (pos.peer, ⟨pos.x, pos.y, pos.z⟩)

def Moment.move (serde : SerdeJson) (floats : Floats F) :
    Moment → Option (Expiry.Move String (Vec3 F × UInt64))
  | .heard selfPeer now frame =>
    (told serde floats selfPeer frame).map fun (name, pos) => .put name (pos, now)
  | .rendered now => some (.sweep fun seen => !isStale now seen.2)

/-- The table is what the history makes of it, and the world shows it. -/
structure Sound (serde : SerdeJson) (floats : Floats F) (history : List Moment) (scene : Scene F) :
    Prop where
  placed : Placed scene.remotes scene.world
  remembers : ∀ name pos seen, (name, pos, seen) ∈ known scene.remotes ↔
    Expiry.swept (history.filterMap (Moment.move serde floats)) name = some (pos, seen)

lemma sound_empty (serde : SerdeJson) (floats : Floats F) : Sound serde floats [] empty where
  placed := ⟨List.nodup_nil, by simp [empty], by simp [empty], by simp [empty]⟩
  remembers := by simp [known, empty, Expiry.swept]

lemma hear_eq (serde : SerdeJson) (floats : Floats F) (selfPeer : String) (now : UInt64)
    (scene : Scene F) (frame : Bytes) : hear serde floats selfPeer now scene frame =
      (told serde floats selfPeer frame).elim scene
        fun t => { scene with remotes := upsert t.1 t.2 now scene.remotes } := by
  unfold hear told
  cases serde.read (StarterPosition.ofJson floats) frame with
  | error e => rfl
  | ok pos =>
    dsimp only
    split <;> rfl

variable {serde : SerdeJson} {floats : Floats F} {history : List Moment} {scene : Scene F}

/-- What is known after a position is what was known of the others, and it. -/
lemma mem_known_upsert {remotes : List (String × RemoteEntry F)} (h : (remotes.map Prod.fst).Nodup)
    {peer name : String} {pos pos' : Vec3 F} {now seen : UInt64} :
    (name, pos', seen) ∈ known (upsert peer pos now remotes) ↔
      (name = peer ∧ pos' = pos ∧ seen = now) ∨ (name ≠ peer ∧ (name, pos', seen) ∈ known remotes) := by
  simp only [known, List.mem_map, mem_upsert h, Prod.mk.injEq]
  constructor
  · rintro ⟨e, ⟨he, hne⟩ | ⟨hname, hpos, hseen, -⟩, rfl, rfl, rfl⟩
    · exact Or.inr ⟨hne, e, he, rfl, rfl, rfl⟩
    · exact Or.inl ⟨hname, hpos, hseen⟩
  · rintro (⟨rfl, rfl, rfl⟩ | ⟨hne, e, he, rfl, rfl, rfl⟩)
    · by_cases hold : ∃ old ∈ remotes, old.1 = name
      · obtain ⟨old, hmem, heq⟩ := hold
        exact ⟨(name, ⟨pos', seen, old.2.entity⟩), Or.inr ⟨rfl, rfl, rfl, Or.inl ⟨old, hmem, heq, rfl⟩⟩,
          rfl, rfl, rfl⟩
      · exact ⟨(name, ⟨pos', seen, none⟩),
          Or.inr ⟨rfl, rfl, rfl, Or.inr ⟨fun old hmem heq => hold ⟨old, hmem, heq⟩, rfl⟩⟩,
          rfl, rfl, rfl⟩
    · exact ⟨e, Or.inl ⟨he, hne⟩, rfl, rfl, rfl⟩

lemma sound_hear (h : Sound serde floats history scene) (selfPeer : String) (now : UInt64)
    (frame : Bytes) : Sound serde floats (history ++ [.heard selfPeer now frame])
      (hear serde floats selfPeer now scene frame) := by
  rw [hear_eq]
  cases htold : told serde floats selfPeer frame with
  | none =>
    refine ⟨h.placed, fun name pos seen => ?_⟩
    rw [List.filterMap_append]
    simpa [Moment.move, htold] using h.remembers name pos seen
  | some t =>
    obtain ⟨peer, pos⟩ := t
    refine ⟨placed_upsert h.placed peer pos now, fun name pos' seen => ?_⟩
    have hmove : [Moment.heard selfPeer now frame].filterMap (Moment.move serde floats) =
        [.put peer (pos, now)] := by simp [Moment.move, htold]
    rw [Option.elim_some, mem_known_upsert h.placed.names, List.filterMap_append, hmove,
      Expiry.swept_append, List.foldl_cons, List.foldl_nil, Expiry.Move.apply_eq_some_iff,
      ← h.remembers]
    simp only [Expiry.Move.put.injEq, Expiry.Move.Spares, Prod.mk.injEq]
    constructor
    · rintro (⟨rfl, rfl, rfl⟩ | ⟨hne, hmem⟩)
      · exact Or.inl ⟨rfl, rfl, rfl⟩
      · exact Or.inr ⟨hmem, hne.symm⟩
    · rintro (⟨rfl, rfl, rfl⟩ | ⟨hmem, hne⟩)
      · exact Or.inl ⟨rfl, rfl, rfl⟩
      · exact Or.inr ⟨hne.symm, hmem⟩

lemma sound_foldl_hear (h : Sound serde floats history scene) (selfPeer : String) (now : UInt64)
    (frames : List Bytes) : Sound serde floats (history ++ frames.map (.heard selfPeer now))
      (frames.foldl (hear serde floats selfPeer now) scene) := by
  induction frames generalizing history scene with
  | nil => simpa using h
  | cons frame frames ih => simpa using ih (sound_hear h selfPeer now frame)

lemma sound_render (h : Sound serde floats history scene)
    (order : IterOrder (String × RemoteEntry F)) (now : UInt64) :
    Sound serde floats (history ++ [.rendered now]) (render order now scene) ∧
      ∀ e ∈ (render order now scene).remotes, ShownIn (render order now scene).world e := by
  obtain ⟨hplaced, hshown, hknown⟩ := placed_render h.placed order now
  refine ⟨⟨hplaced, fun name pos seen => ?_⟩, hshown⟩
  have hmove : [Moment.rendered now].filterMap (Moment.move serde floats) =
      [.sweep fun seen => !isStale now seen.2] := rfl
  rw [hknown, h.remembers, List.filterMap_append, hmove, Expiry.swept_append, List.foldl_cons,
    List.foldl_nil, Expiry.Move.apply_eq_some_iff]
  simp [Expiry.Move.Spares]

end Scene

end Laye
