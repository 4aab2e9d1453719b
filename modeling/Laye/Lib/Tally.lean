import Mathlib.Data.List.Dedup
import Mathlib.Data.List.Induction

/-!
# Boards with one note for each kind

Items are posted and notes are dismissed by name. Each kind of item has one note: it keeps the first
item of the kind, counts the items and goes up again with each of them.
-/

namespace Tally

structure Note (α : Type*) where
  first : α
  count : Nat
  up : Bool
deriving DecidableEq

inductive Event (α ι : Type*)
  | posted (a : α)
  | dismissed (i : ι)

variable {α κ ι : Type*}

def Note.again (note : Note α) : Note α := { note with count := note.count + 1, up := true }

def Note.down (note : Note α) : Note α := { note with up := false }

/-- The items posted, in order. -/
def items (events : List (Event α ι)) : List α :=
  events.filterMap fun
    | .posted a => some a
    | .dismissed _ => none

lemma items_append (as bs : List (Event α ι)) : items (as ++ bs) = items as ++ items bs :=
  List.filterMap_append

lemma find?_items_snoc_of_some {events : List (Event α ι)} {b : α} {p : α → Bool} (a : α)
    (h : (items events).find? p = some b) : (items (events ++ [.posted a])).find? p = some b := by
  rw [items_append, List.find?_append, h, Option.some_or]

lemma countP_items_posted (events : List (Event α ι)) (p : α → Bool) (a : α) :
    (items (events ++ [.posted a])).countP p = (items events).countP p + if p a then 1 else 0 := by
  rw [items_append, List.countP_append]
  simp [items, List.countP_cons]

lemma kinds_eq (kind : α → κ) (notes : List (Note α)) :
    (notes.map fun note => kind note.first) = (notes.map Note.first).map kind := by
  rw [List.map_map]
  rfl

/-- The events about items of some kinds; a dismissal may be about any. -/
def restrict (kind : α → κ) (p : κ → Bool) (events : List (Event α ι)) : List (Event α ι) :=
  events.filter fun
    | .posted a => p (kind a)
    | .dismissed _ => true

variable [DecidableEq κ] [DecidableEq ι] (kind : α → κ) (name : α → ι)

def post (notes : List (Note α)) (a : α) : List (Note α) :=
  if ∃ note ∈ notes, kind note.first = kind a then
    notes.map fun note => if kind note.first = kind a then note.again else note
  else notes ++ [⟨a, 1, true⟩]

def dismiss (notes : List (Note α)) (i : ι) : List (Note α) :=
  notes.map fun note => if name note.first = i then note.down else note

def step (notes : List (Note α)) : Event α ι → List (Note α)
  | .posted a => post kind notes a
  | .dismissed i => dismiss name notes i

def board (events : List (Event α ι)) : List (Note α) := events.foldl (step kind name) []

/-- The event is about the note of this item. -/
def About (a : α) : Event α ι → Prop
  | .posted b => kind b = kind a
  | .dismissed i => i = name a

instance (a : α) (e : Event α ι) : Decidable (About kind name a e) :=
  match e with
  | .posted b => inferInstanceAs (Decidable (kind b = kind a))
  | .dismissed i => inferInstanceAs (Decidable (i = name a))

/-- What a board says of the events: a note for each kind, with its first item and its number of
items, which is up when the last event about it is an item. -/
structure Tallied (events : List (Event α ι)) (notes : List (Note α)) : Prop where
  apart : (notes.map fun note => kind note.first).Nodup
  noted : ∀ a ∈ items events, ∃ note ∈ notes, kind note.first = kind a
  first : ∀ note ∈ notes,
    (items events).find? (fun a => kind a = kind note.first) = some note.first
  count : ∀ note ∈ notes, note.count = (items events).countP (fun a => kind a = kind note.first)
  up : ∀ note ∈ notes, note.up = true ↔
    ∃ a, (events.filter (fun e => About kind name note.first e)).getLast? = some (.posted a)

variable {kind name}

lemma board_snoc (events : List (Event α ι)) (e : Event α ι) :
    board kind name (events ++ [e]) = step kind name (board kind name events) e := by
  rw [board, List.foldl_concat]
  rfl

/-! ### One event -/

lemma map_first_again (notes : List (Note α)) (a : α) :
    (notes.map fun note => if kind note.first = kind a then note.again else note).map Note.first =
      notes.map Note.first := by
  rw [List.map_map]
  apply List.map_congr_left
  intro note _
  dsimp only [Function.comp]
  split <;> rfl

lemma map_first_dismiss (notes : List (Note α)) (i : ι) :
    (dismiss name notes i).map Note.first = notes.map Note.first := by
  rw [dismiss, List.map_map]
  apply List.map_congr_left
  intro note _
  dsimp only [Function.comp]
  split <;> rfl

lemma last_of_about {events : List (Event α ι)} {a : α} {e : Event α ι} (h : About kind name a e) :
    ((events ++ [e]).filter (fun e => About kind name a e)).getLast? = some e := by
  rw [List.filter_append, List.filter_cons_of_pos (by simpa using h), List.filter_nil,
    List.getLast?_concat]

lemma last_of_not_about {events : List (Event α ι)} {a : α} {e : Event α ι}
    (h : ¬About kind name a e) :
    ((events ++ [e]).filter (fun e => About kind name a e)).getLast? =
      (events.filter (fun e => About kind name a e)).getLast? := by
  rw [List.filter_append, List.filter_cons_of_neg (by simpa using h), List.filter_nil,
    List.append_nil]

/-- A kind that has its note: the note counts one more. -/
lemma Tallied.again {events : List (Event α ι)} {notes : List (Note α)}
    (h : Tallied kind name events notes) {a : α}
    (hnoted : ∃ note ∈ notes, kind note.first = kind a) :
    Tallied kind name (events ++ [.posted a])
      (notes.map fun note => if kind note.first = kind a then note.again else note) := by
  have hitems : items (events ++ [(.posted a : Event α ι)]) = items events ++ [a] := items_append _ _
  refine ⟨?_, ?_, ?_, ?_, ?_⟩
  · rw [kinds_eq, map_first_again, ← kinds_eq]
    exact h.apart
  · have hfirst : ∀ note ∈ notes, ∃ note' ∈ notes.map fun note =>
        if kind note.first = kind a then note.again else note, kind note'.first = kind note.first := by
      intro note hnote
      refine ⟨_, List.mem_map_of_mem hnote, ?_⟩
      split <;> rfl
    intro b hb
    rw [hitems, List.mem_append, List.mem_singleton] at hb
    obtain ⟨note, hnote, hkind⟩ : ∃ note ∈ notes, kind note.first = kind b := by
      rcases hb with hb | rfl
      · exact h.noted b hb
      · exact hnoted
    obtain ⟨note', hnote', hsame⟩ := hfirst note hnote
    exact ⟨note', hnote', hsame.trans hkind⟩
  all_goals
    intro note' hnote'
    obtain ⟨note, hnote, rfl⟩ := List.mem_map.mp hnote'
  · have hfirst := find?_items_snoc_of_some a (h.first note hnote)
    split <;> exact hfirst
  · rw [countP_items_posted]
    split
    · rename_i hkind
      simp [Note.again, h.count note hnote, hkind]
    · rename_i hkind
      have hne : kind a ≠ kind note.first := fun heq => hkind heq.symm
      simp [h.count note hnote, hne]
  · split
    · rename_i hkind
      have habout : About kind name note.again.first (.posted a) := Eq.symm hkind
      rw [last_of_about habout]
      exact ⟨fun _ => ⟨a, rfl⟩, fun _ => rfl⟩
    · rename_i hkind
      have habout : ¬About kind name note.first (.posted a) := fun heq => hkind (Eq.symm heq)
      rw [last_of_not_about habout]
      exact h.up note hnote

/-- The first of its kind gets a note. -/
lemma Tallied.opened {events : List (Event α ι)} {notes : List (Note α)}
    (h : Tallied kind name events notes) {a : α}
    (hother : ∀ note ∈ notes, kind a ≠ kind note.first) :
    Tallied kind name (events ++ [.posted a]) (notes ++ [⟨a, 1, true⟩]) := by
  have hitems : items (events ++ [(.posted a : Event α ι)]) = items events ++ [a] := items_append _ _
  have hnone : ∀ b ∈ items events, kind b ≠ kind a := by
    intro b hb heq
    obtain ⟨note, hnote, hkind⟩ := h.noted b hb
    exact hother note hnote (heq.symm.trans hkind.symm)
  refine ⟨?_, ?_, ?_, ?_, ?_⟩
  · rw [List.map_append, List.map_singleton]
    refine List.nodup_append.mpr ⟨h.apart, List.nodup_singleton _, ?_⟩
    rintro _ hk _ hsingle rfl
    obtain ⟨note, hnote, heq⟩ := List.mem_map.mp hk
    exact hother note hnote ((List.mem_singleton.mp hsingle).symm.trans heq.symm)
  · intro b hb
    rw [hitems, List.mem_append, List.mem_singleton] at hb
    rcases hb with hb | rfl
    · obtain ⟨note, hnote, hkind⟩ := h.noted b hb
      exact ⟨note, List.mem_append_left _ hnote, hkind⟩
    · exact ⟨_, List.mem_append_right _ (List.mem_singleton_self _), rfl⟩
  all_goals
    intro note hnote
    rw [List.mem_append, List.mem_singleton] at hnote
  · rcases hnote with hnote | rfl
    · exact find?_items_snoc_of_some a (h.first note hnote)
    · have hmiss : (items events).find? (fun b => kind b = kind a) = none :=
        List.find?_eq_none.mpr fun b hb => by simpa using hnone b hb
      rw [hitems, List.find?_append, hmiss, Option.none_or]
      exact List.find?_cons_of_pos (by simp)
  · rw [countP_items_posted]
    rcases hnote with hnote | rfl
    · simp [h.count note hnote, hother note hnote]
    · have hzero : (items events).countP (fun b => kind b = kind a) = 0 :=
        List.countP_eq_zero.mpr fun b hb => by simpa using hnone b hb
      simp [hzero]
  · rcases hnote with hnote | rfl
    · have habout : ¬About kind name note.first (.posted a) := hother note hnote
      rw [last_of_not_about habout]
      exact h.up note hnote
    · have habout : About kind name a (.posted a) := rfl
      rw [last_of_about habout]
      exact ⟨fun _ => ⟨a, rfl⟩, fun _ => rfl⟩

lemma Tallied.post {events : List (Event α ι)} {notes : List (Note α)}
    (h : Tallied kind name events notes) (a : α) :
    Tallied kind name (events ++ [.posted a]) (Tally.post kind notes a) := by
  unfold Tally.post
  split
  · rename_i hnoted
    exact h.again hnoted
  · rename_i hnew
    apply h.opened
    exact fun note hnote heq => hnew ⟨note, hnote, heq.symm⟩

lemma Tallied.dismiss {events : List (Event α ι)} {notes : List (Note α)}
    (h : Tallied kind name events notes) (i : ι) :
    Tallied kind name (events ++ [.dismissed i]) (Tally.dismiss name notes i) := by
  have hitems : items (events ++ [(.dismissed i : Event α ι)]) = items events := by
    rw [items_append]
    exact List.append_nil _
  refine ⟨?_, ?_, ?_, ?_, ?_⟩
  · rw [kinds_eq, map_first_dismiss, ← kinds_eq]
    exact h.apart
  · intro a ha
    obtain ⟨note, hnote, hkind⟩ := h.noted a (hitems ▸ ha)
    refine ⟨_, List.mem_map_of_mem hnote, ?_⟩
    split <;> exact hkind
  all_goals
    intro note' hnote'
    obtain ⟨note, hnote, rfl⟩ := List.mem_map.mp hnote'
  · rw [hitems]
    split <;> exact h.first note hnote
  · rw [hitems]
    split <;> exact h.count note hnote
  · split
    · rename_i hname
      have habout : About kind name note.down.first (.dismissed i) := Eq.symm hname
      rw [last_of_about habout]
      simp [Note.down]
    · rename_i hname
      have habout : ¬About kind name note.first (.dismissed i) := fun heq => hname (Eq.symm heq)
      rw [last_of_not_about habout]
      exact h.up note hnote

theorem tallied_board (events : List (Event α ι)) : Tallied kind name events (board kind name events) := by
  induction events using List.reverseRecOn with
  | nil => exact ⟨List.nodup_nil, by simp [items], by simp [board], by simp [board], by simp [board]⟩
  | append_singleton events e ih =>
    rw [board_snoc]
    cases e with
    | posted a => exact ih.post a
    | dismissed i => exact ih.dismiss i

/-! ### Some kinds only -/

end Tally
