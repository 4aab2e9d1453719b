import Mathlib.Algebra.Ring.Nat
import Laye.Errors
import Laye.Lib.Tally

/-!
# The blocks of the overlay

The first error of each key gets a block. Every further one is counted by the id of that block, on
the element that `get_element_by_id` finds for its count.
-/

namespace Laye

/-- The property holds of each element, after those before it. -/
def Along {α : Type*} (P : List α → α → Prop) (l : List α) : Prop :=
  ∀ before a, before ++ [a] <+: l → P before a

section Along

variable {α : Type*} {P : List α → α → Prop} {l l' : List α} {a : α}

lemma along_nil : Along P [] := by
  intro before a h
  simp at h

lemma along_snoc : Along P (l ++ [a]) ↔ Along P l ∧ P l a := by
  constructor
  · intro h
    exact ⟨fun before b hb => h before b (hb.trans (List.prefix_append _ _)), h l a (List.prefix_refl _)⟩
  · rintro ⟨hl, ha⟩ before b hb
    rcases List.prefix_concat_iff.mp hb with heq | hb
    · obtain ⟨rfl, hlast⟩ := List.append_inj' heq rfl
      rwa [List.singleton_inj.mp hlast]
    · exact hl before b hb

lemma Along.of_prefix (h : Along P l') (hl : l <+: l') : Along P l :=
  fun before a ha => h before a (ha.trans hl)

end Along

/-! ### Which errors have a block -/

/-- The id of the block that the error is counted on, if its key has one. -/
def blockOf (shown : List LayeError) (err : LayeError) : Option String :=
  (shown.find? fun e => dedupKey e = dedupKey err).map LayeError.id

/-- The errors with a block of their own, in order. -/
def openers (shown : List LayeError) : List LayeError :=
  (Tally.board dedupKey LayeError.id (shown.map .posted)).map Tally.Note.first

section Openers

variable {shown : List LayeError} {err e : LayeError} {domId : String}

lemma items_map_posted (shown : List LayeError) :
    Tally.items (shown.map (.posted : LayeError → Tally.Event LayeError String)) = shown := by
  simp [Tally.items, List.filterMap_map]

lemma tallied_openers (shown : List LayeError) :
    Tally.Tallied dedupKey LayeError.id (shown.map .posted)
      (Tally.board dedupKey LayeError.id (shown.map .posted)) := Tally.tallied_board _

lemma openers_snoc (shown : List LayeError) (err : LayeError) :
    openers (shown ++ [err]) = openers shown ++ if (blockOf shown err).isNone then [err] else [] := by
  have htallied := tallied_openers shown
  have hnoted : (∃ note ∈ Tally.board dedupKey LayeError.id (shown.map .posted),
      dedupKey note.first = dedupKey err) ↔ ∃ e ∈ shown, dedupKey e = dedupKey err := by
    have hnotes := htallied.noted
    have hfirst := htallied.first
    rw [items_map_posted] at hnotes hfirst
    constructor
    · rintro ⟨note, hnote, hkey⟩
      exact ⟨note.first, List.mem_of_find?_eq_some (hfirst note hnote), hkey⟩
    · rintro ⟨e, he, hkey⟩
      obtain ⟨note, hnote, hsame⟩ := hnotes e he
      exact ⟨note, hnote, hsame.trans hkey⟩
  have hnone : (blockOf shown err).isNone ↔ ¬∃ e ∈ shown, dedupKey e = dedupKey err := by
    simp [blockOf]
  rw [openers, List.map_append, List.map_singleton, Tally.board_snoc, Tally.step, Tally.post, openers]
  by_cases hnew : ∃ e ∈ shown, dedupKey e = dedupKey err
  · rw [if_pos (hnoted.mpr hnew), Tally.map_first_again, if_neg (fun h => hnone.mp h hnew),
      List.append_nil]
  · rw [if_neg (mt hnoted.mp hnew), if_pos (hnone.mpr hnew), List.map_append, List.map_singleton]

lemma openers_new (h : blockOf shown err = none) : openers (shown ++ [err]) = openers shown ++ [err] := by
  rw [openers_snoc, h, Option.isNone_none, if_pos rfl]

lemma openers_again (h : blockOf shown err = some domId) : openers (shown ++ [err]) = openers shown := by
  rw [openers_snoc, h, Option.isNone_some, if_neg Bool.false_ne_true, List.append_nil]

lemma find?_of_mem_openers (h : e ∈ openers shown) :
    shown.find? (fun e' => dedupKey e' = dedupKey e) = some e := by
  obtain ⟨note, hnote, rfl⟩ := List.mem_map.mp h
  have hfirst := (tallied_openers shown).first note hnote
  rwa [items_map_posted] at hfirst

lemma blockOf_of_mem_openers (h : e ∈ openers shown) : blockOf shown e = some e.id := by
  rw [blockOf, find?_of_mem_openers h, Option.map_some]

lemma openers_subset : openers shown ⊆ shown :=
  fun _ he => List.mem_of_find?_eq_some (find?_of_mem_openers he)

/-- An error that is shown belongs to an opener. -/
lemma exists_opener (h : err ∈ shown) : ∃ e ∈ openers shown, dedupKey e = dedupKey err := by
  obtain ⟨note, hnote, hkey⟩ := (tallied_openers shown).noted err (by rwa [items_map_posted])
  exact ⟨note.first, List.mem_map_of_mem hnote, hkey⟩

lemma blockOf_congr (h : dedupKey err = dedupKey e) : blockOf shown err = blockOf shown e := by
  rw [blockOf, blockOf, h]

lemma blockOf_eq_some : blockOf shown err = some domId ↔
    ∃ e ∈ openers shown, dedupKey e = dedupKey err ∧ e.id = domId := by
  constructor
  · intro h
    obtain ⟨first, hfirst, hid⟩ := Option.map_eq_some_iff.mp h
    have hfirstkey : dedupKey first = dedupKey err := by simpa using List.find?_some hfirst
    obtain ⟨e, he, hkey⟩ := exists_opener (List.mem_of_find?_eq_some hfirst)
    have hsame := find?_of_mem_openers he
    rw [hkey, hfirstkey, hfirst] at hsame
    exact ⟨e, he, hkey.trans hfirstkey, by rw [← Option.some.inj hsame, hid]⟩
  · rintro ⟨e, he, hkey, rfl⟩
    rw [blockOf_congr hkey.symm, blockOf_of_mem_openers he]

lemma blockOf_eq_none : blockOf shown err = none ↔ ∀ e ∈ shown, dedupKey e ≠ dedupKey err := by
  simp [blockOf]

lemma blockOf_snoc (shown : List LayeError) (err e : LayeError) :
    blockOf (shown ++ [err]) e =
      (blockOf shown e).or (if dedupKey err = dedupKey e then some err.id else none) := by
  unfold blockOf
  rw [List.find?_append]
  cases shown.find? fun e' => dedupKey e' = dedupKey e with
  | some first => rfl
  | none =>
    rw [Option.none_or, Option.map_none, Option.none_or]
    split
    · rename_i hkey
      rw [List.find?_cons_of_pos (by simpa using hkey), Option.map_some]
    · rename_i hkey
      rw [List.find?_cons_of_neg (by simpa using hkey), List.find?_nil, Option.map_none]

lemma openers_keys_nodup (shown : List LayeError) : ((openers shown).map dedupKey).Nodup := by
  have hapart := (tallied_openers shown).apart
  rwa [Tally.kinds_eq] at hapart

end Openers

/-! ### Which errors can be counted -/

/-- Of the blocks named by this id and by that of its count, one named by the id comes first. -/
def CountFound (shown : List LayeError) (domId : String) : Prop :=
  ((openers shown).map LayeError.id).find? (fun id => id = domId ∨ id = counterId domId) = some domId

/-- No error was counted on this id. -/
def Uncounted (shown : List LayeError) (domId : String) : Prop :=
  Along (fun before err => blockOf before err ≠ some domId) shown

/-- No block was given this id after an error was counted on it. -/
def Fresh (shown : List LayeError) (domId : String) : Prop :=
  Along (fun before err => blockOf before err = none → err.id = domId → Uncounted before domId) shown

/-- One more error can be counted on the block with this id. -/
structure Countable (shown : List LayeError) (domId : String) : Prop where
  named : domId ≠ ""
  found : CountFound shown domId
  fresh : Fresh shown domId

/-- Each error whose key has a block can be counted there. -/
def AllCounted (shown : List LayeError) : Prop :=
  Along (fun before err => ∀ domId, blockOf before err = some domId → Countable before domId) shown

/-- No count is looked up where another block is found. -/
def SeparateCounts (shown : List LayeError) : Prop :=
  Along (fun before err => ∀ domId, blockOf before err = some domId → domId ≠ "" →
    CountFound before domId) shown

lemma AllCounted.separateCounts {shown : List LayeError} (h : AllCounted shown) : SeparateCounts shown :=
  fun before err hfront domId hblock _ => (h before err hfront domId hblock).found

section Counted

variable {shown : List LayeError} {err : LayeError} {domId : String}

lemma openers_mono {before : List LayeError} (h : before <+: shown) : openers before <+: openers shown := by
  obtain ⟨more, rfl⟩ := h
  induction more using List.reverseRecOn with
  | nil => rw [List.append_nil]
  | append_singleton more err ih =>
    rw [← List.append_assoc, openers_snoc]
    exact ih.trans (List.prefix_append _ _)

lemma uncounted_of_absent (h : domId ∉ (openers shown).map LayeError.id) : Uncounted shown domId := by
  intro before err hfront hblock
  obtain ⟨e, he, -, rfl⟩ := blockOf_eq_some.mp hblock
  exact h (List.mem_map_of_mem
    ((openers_mono ((List.prefix_append _ _).trans hfront)).subset he))

lemma fresh_of_absent (h : domId ∉ (openers shown).map LayeError.id) : Fresh shown domId := by
  rintro before err hfront - -
  apply uncounted_of_absent
  intro hin
  exact h (((openers_mono ((List.prefix_append _ _).trans hfront)).map _).subset hin)

lemma uncounted_snoc : Uncounted (shown ++ [err]) domId ↔
    Uncounted shown domId ∧ blockOf shown err ≠ some domId := along_snoc

lemma fresh_snoc : Fresh (shown ++ [err]) domId ↔
    Fresh shown domId ∧ (blockOf shown err = none → err.id = domId → Uncounted shown domId) := along_snoc

lemma allCounted_snoc : AllCounted (shown ++ [err]) ↔
    AllCounted shown ∧ ∀ domId, blockOf shown err = some domId → Countable shown domId := along_snoc

lemma separateCounts_snoc : SeparateCounts (shown ++ [err]) ↔ SeparateCounts shown ∧
    ∀ domId, blockOf shown err = some domId → domId ≠ "" → CountFound shown domId := along_snoc

end Counted

/-! ### Lookups in the document -/

lemma counterId_inj {domId domId' : String} : counterId domId = counterId domId' ↔ domId = domId' := by
  constructor
  · intro h
    have htext := congrArg String.toList h
    rw [counterId, counterId, String.toList_append, String.toList_append] at htext
    exact String.toList_inj.mp (List.append_cancel_right htext)
  · rintro rfl
    rfl

lemma length_counterId (domId : String) :
    (counterId domId).toList.length = domId.toList.length + 7 := by
  rw [counterId, String.toList_append, List.length_append]
  rfl

lemma counterId_ne (domId : String) : counterId domId ≠ domId := by
  intro h
  have hlength := length_counterId domId
  rw [h] at hlength
  omega

lemma counterId_ne_empty (domId : String) : counterId domId ≠ "" := by
  intro h
  have hlength := length_counterId domId
  rw [h] at hlength
  simp at hlength

lemma hasId_iff {node : ErrorNode} {domId : String} (h : domId ≠ "") :
    node.hasId domId = true ↔ node.id = domId := by
  simp [ErrorNode.hasId, h]

lemma setCount_id (node : ErrorNode) (count : String) : (node.setCount count).id = node.id := by
  unfold ErrorNode.setCount
  split <;> rfl

lemma updateElementById_ids (domId : String) {onBlock onCount : ErrorNode → ErrorNode}
    (hblock : ∀ node, (onBlock node).id = node.id) (hcount : ∀ node, (onCount node).id = node.id)
    (nodes : List ErrorNode) :
    (updateElementById domId onBlock onCount nodes).map ErrorNode.id = nodes.map ErrorNode.id := by
  induction nodes with
  | nil => rfl
  | cons node nodes ih =>
    rw [updateElementById]
    split
    · simp [hblock]
    · split
      · simp [hcount]
      · simp [ih]

/-- The block as it was before it was dismissed. -/
def ErrorNode.raised (node : ErrorNode) : ErrorNode := { node with displayed := true }

lemma raised_setCount (node : ErrorNode) (count : String) :
    (node.setCount count).raised = node.raised.setCount count := by
  unfold ErrorNode.setCount ErrorNode.raised
  dsimp only
  split <;> simp_all

/-- Whether blocks are dismissed makes no difference to a lookup. -/
lemma updateElementById_raised (domId : String) {onBlock onCount onBlock' onCount' : ErrorNode → ErrorNode}
    (hblock : ∀ node, (onBlock node).raised = onBlock' node.raised)
    (hcount : ∀ node, (onCount node).raised = onCount' node.raised) (nodes : List ErrorNode) :
    (updateElementById domId onBlock onCount nodes).map ErrorNode.raised =
      updateElementById domId onBlock' onCount' (nodes.map ErrorNode.raised) := by
  induction nodes with
  | nil => rfl
  | cons node nodes ih =>
    rw [List.map_cons, updateElementById, updateElementById]
    have hid : node.raised.hasId domId = node.hasId domId := rfl
    have hcounter : node.raised.hasCounter domId = node.hasCounter domId := rfl
    rw [hid, hcounter]
    split
    · rw [List.map_cons, hblock]
    · split
      · rw [List.map_cons, hcount]
      · rw [List.map_cons, ih]

lemma updateElementById_id (domId : String) (nodes : List ErrorNode) :
    updateElementById domId id id nodes = nodes := by
  induction nodes with
  | nil => rfl
  | cons node nodes ih =>
    rw [updateElementById, ih]
    split
    · rfl
    · split <;> rfl

/-! ### Blocks and their counts -/

/-- The block of an error that counts `n` errors. -/
def countedBlock (err : LayeError) (n : Nat) : ErrorNode :=
  let node := renderOneError err
  if n ≤ 1 then node else node.setCount ("×" ++ toString n)

/-- The blocks, in document order. -/
abbrev ErrorOverlay.nodes (overlay : ErrorOverlay) : List ErrorNode := overlay.errorListEl.getD []

def ErrorOverlay.ids (overlay : ErrorOverlay) : List String := overlay.nodes.map ErrorNode.id

/-- The list renders these errors, each with a count of its own. -/
def Rendered (overlay : ErrorOverlay) (blocks : List (LayeError × Nat)) : Prop :=
  overlay.nodes.map ErrorNode.raised = blocks.map fun b => countedBlock b.1 b.2

/-- A block was overwritten. -/
def Broken (overlay : ErrorOverlay) : Prop := ∃ node ∈ overlay.nodes, ∃ text, node.content = .text text

/-- The count of the first block with this id. -/
def shownAt (blocks : List (LayeError × Nat)) (domId : String) : Option Nat :=
  (blocks.find? fun b => b.1.id = domId).map Prod.snd

def setCountAt (domId : String) (n : Nat) : List (LayeError × Nat) → List (LayeError × Nat)
  | [] => []
  | b :: blocks => if b.1.id = domId then (b.1, n) :: blocks else b :: setCountAt domId n blocks

section Rendered

variable {overlay : ErrorOverlay} {blocks blocks' : List (LayeError × Nat)} {domId : String} {n : Nat}

lemma countedBlock_id (err : LayeError) (n : Nat) : (countedBlock err n).id = err.id := by
  unfold countedBlock
  dsimp only
  split
  · rfl
  · exact setCount_id _ _

lemma countedBlock_content (err : LayeError) (n : Nat) : ∃ visible label title why trace reload,
    (countedBlock err n).content =
      .rendered ("×" ++ toString (max 1 n)) visible label title why trace reload := by
  unfold countedBlock
  dsimp only
  split
  · rename_i hn
    rw [Nat.max_eq_left hn]
    exact ⟨_, _, _, _, _, _, rfl⟩
  · rename_i hn
    rw [Nat.max_eq_right (by omega)]
    exact ⟨_, _, _, _, _, _, rfl⟩

lemma countedBlock_hasCounter (err : LayeError) (n : Nat) (domId : String) :
    (countedBlock err n).hasCounter (counterId domId) = true ↔ err.id = domId := by
  obtain ⟨visible, label, title, why, trace, reload, hcontent⟩ := countedBlock_content err n
  rw [ErrorNode.hasCounter, hcontent, countedBlock_id]
  exact beq_iff_eq.trans counterId_inj

lemma countedBlock_setCount (err : LayeError) (m : Nat) (h : 2 ≤ n) :
    (countedBlock err m).setCount ("×" ++ toString n) = countedBlock err n := by
  have hn : ¬n ≤ 1 := by omega
  unfold countedBlock
  dsimp only
  rw [if_neg hn]
  split <;> rfl

lemma toList_toString_inj {m n : Nat} (h : (toString m).toList = (toString n).toList) : m = n := by
  rw [Nat.toString_eq_repr, Nat.toString_eq_repr, Nat.toList_repr, Nat.toList_repr] at h
  have hread := congrArg (Nat.ofDigitChars 10 · 0) h
  simpa only [Nat.ofDigitChars_ten_toDigits] using hread

lemma countText_inj {m n : Nat} (h : "×" ++ toString m = "×" ++ toString n) : m = n := by
  have htext := congrArg String.toList h
  rw [String.toList_append, String.toList_append] at htext
  exact toList_toString_inj (List.append_cancel_left htext)

/-- A block says whose it is and how many it counts. -/
lemma countedBlock_inj {err err' : LayeError} {m : Nat} (hm : 1 ≤ m) (hn : 1 ≤ n)
    (h : countedBlock err m = countedBlock err' n) : err.id = err'.id ∧ m = n := by
  refine ⟨by rw [← countedBlock_id err m, h, countedBlock_id], ?_⟩
  obtain ⟨_, _, _, _, _, _, hcontent⟩ := countedBlock_content err m
  obtain ⟨_, _, _, _, _, _, hcontent'⟩ := countedBlock_content err' n
  rw [h, hcontent', Nat.max_eq_right hm, Nat.max_eq_right hn] at hcontent
  injection hcontent with hcount
  exact (countText_inj hcount).symm

lemma Rendered.ids (h : Rendered overlay blocks) :
    overlay.ids = blocks.map fun b => b.1.id := by
  have hids := congrArg (List.map ErrorNode.id) h
  rw [List.map_map, List.map_map] at hids
  refine hids.trans (List.map_congr_left fun b _ => ?_)
  exact countedBlock_id b.1 b.2

/-- What the list says of ids and counts. -/
lemma Rendered.unique (h : Rendered overlay blocks) (h' : Rendered overlay blocks')
    (hpos : ∀ b ∈ blocks, 1 ≤ b.2) (hpos' : ∀ b ∈ blocks', 1 ≤ b.2) :
    (blocks.map fun b => (b.1.id, b.2)) = blocks'.map fun b => (b.1.id, b.2) := by
  have hsame := h.symm.trans h'
  clear h h'
  induction blocks generalizing blocks' with
  | nil =>
    rw [List.map_nil] at hsame
    rw [List.map_eq_nil_iff.mp hsame.symm]
  | cons b blocks ih =>
    cases blocks' with
    | nil => cases hsame
    | cons b' blocks' =>
      rw [List.map_cons, List.map_cons, List.cons_eq_cons] at hsame
      obtain ⟨hid, hcount⟩ := countedBlock_inj (hpos b List.mem_cons_self)
        (hpos' b' List.mem_cons_self) hsame.1
      rw [List.map_cons, List.map_cons, hid, hcount,
        ih (fun c hc => hpos c (List.mem_cons_of_mem _ hc))
          (fun c hc => hpos' c (List.mem_cons_of_mem _ hc)) hsame.2]

lemma shownAt_congr (h : (blocks.map fun b => (b.1.id, b.2)) = blocks'.map fun b => (b.1.id, b.2))
    (domId : String) : shownAt blocks domId = shownAt blocks' domId := by
  have hread : ∀ blocks : List (LayeError × Nat), shownAt blocks domId =
      ((blocks.map fun b => (b.1.id, b.2)).find? (fun p => p.1 = domId)).map Prod.snd := by
    intro blocks
    rw [shownAt, List.find?_map, Option.map_map]
    rfl
  rw [hread, hread, h]

lemma not_broken (h : Rendered overlay blocks) : ¬Broken overlay := by
  rintro ⟨node, hnode, text, htext⟩
  have hraised : node.raised ∈ blocks.map fun b => countedBlock b.1 b.2 :=
    h ▸ List.mem_map_of_mem hnode
  obtain ⟨b, -, hb⟩ := List.mem_map.mp hraised
  obtain ⟨_, _, _, _, _, _, hcontent⟩ := countedBlock_content b.1 b.2
  rw [hb] at hcontent
  exact ErrorContent.noConfusion (htext.symm.trans hcontent)

lemma shownAt_cons (b : LayeError × Nat) (blocks : List (LayeError × Nat)) (domId : String) :
    shownAt (b :: blocks) domId = if b.1.id = domId then some b.2 else shownAt blocks domId := by
  by_cases hid : b.1.id = domId
  · rw [if_pos hid, shownAt, List.find?_cons_of_pos (by simpa using hid), Option.map_some]
  · rw [if_neg hid, shownAt, List.find?_cons_of_neg (by simpa using hid), shownAt]

lemma shownAt_snoc (blocks : List (LayeError × Nat)) (b : LayeError × Nat) (domId : String) :
    shownAt (blocks ++ [b]) domId =
      (shownAt blocks domId).or (if b.1.id = domId then some b.2 else none) := by
  rw [shownAt, List.find?_append, Option.map_or, ← shownAt, ← shownAt, shownAt_cons]
  rfl

lemma shownAt_isSome : (shownAt blocks domId).isSome ↔ domId ∈ blocks.map fun b => b.1.id := by
  simp [shownAt, List.find?_isSome]

/-! ### Counting on a list of blocks -/

lemma setCountAt_fst (domId : String) (n : Nat) (blocks : List (LayeError × Nat)) :
    (setCountAt domId n blocks).map Prod.fst = blocks.map Prod.fst := by
  induction blocks with
  | nil => rfl
  | cons b blocks ih =>
    rw [setCountAt]
    split
    · rfl
    · rw [List.map_cons, List.map_cons, ih]

lemma shownAt_setCountAt (n : Nat) (h : domId ∈ blocks.map fun b => b.1.id) :
    shownAt (setCountAt domId n blocks) domId = some n := by
  induction blocks with
  | nil => cases h
  | cons b blocks ih =>
    rw [setCountAt]
    by_cases hid : b.1.id = domId
    · rw [if_pos hid, shownAt_cons, if_pos hid]
    · have hrest : domId ∈ blocks.map fun b => b.1.id :=
        (List.mem_cons.mp h).resolve_left fun heq => hid heq.symm
      rw [if_neg hid, shownAt_cons, if_neg hid, ih hrest]

lemma shownAt_setCountAt_of_ne (n : Nat) {domId' : String} (h : domId' ≠ domId)
    (blocks : List (LayeError × Nat)) :
    shownAt (setCountAt domId n blocks) domId' = shownAt blocks domId' := by
  induction blocks with
  | nil => rfl
  | cons b blocks ih =>
    rw [setCountAt, shownAt_cons]
    by_cases hid : b.1.id = domId
    · have hne : b.1.id ≠ domId' := fun heq => h (heq.symm.trans hid)
      rw [if_pos hid, shownAt_cons, if_neg hne, if_neg hne]
    · rw [if_neg hid, shownAt_cons, ih]

lemma mem_setCountAt {b : LayeError × Nat} (h : b ∈ setCountAt domId n blocks) :
    b ∈ blocks ∨ b.1.id = domId ∧ b.2 = n := by
  induction blocks with
  | nil => cases h
  | cons b' blocks ih =>
    rw [setCountAt] at h
    split at h
    · rename_i hid
      rcases List.mem_cons.mp h with rfl | h
      · exact Or.inr ⟨hid, rfl⟩
      · exact Or.inl (List.mem_cons_of_mem _ h)
    · rcases List.mem_cons.mp h with rfl | h
      · exact Or.inl List.mem_cons_self
      · exact (ih h).imp_left (List.mem_cons_of_mem _)

lemma sum_setCountAt {m : Nat} (n : Nat) (h : shownAt blocks domId = some m) :
    ((setCountAt domId n blocks).map Prod.snd).sum + m = (blocks.map Prod.snd).sum + n := by
  induction blocks with
  | nil => cases h
  | cons b blocks ih =>
    rw [setCountAt]
    rw [shownAt_cons] at h
    by_cases hid : b.1.id = domId
    · rw [if_pos hid, Option.some_inj] at h
      rw [if_pos hid, List.map_cons, List.map_cons, List.sum_cons, List.sum_cons, h]
      omega
    · rw [if_neg hid] at h
      have hrest := ih h
      rw [if_neg hid, List.map_cons, List.map_cons, List.sum_cons, List.sum_cons]
      omega

/-- The count is written on the first block with the id, if the lookup finds that. -/
lemma updateElementById_found (hn : 2 ≤ n)
    (h : (blocks.map fun b => b.1.id).find? (fun id => id = domId ∨ id = counterId domId) = some domId) :
    updateElementById (counterId domId) (fun node => { node with content := .text ("×" ++ toString n) })
        (fun node => node.setCount ("×" ++ toString n)) (blocks.map fun b => countedBlock b.1 b.2) =
      (setCountAt domId n blocks).map fun b => countedBlock b.1 b.2 := by
  induction blocks with
  | nil => rfl
  | cons b blocks ih =>
    have hid : (countedBlock b.1 b.2).hasId (counterId domId) = true ↔ b.1.id = counterId domId := by
      rw [hasId_iff (counterId_ne_empty domId), countedBlock_id]
    have hcounter := countedBlock_hasCounter b.1 b.2 domId
    rw [List.map_cons] at h ⊢
    rw [updateElementById, setCountAt]
    by_cases hown : b.1.id = domId
    · have hother : ¬(countedBlock b.1 b.2).hasId (counterId domId) = true := by
        rw [hid, hown]
        exact (counterId_ne domId).symm
      rw [if_neg hother, if_pos (hcounter.mpr hown), if_pos hown, List.map_cons,
        countedBlock_setCount _ _ hn]
    · have hother : b.1.id ≠ counterId domId := by
        intro heq
        rw [List.find?_cons_of_pos (by simp [heq]), heq] at h
        exact counterId_ne domId (Option.some.inj h)
      rw [if_neg (mt hid.mp hother), if_neg (mt hcounter.mp hown), if_neg hown, List.map_cons, ih]
      rwa [List.find?_cons_of_neg (by simp [hown, hother])] at h

/-- Otherwise it replaces what another block says. -/
lemma updateElementById_lost (text : String) (onCount : ErrorNode → ErrorNode)
    (h : (blocks.map fun b => b.1.id).find? (fun id => id = domId ∨ id = counterId domId) =
      some (counterId domId)) :
    ∃ node ∈ updateElementById (counterId domId) (fun node => { node with content := .text text })
      onCount (blocks.map fun b => countedBlock b.1 b.2), node.content = .text text := by
  induction blocks with
  | nil => cases h
  | cons b blocks ih =>
    have hid : (countedBlock b.1 b.2).hasId (counterId domId) = true ↔ b.1.id = counterId domId := by
      rw [hasId_iff (counterId_ne_empty domId), countedBlock_id]
    have hcounter := countedBlock_hasCounter b.1 b.2 domId
    rw [List.map_cons] at h ⊢
    rw [updateElementById]
    by_cases hother : b.1.id = counterId domId
    · rw [if_pos (hid.mpr hother)]
      exact ⟨_, List.mem_cons_self, rfl⟩
    · have hown : b.1.id ≠ domId := by
        intro heq
        rw [List.find?_cons_of_pos (by simp [heq]), heq] at h
        exact counterId_ne domId (Option.some.inj h).symm
      rw [List.find?_cons_of_neg (by simp [hown, hother])] at h
      obtain ⟨node, hnode, htext⟩ := ih h
      rw [if_neg (mt hid.mp hother), if_neg (mt hcounter.mp hown)]
      exact ⟨node, List.mem_cons_of_mem _ hnode, htext⟩

end Rendered

/-! ### One error -/

section Steps

variable {overlay : ErrorOverlay} {blocks : List (LayeError × Nat)} {shown : List LayeError}
  {err : LayeError} {domId : String}

/-- Counting changes no block but through the lookup of the count. -/
lemma raised_bump (overlay : ErrorOverlay) (domId : String) :
    (bumpErrorCounter overlay domId).nodes.map ErrorNode.raised =
      if overlay.nodes.any (fun node => node.hasId domId || node.hasCounter domId) then
        updateElementById (counterId domId)
          (fun node => { node with
            content := .text ("×" ++ toString ((overlay.errorCounts domId).getD 1 + 1)) })
          (fun node => node.setCount ("×" ++ toString ((overlay.errorCounts domId).getD 1 + 1)))
          (overlay.nodes.map ErrorNode.raised)
      else overlay.nodes.map ErrorNode.raised := by
  unfold bumpErrorCounter ErrorOverlay.nodes
  cases overlay.errorListEl with
  | none => rfl
  | some nodes =>
    dsimp only [Option.map_some, Option.getD_some]
    split
    · have hshown : (updateElementById domId (fun node => { node with displayed := true }) id
          nodes).map ErrorNode.raised = updateElementById domId id id (nodes.map ErrorNode.raised) := by
        apply updateElementById_raised
        · exact fun _ => rfl
        · exact fun _ => rfl
      rw [updateElementById_id] at hshown
      rw [← hshown]
      apply updateElementById_raised
      · exact fun _ => rfl
      · exact fun node => raised_setCount node _
    · rfl

lemma any_hasId (h : domId ∈ overlay.ids) (hd : domId ≠ "") :
    overlay.nodes.any (fun node => node.hasId domId || node.hasCounter domId) = true := by
  obtain ⟨node, hnode, hid⟩ := List.mem_map.mp h
  refine List.any_eq_true.mpr ⟨node, hnode, ?_⟩
  rw [(hasId_iff hd).mpr hid, Bool.true_or]

lemma rendered_bump (h : Rendered overlay blocks) (hd : domId ≠ "")
    (hcount : 1 ≤ (overlay.errorCounts domId).getD 1)
    (hfound : (blocks.map fun b => b.1.id).find? (fun id => id = domId ∨ id = counterId domId) =
      some domId) :
    Rendered (bumpErrorCounter overlay domId)
      (setCountAt domId ((overlay.errorCounts domId).getD 1 + 1) blocks) := by
  have hmem : domId ∈ overlay.ids := h.ids ▸ List.mem_of_find?_eq_some hfound
  rw [Rendered, raised_bump, if_pos (any_hasId hmem hd), h]
  exact updateElementById_found (by omega) hfound

/-- An empty id is recorded, and finds no block. -/
lemma rendered_bump_empty (h : Rendered overlay blocks) :
    Rendered (bumpErrorCounter overlay "") blocks := by
  have hnone : overlay.nodes.any (fun node => node.hasId "" || node.hasCounter "") = false := by
    refine List.any_eq_false.mpr fun node _ => ?_
    have hcounter : node.hasCounter "" = false := by
      unfold ErrorNode.hasCounter
      split
      · exact beq_false_of_ne (counterId_ne_empty node.id)
      · rfl
    rw [hcounter]
    simp [ErrorNode.hasId]
  rw [Rendered, raised_bump, hnone, if_neg Bool.false_ne_true]
  exact h

lemma broken_bump (h : Rendered overlay blocks) (hd : domId ≠ "") (hmem : domId ∈ overlay.ids)
    (hfound : (blocks.map fun b => b.1.id).find? (fun id => id = domId ∨ id = counterId domId) ≠
      some domId) : Broken (bumpErrorCounter overlay domId) := by
  have hother : (blocks.map fun b => b.1.id).find? (fun id => id = domId ∨ id = counterId domId) =
      some (counterId domId) := by
    have hsome : ((blocks.map fun b => b.1.id).find?
        (fun id => id = domId ∨ id = counterId domId)).isSome :=
      List.find?_isSome.mpr ⟨domId, h.ids ▸ hmem, by simp⟩
    obtain ⟨id, hid⟩ := Option.isSome_iff_exists.mp hsome
    have heither : id = domId ∨ id = counterId domId := by simpa using List.find?_some hid
    rcases heither with rfl | rfl
    · exact absurd hid hfound
    · exact hid
  obtain ⟨node, hnode, htext⟩ := updateElementById_lost
    ("×" ++ toString ((overlay.errorCounts domId).getD 1 + 1))
    (fun node => node.setCount ("×" ++ toString ((overlay.errorCounts domId).getD 1 + 1))) hother
  have hraised := raised_bump overlay domId
  rw [if_pos (any_hasId hmem hd), h] at hraised
  rw [← hraised] at hnode
  obtain ⟨node', hnode', rfl⟩ := List.mem_map.mp hnode
  exact ⟨node', hnode', _, htext⟩

lemma broken_iff : Broken overlay ↔
    ∃ node ∈ overlay.nodes.map ErrorNode.raised, ∃ text, node.content = .text text := by
  simp [Broken, ErrorNode.raised]

/-- What is overwritten stays so. -/
lemma Broken.bump (h : Broken overlay) (domId : String) : Broken (bumpErrorCounter overlay domId) := by
  have hkeeps : ∀ (target text : String) (nodes : List ErrorNode),
      (∃ node ∈ nodes, ∃ text, node.content = .text text) →
      ∃ node ∈ updateElementById target (fun node => { node with content := .text text })
        (fun node => node.setCount text) nodes, ∃ text, node.content = .text text := by
    intro target text nodes
    induction nodes with
    | nil => exact id
    | cons node nodes ih =>
      rintro ⟨lost, hlost, old, htext⟩
      rw [updateElementById]
      rcases List.mem_cons.mp hlost with rfl | hlost
      · split
        · exact ⟨_, List.mem_cons_self, text, rfl⟩
        · split
          · refine ⟨_, List.mem_cons_self, old, ?_⟩
            rw [ErrorNode.setCount, htext]
            exact htext
          · exact ⟨_, List.mem_cons_self, old, htext⟩
      · split
        · exact ⟨lost, List.mem_cons_of_mem _ hlost, old, htext⟩
        · split
          · exact ⟨lost, List.mem_cons_of_mem _ hlost, old, htext⟩
          · obtain ⟨node', hnode', hcontent⟩ := ih ⟨lost, hlost, old, htext⟩
            exact ⟨node', List.mem_cons_of_mem _ hnode', hcontent⟩
  rw [broken_iff] at h ⊢
  rw [raised_bump]
  split
  · exact hkeeps _ _ _ h
  · exact h

lemma bumpErrorCounter_ids (overlay : ErrorOverlay) (domId : String) :
    (bumpErrorCounter overlay domId).ids = overlay.ids := by
  have hids : ∀ overlay : ErrorOverlay,
      overlay.ids = (overlay.nodes.map ErrorNode.raised).map ErrorNode.id := by
    intro overlay
    rw [List.map_map]
    rfl
  rw [hids, raised_bump, hids overlay]
  split
  · apply updateElementById_ids
    · exact fun _ => rfl
    · exact fun node => setCount_id node _
  · rfl

lemma renderError_new (hkey : overlay.errorDedup (dedupKey err) = none)
    (hlist : overlay.errorListEl.isSome) :
    (renderError overlay err).nodes = overlay.nodes ++ [renderOneError err] := by
  obtain ⟨nodes, hnodes⟩ := Option.isSome_iff_exists.mp hlist
  simp [renderError, hkey, ErrorOverlay.nodes, hnodes]

lemma renderError_again (hkey : overlay.errorDedup (dedupKey err) = some domId) :
    renderError overlay err = bumpErrorCounter overlay domId := by
  simp [renderError, hkey]

lemma renderError_errorDedup (hkey : overlay.errorDedup (dedupKey err) = none) (key : String) :
    (renderError overlay err).errorDedup key =
      if key = dedupKey err then some err.id else overlay.errorDedup key := by
  simp only [renderError, hkey]
  exact Function.update_apply _ _ _ _

end Steps

/-! ### What the overlay says of the errors shown -/

/-- A key stands for the first error shown under it. -/
structure Keyed (overlay : ErrorOverlay) (shown : List LayeError) : Prop where
  dedup : ∀ err, overlay.errorDedup (dedupKey err) = blockOf shown err
  ids : overlay.ids = (openers shown).map LayeError.id

/-- Of the errors counted under an id, `c` are recorded and `n` are shown. -/
structure CountsAt (shown : List LayeError) (domId : String) (c n : Nat) : Prop where
  pos : 1 ≤ c
  le : c ≤ n
  once : Uncounted shown domId ↔ n = 1
  fresh : Fresh shown domId → c = n
  stale : AllCounted shown → ¬Fresh shown domId → c < n

/-- While no block is overwritten: the blocks show as many errors as were shown exactly when each
error could be counted. -/
structure Drawn (overlay : ErrorOverlay) (shown : List LayeError) (blocks : List (LayeError × Nat)) :
    Prop where
  rendered : Rendered overlay blocks
  firsts : blocks.map Prod.fst = openers shown
  pos : ∀ b ∈ blocks, 1 ≤ b.2
  blank : ∀ b ∈ blocks, b.1.id = "" → b.2 = 1
  total_le : (blocks.map Prod.snd).sum ≤ shown.length
  total : (blocks.map Prod.snd).sum = shown.length ↔ AllCounted shown
  counts : ∀ domId ∈ (openers shown).map LayeError.id, domId ≠ "" → ∃ c n,
    overlay.errorCounts domId = some c ∧ shownAt blocks domId = some n ∧ CountsAt shown domId c n

/-- The overlay after these errors. A block that stands for one key counts its errors. -/
structure Traced (overlay : ErrorOverlay) (shown : List LayeError) : Prop where
  keyed : Keyed overlay shown
  counted : ∀ e ∈ openers shown, (∀ e' ∈ openers shown, e'.id = e.id → e' = e) →
    overlay.errorCounts e.id = some (shown.countP fun err => dedupKey err = dedupKey e)
  drawn : SeparateCounts shown → ∃ blocks, Drawn overlay shown blocks
  broken : ¬SeparateCounts shown → Broken overlay

section Traced

variable {overlay : ErrorOverlay} {blocks : List (LayeError × Nat)} {shown : List LayeError}
  {err : LayeError} {domId : String} {c n : Nat}

lemma Drawn.ids (h : Drawn overlay shown blocks) :
    (blocks.map fun b => b.1.id) = (openers shown).map LayeError.id := by
  rw [← h.firsts, List.map_map]
  rfl

lemma countP_snoc (shown : List LayeError) (err : LayeError) (key : String) :
    (shown ++ [err]).countP (fun e => dedupKey e = key) =
      shown.countP (fun e => dedupKey e = key) + if dedupKey err = key then 1 else 0 := by
  simp [List.countP_append, List.countP_cons]

lemma keyed_open (h : Keyed overlay shown) (hlist : overlay.errorListEl.isSome)
    (hnew : blockOf shown err = none) : Keyed (renderError overlay err) (shown ++ [err]) := by
  have hkey : overlay.errorDedup (dedupKey err) = none := (h.dedup err).trans hnew
  refine ⟨fun e => ?_, ?_⟩
  · rw [renderError_errorDedup hkey, blockOf_snoc, h.dedup]
    by_cases hsame : dedupKey e = dedupKey err
    · rw [if_pos hsame, blockOf_congr hsame, hnew, if_pos hsame.symm, Option.none_or]
    · rw [if_neg hsame, if_neg (fun heq => hsame heq.symm), Option.or_none]
  · have hids := h.ids
    rw [ErrorOverlay.ids] at hids ⊢
    rw [renderError_new hkey hlist, openers_new hnew, List.map_append, List.map_append, hids]
    rfl

lemma keyed_bump (h : Keyed overlay shown) (hold : blockOf shown err = some domId) :
    Keyed (bumpErrorCounter overlay domId) (shown ++ [err]) := by
  refine ⟨fun e => ?_, ?_⟩
  · have hsame : (bumpErrorCounter overlay domId).errorDedup (dedupKey e) = blockOf shown e := h.dedup e
    rw [hsame, blockOf_snoc]
    by_cases hkey : dedupKey err = dedupKey e
    · rw [blockOf_congr hkey.symm, hold, Option.some_or]
    · rw [if_neg hkey, Option.or_none]
  · rw [bumpErrorCounter_ids, openers_again hold]
    exact h.ids

/-- The first block with an id. -/
lemma CountsAt.first (hnew : blockOf shown err = none)
    (habsent : err.id ∉ (openers shown).map LayeError.id) : CountsAt (shown ++ [err]) err.id 1 1 := by
  have hbefore := uncounted_of_absent habsent
  have huncounted : Uncounted (shown ++ [err]) err.id := uncounted_snoc.mpr ⟨hbefore, by simp [hnew]⟩
  refine ⟨le_rfl, le_rfl, iff_of_true huncounted rfl, fun _ => rfl, fun _ hstale => ?_⟩
  exact absurd (fresh_snoc.mpr ⟨fresh_of_absent habsent, fun _ _ => hbefore⟩) hstale

/-- Another block with the id: what is recorded under it starts over, what is shown there does not. -/
lemma CountsAt.reopened (h : CountsAt shown err.id c n) (hnew : blockOf shown err = none) :
    CountsAt (shown ++ [err]) err.id 1 n := by
  have hpos := h.pos
  have hle := h.le
  refine ⟨le_rfl, hpos.trans hle, ?_, fun hfresh => ?_, fun hall hstale => ?_⟩
  · rw [uncounted_snoc]
    exact (and_iff_left (by simp [hnew])).trans h.once
  · exact (h.once.mp ((fresh_snoc.mp hfresh).2 hnew rfl)).symm
  · by_contra hone
    have hfresh : ¬Fresh shown err.id := fun hfresh =>
      hstale (fresh_snoc.mpr ⟨hfresh, fun _ _ => h.once.mpr (by omega)⟩)
    have hlt := h.stale (allCounted_snoc.mp hall).1 hfresh
    omega

/-- One more error on the block with the id. -/
lemma CountsAt.counted (h : CountsAt shown domId c n) (hold : blockOf shown err = some domId) :
    CountsAt (shown ++ [err]) domId (c + 1) (c + 1) := by
  have hpos := h.pos
  refine ⟨Nat.le_add_left _ _, le_rfl, ?_, fun _ => rfl, fun hall hstale => ?_⟩
  · rw [uncounted_snoc]
    exact ⟨fun huncounted => absurd hold huncounted.2, fun hone => by omega⟩
  · have hfresh := ((allCounted_snoc.mp hall).2 domId hold).fresh
    exact absurd (fresh_snoc.mpr ⟨hfresh, fun hnew => by simp [hnew] at hold⟩) hstale

/-- An error that neither opens a block with the id nor is counted on one. -/
lemma CountsAt.elsewhere (h : CountsAt shown domId c n)
    (hopen : blockOf shown err = none → err.id ≠ domId) (hcount : blockOf shown err ≠ some domId) :
    CountsAt (shown ++ [err]) domId c n := by
  have hfresh : Fresh (shown ++ [err]) domId ↔ Fresh shown domId := by
    rw [fresh_snoc]
    exact and_iff_left fun hnew heq => absurd heq (hopen hnew)
  refine ⟨h.pos, h.le, ?_, fun hf => h.fresh (hfresh.mp hf), fun hall hstale => ?_⟩
  · rw [uncounted_snoc]
    exact (and_iff_left hcount).trans h.once
  · exact h.stale (allCounted_snoc.mp hall).1 (mt hfresh.mpr hstale)

/-- A block for a new key. -/
lemma Drawn.opened (h : Drawn overlay shown blocks) (hkeyed : Keyed overlay shown)
    (hlist : overlay.errorListEl.isSome) (hnew : blockOf shown err = none) :
    Drawn (renderError overlay err) (shown ++ [err]) (blocks ++ [(err, 1)]) := by
  have hkey : overlay.errorDedup (dedupKey err) = none := (hkeyed.dedup err).trans hnew
  have hcounted : AllCounted (shown ++ [err]) ↔ AllCounted shown := by
    rw [allCounted_snoc, hnew]
    simp
  have hsum : ((blocks ++ [(err, 1)]).map Prod.snd).sum = (blocks.map Prod.snd).sum + 1 := by simp
  have hlength : (shown ++ [err]).length = shown.length + 1 := by simp
  refine ⟨?_, ?_, ?_, ?_, ?_, ?_, fun domId hmem hne => ?_⟩
  · rw [Rendered, renderError_new hkey hlist, List.map_append, h.rendered, List.map_append]
    rfl
  · rw [List.map_append, h.firsts, openers_new hnew]
    rfl
  · exact List.forall_mem_append.mpr ⟨h.pos, List.forall_mem_singleton.mpr le_rfl⟩
  · exact List.forall_mem_append.mpr ⟨h.blank, List.forall_mem_singleton.mpr fun _ => rfl⟩
  · rw [hsum, hlength]
    exact Nat.succ_le_succ h.total_le
  · rw [hsum, hlength, hcounted, ← h.total]
    omega
  · have hrecorded : (renderError overlay err).errorCounts =
        overlay.errorCounts.insert err.id 1 := by simp [renderError, hkey]
    rw [hrecorded, shownAt_snoc]
    by_cases hold : domId ∈ (openers shown).map LayeError.id
    · obtain ⟨c, n, hc, hn, hat⟩ := h.counts domId hold hne
      rw [hn, Option.some_or]
      by_cases hid : err.id = domId
      · subst hid
        exact ⟨1, n, HashMap.insert_self _ _ _, rfl, hat.reopened hnew⟩
      · refine ⟨c, n, ?_, rfl, hat.elsewhere (fun _ => hid) (by simp [hnew])⟩
        rw [HashMap.insert_of_ne _ _ (fun heq => hid heq.symm), hc]
    · have hid : err.id = domId := by
        rw [openers_new hnew, List.map_append, List.mem_append] at hmem
        exact (List.mem_singleton.mp (hmem.resolve_left hold)).symm
      have hnone : shownAt blocks domId = none := by
        rw [← h.ids] at hold
        exact Option.not_isSome_iff_eq_none.mp (mt shownAt_isSome.mp hold)
      subst hid
      rw [hnone, Option.none_or, if_pos rfl]
      exact ⟨1, 1, HashMap.insert_self _ _ _, rfl, .first hnew hold⟩

/-- An error without an id for its block is shown nowhere. -/
lemma Drawn.unnamed (h : Drawn overlay shown blocks) (hold : blockOf shown err = some "") :
    Drawn (bumpErrorCounter overlay "") (shown ++ [err]) blocks := by
  have hcounted : ¬AllCounted (shown ++ [err]) :=
    fun hall => ((allCounted_snoc.mp hall).2 "" hold).named rfl
  have hlength : (shown ++ [err]).length = shown.length + 1 := by simp
  have hle := h.total_le
  refine ⟨rendered_bump_empty h.rendered, h.firsts.trans (openers_again hold).symm, h.pos, h.blank,
    ?_, ?_, fun domId hmem hne => ?_⟩
  · omega
  · constructor
    · intro heq
      omega
    · exact fun hall => absurd hall hcounted
  · rw [openers_again hold] at hmem
    obtain ⟨c, n, hc, hn, hat⟩ := h.counts domId hmem hne
    have hother : blockOf shown err ≠ some domId := by
      rw [hold]
      exact fun heq => hne (Option.some.inj heq).symm
    exact ⟨c, n, (HashMap.insert_of_ne _ _ hne).trans hc, hn,
      hat.elsewhere (fun hnew => by simp [hnew] at hold) hother⟩

/-- An error is counted on the block that is found. -/
lemma Drawn.again (h : Drawn overlay shown blocks) (hold : blockOf shown err = some domId)
    (hne : domId ≠ "") (hfound : CountFound shown domId) :
    Drawn (bumpErrorCounter overlay domId) (shown ++ [err])
      (setCountAt domId ((overlay.errorCounts domId).getD 1 + 1) blocks) := by
  have hmem : domId ∈ (openers shown).map LayeError.id := List.mem_of_find?_eq_some hfound
  obtain ⟨c, n, hc, hn, hat⟩ := h.counts domId hmem hne
  have hnext : (overlay.errorCounts domId).getD 1 = c := by rw [hc, Option.getD_some]
  have hcounted : AllCounted (shown ++ [err]) ↔ AllCounted shown ∧ Fresh shown domId := by
    rw [allCounted_snoc, hold]
    refine and_congr_right fun _ => ⟨fun hall => (hall domId rfl).fresh, fun hf id hid => ?_⟩
    obtain rfl := Option.some.inj hid
    exact ⟨hne, hfound, hf⟩
  have hsum := sum_setCountAt (c + 1) hn
  have hle := h.total_le
  have hcn := hat.le
  have hlength : (shown ++ [err]).length = shown.length + 1 := by simp
  refine ⟨rendered_bump h.rendered hne (hnext ▸ hat.pos) (h.ids.symm ▸ hfound), ?_, ?_, ?_, ?_, ?_,
    fun id hid hidne => ?_⟩
  · rw [setCountAt_fst, h.firsts, openers_again hold]
  · intro b hb
    rcases mem_setCountAt hb with hb | ⟨-, hb⟩
    · exact h.pos b hb
    · omega
  · intro b hb hempty
    rcases mem_setCountAt hb with hb | ⟨hb, -⟩
    · exact h.blank b hb hempty
    · exact absurd (hb.symm.trans hempty) hne
  · rw [hnext, hlength]
    omega
  · rw [hnext, hlength, hcounted, ← h.total]
    constructor
    · intro htotal
      have hall : (blocks.map Prod.snd).sum = shown.length := by omega
      refine ⟨hall, ?_⟩
      by_contra hstale
      have hlt := hat.stale (h.total.mp hall) hstale
      omega
    · rintro ⟨htotal, hf⟩
      have heq := hat.fresh hf
      omega
  · rw [openers_again hold] at hid
    by_cases hsame : id = domId
    · subst hsame
      refine ⟨c + 1, c + 1, ?_, ?_, hat.counted hold⟩
      · simp [bumpErrorCounter, hc]
      · rw [hnext]
        exact shownAt_setCountAt _ (h.ids.symm ▸ hid)
    · obtain ⟨c', n', hc', hn', hat'⟩ := h.counts id hid hidne
      have hother : blockOf shown err ≠ some id := by
        rw [hold]
        exact fun heq => hsame (Option.some.inj heq).symm
      refine ⟨c', n', (HashMap.insert_of_ne _ _ hsame).trans hc', ?_,
        hat'.elsewhere (fun hnew => by simp [hnew] at hold) hother⟩
      rw [shownAt_setCountAt_of_ne _ hsame, hn']

lemma Broken.opened (h : Broken overlay) (hkey : overlay.errorDedup (dedupKey err) = none)
    (hlist : overlay.errorListEl.isSome) : Broken (renderError overlay err) := by
  obtain ⟨node, hnode, htext⟩ := h
  refine ⟨node, ?_, htext⟩
  rw [renderError_new hkey hlist]
  exact List.mem_append_left _ hnode

lemma traced_open (h : Traced overlay shown) (hlist : overlay.errorListEl.isSome)
    (hnew : blockOf shown err = none) : Traced (renderError overlay err) (shown ++ [err]) := by
  have hkey : overlay.errorDedup (dedupKey err) = none := (h.keyed.dedup err).trans hnew
  have hrecorded : (renderError overlay err).errorCounts =
      overlay.errorCounts.insert err.id 1 := by simp [renderError, hkey]
  have hseparate : SeparateCounts (shown ++ [err]) ↔ SeparateCounts shown := by
    rw [separateCounts_snoc, hnew]
    simp
  refine ⟨keyed_open h.keyed hlist hnew, fun e he honly => ?_, fun hs => ?_, fun hs => ?_⟩
  · rw [openers_new hnew] at he honly
    rw [hrecorded, countP_snoc]
    rcases List.mem_append.mp he with he | he
    · have hne : dedupKey err ≠ dedupKey e :=
        fun heq => blockOf_eq_none.mp hnew e (openers_subset he) heq.symm
      have hid : e.id ≠ err.id := fun heq =>
        hne (congrArg dedupKey (honly err (List.mem_append_right _ (List.mem_singleton_self _)) heq.symm))
      have hbefore := h.counted e he fun e' he' => honly e' (List.mem_append_left _ he')
      rw [HashMap.insert_of_ne _ _ hid, hbefore, if_neg hne, Nat.add_zero]
    · obtain rfl := List.mem_singleton.mp he
      have hzero : shown.countP (fun e' => dedupKey e' = dedupKey e) = 0 :=
        List.countP_eq_zero.mpr fun e' he' => by simpa using blockOf_eq_none.mp hnew e' he'
      rw [HashMap.insert_self, hzero, if_pos rfl]
  · obtain ⟨blocks, hdrawn⟩ := h.drawn (hseparate.mp hs)
    exact ⟨_, hdrawn.opened h.keyed hlist hnew⟩
  · exact (h.broken (mt hseparate.mpr hs)).opened hkey hlist

lemma traced_bump (h : Traced overlay shown) (hold : blockOf shown err = some domId) :
    Traced (bumpErrorCounter overlay domId) (shown ++ [err]) := by
  refine ⟨keyed_bump h.keyed hold, fun e he honly => ?_, fun hs => ?_, fun hs => ?_⟩
  · rw [openers_again hold] at he honly
    obtain ⟨first, hfirst, hkey, rfl⟩ := blockOf_eq_some.mp hold
    have hbefore := h.counted e he honly
    rw [countP_snoc]
    by_cases hid : e.id = first.id
    · obtain rfl := honly first hfirst hid.symm
      rw [if_pos hkey.symm]
      simp [bumpErrorCounter, hbefore]
    · have hne : dedupKey err ≠ dedupKey e := by
        intro heq
        have hsame := blockOf_of_mem_openers he
        rw [blockOf_congr heq.symm, hold] at hsame
        exact hid (Option.some.inj hsame).symm
      rw [if_neg hne, Nat.add_zero, ← hbefore]
      exact HashMap.insert_of_ne _ _ hid
  · obtain ⟨hbefore, hfound⟩ := separateCounts_snoc.mp hs
    obtain ⟨blocks, hdrawn⟩ := h.drawn hbefore
    by_cases hne : domId = ""
    · subst hne
      exact ⟨_, hdrawn.unnamed hold⟩
    · exact ⟨_, hdrawn.again hold hne (hfound domId hold hne)⟩
  · by_cases hbefore : SeparateCounts shown
    · obtain ⟨blocks, hdrawn⟩ := h.drawn hbefore
      obtain ⟨first, hfirst, -, hid⟩ := blockOf_eq_some.mp hold
      have hmem : domId ∈ overlay.ids := h.keyed.ids ▸ hid ▸ List.mem_map_of_mem hfirst
      have hlost : domId ≠ "" ∧ ¬CountFound shown domId := by
        by_contra hfine
        refine hs (separateCounts_snoc.mpr ⟨hbefore, fun id heq hne => ?_⟩)
        obtain rfl := Option.some.inj (hold.symm.trans heq)
        by_contra hfound
        exact hfine ⟨hne, hfound⟩
      exact broken_bump hdrawn.rendered hlost.1 hmem (hdrawn.ids.symm ▸ hlost.2)
    · exact (h.broken hbefore).bump domId

/-- Each error that is rendered is traced. -/
lemma traced_renderError (h : Traced overlay shown) (hlist : overlay.errorListEl.isSome)
    (err : LayeError) : Traced (renderError overlay err) (shown ++ [err]) := by
  cases hblock : blockOf shown err with
  | none => exact traced_open h hlist hblock
  | some domId =>
    rw [renderError_again ((h.keyed.dedup err).trans hblock)]
    exact traced_bump h hblock

/-- An overlay with the same blocks, dismissed or not, that knows the same of them. -/
lemma Traced.of_same {overlay' : ErrorOverlay} (h : Traced overlay shown)
    (hnodes : overlay'.nodes.map ErrorNode.raised = overlay.nodes.map ErrorNode.raised)
    (hdedup : overlay'.errorDedup = overlay.errorDedup)
    (hcounts : overlay'.errorCounts = overlay.errorCounts) : Traced overlay' shown := by
  have hids : overlay'.ids = overlay.ids := by
    have hids := congrArg (List.map ErrorNode.id) hnodes
    rwa [List.map_map, List.map_map] at hids
  refine ⟨⟨?_, hids.trans h.keyed.ids⟩, ?_, fun hs => ?_, fun hs => ?_⟩
  · rw [hdedup]
    exact h.keyed.dedup
  · rw [hcounts]
    exact h.counted
  · obtain ⟨blocks, hrendered, hfirsts, hpos, hblank, hle, htotal, hknown⟩ := h.drawn hs
    rw [← hcounts] at hknown
    exact ⟨blocks, hnodes.trans hrendered, hfirsts, hpos, hblank, hle, htotal, hknown⟩
  · rw [broken_iff, hnodes, ← broken_iff]
    exact h.broken hs

lemma hideError_raised (overlay : ErrorOverlay) (domId : String) :
    (hideError overlay domId).nodes.map ErrorNode.raised = overlay.nodes.map ErrorNode.raised := by
  unfold hideError ErrorOverlay.nodes
  cases overlay.errorListEl with
  | none => rfl
  | some nodes =>
    have hsame : (updateElementById domId (fun node => { node with displayed := false }) id
        nodes).map ErrorNode.raised = updateElementById domId id id (nodes.map ErrorNode.raised) := by
      apply updateElementById_raised
      · exact fun _ => rfl
      · exact fun _ => rfl
    exact hsame.trans (updateElementById_id _ _)

lemma traced_start : Traced .start [] := by
  refine ⟨⟨fun _ => rfl, rfl⟩, ?_, fun _ => ⟨[], ?_⟩, fun hs => absurd along_nil hs⟩
  · intro e he
    cases he
  · refine ⟨rfl, rfl, List.forall_mem_nil _, List.forall_mem_nil _, le_rfl, ?_, List.forall_mem_nil _⟩
    exact ⟨fun _ => along_nil, fun _ => rfl⟩

lemma isSome_renderError (hlist : overlay.errorListEl.isSome) (err : LayeError) :
    (renderError overlay err).errorListEl.isSome := by
  unfold renderError
  split
  · simp [bumpErrorCounter, hlist]
  · simp [hlist]

end Traced

end Laye
