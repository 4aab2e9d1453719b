import Mathlib.Algebra.Order.Group.Multiset
import Mathlib.Tactic.Abel
import Laye.Blocks
import Laye.Client

/-!
# Where emitted errors end up

Errors leave the buffer when `render_errors` drains it, whether or not there is an overlay to take
them, and an overlay may lose them as it counts.
-/

namespace Laye

/-! ### What a page goes through -/

inductive PageOp
  | emit (err : LayeError)
  | renderErrors
  | installErrorOverlay
  | dismissError (domId : String)
  | build (severity : Severity) (region title why : String)
  | installChatOverlay
  | renderChat (chat : ChatState)
  | updateLoginButton (handle : Option String)

namespace Page

def step (page : Page) : PageOp → Page
  | .emit err => page.emit err
  | .renderErrors => page.renderErrors
  | .installErrorOverlay => page.installErrorOverlay
  | .dismissError domId => page.dismissError domId
  | .build severity region title why => (page.build severity region title why).2
  | .installChatOverlay => page.installChatOverlay
  | .renderChat chat => page.renderChat chat
  | .updateLoginButton handle => page.updateLoginButton handle

def run (page : Page) (ops : List PageOp) : Page := ops.foldl step page

/-- The errors passed to `emit`. -/
def emittedIn (ops : List PageOp) : List LayeError :=
  ops.filterMap fun
    | .emit err => some err
    | _ => none

/-- What a full buffer gives up for a new error. -/
def evicted (page : Page) : PageOp → List LayeError
  | .emit _ => page.errors.buffer.take (if ErrPipe.CAP ≤ page.errors.buffer.length then 1 else 0)
  | _ => []

/-- The errors pushed out by the cap, in order. -/
def pushedOut (page : Page) : List PageOp → List LayeError
  | [] => []
  | op :: ops => page.evicted op ++ pushedOut (page.step op) ops

lemma run_append (page : Page) (as bs : List PageOp) : page.run (as ++ bs) = (page.run as).run bs :=
  List.foldl_append

lemma emittedIn_append (as bs : List PageOp) : emittedIn (as ++ bs) = emittedIn as ++ emittedIn bs :=
  List.filterMap_append

lemma pushedOut_append (page : Page) (as bs : List PageOp) :
    page.pushedOut (as ++ bs) = page.pushedOut as ++ (page.run as).pushedOut bs := by
  induction as generalizing page with
  | nil => rfl
  | cons op as ih =>
    rw [List.cons_append, pushedOut, pushedOut, ih, List.append_assoc]
    rfl

/-- There is an overlay for errors to go to. -/
def Mounted (page : Page) : Prop := page.dom = .document ∧ page.overlay.errorListEl.isSome

instance (page : Page) : Decidable page.Mounted := inferInstanceAs (Decidable (_ ∧ _))

/-- The errors an operation brings to the overlay. -/
def shownBy (page : Page) : PageOp → List LayeError
  | .renderErrors => if page.Mounted then page.errors.buffer else []
  | _ => []

def shownIn (page : Page) : List PageOp → List LayeError
  | [] => []
  | op :: ops => page.shownBy op ++ shownIn (page.step op) ops

lemma shownIn_append (page : Page) (as bs : List PageOp) :
    page.shownIn (as ++ bs) = page.shownIn as ++ (page.run as).shownIn bs := by
  induction as generalizing page with
  | nil => rfl
  | cons op as ih =>
    rw [List.cons_append, shownIn, shownIn, ih, List.append_assoc]
    rfl

lemma shownIn_snoc (page : Page) (ops : List PageOp) (op : PageOp) :
    page.shownIn (ops ++ [op]) = page.shownIn ops ++ (page.run ops).shownBy op := by
  rw [shownIn_append, shownIn, shownIn, List.append_nil]

/-! ### `render_errors` -/

lemma document_fst (page : Page) : page.document.1 = none ↔ page.dom = .document := by
  unfold document
  cases page.dom <;> simp

lemma document_snd (page : Page) :
    page.document.2.dom = page.dom ∧ page.document.2.overlay = page.overlay ∧
      page.document.2.errors.buffer = page.errors.buffer := by
  unfold document
  split <;> exact ⟨rfl, rfl, rfl⟩

lemma renderErrors_mounted {page : Page} (h : page.Mounted) :
    page.renderErrors = { page with
      errors := { page.errors with buffer := [] }
      overlay := page.errors.buffer.foldl renderError page.overlay } := by
  obtain ⟨hdom, hlist⟩ := h
  unfold renderErrors ErrPipe.drain
  cases hbuffer : page.errors.buffer with
  | nil => rfl
  | cons err errors => simp [document, hdom, hlist]

lemma renderErrors_unmounted {page : Page} (h : ¬page.Mounted) :
    page.renderErrors.dom = page.dom ∧ page.renderErrors.overlay = page.overlay ∧
      page.renderErrors.errors.buffer = [] := by
  unfold renderErrors ErrPipe.drain
  dsimp only
  split
  · exact ⟨rfl, rfl, rfl⟩
  · split
    · rename_i err page' hdoc
      have hsnd := document_snd { page with errors := { page.errors with buffer := [] } }
      rw [hdoc] at hsnd
      exact hsnd
    · rename_i page' hdoc
      have hfst := document_fst { page with errors := { page.errors with buffer := [] } }
      have hsnd := document_snd { page with errors := { page.errors with buffer := [] } }
      rw [hdoc] at hfst hsnd
      obtain ⟨hdom, hoverlay, hbuffer⟩ := hsnd
      have hnone : ¬page'.overlay.errorListEl.isSome := by
        intro hsome
        rw [hoverlay] at hsome
        exact h ⟨hfst.mp rfl, hsome⟩
      rw [if_neg hnone]
      exact ⟨hdom, hoverlay, hbuffer⟩

end Page

/-! ### The overlay -/

/-- A block that renders one error and counts it with others. -/
structure ErrorBlock where
  first : LayeError
  others : List LayeError

namespace ErrorBlock

def errors (b : ErrorBlock) : List LayeError := b.first :: b.others

def counted (b : ErrorBlock) : LayeError × Nat := (b.first, b.errors.length)

def node (b : ErrorBlock) : ErrorNode := countedBlock b.first b.errors.length

/-- One more error for the first block with this id. -/
def addAt (domId : String) (err : LayeError) : List ErrorBlock → List ErrorBlock
  | [] => []
  | b :: blocks =>
    if b.first.id = domId then { b with others := b.others ++ [err] } :: blocks
    else b :: addAt domId err blocks

end ErrorBlock

/-- Each error is rendered by a block of its own, or is one of those that a block of the id its key
leads to counts. -/
def Represented (overlay : ErrorOverlay) (shown : List LayeError) : Prop :=
  ∃ blocks : List ErrorBlock, overlay.nodes.map ErrorNode.raised = blocks.map ErrorBlock.node ∧
    (blocks.flatMap ErrorBlock.errors).Perm shown ∧
    ∀ b ∈ blocks, ∀ err ∈ b.errors, overlay.errorDedup (dedupKey err) = some b.first.id

section Represented

variable {overlay : ErrorOverlay} {shown : List LayeError} {err : LayeError} {domId : String}

lemma rendered_counted {blocks : List ErrorBlock}
    (h : overlay.nodes.map ErrorNode.raised = blocks.map ErrorBlock.node) :
    Rendered overlay (blocks.map ErrorBlock.counted) := by
  rw [Rendered, h, List.map_map]
  rfl

lemma counted_pos (blocks : List ErrorBlock) : ∀ b ∈ blocks.map ErrorBlock.counted, 1 ≤ b.2 := by
  intro b hb
  obtain ⟨block, -, rfl⟩ := List.mem_map.mp hb
  exact Nat.le_add_left _ _

lemma addAt_counted {blocks : List ErrorBlock} {n : Nat} (err : LayeError)
    (hn : shownAt (blocks.map ErrorBlock.counted) domId = some n) :
    (ErrorBlock.addAt domId err blocks).map ErrorBlock.counted =
      setCountAt domId (n + 1) (blocks.map ErrorBlock.counted) := by
  induction blocks with
  | nil => rfl
  | cons b blocks ih =>
    have hfirst : b.counted.1 = b.first := rfl
    rw [ErrorBlock.addAt, List.map_cons, setCountAt, hfirst]
    rw [List.map_cons, shownAt_cons, hfirst] at hn
    by_cases hid : b.first.id = domId
    · rw [if_pos hid, Option.some_inj] at hn
      rw [if_pos hid, if_pos hid, List.map_cons, ← hn]
      simp [ErrorBlock.counted, ErrorBlock.errors]
    · rw [if_neg hid] at hn
      rw [if_neg hid, if_neg hid, List.map_cons, ih hn]

lemma addAt_perm {blocks : List ErrorBlock} (err : LayeError)
    (hmem : domId ∈ blocks.map fun b => b.first.id) :
    ((ErrorBlock.addAt domId err blocks).flatMap ErrorBlock.errors).Perm
      (blocks.flatMap ErrorBlock.errors ++ [err]) := by
  induction blocks with
  | nil => cases hmem
  | cons b blocks ih =>
    rw [ErrorBlock.addAt, List.flatMap_cons]
    by_cases hid : b.first.id = domId
    · rw [if_pos hid, List.flatMap_cons, List.append_assoc]
      have herrors : ErrorBlock.errors { b with others := b.others ++ [err] } = b.errors ++ [err] := rfl
      rw [herrors, List.append_assoc]
      exact List.perm_append_comm.append_left _
    · rw [if_neg hid, List.flatMap_cons, List.append_assoc]
      exact (ih ((List.mem_cons.mp hmem).resolve_left fun heq => hid heq.symm)).append_left _

lemma mem_addAt {blocks : List ErrorBlock} {b : ErrorBlock} (h : b ∈ ErrorBlock.addAt domId err blocks) :
    b ∈ blocks ∨ ∃ b' ∈ blocks, b'.first.id = domId ∧ b = { b' with others := b'.others ++ [err] } := by
  induction blocks with
  | nil => cases h
  | cons b' blocks ih =>
    rw [ErrorBlock.addAt] at h
    split at h
    · rename_i hid
      rcases List.mem_cons.mp h with rfl | h
      · exact Or.inr ⟨b', List.mem_cons_self, hid, rfl⟩
      · exact Or.inl (List.mem_cons_of_mem _ h)
    · rcases List.mem_cons.mp h with rfl | h
      · exact Or.inl List.mem_cons_self
      · rcases ih h with hb | ⟨c, hc, hsame⟩
        · exact Or.inl (List.mem_cons_of_mem _ hb)
        · exact Or.inr ⟨c, List.mem_cons_of_mem _ hc, hsame⟩

/-- Errors that have blocks could all be counted. -/
lemma Represented.allCounted (h : Represented overlay shown) (ht : Traced overlay shown) :
    AllCounted shown := by
  obtain ⟨blocks, hnodes, hperm, -⟩ := h
  have hrendered := rendered_counted hnodes
  have hseparate : SeparateCounts shown := by
    by_contra hs
    exact not_broken hrendered (ht.broken hs)
  obtain ⟨drawn, hdrawn⟩ := ht.drawn hseparate
  have hsame := hrendered.unique hdrawn.rendered (counted_pos blocks) hdrawn.pos
  have hcounts := congrArg (List.map Prod.snd) hsame
  rw [List.map_map, List.map_map, List.map_map] at hcounts
  have hlength : (blocks.map fun b => b.errors.length).sum = shown.length := by
    rw [← hperm.length_eq, List.length_flatMap]
  refine hdrawn.total.mp (Eq.trans ?_ hlength)
  exact congrArg List.sum hcounts.symm

lemma represented_open (h : Represented overlay shown) (hlist : overlay.errorListEl.isSome)
    (hkey : overlay.errorDedup (dedupKey err) = none) :
    Represented (renderError overlay err) (shown ++ [err]) := by
  obtain ⟨blocks, hnodes, hperm, hled⟩ := h
  refine ⟨blocks ++ [⟨err, []⟩], ?_, ?_, fun b hb e he => ?_⟩
  · rw [renderError_new hkey hlist, List.map_append, hnodes, List.map_append]
    rfl
  · rw [List.flatMap_append]
    exact hperm.append_right [err]
  · rw [renderError_errorDedup hkey]
    rcases List.mem_append.mp hb with hb | hb
    · have hold := hled b hb e he
      have hne : dedupKey e ≠ dedupKey err := by
        intro heq
        rw [heq, hkey] at hold
        cases hold
      rw [if_neg hne, hold]
    · obtain rfl := List.mem_singleton.mp hb
      rw [List.mem_singleton.mp he, if_pos rfl]

lemma represented_bump (h : Represented overlay shown) (ht : Traced overlay shown)
    (hblock : blockOf shown err = some domId) (hcount : Countable shown domId) :
    Represented (bumpErrorCounter overlay domId) (shown ++ [err]) := by
  have hkey : overlay.errorDedup (dedupKey err) = some domId := (ht.keyed.dedup err).trans hblock
  obtain ⟨drawn, hdrawn⟩ := ht.drawn (h.allCounted ht).separateCounts
  obtain ⟨blocks, hnodes, hperm, hled⟩ := h
  have hrendered := rendered_counted hnodes
  have hmem : domId ∈ (openers shown).map LayeError.id := List.mem_of_find?_eq_some hcount.found
  obtain ⟨c, n, hc, hn, hat⟩ := hdrawn.counts domId hmem hcount.named
  rw [← shownAt_congr (hrendered.unique hdrawn.rendered (counted_pos blocks) hdrawn.pos)] at hn
  have hnext : (overlay.errorCounts domId).getD 1 = n := by
    rw [hc, Option.getD_some]
    exact hat.fresh hcount.fresh
  have hids : (blocks.map ErrorBlock.counted).map (fun b => b.1.id) = (openers shown).map LayeError.id :=
    hrendered.ids.symm.trans ht.keyed.ids
  have hbumped := rendered_bump hrendered hcount.named
    (hnext.symm ▸ hat.pos.trans hat.le) (hids.symm ▸ hcount.found)
  rw [hnext, ← addAt_counted err hn, Rendered, List.map_map] at hbumped
  refine ⟨ErrorBlock.addAt domId err blocks, hbumped, ?_, fun b hb e he => ?_⟩
  · refine (addAt_perm err ?_).trans (hperm.append_right [err])
    rw [List.map_map] at hids
    exact hids.symm ▸ hmem
  · change overlay.errorDedup (dedupKey e) = _
    rcases mem_addAt hb with hb | ⟨b', hb', hid, rfl⟩
    · exact hled b hb e he
    · have hmore : e ∈ b'.errors ++ [err] := he
      rcases List.mem_append.mp hmore with he | he
      · exact hled b' hb' e he
      · rw [List.mem_singleton.mp he, hkey]
        exact congrArg some hid.symm

/-- The overlay after these errors, with a block for each of them where they could be counted. -/
structure Accounted (overlay : ErrorOverlay) (shown : List LayeError) : Prop where
  traced : Traced overlay shown
  represented : AllCounted shown → Represented overlay shown

lemma Accounted.represented_iff (h : Accounted overlay shown) :
    Represented overlay shown ↔ AllCounted shown :=
  ⟨fun hr => hr.allCounted h.traced, h.represented⟩

lemma accounted_renderError (h : Accounted overlay shown) (hlist : overlay.errorListEl.isSome)
    (err : LayeError) : Accounted (renderError overlay err) (shown ++ [err]) := by
  refine ⟨traced_renderError h.traced hlist err, fun hall => ?_⟩
  obtain ⟨hbefore, hcount⟩ := allCounted_snoc.mp hall
  have hrep := h.represented hbefore
  have hkey := h.traced.keyed.dedup err
  cases hblock : blockOf shown err with
  | none => exact represented_open hrep hlist (hkey.trans hblock)
  | some domId =>
    rw [renderError_again (hkey.trans hblock)]
    exact represented_bump hrep h.traced hblock (hcount domId hblock)

lemma accounted_renderErrors (h : Accounted overlay shown) (hlist : overlay.errorListEl.isSome)
    (errors : List LayeError) : Accounted (errors.foldl renderError overlay) (shown ++ errors) := by
  induction errors generalizing overlay shown with
  | nil => rwa [List.append_nil]
  | cons err errors ih =>
    rw [List.foldl_cons, ← List.singleton_append, ← List.append_assoc]
    exact ih (accounted_renderError h hlist err) (isSome_renderError hlist err)

lemma Accounted.of_same {overlay' : ErrorOverlay} (h : Accounted overlay shown)
    (hnodes : overlay'.nodes.map ErrorNode.raised = overlay.nodes.map ErrorNode.raised)
    (hdedup : overlay'.errorDedup = overlay.errorDedup)
    (hcounts : overlay'.errorCounts = overlay.errorCounts) : Accounted overlay' shown := by
  refine ⟨h.traced.of_same hnodes hdedup hcounts, fun hall => ?_⟩
  obtain ⟨blocks, hblocks, hperm, hled⟩ := h.represented hall
  rw [← hdedup] at hled
  exact ⟨blocks, hnodes.trans hblocks, hperm, hled⟩

end Represented

/-! ### Runs -/

namespace Page

/-- Where no errors come to the overlay, it keeps its blocks, their keys and their counts. -/
lemma step_overlay (page : Page) {op : PageOp} (hop : op = .renderErrors → ¬page.Mounted) :
    (page.step op).overlay.nodes.map ErrorNode.raised = page.overlay.nodes.map ErrorNode.raised ∧
      (page.step op).overlay.errorDedup = page.overlay.errorDedup ∧
      (page.step op).overlay.errorCounts = page.overlay.errorCounts := by
  have hsnd := document_snd page
  have hsame : ∀ overlay, overlay = page.overlay →
      overlay.nodes.map ErrorNode.raised = page.overlay.nodes.map ErrorNode.raised ∧
        overlay.errorDedup = page.overlay.errorDedup ∧
        overlay.errorCounts = page.overlay.errorCounts := by
    rintro _ rfl
    exact ⟨rfl, rfl, rfl⟩
  cases op with
  | emit | build | installChatOverlay | updateLoginButton => exact ⟨rfl, rfl, rfl⟩
  | renderErrors => exact hsame _ (renderErrors_unmounted (hop rfl)).2.1
  | installErrorOverlay => exact ⟨by simp [step, installErrorOverlay, ErrorOverlay.nodes], rfl, rfl⟩
  | dismissError domId =>
    simp only [step, dismissError]
    split <;> rename_i page' hdoc <;> rw [hdoc] at hsnd
    · exact hsame _ hsnd.2.1
    · obtain ⟨hnodes, hdedup, hcounts⟩ := hsame page'.overlay hsnd.2.1
      exact ⟨(hideError_raised page'.overlay domId).trans hnodes, hdedup, hcounts⟩
  | renderChat chat =>
    simp only [step, renderChat]
    split <;> rename_i page' hdoc <;> rw [hdoc] at hsnd
    · exact hsame _ hsnd.2.1
    · exact hsame _ hsnd.2.1

lemma accounted_step {page : Page} {shown : List LayeError} (h : Accounted page.overlay shown)
    (op : PageOp) : Accounted (page.step op).overlay (shown ++ page.shownBy op) := by
  by_cases hop : op = .renderErrors ∧ page.Mounted
  · obtain ⟨rfl, hmounted⟩ := hop
    rw [show page.step .renderErrors = _ from renderErrors_mounted hmounted, shownBy,
      if_pos hmounted]
    exact accounted_renderErrors h hmounted.2 page.errors.buffer
  · have hnone : page.shownBy op = [] := by
      cases op with
      | renderErrors => exact if_neg (fun hmounted => hop ⟨rfl, hmounted⟩)
      | _ => rfl
    obtain ⟨hnodes, hdedup, hcounts⟩ := step_overlay page (fun heq hmounted => hop ⟨heq, hmounted⟩)
    rw [hnone, List.append_nil]
    exact h.of_same hnodes hdedup hcounts

lemma accounted_run (dom : DomContext) (ops : List PageOp) :
    Accounted ((start dom).run ops).overlay ((start dom).shownIn ops) := by
  induction ops using List.reverseRecOn with
  | nil => exact ⟨traced_start, fun _ => ⟨[], rfl, .refl _, List.forall_mem_nil _⟩⟩
  | append_singleton ops op ih =>
    rw [run_append, shownIn_snoc]
    exact accounted_step ih op

/-- Every error emitted is pushed out, shown or waiting. -/
def ErrorsKept (emitted pushedOut : List LayeError) (page : Page) : Prop :=
  ∃ shown, emitted.Perm (pushedOut ++ shown ++ page.errors.buffer) ∧ Represented page.overlay shown

/-- A step leaves no error out, unless it is a drain of errors with nowhere to go. -/
lemma perm_step (page : Page) (op : PageOp)
    (hop : op = .renderErrors → page.errors.buffer ≠ [] → page.Mounted) :
    page.errors.buffer ++ emittedIn [op] =
      page.evicted op ++ page.shownBy op ++ (page.step op).errors.buffer := by
  have hsnd := document_snd page
  cases op with
  | emit err =>
    simp only [evicted, shownBy, step, emit, ErrPipe.emit, List.append_nil]
    rw [← List.append_assoc, List.take_append_drop]
    rfl
  | renderErrors =>
    by_cases hmounted : page.Mounted
    · rw [show page.step .renderErrors = _ from renderErrors_mounted hmounted, shownBy, if_pos hmounted]
      rfl
    · have hnone : page.errors.buffer = [] := by
        by_contra hne
        exact hmounted (hop rfl hne)
      have hdrained : (page.step .renderErrors).errors.buffer = [] :=
        (renderErrors_unmounted hmounted).2.2
      rw [hnone, hdrained, shownBy, if_neg hmounted]
      rfl
  | build | installErrorOverlay | installChatOverlay | updateLoginButton =>
    exact List.append_nil _
  | dismissError domId =>
    simp only [step, dismissError]
    split <;> rename_i page' hdoc <;> rw [hdoc] at hsnd
    all_goals
      refine (List.append_nil _).trans ?_
      exact hsnd.2.2.symm
  | renderChat chat =>
    simp only [step, renderChat]
    split <;> rename_i page' hdoc <;> rw [hdoc] at hsnd
    all_goals
      refine (List.append_nil _).trans ?_
      exact hsnd.2.2.symm

lemma pushedOut_snoc (page : Page) (ops : List PageOp) (op : PageOp) :
    page.pushedOut (ops ++ [op]) = page.pushedOut ops ++ (page.run ops).evicted op := by
  rw [pushedOut_append, pushedOut, pushedOut, List.append_nil]

/-- No drain finds errors in the buffer before there is an overlay. -/
def DrainedMounted (page : Page) (ops : List PageOp) : Prop :=
  ∀ before, before ++ [.renderErrors] <+: ops → (page.run before).errors.buffer ≠ [] →
    (page.run before).Mounted

lemma perm_run (page : Page) {ops : List PageOp} (h : page.DrainedMounted ops) :
    (page.errors.buffer ++ emittedIn ops).Perm
      (page.pushedOut ops ++ page.shownIn ops ++ (page.run ops).errors.buffer) := by
  induction ops using List.reverseRecOn with
  | nil => exact .of_eq (List.append_nil _)
  | append_singleton ops op ih =>
    have hbefore := ih fun before hb => h before (hb.trans (List.prefix_append _ _))
    have hone := perm_step (page.run ops) op
      fun hop => h ops (by rw [hop])
    rw [emittedIn_append, pushedOut_snoc, shownIn_snoc, run_append]
    change List.Perm _ (_ ++ _ ++ ((page.run ops).step op).errors.buffer)
    rw [← Multiset.coe_eq_coe] at hbefore ⊢
    have hsame := congrArg (fun l : List LayeError => (l : Multiset LayeError)) hone
    simp only [← Multiset.coe_add] at hbefore hsame ⊢
    calc _ = (↑page.errors.buffer + ↑(emittedIn ops) : Multiset LayeError) + ↑(emittedIn [op]) := by abel
      _ = ↑(page.pushedOut ops) + ↑(page.shownIn ops) +
          (↑(page.run ops).errors.buffer + ↑(emittedIn [op])) := by rw [hbefore]; abel
      _ = _ := by rw [hsame]; abel

lemma step_dom (page : Page) (op : PageOp) : (page.step op).dom = page.dom := by
  have hsnd := document_snd page
  cases op with
  | emit | build | installErrorOverlay | installChatOverlay | updateLoginButton => rfl
  | renderErrors =>
    by_cases hmounted : page.Mounted
    · rw [show page.step .renderErrors = _ from renderErrors_mounted hmounted]
    · exact (renderErrors_unmounted hmounted).1
  | dismissError domId =>
    simp only [step, dismissError]
    split <;> rename_i page' hdoc <;> rw [hdoc] at hsnd <;> exact hsnd.1
  | renderChat chat =>
    simp only [step, renderChat]
    split <;> rename_i page' hdoc <;> rw [hdoc] at hsnd <;> exact hsnd.1

/-- Without a document nothing is ever shown. -/
lemma step_blank {page : Page} (hdom : page.dom ≠ .document)
    (h : page.overlay.errorDedup = HashMap.empty) (op : PageOp) :
    (page.step op).overlay.errorDedup = HashMap.empty := by
  have hsnd := document_snd page
  cases op with
  | emit | build | installErrorOverlay | installChatOverlay | updateLoginButton => exact h
  | renderErrors =>
    have hunmounted : ¬page.Mounted := fun hmounted => hdom hmounted.1
    exact (congrArg ErrorOverlay.errorDedup (renderErrors_unmounted hunmounted).2.1).trans h
  | dismissError domId =>
    simp only [step, dismissError]
    split <;> rename_i page' hdoc <;> rw [hdoc] at hsnd
    · exact (congrArg ErrorOverlay.errorDedup hsnd.2.1).trans h
    · exact (congrArg ErrorOverlay.errorDedup hsnd.2.1).trans h
  | renderChat chat =>
    simp only [step, renderChat]
    split <;> rename_i page' hdoc <;> rw [hdoc] at hsnd
    · exact (congrArg ErrorOverlay.errorDedup hsnd.2.1).trans h
    · exact (congrArg ErrorOverlay.errorDedup hsnd.2.1).trans h

lemma run_blank (dom : DomContext) (ops : List PageOp) :
    ((start dom).run ops).dom = dom ∧
      (dom ≠ .document → ((start dom).run ops).overlay.errorDedup = HashMap.empty) := by
  induction ops using List.reverseRecOn with
  | nil => exact ⟨rfl, fun _ => rfl⟩
  | append_singleton ops op ih =>
    obtain ⟨hdom, hblank⟩ := ih
    rw [run_append]
    refine ⟨(step_dom _ op).trans hdom, fun hne => step_blank (hdom.symm ▸ hne) (hblank hne) op⟩

/-- With no overlay to show it, no error is represented. -/
lemma represented_mounted {dom : DomContext} {ops : List PageOp} {shown : List LayeError}
    {err : LayeError} (h : Represented ((start dom).run ops).overlay shown) (herr : err ∈ shown) :
    ((start dom).run ops).Mounted := by
  obtain ⟨blocks, hnodes, hperm, hled⟩ := h
  obtain ⟨b, hb, hin⟩ := List.mem_flatMap.mp (hperm.symm.subset herr)
  have hkey := hled b hb err hin
  obtain ⟨hdom, hblank⟩ := run_blank dom ops
  refine ⟨?_, ?_⟩
  · rw [hdom]
    by_contra hne
    rw [hblank hne] at hkey
    cases hkey
  · by_contra hnone
    have hnil : ((start dom).run ops).overlay.nodes = [] := by
      rw [ErrorOverlay.nodes, Option.not_isSome_iff_eq_none.mp hnone, Option.getD_none]
    rw [hnil, List.map_nil] at hnodes
    rw [List.map_eq_nil_iff.mp hnodes.symm] at hb
    cases hb

/-- A drain of errors with nowhere to go loses them. -/
lemma lost_by_drain {dom : DomContext} {ops : List PageOp} {emitted pushedOut : List LayeError}
    (hbuffer : ((start dom).run ops).errors.buffer ≠ [])
    (h : ErrorsKept emitted pushedOut ((start dom).run ops))
    (hafter : ErrorsKept emitted pushedOut ((start dom).run ops).renderErrors) :
    ((start dom).run ops).Mounted := by
  by_contra hunmounted
  obtain ⟨-, hoverlay, hdrained⟩ := renderErrors_unmounted hunmounted
  obtain ⟨shown, hperm, -⟩ := h
  obtain ⟨shown', hperm', hshown'⟩ := hafter
  obtain ⟨err, herr⟩ := List.exists_mem_of_ne_nil _ hbuffer
  have hsame := hperm.symm.trans hperm'
  rw [hdrained, List.append_nil, List.append_assoc, List.perm_append_left_iff] at hsame
  have hmem : err ∈ shown' := hsame.mem_iff.mp (List.mem_append_right _ herr)
  exact hunmounted (represented_mounted (hoverlay ▸ hshown') hmem)

/-- In every run: all along, every emitted error is pushed out by the cap, shown or waiting,
exactly when no drain finds errors in the buffer before an overlay is mounted, and each error
shown whose key has a block can be counted there. -/
theorem errors_kept_iff (dom : DomContext) (ops : List PageOp) :
    (∀ pre, pre <+: ops → ErrorsKept (emittedIn pre) ((start dom).pushedOut pre)
      ((start dom).run pre)) ↔
    (start dom).DrainedMounted ops ∧ AllCounted ((start dom).shownIn ops) := by
  constructor
  · intro h
    have hdrained : (start dom).DrainedMounted ops := by
      intro pre hpre hbuffer
      have hbefore := h pre ((List.prefix_append _ _).trans hpre)
      have hafter := h _ hpre
      rw [emittedIn_append, pushedOut_snoc, run_append] at hafter
      change ErrorsKept (emittedIn pre ++ []) ((start dom).pushedOut pre ++ [])
        ((start dom).run pre).renderErrors at hafter
      rw [List.append_nil, List.append_nil] at hafter
      exact lost_by_drain hbuffer hbefore hafter
    refine ⟨hdrained, (accounted_run dom ops).represented_iff.mp ?_⟩
    obtain ⟨shown, hperm, blocks, hnodes, hblocks, hled⟩ := h ops (List.prefix_refl _)
    have hsame := hperm.symm.trans (perm_run (start dom) hdrained)
    rw [List.perm_append_right_iff, List.perm_append_left_iff] at hsame
    exact ⟨blocks, hnodes, hblocks.trans hsame, hled⟩
  · rintro ⟨hdrained, hall⟩ pre hpre
    obtain ⟨more, rfl⟩ := hpre
    refine ⟨(start dom).shownIn pre, perm_run (start dom) ?_, ?_⟩
    · exact fun before hb => hdrained before (hb.trans (List.prefix_append _ _))
    · apply (accounted_run dom pre).represented
      rw [shownIn_append] at hall
      exact hall.of_prefix (List.prefix_append _ _)

end Page

/-- A first `init` whose config does not parse: the error is drained before there is an overlay. And
an error counted under the id `a` is written over the block with the id `a--count`. -/
theorem failed_init_loses_error :
    let lib := Libp2pIdentity.recorded []
    let deps : Deps lib := .plain (.ofTexts []) (fun _ => none)
    let st : AppState lib := .start .document
    let page := Page.start .document
    let err := (page.build .error "init-config-parse" "init config parse failed" "expected value").1
    let ops : List PageOp := [
      .build .error "init-config-parse" "init config parse failed" "expected value",
      .emit err, .renderErrors]
    let host (id title : String) : LayeError := ⟨id, .warn, "host", none, title, "", [], false⟩
    let counted : List PageOp := [.installErrorOverlay, .emit (host "a--count" "refused"),
      .emit (host "a" "offline"), .emit (host "a2" "offline"), .renderErrors]
    ((AppState.init deps st "" (.firstVisit (PubKey.replicate 7))).page = page.run ops ∧
      ¬∀ pre, pre <+: ops →
        Page.ErrorsKept (Page.emittedIn pre) (page.pushedOut pre) (page.run pre)) ∧
    ¬∀ pre, pre <+: counted →
      Page.ErrorsKept (Page.emittedIn pre) (page.pushedOut pre) (page.run pre) := by
  intro lib deps st page err ops host counted
  refine ⟨⟨rfl, fun h => ?_⟩, fun h => ?_⟩
  · obtain ⟨shown, hperm, hshown⟩ := h ops (List.prefix_refl _)
    have hmem : err ∈ shown := by
      have hshown' : [err].Perm (shown ++ []) := hperm
      rw [List.append_nil] at hshown'
      exact hshown'.mem_iff.mp (List.mem_singleton_self _)
    have hmounted : (page.run ops).Mounted := Page.represented_mounted hshown hmem
    exact absurd hmounted.2 (by decide)
  · obtain ⟨shown, -, blocks, hnodes, -⟩ := h counted (List.prefix_refl _)
    have hlost : Broken (page.run counted).overlay :=
      ⟨⟨"a--count", "laye-error laye-sev-warn", .text "×2", true⟩, by decide, "×2", rfl⟩
    exact not_broken (rendered_counted hnodes) hlost

end Laye
