import Laye.Coalescing
import Laye.Lib.Tally

/-!
# The overlay is a board

The list of blocks, the map of joined keys, the map of counts and the lookups by id in the document
keep together what a board with one note for each surface, region and title keeps at once.
-/

namespace Laye

open Tally (Note)

/-- What comes to the overlay. -/
abbrev BoardEvent := Tally.Event LayeError String

/-- The block of a note: the first error, with a count from the second on. -/
def block (note : Note LayeError) : ErrorNode :=
  { countedBlock note.first note.count with displayed := note.up }

/-- Errors with ids whose joined keys and ids bring no different triples together, and no id is that
of a count. -/
structure Distinct (shown : List LayeError) : Prop where
  named : ∀ err ∈ shown, err.id ≠ ""
  keys : SeparateKeys shown
  ids : ∀ err ∈ shown, ∀ err' ∈ shown, err.id = err'.id → err.triple = err'.triple
  counters : ∀ err ∈ shown, ∀ err' ∈ shown, err.id ≠ counterId err'.id

lemma Distinct.mono {shown shown' : List LayeError} (h : Distinct shown') (hsub : shown ⊆ shown') :
    Distinct shown :=
  ⟨fun err herr => h.named err (hsub herr),
    fun err herr err' herr' => h.keys err (hsub herr) err' (hsub herr'),
    fun err herr err' herr' => h.ids err (hsub herr) err' (hsub herr'),
    fun err herr err' herr' => h.counters err (hsub herr) err' (hsub herr')⟩

/-- The overlay and the board say the same. -/
structure Shows (overlay : ErrorOverlay) (notes : List (Note LayeError)) : Prop where
  blocks : overlay.errorListEl.getD [] = notes.map block
  dedup : ∀ key, overlay.errorDedup key =
    (notes.find? (fun note => dedupKey note.first = key)).map (fun note => note.first.id)
  counts : ∀ note ∈ notes, overlay.errorCounts note.first.id = some note.count

lemma Shows.of_same {overlay overlay' : ErrorOverlay} {notes : List (Note LayeError)}
    (h : Shows overlay notes)
    (hlist : overlay'.errorListEl.getD [] = overlay.errorListEl.getD [])
    (hdedup : overlay'.errorDedup = overlay.errorDedup)
    (hcounts : overlay'.errorCounts = overlay.errorCounts) : Shows overlay' notes := by
  refine ⟨hlist.trans h.blocks, ?_, ?_⟩
  · rw [hdedup]
    exact h.dedup
  · rw [hcounts]
    exact h.counts

/-! ### Looking up in the document -/

section Steps

variable {overlay : ErrorOverlay} {notes : List (Note LayeError)} {shown : List LayeError}

/-- The block of the note with this id, put up, and all others. -/
def raised (domId : String) (note : Note LayeError) : ErrorNode :=
  if note.first.id = domId then { block note with displayed := true } else block note

end Steps

/-! ### Runs of the page -/

namespace Page

/-- What an operation brings to the overlay. -/
def boardedBy (page : Page) : PageOp → List BoardEvent
  | .renderErrors => if page.Mounted then page.errors.buffer.map .posted else []
  | .dismissError domId => if page.dom = .document then [.dismissed domId] else []
  | _ => []

def boardedIn (page : Page) : List PageOp → List BoardEvent
  | [] => []
  | op :: ops => page.boardedBy op ++ boardedIn (page.step op) ops

lemma boardedIn_append (page : Page) (as bs : List PageOp) :
    page.boardedIn (as ++ bs) = page.boardedIn as ++ (page.run as).boardedIn bs := by
  induction as generalizing page with
  | nil => rfl
  | cons op as ih =>
    rw [List.cons_append, boardedIn, boardedIn, ih, List.append_assoc]
    rfl

lemma buffer_renderErrors (page : Page) : page.renderErrors.errors.buffer = [] := by
  by_cases hmounted : page.Mounted
  · rw [renderErrors_mounted hmounted]
  · exact (renderErrors_unmounted hmounted).2.2

lemma buffer_step (page : Page) (op : PageOp) {err : LayeError}
    (h : err ∈ (page.step op).errors.buffer) : err ∈ page.errors.buffer ∨ err ∈ emittedIn [op] := by
  have hsnd := document_snd page
  cases op with
  | emit e =>
    rcases List.mem_append.mp h with h | h
    · exact Or.inl (List.mem_of_mem_drop h)
    · exact Or.inr h
  | build | installErrorOverlay | installChatOverlay | updateLoginButton => exact Or.inl h
  | renderErrors =>
    have hempty : (page.step .renderErrors).errors.buffer = [] := buffer_renderErrors page
    rw [hempty] at h
    cases h
  | dismissError domId =>
    simp only [step, dismissError] at h
    split at h <;> rename_i page' hpage <;> rw [hpage] at hsnd <;> exact Or.inl (hsnd.2.2 ▸ h)
  | renderChat chat =>
    simp only [step, renderChat] at h
    split at h <;> rename_i page' hpage <;> rw [hpage] at hsnd <;> exact Or.inl (hsnd.2.2 ▸ h)

lemma emittedIn_cons (op : PageOp) (ops : List PageOp) :
    emittedIn (op :: ops) = emittedIn [op] ++ emittedIn ops := emittedIn_append [op] ops

lemma buffer_run (page : Page) (ops : List PageOp) {err : LayeError}
    (h : err ∈ (page.run ops).errors.buffer) : err ∈ page.errors.buffer ∨ err ∈ emittedIn ops := by
  induction ops generalizing page with
  | nil => exact Or.inl h
  | cons op ops ih =>
    rw [emittedIn_cons, List.mem_append, ← or_assoc]
    exact (ih (page.step op) h).imp_left fun hstep => buffer_step page op hstep

/-- An error that is shown was in the buffer or is emitted. -/
lemma emitted_of_posted (page : Page) (ops : List PageOp) {err : LayeError}
    (h : .posted err ∈ page.boardedIn ops) : err ∈ page.errors.buffer ∨ err ∈ emittedIn ops := by
  induction ops generalizing page with
  | nil => cases h
  | cons op ops ih =>
    rw [emittedIn_cons, List.mem_append, ← or_assoc]
    rcases List.mem_append.mp h with hby | hin
    · refine Or.inl (Or.inl ?_)
      cases op with
      | renderErrors =>
        simp only [boardedBy] at hby
        split at hby
        · obtain ⟨e, he, heq⟩ := List.mem_map.mp hby
          cases heq
          exact he
        · cases hby
      | dismissError domId =>
        simp only [boardedBy] at hby
        split at hby
        · cases List.mem_singleton.mp hby
        · cases hby
      | _ => cases hby
    · exact (ih (page.step op) hin).imp_left fun hstep => buffer_step page op hstep

/-- What is dismissed is dismissed by a call. -/
lemma dismissed_mem (page : Page) (ops : List PageOp) {domId : String}
    (h : .dismissed domId ∈ page.boardedIn ops) : .dismissError domId ∈ ops := by
  induction ops generalizing page with
  | nil => cases h
  | cons op ops ih =>
    rcases List.mem_append.mp h with hby | hin
    · cases op with
      | dismissError id =>
        simp only [boardedBy] at hby
        split at hby
        · cases List.mem_singleton.mp hby
          exact List.mem_cons_self
        · cases hby
      | renderErrors =>
        simp only [boardedBy] at hby
        split at hby
        · obtain ⟨e, -, heq⟩ := List.mem_map.mp hby
          cases heq
        · cases hby
      | _ => cases hby
    · exact List.mem_cons_of_mem _ (ih (page.step op) hin)

end Page

end Laye
