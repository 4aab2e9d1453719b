import Mathlib.Data.List.Basic
import Mathlib.Data.List.Count
import Mathlib.Logic.Relation
import Laye.Lib.Places

/-!
# A store-and-forward box

Payloads submitted while the link is up go out at once; those submitted while it is down wait
in a queue that holds `cap` of them and drops the oldest. When the link comes up the queue is
flushed. The box keeps, as history, what was submitted and what was sent.
-/

namespace Outbox

variable {π : Type*}

structure Submission (π : Type*) where
  payload : π
  up : Bool

structure Box (π : Type*) where
  up : Bool
  queue : List π
  sent : List π
  submitted : List (Submission π)

/-- Push to the back; a full queue loses its front. -/
def pushCapped (cap : Nat) (queue : List π) (p : π) : List π :=
  (if cap ≤ queue.length then queue.tail else queue) ++ [p]

namespace Box

def submit (cap : Nat) (b : Box π) (p : π) : Box π :=
  { up := b.up
    queue := if b.up then b.queue else pushCapped cap b.queue p
    sent := if b.up then b.sent ++ [p] else b.sent
    submitted := b.submitted ++ [⟨p, b.up⟩] }

def settle (b : Box π) (flush up : Bool) : Box π :=
  { up := up
    queue := if flush then [] else b.queue
    sent := if flush then b.sent ++ b.queue else b.sent
    submitted := b.submitted }

end Box

/-- The link never comes up without a flush. -/
inductive Step (cap : Nat) : Box π → Box π → Prop
  | submit (b : Box π) (p : π) : Step cap b (b.submit cap p)
  | settle (b : Box π) (flush up : Bool) (h : up = true → b.up = true ∨ flush = true) :
      Step cap b (b.settle flush up)

abbrev Run (cap : Nat) : Box π → Box π → Prop := Relation.ReflTransGen (Step cap)

/-- `places` are increasing places of the history, and hold the payloads `ps`. -/
structure Picks (history : List (Submission π)) (places : List Nat) (ps : List π) : Prop where
  increasing : places.Pairwise (· < ·)
  holds : places.map (fun i => (history[i]?).map Submission.payload) = ps.map some

/-- How often the history goes on after place `i` with the link down. -/
def downAfter (history : List (Submission π)) (i : Nat) : Nat :=
  (history.drop (i + 1)).countP (fun s => !s.up)

/-- What is sent and then what is queued stand in the history in this order, each in a place of
its own, and a place is skipped only when `cap` later ones met the link down. -/
structure Accounted (cap : Nat) (b : Box π) (sentAt queuedAt : List Nat) : Prop where
  picks : Picks b.submitted (sentAt ++ queuedAt) (b.sent ++ b.queue)
  split : sentAt.length = b.sent.length
  waiting : ∀ i ∈ queuedAt, ∃ s, b.submitted[i]? = some s ∧ s.up = false
  skipped : ∀ i < b.submitted.length, i ∉ sentAt ++ queuedAt → cap ≤ downAfter b.submitted i

structure Sound (cap : Nat) (b : Box π) : Prop where
  idle : b.up = true → b.queue = []
  bounded : b.queue.length ≤ cap
  accounted : ∃ sentAt queuedAt, Accounted cap b sentAt queuedAt

lemma picks_iff {history : List (Submission π)} {places : List Nat} {ps : List π} :
    Picks history places ps ↔ Places (history.map Submission.payload) places ps :=
  ⟨fun h => ⟨h.increasing, by simpa using h.holds⟩, fun h => ⟨h.increasing, by simpa using h.holds⟩⟩

lemma Picks.lt_length {history : List (Submission π)} {places : List Nat} {ps : List π}
    (h : Picks history places ps) : ∀ i ∈ places, i < history.length := by
  simpa using (picks_iff.mp h).lt_length

/-- The places found so far stay what they are while the history grows. -/
lemma Picks.append {history : List (Submission π)} {places : List Nat} {ps : List π}
    (h : Picks history places ps) (s : Submission π) : Picks (history ++ [s]) places ps := by
  rw [picks_iff, List.map_append]
  exact (picks_iff.mp h).append _

/-- The last submission takes the next place. -/
lemma Picks.snoc {history : List (Submission π)} {places : List Nat} {ps : List π}
    (h : Picks history places ps) (s : Submission π) :
    Picks (history ++ [s]) (places ++ [history.length]) (ps ++ [s.payload]) := by
  have hgrown := picks_iff.mp (h.append s)
  exact picks_iff.mpr (hgrown.snoc (by simp) h.lt_length)

lemma Picks.sublist {history : List (Submission π)} {places keep : List Nat} {ps kept : List π}
    (h : Picks history places ps) (hsub : keep.Sublist places)
    (hkept : keep.map (fun i => (history[i]?).map Submission.payload) = kept.map some) :
    Picks history keep kept :=
  ⟨h.increasing.sublist hsub, hkept⟩

lemma downAfter_append_le (history : List (Submission π)) (s : Submission π) (i : Nat) :
    downAfter history i ≤ downAfter (history ++ [s]) i := by
  unfold downAfter
  by_cases hi : i + 1 ≤ history.length
  · rw [List.drop_append_of_le_length hi, List.countP_append]
    omega
  · rw [List.drop_eq_nil_of_le (by omega)]
    exact Nat.zero_le _

/-- Increasing places behind `i` that met the link down are so many submissions. -/
lemma length_le_downAfter {history : List (Submission π)} {places : List Nat} {i : Nat}
    (hinc : (i :: places).Pairwise (· < ·))
    (hdown : ∀ j ∈ places, ∃ s, history[j]? = some s ∧ s.up = false) :
    places.length ≤ downAfter history i := by
  induction places generalizing i with
  | nil => exact Nat.zero_le _
  | cons j places ih =>
    obtain ⟨hi, hrest⟩ := List.pairwise_cons.mp hinc
    have hij : i < j := hi j List.mem_cons_self
    have hlen := ih hrest (fun k hk => hdown k (List.mem_cons_of_mem _ hk))
    obtain ⟨s, hs, hsdown⟩ := hdown j List.mem_cons_self
    -- behind `i` come the submissions up to `j`, then `j` itself, then the rest
    have hsplit : history.drop (i + 1) =
        (history.drop (i + 1)).take (j - (i + 1)) ++ (s :: history.drop (j + 1)) := by
      obtain ⟨hj, hget⟩ := List.getElem?_eq_some_iff.mp hs
      rw [← hget, ← List.drop_eq_getElem_cons hj]
      nth_rewrite 1 [← List.take_append_drop (j - (i + 1)) (history.drop (i + 1))]
      rw [List.drop_drop]
      congr 2
      omega
    unfold downAfter at hlen ⊢
    rw [hsplit, List.countP_append, List.countP_cons, hsdown, List.length_cons]
    simp only [Bool.not_false, if_true]
    omega

/-- A box that nothing was submitted to. -/
theorem Sound.start (cap : Nat) (up : Bool) : Sound cap (⟨up, [], [], []⟩ : Box π) where
  idle _ := rfl
  bounded := Nat.zero_le _
  accounted := ⟨[], [], ⟨List.Pairwise.nil, rfl⟩, rfl, by simp, by simp⟩

namespace Accounted

variable {cap : Nat} {b : Box π} {sentAt queuedAt : List Nat}

lemma queuedAt_length (h : Accounted cap b sentAt queuedAt) : queuedAt.length = b.queue.length := by
  have hlen := congrArg List.length h.picks.holds
  have hsplit := h.split
  simp only [List.length_map, List.length_append] at hlen
  omega

/-- With the link up and nothing queued, a submission is sent. -/
lemma submit_up (h : Accounted cap b sentAt queuedAt) (hup : b.up = true) (hidle : b.queue = [])
    (p : π) : Accounted cap (b.submit cap p) (sentAt ++ [b.submitted.length]) [] := by
  have hq : queuedAt = [] := by
    apply List.eq_nil_of_length_eq_zero
    rw [h.queuedAt_length, hidle]
    rfl
  subst hq
  have hpicks := h.picks
  rw [hidle, List.append_nil, List.append_nil] at hpicks
  refine ⟨?_, ?_, by simp, ?_⟩
  · simp only [Box.submit, hup, if_true, hidle, List.append_nil]
    exact hpicks.snoc ⟨p, true⟩
  · simp only [Box.submit, hup, if_true, List.length_append, h.split, List.length_singleton]
  · intro i hi hnot
    simp only [Box.submit, List.length_append, List.length_singleton] at hi
    simp only [List.append_nil, List.mem_append, List.mem_singleton, not_or] at hnot
    have hcap := h.skipped i (by omega) (by simpa using hnot.1)
    exact Nat.le_trans hcap (downAfter_append_le _ _ _)

/-- Behind the front of the queue lie the rest of it and, with the link down, the next payload. -/
lemma front_skipped {i : Nat} {rest : List Nat} (h : Accounted cap b sentAt (i :: rest))
    (hup : b.up = false) (p : π) :
    rest.length + 1 ≤ downAfter (b.submitted ++ [⟨p, b.up⟩]) i := by
  have hplace : ∀ k ∈ i :: rest, k < b.submitted.length := by
    intro k hk
    exact h.picks.lt_length k (List.mem_append_right _ hk)
  have hinc : (i :: (rest ++ [b.submitted.length])).Pairwise (· < ·) := by
    rw [← List.cons_append, List.pairwise_append]
    refine ⟨(List.pairwise_append.mp h.picks.increasing).2.1, List.pairwise_singleton _ _, ?_⟩
    intro k hk l hl
    rw [List.mem_singleton.mp hl]
    exact hplace k hk
  have hrest : (rest ++ [b.submitted.length]).length ≤ downAfter (b.submitted ++ [⟨p, b.up⟩]) i := by
    apply length_le_downAfter hinc
    intro k hk
    rcases List.mem_append.mp hk with hk | hk
    · obtain ⟨s, hs, hdown⟩ := h.waiting k (List.mem_cons_of_mem _ hk)
      refine ⟨s, ?_, hdown⟩
      rw [List.getElem?_append_left (hplace k (List.mem_cons_of_mem _ hk))]
      exact hs
    · rw [List.mem_singleton.mp hk]
      exact ⟨⟨p, b.up⟩, by simp, hup⟩
  rwa [List.length_append, List.length_singleton] at hrest

/-- Places of what stays queued when a full queue gives up its front. -/
lemma picks_kept (h : Accounted cap b sentAt queuedAt) :
    Picks b.submitted (sentAt ++ if cap ≤ b.queue.length then queuedAt.tail else queuedAt)
      (b.sent ++ if cap ≤ b.queue.length then b.queue.tail else b.queue) := by
  split
  · apply h.picks.sublist ((List.Sublist.refl _).append (List.tail_sublist queuedAt))
    have hholds := h.picks.holds
    simp only [List.map_append] at hholds ⊢
    obtain ⟨hs, hq⟩ := List.append_inj hholds (by simp [h.split])
    rw [hs, List.map_tail, List.map_tail, hq]
  · exact h.picks

/-- With the link down, only the front of a full queue is newly skipped. -/
lemma skipped_kept (h : Accounted cap b sentAt queuedAt) (hup : b.up = false) (p : π) {i : Nat}
    (hi : i < b.submitted.length) (hsent : i ∉ sentAt)
    (hkept : i ∉ if cap ≤ b.queue.length then queuedAt.tail else queuedAt) :
    cap ≤ downAfter (b.submitted ++ [⟨p, b.up⟩]) i := by
  by_cases hq : i ∈ queuedAt
  · split at hkept
    · rename_i hfull
      have hlen := h.queuedAt_length
      cases queuedAt with
      | nil => cases hq
      | cons j rest =>
        rcases List.mem_cons.mp hq with rfl | hmem
        · have hfront := h.front_skipped hup p
          rw [List.length_cons] at hlen
          omega
        · exact absurd hmem hkept
    · exact absurd hq hkept
  · have hold := h.skipped i hi (by simp [hsent, hq])
    exact Nat.le_trans hold (downAfter_append_le _ _ _)

/-- With the link down, a submission joins the queue; a full queue gives up its front. -/
lemma submit_down (h : Accounted cap b sentAt queuedAt) (hup : b.up = false) (p : π) :
    Accounted cap (b.submit cap p) sentAt
      ((if cap ≤ b.queue.length then queuedAt.tail else queuedAt) ++ [b.submitted.length]) := by
  refine ⟨?_, h.split ▸ by simp [Box.submit, hup], ?_, ?_⟩
  · simp only [Box.submit, hup, Bool.false_eq_true, if_false, pushCapped]
    rw [← List.append_assoc, ← List.append_assoc]
    exact h.picks_kept.snoc ⟨p, false⟩
  · intro i hi
    simp only [Box.submit]
    rcases List.mem_append.mp hi with hi | hi
    · have hold : i ∈ queuedAt := by
        split at hi
        · exact List.mem_of_mem_tail hi
        · exact hi
      obtain ⟨s, hs, hdown⟩ := h.waiting i hold
      refine ⟨s, ?_, hdown⟩
      rw [List.getElem?_append_left (h.picks.lt_length i (List.mem_append_right _ hold))]
      exact hs
    · rw [List.mem_singleton.mp hi]
      exact ⟨⟨p, b.up⟩, by simp, hup⟩
  · intro i hi hnot
    simp only [Box.submit, List.length_append, List.length_singleton] at hi
    simp only [List.mem_append, List.mem_singleton, not_or] at hnot
    obtain ⟨hsent, hkept, hlast⟩ := hnot
    exact h.skipped_kept hup p (by omega) hsent hkept

/-- A flush turns what is queued into what is sent. -/
lemma settle (h : Accounted cap b sentAt queuedAt) (flush up : Bool) :
    Accounted cap (b.settle flush up) (if flush then sentAt ++ queuedAt else sentAt)
      (if flush then [] else queuedAt) := by
  cases flush with
  | false => exact ⟨by simpa [Box.settle] using h.picks, by simpa [Box.settle] using h.split,
      by simpa [Box.settle] using h.waiting, by simpa [Box.settle] using h.skipped⟩
  | true =>
    refine ⟨by simpa [Box.settle] using h.picks, ?_, by simp, by simpa [Box.settle] using h.skipped⟩
    simp [Box.settle, h.split, h.queuedAt_length]

end Accounted

lemma length_pushCapped_le {cap : Nat} (hcap : 0 < cap) {queue : List π} (h : queue.length ≤ cap)
    (p : π) : (pushCapped cap queue p).length ≤ cap := by
  unfold pushCapped
  split <;> simp only [List.length_append, List.length_tail, List.length_singleton] <;> omega

theorem Sound.step {cap : Nat} (hcap : 0 < cap) {b b' : Box π} (h : Sound cap b)
    (hstep : Step cap b b') : Sound cap b' := by
  obtain ⟨sentAt, queuedAt, hacc⟩ := h.accounted
  cases hstep with
  | submit p =>
    cases hup : b.up with
    | true =>
      refine ⟨fun _ => ?_, ?_, _, _, hacc.submit_up hup (h.idle hup) p⟩
      · simp [Box.submit, hup, h.idle hup]
      · simpa [Box.submit, hup] using h.bounded
    | false =>
      refine ⟨fun hu => ?_, ?_, _, _, hacc.submit_down hup p⟩
      · simp [Box.submit, hup] at hu
      · simpa [Box.submit, hup] using length_pushCapped_le hcap h.bounded p
  | settle flush up hlegal =>
    refine ⟨fun hu => ?_, ?_, _, _, hacc.settle flush up⟩
    · cases flush with
      | true => rfl
      | false =>
        rcases hlegal hu with hb | hf
        · exact h.idle hb
        · cases hf
    · cases flush with
      | true => exact Nat.zero_le _
      | false => exact h.bounded

theorem Sound.run {cap : Nat} (hcap : 0 < cap) {b b' : Box π} (h : Sound cap b)
    (hrun : Run cap b b') : Sound cap b' := by
  induction hrun with
  | refl => exact h
  | tail _ hstep ih => exact ih.step hcap hstep

end Outbox
