import Mathlib.Data.List.Basic

/-!
# Delimited records

A record writes fields one after the other, the separator behind each, and ends with one
field that is written as it is. When the leading fields avoid the separator the record can
be read back in one way only, whatever the last field contains. A record that ends with a
separator-free field is also determined by its end.
-/

namespace Delimited

variable {α : Type*}

/-- Every field of `fields` followed by `sep`, then `last`. -/
def record (sep : α) (fields : List (List α)) (last : List α) : List α :=
  fields.foldr (fun field rest => field ++ sep :: rest) last

@[simp] lemma record_nil (sep : α) (last : List α) : record sep [] last = last := rfl

@[simp] lemma record_cons (sep : α) (field : List α) (fields : List (List α)) (last : List α) :
    record sep (field :: fields) last = field ++ sep :: record sep fields last := rfl

/-- The first separator ends a separator-free field. -/
theorem append_sep_inj {sep : α} {u v xs ys : List α} (hu : sep ∉ u) (hv : sep ∉ v) :
    u ++ sep :: xs = v ++ sep :: ys ↔ u = v ∧ xs = ys := by
  constructor
  · intro h
    induction u generalizing v with
    | nil =>
      cases v with
      | nil => simpa using h
      | cons b v =>
        have hb : sep = b := (List.cons.inj h).1
        exact absurd (hb ▸ List.mem_cons_self) hv
    | cons a u ih =>
      cases v with
      | nil =>
        have ha : a = sep := (List.cons.inj h).1
        exact absurd (ha ▸ List.mem_cons_self) hu
      | cons b v =>
        obtain ⟨hab, hrest⟩ := List.cons.inj h
        have hi := ih (fun hm => hu (List.mem_cons_of_mem _ hm))
          (fun hm => hv (List.mem_cons_of_mem _ hm)) hrest
        exact ⟨by rw [hab, hi.1], hi.2⟩
  · rintro ⟨rfl, rfl⟩
    rfl

/-- The last separator starts a separator-free field. -/
theorem append_sep_inj_last {sep : α} {u v xs ys : List α} (hu : sep ∉ u) (hv : sep ∉ v) :
    xs ++ sep :: u = ys ++ sep :: v ↔ xs = ys ∧ u = v := by
  have hrev : xs ++ sep :: u = ys ++ sep :: v ↔
      u.reverse ++ sep :: xs.reverse = v.reverse ++ sep :: ys.reverse := by
    rw [← List.reverse_inj]
    simp
  rw [hrev, append_sep_inj (by simpa using hu) (by simpa using hv)]
  simp only [List.reverse_inj]
  exact and_comm

/-- Unique readability: separator-free leading fields and the rest are both recovered. -/
theorem record_inj {sep : α} {fields fields' : List (List α)} {last last' : List α}
    (hlen : fields.length = fields'.length) (hf : ∀ field ∈ fields, sep ∉ field)
    (hf' : ∀ field ∈ fields', sep ∉ field) :
    record sep fields last = record sep fields' last' ↔ fields = fields' ∧ last = last' := by
  induction fields generalizing fields' with
  | nil =>
    have hnil : fields' = [] := List.length_eq_zero_iff.mp hlen.symm
    subst fields'
    simp
  | cons field fields ih =>
    cases fields' with
    | nil => simp at hlen
    | cons field' fields' =>
      have hlen' : fields.length = fields'.length := by simpa using hlen
      have ht := ih hlen'
        (fun f hm => hf f (List.mem_cons_of_mem _ hm))
        (fun f hm => hf' f (List.mem_cons_of_mem _ hm))
      rw [record_cons, record_cons,
        append_sep_inj (hf field List.mem_cons_self) (hf' field' List.mem_cons_self), ht]
      simp only [List.cons.injEq, and_assoc]

end Delimited
