import Mathlib.Data.List.Find
import Laye.ErrorRuns

/-!
# One block for each surface, region and title

`render_errors` coalesces by a joined key and counts by the id of the block, so the overlay is
exact as long as neither brings different errors together, and no block stands in for a count.
-/

namespace Laye

/-- What errors are coalesced by. -/
def LayeError.triple (err : LayeError) : String × Option String × String :=
  (err.surface, err.region, err.title)

/-- The errors with the triple of this one. -/
def alike (shown : List LayeError) (err : LayeError) : Nat := shown.countP fun e => e.triple = err.triple

/-- Each triple shown has one block, which renders an error with that triple. The number of errors
with the triple is recorded under the block's id and, if it has one, shown on the block. -/
structure Coalesced (overlay : ErrorOverlay) (shown : List LayeError) : Prop where
  node : ∀ err ∈ shown, ∃ first ∈ shown, first.triple = err.triple ∧
    overlay.errorDedup (dedupKey err) = some first.id ∧ overlay.ids.count first.id = 1 ∧
    overlay.errorCounts first.id = some (alike shown err) ∧
    ∃ node ∈ overlay.nodes,
      node.raised = countedBlock first (if first.id = "" then 1 else alike shown err)
  apart : ∀ err ∈ shown, ∀ err' ∈ shown, err.triple ≠ err'.triple →
    overlay.errorDedup (dedupKey err) ≠ overlay.errorDedup (dedupKey err')
  only : overlay.ids.length = (shown.map LayeError.triple).dedup.length

/-- The joined keys tell the triples apart. -/
def SeparateKeys (shown : List LayeError) : Prop :=
  ∀ err ∈ shown, ∀ err' ∈ shown, err.triple ≠ err'.triple → dedupKey err ≠ dedupKey err'

/-- The id of the first error with this triple, which names its block. -/
def firstId (shown : List LayeError) (err : LayeError) : Option String :=
  (shown.find? (fun e => e.triple = err.triple)).map LayeError.id

/-- The first errors of different triples have different ids. -/
def SeparateIds (shown : List LayeError) : Prop :=
  ∀ err ∈ shown, ∀ err' ∈ shown, err.triple ≠ err'.triple → firstId shown err ≠ firstId shown err'

/-! ### Keys and ids -/

/-- The key of a triple. -/
def joined (triple : String × Option String × String) : String :=
  triple.1 ++ "|" ++ triple.2.1.getD "" ++ "|" ++ triple.2.2

lemma dedupKey_eq_joined (err : LayeError) : dedupKey err = joined err.triple := rfl

section Separate

variable {overlay : ErrorOverlay} {shown : List LayeError} {err err' : LayeError}

lemma SeparateKeys.iff (h : SeparateKeys shown) (herr : err ∈ shown) (herr' : err' ∈ shown) :
    dedupKey err = dedupKey err' ↔ err.triple = err'.triple := by
  constructor
  · intro hkey
    by_contra hne
    exact h err herr err' herr' hne hkey
  · intro htriple
    rw [dedupKey_eq_joined, htriple, dedupKey_eq_joined]

/-- With separate keys, the block of an error is named by the first error with its triple. -/
lemma SeparateKeys.blockOf_eq (h : SeparateKeys shown) (herr : err ∈ shown) :
    blockOf shown err = firstId shown err := by
  rw [blockOf, firstId]
  congr 1
  refine List.find?_congr (fun e he => ?_)
  exact decide_eq_decide.mpr (h.iff he herr)

lemma SeparateKeys.alike_eq (h : SeparateKeys shown) (herr : err ∈ shown) :
    shown.countP (fun e => dedupKey e = dedupKey err) = alike shown err := by
  refine List.countP_congr (fun e he => ?_)
  rw [decide_eq_true_iff, decide_eq_true_iff]
  exact h.iff he herr

/-- With separate keys and ids, a block stands for one triple. -/
lemma openers_eq_of_id (hkeys : SeparateKeys shown) (hids : SeparateIds shown) {e e' : LayeError}
    (he : e ∈ openers shown) (he' : e' ∈ openers shown) (hid : e.id = e'.id) : e = e' := by
  have hkey : dedupKey e = dedupKey e' := by
    by_contra hne
    refine hids e (openers_subset he) e' (openers_subset he') ?_ ?_
    · exact fun htriple => hne ((hkeys.iff (openers_subset he) (openers_subset he')).mpr htriple)
    · rw [← hkeys.blockOf_eq (openers_subset he), ← hkeys.blockOf_eq (openers_subset he'),
        blockOf_of_mem_openers he, blockOf_of_mem_openers he', hid]
  exact List.inj_on_of_nodup_map (openers_keys_nodup shown) he he' hkey

lemma openers_ids_nodup (hkeys : SeparateKeys shown) (hids : SeparateIds shown) :
    ((openers shown).map LayeError.id).Nodup :=
  List.Nodup.map_on (fun _ he _ he' hid => openers_eq_of_id hkeys hids he he' hid)
    (List.Nodup.of_map _ (openers_keys_nodup shown))

lemma openers_length (hkeys : SeparateKeys shown) :
    (openers shown).length = (shown.map LayeError.triple).dedup.length := by
  have htriples : ((openers shown).map LayeError.triple).Nodup := by
    refine List.Nodup.map_on (fun e he e' he' htriple => ?_)
      (List.Nodup.of_map _ (openers_keys_nodup shown))
    refine List.inj_on_of_nodup_map (openers_keys_nodup shown) he he' ?_
    exact (hkeys.iff (openers_subset he) (openers_subset he')).mpr htriple
  have hperm : ((openers shown).map LayeError.triple).Perm (shown.map LayeError.triple).dedup := by
    refine (List.perm_ext_iff_of_nodup htriples (List.nodup_dedup _)).mpr (fun triple => ?_)
    rw [List.mem_dedup, List.mem_map, List.mem_map]
    constructor
    · rintro ⟨e, he, rfl⟩
      exact ⟨e, openers_subset he, rfl⟩
    · rintro ⟨e, he, rfl⟩
      obtain ⟨first, hfirst, hkey⟩ := exists_opener he
      exact ⟨first, hfirst, (hkeys.iff (openers_subset hfirst) he).mp hkey⟩
  rw [← hperm.length_eq, List.length_map]

/-- Where no id names two blocks, no count starts over. -/
lemma fresh_of_nodup (h : ((openers shown).map LayeError.id).Nodup) (domId : String) :
    Fresh shown domId := by
  rintro before err hfront hnew rfl
  apply uncounted_of_absent
  have hopened := openers_mono hfront
  rw [openers_new hnew] at hopened
  have hnodup := h.sublist (hopened.map LayeError.id).sublist
  rw [List.map_append, List.map_singleton, List.nodup_append] at hnodup
  intro hin
  exact hnodup.2.2 err.id hin err.id (List.mem_singleton_self _) rfl

/-! ### Exactness -/

lemma Coalesced.not_broken (hc : Coalesced overlay shown) (hkeyed : Keyed overlay shown) :
    ¬Broken overlay := by
  rintro ⟨lost, hlost, text, htext⟩
  have hid : lost.id ∈ overlay.ids := List.mem_map_of_mem hlost
  rw [hkeyed.ids] at hid
  obtain ⟨e, he, hsame⟩ := List.mem_map.mp hid
  obtain ⟨first, -, -, hdedup, hcount, -, node, hnode, hrendered⟩ := hc.node e (openers_subset he)
  rw [hkeyed.dedup, blockOf_of_mem_openers he, hsame] at hdedup
  have hnodeid : node.id = lost.id := by
    have heq := congrArg ErrorNode.id hrendered
    rw [countedBlock_id, ← Option.some.inj hdedup] at heq
    exact heq
  -- the only block with the id is the one that renders its first error
  have hfilter : overlay.nodes.countP (fun node => node.id = lost.id) = 1 := by
    rw [← Option.some.inj hdedup, ErrorOverlay.ids, List.count, List.countP_map] at hcount
    rw [← hcount]
    congr 1
  obtain ⟨only, honly⟩ := List.length_eq_one_iff.mp ((List.countP_eq_length_filter).symm.trans hfilter)
  have hboth : ∀ n ∈ overlay.nodes, n.id = lost.id → n = only := by
    intro n hn hnid
    have hin : n ∈ overlay.nodes.filter (fun node => node.id = lost.id) :=
      List.mem_filter.mpr ⟨hn, by simpa using hnid⟩
    rw [honly] at hin
    exact List.mem_singleton.mp hin
  rw [(hboth node hnode hnodeid).trans (hboth lost hlost rfl).symm] at hrendered
  obtain ⟨_, _, _, _, _, _, hcontent⟩ := countedBlock_content first
    (if first.id = "" then 1 else alike shown e)
  rw [← hrendered] at hcontent
  exact ErrorContent.noConfusion (htext.symm.trans hcontent)

lemma Traced.separate_of_coalesced (h : Traced overlay shown) (hc : Coalesced overlay shown) :
    SeparateKeys shown ∧ SeparateIds shown ∧ SeparateCounts shown := by
  have hkeys : SeparateKeys shown := by
    intro err herr err' herr' hne hkey
    exact hc.apart err herr err' herr' hne (by rw [hkey])
  refine ⟨hkeys, fun err herr err' herr' hne => ?_, ?_⟩
  · rw [← hkeys.blockOf_eq herr, ← hkeys.blockOf_eq herr', ← h.keyed.dedup, ← h.keyed.dedup]
    exact hc.apart err herr err' herr' hne
  · by_contra hcounts
    exact hc.not_broken h.keyed (h.broken hcounts)

/-- The block of an opener shows what is recorded for it. -/
lemma Drawn.exists_block {blocks : List (LayeError × Nat)} (h : Drawn overlay shown blocks)
    (hnodup : ((openers shown).map LayeError.id).Nodup) {e : LayeError} (he : e ∈ openers shown) :
    ∃ n, (e, n) ∈ blocks ∧ (e.id = "" → n = 1) ∧ (e.id ≠ "" → overlay.errorCounts e.id = some n) := by
  rw [← h.firsts] at he
  obtain ⟨⟨e, n⟩, hb, rfl⟩ := List.mem_map.mp he
  refine ⟨n, hb, h.blank _ hb, fun hne => ?_⟩
  rw [h.firsts] at he
  obtain ⟨c, m, hc, hm, hat⟩ := h.counts e.id (List.mem_map_of_mem he) hne
  rw [hc, hat.fresh (fresh_of_nodup hnodup e.id)]
  obtain ⟨b, hfind, rfl⟩ := Option.map_eq_some_iff.mp hm
  have hid : b.1.id = e.id := by simpa using List.find?_some hfind
  rw [← h.ids] at hnodup
  rw [List.inj_on_of_nodup_map hnodup (List.mem_of_find?_eq_some hfind) hb hid]

lemma Traced.coalesced_of_separate (h : Traced overlay shown) (hkeys : SeparateKeys shown)
    (hids : SeparateIds shown) (hcounts : SeparateCounts shown) : Coalesced overlay shown := by
  have hnodup := openers_ids_nodup hkeys hids
  obtain ⟨blocks, hdrawn⟩ := h.drawn hcounts
  refine ⟨fun err herr => ?_, fun err herr err' herr' hne => ?_, ?_⟩
  · obtain ⟨first, hfirst, hkey⟩ := exists_opener herr
    have htriple := (hkeys.iff (openers_subset hfirst) herr).mp hkey
    have halike : alike shown first = alike shown err := by rw [alike, htriple, alike]
    have hrecorded := h.counted first hfirst
      fun e he hid => openers_eq_of_id hkeys hids he hfirst hid
    rw [hkeys.alike_eq (openers_subset hfirst), halike] at hrecorded
    refine ⟨first, openers_subset hfirst, htriple, ?_, ?_, hrecorded, ?_⟩
    · rw [h.keyed.dedup, blockOf_congr hkey.symm, blockOf_of_mem_openers hfirst]
    · rw [h.keyed.ids]
      exact List.count_eq_one_of_mem hnodup (List.mem_map_of_mem hfirst)
    · obtain ⟨n, hb, hblank, hcount⟩ := hdrawn.exists_block hnodup hfirst
      have hn : n = if first.id = "" then 1 else alike shown err := by
        split
        · rename_i hempty
          exact hblank hempty
        · rename_i hne
          exact Option.some.inj ((hcount hne).symm.trans hrecorded)
      have hin : countedBlock first n ∈ overlay.nodes.map ErrorNode.raised := by
        rw [hdrawn.rendered]
        exact List.mem_map_of_mem (f := fun b : LayeError × Nat => countedBlock b.1 b.2) hb
      obtain ⟨node, hnode, hraised⟩ := List.mem_map.mp hin
      exact ⟨node, hnode, hn ▸ hraised⟩
  · rw [h.keyed.dedup, h.keyed.dedup, hkeys.blockOf_eq herr, hkeys.blockOf_eq herr']
    exact hids err herr err' herr' hne
  · rw [h.keyed.ids, List.length_map]
    exact openers_length hkeys

end Separate

/-- In every run: the overlay has one block for each triple shown, with its own count, exactly when
neither the joined keys nor the ids of the first errors bring different triples together, and no
count of a block is looked up where another block is found. -/
theorem coalesced_iff (dom : DomContext) (ops : List PageOp) :
    Coalesced ((Page.start dom).run ops).overlay ((Page.start dom).shownIn ops) ↔
      SeparateKeys ((Page.start dom).shownIn ops) ∧ SeparateIds ((Page.start dom).shownIn ops) ∧
        SeparateCounts ((Page.start dom).shownIn ops) := by
  have htraced := (Page.accounted_run dom ops).traced
  constructor
  · exact htraced.separate_of_coalesced
  · rintro ⟨hkeys, hids, hcounts⟩
    exact htraced.coalesced_of_separate hkeys hids hcounts

/-- An absent region and an empty one share a block, and so do two titles under one id, whose count
starts over. A block with the id of a count shows that count instead of its error. -/
theorem shared_block :
    let err (id : String) (region : Option String) (title : String) : LayeError :=
      ⟨id, .warn, "host", region, title, "", [], false⟩
    let shows (errs : List LayeError) : List PageOp :=
      .installErrorOverlay :: errs.flatMap (fun err => [.emit err, .renderErrors])
    let absent := shows [err "a" none "offline", err "b" (some "") "offline"]
    let reused := shows [err "a" none "offline", err "a" none "offline", err "a" none "refused"]
    let counter := shows [err "a--count" none "refused", err "a" none "offline", err "a" none "offline"]
    let page := Page.start .document
    ¬Coalesced (page.run absent).overlay (page.shownIn absent) ∧
      ¬Coalesced (page.run reused).overlay (page.shownIn reused) ∧
      ¬Coalesced (page.run counter).overlay (page.shownIn counter) := by
  intro err shows absent reused counter page
  refine ⟨fun h => ?_, fun h => ?_, fun h => ?_⟩
  · exact h.apart (err "a" none "offline") (by decide) (err "b" (some "") "offline") (by decide)
      (by decide) (by decide)
  · exact h.apart (err "a" none "offline") (by decide) (err "a" none "refused") (by decide)
      (by decide) (by decide)
  · have hlost : Broken (page.run counter).overlay :=
      ⟨⟨"a--count", "laye-error laye-sev-warn", .text "×2", true⟩, by decide, "×2", rfl⟩
    exact h.not_broken (Page.accounted_run .document counter).traced.keyed hlost

end Laye
