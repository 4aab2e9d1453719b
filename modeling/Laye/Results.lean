import Laye.Acceptance
import Laye.Server

/-!
# What the relay hands out

A callback leaves its binding under the state of the flow it took. `handle_result` answers with the
one that was left last under a state, for as long as it has not expired; and every one of them was
earned by the callback that left it.
-/

namespace Laye

open Interaction

/-! ### The result under a state -/

/-- Time does not go back; the result under a state is replaced by an insertion, and otherwise kept
or cleaned up. -/
lemma RelayState.Serves.result {d : RelayDeps} {s s' : RelayState} {o : RelayOp} {x : o.Ans}
    (h : s.Serves d o x s') (state : String) : s.now ≤ s'.now ∧
      ((∃ b createdAt, (⟨o, x⟩ : RelayEvent) = ⟨.insertResult state b, ()⟩ ∧ s.now ≤ createdAt ∧
          s'.cache.results state = some ⟨b, createdAt⟩) ∨
        (∀ b, (⟨o, x⟩ : RelayEvent) ≠ ⟨.insertResult state b, ()⟩) ∧
          (s'.cache.results state = s.cache.results state ∨
            s'.cache.results state = (s.cache.gc s.now).results state)) := by
  cases o with
  | insertResult state' signed =>
    obtain ⟨createdAt, hle, rfl⟩ := h
    refine ⟨hle, ?_⟩
    by_cases hsame : state = state'
    · subst hsame
      exact Or.inl ⟨signed, createdAt, rfl, hle, HashMap.insert_self _ _ _⟩
    · refine Or.inr ⟨?_, Or.inr (HashMap.insert_of_ne _ _ hsame)⟩
      intro b heq
      simp only [Event.mk.injEq, RelayOp.insertResult.injEq] at heq
      exact hsame heq.1.1.symm
  | insertFlow state' flow =>
    cases h
    exact ⟨le_refl _, Or.inr ⟨by simp, Or.inr rfl⟩⟩
  | takeFlow state' =>
    obtain ⟨-, rfl⟩ := h
    exact ⟨le_refl _, Or.inr ⟨by simp, Or.inr rfl⟩⟩
  | getResult state' =>
    obtain ⟨-, rfl⟩ := h
    exact ⟨le_refl _, Or.inr ⟨by simp, Or.inr rfl⟩⟩
  | instantNow =>
    obtain ⟨-, rfl⟩ := h
    exact ⟨le_refl _, Or.inr ⟨by simp, Or.inl rfl⟩⟩
  | sign claim =>
    obtain ⟨-, rfl⟩ := h
    exact ⟨le_refl _, Or.inr ⟨by simp, Or.inl rfl⟩⟩
  | _ =>
    cases h
    exact ⟨le_refl _, Or.inr ⟨by simp, Or.inl rfl⟩⟩

/-- Place `n` of the log is the last one before place `m` that put a result under the state. -/
def Newest (log : List RelayEntry) (state : String) (b : SignedBinding) (n m : Nat) : Prop :=
  n < m ∧ (log[n]?).map Entry.event = some ⟨.insertResult state b, ()⟩ ∧
    ∀ k e b', n < k → k < m → log[k]? = some e → e.event ≠ ⟨.insertResult state b', ()⟩

lemma Newest.snoc {log : List RelayEntry} {state : String} {b : SignedBinding} {n : Nat}
    (h : Newest log state b n log.length) {e : RelayEntry}
    (he : ∀ b', e.event ≠ ⟨.insertResult state b', ()⟩) :
    Newest (log ++ [e]) state b n (log ++ [e]).length := by
  obtain ⟨hlt, hn, hquiet⟩ := h
  rw [List.length_append, List.length_singleton]
  refine ⟨by omega, ?_, ?_⟩
  · rw [List.getElem?_append_left hlt]
    exact hn
  · intro k e' b' hnk hkm hk
    by_cases hold : k < log.length
    · rw [List.getElem?_append_left hold] at hk
      exact hquiet k e' b' hnk hold hk
    · obtain rfl : k = log.length := by omega
      rw [List.getElem?_concat_length] at hk
      cases hk
      exact he b'

lemma newest_concat {log : List RelayEntry} {state : String} {b : SignedBinding} {e : RelayEntry}
    (he : e.event = ⟨.insertResult state b, ()⟩) :
    Newest (log ++ [e]) state b log.length (log ++ [e]).length := by
  rw [List.length_append, List.length_singleton]
  refine ⟨by omega, ?_, fun k e' b' hnk hkm => by omega⟩
  rw [List.getElem?_concat_length]
  exact congrArg some he

/-- The cached result under a state is the newest, and a younger one than `FLOW_TTL` is cached. -/
structure ResultsKept (P : ServerPool) (state : String) : Prop where
  clock : ∀ (n : Nat) (e : RelayEntry), P.log[n]? = some e → e.before.now ≤ P.shared.now
  newest : ∀ r, P.shared.cache.results state = some r → ∃ n, Newest P.log state r.signed n P.log.length
  kept : ∀ (n : Nat) (e : RelayEntry) (b : SignedBinding), P.log[n]? = some e →
    e.event = ⟨.insertResult state b, ()⟩ → (∃ r, P.shared.cache.results state = some r ∧ e.before.now ≤ r.createdAt) ∨
      e.before.now + FLOW_TTL ≤ P.shared.now

section Runs

variable {d : RelayDeps} {now : Instant} {P Q : ServerPool} {state : String}

lemma results_gc_eq_some {s : RelayState} {r : ResultState} :
    (s.cache.gc s.now).results state = some r ↔
      s.cache.results state = some r ∧ s.now.durationSince r.createdAt < FLOW_TTL := by
  simp [FlowCacheInner.gc, HashMap.retain_eq_some, FlowCacheInner.fresh]

/-- A result that a clean-up drops is old. -/
lemma old_of_gc_eq_none {s : RelayState} {r : ResultState} (hr : s.cache.results state = some r)
    (h : (s.cache.gc s.now).results state = none) {t : Instant} (ht : t ≤ r.createdAt) :
    t + FLOW_TTL ≤ s.now := by
  have hold : ¬s.now - r.createdAt < FLOW_TTL := by
    intro hfresh
    rw [results_gc_eq_some.mpr ⟨hr, hfresh⟩] at h
    cases h
  have hage : FLOW_TTL ≤ s.now - t :=
    (Nat.not_lt.mp hold).trans (Nat.sub_le_sub_left ht s.now)
  have hlt : t < s.now := Nat.lt_of_sub_pos (Nat.lt_of_lt_of_le (by decide) hage)
  exact (Nat.le_sub_iff_add_le' hlt.le).mp hage

lemma ResultsKept.turn (hP : ResultsKept P state) {i : Nat} {c : Connection} {o : RelayOp}
    {x : o.Ans} {left : Relay Empty Served} {s' : RelayState} (hserve : P.shared.Serves d o x s') :
    ResultsKept (P.served i c ⟨o, x⟩ left s') state := by
  obtain ⟨hle, hresult⟩ := hserve.result state
  have hplace : ∀ n e, (P.served i c ⟨o, x⟩ left s').log[n]? = some e →
      P.log[n]? = some e ∨ n = P.log.length ∧ e = ⟨i, P.shared, ⟨o, x⟩⟩ := by
    intro n e hn
    by_cases hold : n < P.log.length
    · rw [Pool.served, List.getElem?_append_left hold] at hn
      exact Or.inl hn
    · rw [Pool.served, List.getElem?_append_right (by omega)] at hn
      obtain ⟨hzero, he⟩ := List.getElem?_eq_some_iff.mp hn
      simp only [List.length_singleton] at hzero
      simp only [List.getElem_singleton] at he
      exact Or.inr ⟨by omega, he.symm⟩
  constructor
  · intro n e hn
    rcases hplace n e hn with hold | ⟨-, rfl⟩
    · exact (hP.clock n e hold).trans hle
    · exact hle
  · intro r hr
    rcases hresult with ⟨b, createdAt, hins, -, hnew⟩ | ⟨hother, hkept⟩
    · obtain rfl : (⟨b, createdAt⟩ : ResultState) = r := Option.some.inj (hnew.symm.trans hr)
      exact ⟨P.log.length, newest_concat hins⟩
    · have hbefore : P.shared.cache.results state = some r := by
        rcases hkept with hsame | hgc
        · exact hsame.symm.trans hr
        · exact (results_gc_eq_some.mp (hgc.symm.trans hr)).1
      obtain ⟨n, hn⟩ := hP.newest r hbefore
      exact ⟨n, hn.snoc hother⟩
  · intro n e b hn hins
    rcases hresult with ⟨b', createdAt, -, hcreated, hnew⟩ | ⟨hother, hkept⟩
    · refine Or.inl ⟨_, hnew, ?_⟩
      rcases hplace n e hn with hold | ⟨-, rfl⟩
      · exact (hP.clock n e hold).trans hcreated
      · exact hcreated
    · rcases hplace n e hn with hold | ⟨-, rfl⟩
      · rcases hP.kept n e b hold hins with ⟨r, hr, hcreated⟩ | hexpired
        · rcases hkept with hsame | hgc
          · exact Or.inl ⟨r, hsame.trans hr, hcreated⟩
          · cases hleft : (P.shared.cache.gc P.shared.now).results state with
            | none => exact Or.inr ((old_of_gc_eq_none hr hleft hcreated).trans hle)
            | some r' =>
              obtain rfl : r = r' := Option.some.inj (hr.symm.trans (results_gc_eq_some.mp hleft).1)
              exact Or.inl ⟨r, hgc.trans hleft, hcreated⟩
        · exact Or.inr (hexpired.trans hle)
      · exact absurd hins (hother b)

lemma resultsKept_run (hrun : Run (httpSystem d) (.start ⟨now, .new⟩) P) : ResultsKept P state := by
  induction hrun with
  | refl =>
    constructor
    · simp [Pool.start]
    · intro r hr
      cases hr
    · simp [Pool.start]
  | tail _ hstep ih =>
    cases hstep with
    | arrive c => exact ⟨ih.clock, ih.newest, ih.kept⟩
    | tick s' htick =>
      refine ⟨fun n e hn => (ih.clock n e hn).trans htick.1, ?_, ?_⟩
      · intro r hr
        exact ih.newest r (htick.2 ▸ hr)
      · intro n e b hn hins
        rcases ih.kept n e b hn hins with ⟨r, hr, hcreated⟩ | hexpired
        · exact Or.inl ⟨r, (congrArg (fun cache => cache.results state) htick.2).trans hr, hcreated⟩
        · exact Or.inr (hexpired.trans htick.1)
    | turn i c o next x s' hi hserve => exact ih.turn hserve

/-- What the connection at place `k` found under the state. -/
lemma answer_of_getResult (hrun : Run (httpSystem d) (.start ⟨now, .new⟩) P) {k : Nat}
    {e : RelayEntry} {x : Option SignedBinding} (hk : P.log[k]? = some e)
    (hget : e.event = ⟨.getResult state, x⟩) :
    (∀ b, x = some b → ∃ n, Newest P.log state b n k) ∧
      (x = none → ∀ (n : Nat) (e' : RelayEntry) (b : SignedBinding), n < k → P.log[n]? = some e' →
        e'.event = ⟨.insertResult state b, ()⟩ → e'.before.now + FLOW_TTL ≤ e.before.now) := by
  obtain ⟨i, before, event⟩ := e
  cases hget
  obtain ⟨Q, c, next, s', hQ, hQlog, hshared, -, hserve, -⟩ := hrun.entry hk
  have hkept : ResultsKept Q state := resultsKept_run hQ
  have hlength : Q.log.length = k := by
    rw [hQlog, List.length_take]
    exact min_eq_left (List.getElem?_eq_some_iff.mp hk).1.le
  have hanswer : x = ((before.cache.gc before.now).results state).map ResultState.signed := hserve.1
  subst hshared
  constructor
  · rintro b rfl
    obtain ⟨r, hr, rfl⟩ := Option.map_eq_some_iff.mp hanswer.symm
    obtain ⟨n, hlt, hn, hquiet⟩ := hkept.newest r (results_gc_eq_some.mp hr).1
    rw [hlength] at hlt hquiet
    rw [hQlog, List.getElem?_take_of_lt hlt] at hn
    refine ⟨n, hlt, hn, fun m e' b' hnm hmk hm => hquiet m e' b' hnm hmk ?_⟩
    rw [hQlog, List.getElem?_take_of_lt hmk]
    exact hm
  · rintro rfl n e' b hnk hn hins
    have hn' : Q.log[n]? = some e' := by
      rw [hQlog, List.getElem?_take_of_lt hnk]
      exact hn
    rcases hkept.kept n e' b hn' hins with ⟨r, hr, hcreated⟩ | hexpired
    · exact old_of_gc_eq_none hr (Option.map_eq_none_iff.mp hanswer.symm) hcreated
    · exact hexpired

/-! ### What a callback left -/

/-- A callback under the state signed the binding with the relay's key, for the start whose flow it
had taken. -/
structure Vouched (d : RelayDeps) (P : ServerPool) (state : String) (b : SignedBinding) : Prop where
  byKey : d.lib.sign d.keypair b.claim.canonicalBytes = .ok b.signature
  signer : d.lib.tryIntoEd25519 d.keypair = .ok b.signerPubkey
  earned : ∃ k i query n, CallbackSigns P k i query b.claim ∧ query "state" = some state ∧
    FlowRedeemed d P k i query b.claim n

lemma callback_of_asks_insertResult_serve {c : Connection} {tr : List RelayEvent}
    {b : SignedBinding} (h : Asks (c.serve d) tr (.insertResult state b)) : ∃ query body flow,
      Asked c "GET" "/me/callback/atproto" query body ∧ Concluded d query tr state flow b := by
  obtain ⟨query, body, h | h | h | h⟩ := asks_serve h
  · have hstores : AsksOnly RelayOp.StoresNoResult (handleSign d body) :=
      asksOnly_handleSign (fun _ => RelayOp.External.storesNoResult) fun _ => trivial
    exact absurd (hstores.asks h.2) id
  · exact absurd (storesNoResult_handleStart.asks h.2) id
  · obtain ⟨flow, hconcluded⟩ := concluded_of_asks_insertResult h.2
    exact ⟨query, body, flow, h.1, hconcluded⟩
  · exact absurd (storesNoResult_handleResult.asks h.2) id

/-- A connection is read as one request. -/
lemma Asked.unique {c : Connection} {method method' path path' : String}
    {query query' : HashMap String String} {body body' : Bytes} (h : Asked c method path query body)
    (h' : Asked c method' path' query' body') :
    method = method' ∧ path = path' ∧ query = query' ∧ body = body' := by
  obtain ⟨target, hread, htarget⟩ := h.read
  obtain ⟨target', hread', htarget'⟩ := h'.read
  rw [hread] at hread'
  simp only [Except.ok.injEq, Option.some.injEq, ParsedRequest.mk.injEq] at hread'
  obtain ⟨hmethod, rfl, hbody⟩ := hread'
  rw [htarget] at htarget'
  simp only [Option.some.injEq, Prod.mk.injEq] at htarget'
  exact ⟨hmethod, htarget'.1, htarget'.2, hbody⟩

lemma vouched_of_inserted (hhex : d.hex.RoundTrips)
    (hrun : Run (httpSystem d) (.start ⟨now, .new⟩) P) {n : Nat} {b : SignedBinding}
    (h : (P.log[n]?).map Entry.event = some ⟨.insertResult state b, ()⟩) : Vouched d P state b := by
  obtain ⟨entry, hn, hins⟩ := Option.map_eq_some_iff.mp h
  obtain ⟨c, hc, hasks⟩ := hrun.asks hn
  rw [hins] at hasks
  obtain ⟨query, body, flow, hasked, hconcluded⟩ := callback_of_asks_insertResult_serve hasks
  obtain ⟨k, signing, hk, hthread, hsign⟩ := mem_eventsOf.mp hconcluded.signed
  obtain ⟨-, hk⟩ := getElem?_of_take hk
  obtain ⟨thread, before, event⟩ := signing
  cases hsign
  obtain rfl : thread = entry.thread := hthread
  obtain ⟨_, _, _, _, _, _, _, _, ⟨hanswer, -⟩, _⟩ := hrun.entry hk
  have hsigns : CallbackSigns P k entry.thread query b.claim :=
    ⟨_, c, body, hk, rfl, rfl, hc, hasked⟩
  refine ⟨hanswer.symm, hconcluded.signer, k, entry.thread, query, ?_⟩
  obtain ⟨c', hc', hasks'⟩ := hrun.asks hk
  obtain rfl : c' = c := Option.some.inj (hc'.symm.trans hc)
  obtain ⟨query', body', ⟨hpost, -⟩ | ⟨hget, state', flow', hearned⟩⟩ := asks_serve_sign hasks'
  · exact absurd (hasked.unique hpost).1 (by decide)
  · obtain ⟨-, -, rfl, -⟩ := hasked.unique hget
    obtain ⟨m, hredeemed⟩ := flowRedeemed_of_earned hhex hrun hearned
    exact ⟨m, hsigns, hconcluded.asked, hredeemed⟩

end Runs

end Laye
