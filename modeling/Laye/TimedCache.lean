import Mathlib.Order.Nat
import Laye.FlowCache
import Laye.Lib.Expiry

/-!
# The flow cache is a timed map

The calls to the cache take its lock one after the other, at clock readings that do not go back.
Both tables drop what has expired on every call; what they answer depends on no clean-up.
-/

namespace Laye

open Expiry

/-- A call, with the clock readings it makes. -/
inductive CacheCall
  | insertFlow (now : Instant) (state : String) (flow : FlowState)
  | takeFlow (now : Instant) (state : String)
  | insertResult (now createdAt : Instant) (state : String) (signed : SignedBinding)
  | getResult (now : Instant) (state : String)

inductive CacheAnswer
  | inserted
  | flow (taken : Option FlowState)
  | result (found : Option SignedBinding)

namespace CacheCall

def state : CacheCall → String
  | .insertFlow _ state _ | .takeFlow _ state | .insertResult _ _ state _ | .getResult _ state => state

/-- The reading of `gc`. -/
def now : CacheCall → Instant
  | .insertFlow now _ _ | .takeFlow now _ | .insertResult now _ _ _ | .getResult now _ => now

/-- The last reading. -/
def left : CacheCall → Instant
  | .insertResult _ createdAt _ _ => createdAt
  | c => c.now

/-- What the call does to the flows. -/
def flowUse : CacheCall → Use String FlowState
  | .insertFlow _ state flow => .put state flow
  | .takeFlow _ state => .drop state
  | _ => .read

/-- What the call does to the results. -/
def resultUse : CacheCall → Use String ResultState
  | .insertResult _ createdAt state signed => .put state ⟨signed, createdAt⟩
  | _ => .read

end CacheCall

/-- The clock does not go back, within a call or between two. -/
structure InOrder (calls : List CacheCall) : Prop where
  within : ∀ c ∈ calls, c.now ≤ c.left
  between : calls.Pairwise (fun c c' => c.left ≤ c'.now)

lemma InOrder.sublist {calls calls' : List CacheCall} (h : InOrder calls)
    (hsub : calls'.Sublist calls) : InOrder calls' :=
  ⟨fun c hc => h.within c (hsub.subset hc), h.between.sublist hsub⟩

lemma InOrder.times {calls : List CacheCall} (h : InOrder calls) :
    (calls.map CacheCall.now).Pairwise (· ≤ ·) := by
  rw [List.pairwise_map]
  exact h.between.imp_of_mem (fun hc _ hle => (h.within _ hc).trans hle)

lemma InOrder.le_last {calls : List CacheCall} {c c' : CacheCall} (h : InOrder (calls ++ [c']))
    (hc : c ∈ calls) : c.now ≤ c'.now :=
  (h.within c (List.mem_append_left _ hc)).trans
    ((List.pairwise_append.mp h.between).2.2 c hc c' (List.mem_singleton_self _))

namespace FlowCacheInner

def call (inner : FlowCacheInner) : CacheCall → CacheAnswer × FlowCacheInner
  | .insertFlow now state flow => (.inserted, inner.insertFlow now state flow)
  | .takeFlow now state => (.flow (inner.takeFlow now state).1, (inner.takeFlow now state).2)
  | .insertResult now createdAt state signed =>
    (.inserted, inner.insertResult now createdAt state signed)
  | .getResult now state => (.result (inner.getResult now state).1, (inner.getResult now state).2)

/-- The cache after some calls. -/
def after (calls : List CacheCall) : FlowCacheInner :=
  calls.foldl (fun inner c => (inner.call c).2) new

def answersFrom : FlowCacheInner → List CacheCall → List CacheAnswer
  | _, [] => []
  | inner, c :: calls => (inner.call c).1 :: answersFrom (inner.call c).2 calls

lemma after_snoc (calls : List CacheCall) (c : CacheCall) :
    after (calls ++ [c]) = ((after calls).call c).2 := by
  simp [after]

lemma answersFrom_after_cons (calls : List CacheCall) (c : CacheCall) (later : List CacheCall) :
    answersFrom (after calls) (c :: later) =
      ((after calls).call c).1 :: answersFrom (after (calls ++ [c])) later := by
  rw [after_snoc]
  rfl

lemma answersFrom_append (inner : FlowCacheInner) (calls later : List CacheCall) :
    answersFrom inner (calls ++ later) = answersFrom inner calls ++
      answersFrom (calls.foldl (fun inner c => (inner.call c).2) inner) later := by
  induction calls generalizing inner with
  | nil => rfl
  | cons c calls ih => simp [answersFrom, ih]

lemma answersFrom_length (inner : FlowCacheInner) (calls : List CacheCall) :
    (answersFrom inner calls).length = calls.length := by
  induction calls generalizing inner with
  | nil => rfl
  | cons c calls ih => simp [answersFrom, ih]

/-! ### Both tables are expiring tables -/

lemma fresh_before {t t' createdAt : Instant} (h : t ≤ t') (hfresh : fresh t' createdAt = true) :
    fresh t createdAt = true := by
  have hold : t' - createdAt < FLOW_TTL := of_decide_eq_true hfresh
  exact decide_eq_true (Nat.lt_of_le_of_lt (Nat.sub_le_sub_right h createdAt) hold)

def flowFreshness : Freshness Instant FlowState where
  fresh now flow := fresh now flow.createdAt
  before := fresh_before

def resultFreshness : Freshness Instant ResultState where
  fresh now result := fresh now result.createdAt
  before := fresh_before

lemma flows_call (inner : FlowCacheInner) (c : CacheCall) :
    (inner.call c).2.flows = c.flowUse.apply (collect flowFreshness c.now inner.flows) := by
  cases c <;> rfl

lemma results_call (inner : FlowCacheInner) (c : CacheCall) :
    (inner.call c).2.results = c.resultUse.apply (collect resultFreshness c.now inner.results) := by
  cases c <;> rfl

/-- What the calls left that has not expired, had nothing ever been dropped. -/
def flowsLeft (calls : List CacheCall) (now : Instant) : Table String FlowState :=
  collect flowFreshness now (kept (calls.map CacheCall.flowUse))

def resultsLeft (calls : List CacheCall) (now : Instant) : Table String ResultState :=
  collect resultFreshness now (kept (calls.map CacheCall.resultUse))

variable {calls : List CacheCall} {c : CacheCall}

/-- A table that every call cleans up and then uses has, for the next call, what the uses left. -/
lemma collect_after {ν : Type} {F : Freshness Instant ν} {table : FlowCacheInner → Table String ν}
    {use : CacheCall → Use String ν} (hnew : table new = fun _ => none)
    (hcall : ∀ inner c, table (inner.call c).2 = (use c).apply (collect F c.now (table inner)))
    (h : InOrder (calls ++ [c])) :
    collect F c.now (table (after calls)) = collect F c.now (kept (calls.map use)) := by
  have hafter : ∀ calls, table (after calls) = run F (calls.map (fun c => (c.now, use c))) := by
    intro calls
    induction calls using List.reverseRecOn with
    | nil => exact hnew
    | append_singleton calls c ih =>
      rw [after_snoc, hcall, List.map_append, List.map_singleton, run_snoc, ih]
  have htimes := h.times
  rw [List.map_append, List.map_singleton] at htimes
  have hrun := collect_run F (calls.map (fun c => (c.now, use c)))
    (by simpa [List.map_map, Function.comp_def] using htimes)
  rw [← hafter, List.map_map] at hrun
  exact hrun

lemma gc_flows_after (h : InOrder (calls ++ [c])) :
    ((after calls).gc c.now).flows = flowsLeft calls c.now :=
  collect_after rfl flows_call h

lemma gc_results_after (h : InOrder (calls ++ [c])) :
    ((after calls).gc c.now).results = resultsLeft calls c.now :=
  collect_after rfl results_call h

/-- The answer of a cache that keeps everything and looks at the clock. -/
def idealAnswer (calls : List CacheCall) : CacheCall → CacheAnswer
  | .takeFlow now state => .flow (flowsLeft calls now state)
  | .getResult now state => .result ((resultsLeft calls now state).map ResultState.signed)
  | _ => .inserted

theorem answer_eq_ideal (h : InOrder (calls ++ [c])) :
    ((after calls).call c).1 = idealAnswer calls c := by
  cases c with
  | insertFlow now state flow => rfl
  | takeFlow now state =>
    exact congrArg (fun flows => CacheAnswer.flow (flows state)) (gc_flows_after h)
  | insertResult now createdAt state signed => rfl
  | getResult now state =>
    exact congrArg (fun results => CacheAnswer.result ((results state).map ResultState.signed))
      (gc_results_after h)

/-! ### What was called before decides the answer -/

/-- The flow was inserted last under the state, and no `take_flow` has returned it since. -/
def Untaken (calls : List CacheCall) (state : String) (flow : FlowState) : Prop :=
  ∃ earlier now later, calls = earlier ++ .insertFlow now state flow :: later ∧
    (∀ t g, .insertFlow t state g ∉ later) ∧
    ∀ soFar t rest, later = soFar ++ .takeFlow t state :: rest →
      ((after (earlier ++ .insertFlow now state flow :: soFar)).takeFlow t state).1 = none

/-- The binding was inserted last under the state, at that time. -/
def LastResult (calls : List CacheCall) (state : String) (signed : SignedBinding)
    (createdAt : Instant) : Prop :=
  ∃ earlier now later, calls = earlier ++ .insertResult now createdAt state signed :: later ∧
    ∀ t t' b, .insertResult t t' state b ∉ later

lemma flowUse_key_eq_some_iff {c : CacheCall} {state : String} :
    c.flowUse.key = some state ↔
      (∃ t flow, c = .insertFlow t state flow) ∨ ∃ t, c = .takeFlow t state := by
  cases c <;> simp [CacheCall.flowUse, Use.key]

lemma resultUse_key_eq_some_iff {c : CacheCall} {state : String} :
    c.resultUse.key = some state ↔ ∃ t t' b, c = .insertResult t t' state b := by
  cases c <;> simp [CacheCall.resultUse, Use.key]

lemma flowUse_eq_put_iff {c : CacheCall} {state : String} {flow : FlowState} :
    c.flowUse = .put state flow ↔ ∃ t, c = .insertFlow t state flow := by
  cases c <;> simp [CacheCall.flowUse]

lemma resultUse_eq_put_iff {c : CacheCall} {state : String} {r : ResultState} :
    c.resultUse = .put state r ↔ ∃ t, c = .insertResult t r.createdAt state r.signed := by
  cases c with
  | insertResult t t' state' signed =>
    obtain ⟨signed', createdAt⟩ := r
    simp only [CacheCall.resultUse, Use.put.injEq, ResultState.mk.injEq, CacheCall.insertResult.injEq]
    constructor
    · rintro ⟨rfl, rfl, rfl⟩
      exact ⟨t, rfl, rfl, rfl, rfl⟩
    · rintro ⟨_, _, rfl, rfl, rfl⟩
      exact ⟨rfl, rfl, rfl⟩
  | _ => simp [CacheCall.resultUse]

lemma takeFlow_eq_some_iff {calls : List CacheCall} {now : Instant} {state : String}
    {flow : FlowState} (h : InOrder (calls ++ [.takeFlow now state])) :
    ((after calls).takeFlow now state).1 = some flow ↔
      (∃ earlier t later, calls = earlier ++ .insertFlow t state flow :: later ∧
        ∀ c ∈ later, c.flowUse.key ≠ some state) ∧
      now.durationSince flow.createdAt < FLOW_TTL := by
  have hleft : ((after calls).takeFlow now state).1 = flowsLeft calls now state :=
    congrFun (gc_flows_after h) state
  have hfresh : flowFreshness.fresh now flow = true ↔ now.durationSince flow.createdAt < FLOW_TTL :=
    decide_eq_true_iff
  rw [hleft, flowsLeft, collect_eq_some_iff, kept_map_eq_some_iff, hfresh]
  simp only [flowUse_eq_put_iff]
  constructor
  · rintro ⟨⟨earlier, c, later, hcalls, ⟨t, rfl⟩, hlater⟩, hage⟩
    exact ⟨⟨earlier, t, later, hcalls, hlater⟩, hage⟩
  · rintro ⟨⟨earlier, t, later, hcalls, hlater⟩, hage⟩
    exact ⟨⟨earlier, _, later, hcalls, ⟨t, rfl⟩, hlater⟩, hage⟩

/-- A flow that is still fresh was fresh all the time, so the first `take_flow` after its insertion
would have returned it. -/
lemma not_taken_while_fresh {earlier later : List CacheCall} {t now : Instant} {state : String}
    {flow : FlowState}
    (h : InOrder (earlier ++ .insertFlow t state flow :: later ++ [.takeFlow now state]))
    (hage : now.durationSince flow.createdAt < FLOW_TTL)
    (hinserts : ∀ t' g, .insertFlow t' state g ∉ later)
    (htakes : ∀ soFar t' rest, later = soFar ++ .takeFlow t' state :: rest →
      ((after (earlier ++ .insertFlow t state flow :: soFar)).takeFlow t' state).1 = none) :
    ∀ c ∈ later, c.flowUse.key ≠ some state := by
  induction later using List.reverseRecOn with
  | nil => simp
  | append_singleton later c ih =>
    have hlater := ih (h.sublist (by simp)) (fun t' g hmem => hinserts t' g (by simp [hmem]))
      (fun soFar t' rest heq => htakes soFar t' (rest ++ [c]) (by simp [heq]))
    intro x hx
    rcases List.mem_append.mp hx with hx | hx
    · exact hlater x hx
    · obtain rfl := List.mem_singleton.mp hx
      intro hkey
      rcases flowUse_key_eq_some_iff.mp hkey with ⟨t', g, rfl⟩ | ⟨t', rfl⟩
      · exact hinserts t' g (by simp)
      · have hle : t' ≤ now := h.le_last (c := .takeFlow t' state) (by simp)
        have hthen : Instant.durationSince t' flow.createdAt < FLOW_TTL :=
          Nat.lt_of_le_of_lt (Nat.sub_le_sub_right hle _) hage
        have hsome := (takeFlow_eq_some_iff (h.sublist (by simp))).mpr
          ⟨⟨earlier, t, later, rfl, hlater⟩, hthen⟩
        rw [htakes later t' [] rfl] at hsome
        cases hsome

lemma takeFlow_iff {calls : List CacheCall} {now : Instant} {state : String} {flow : FlowState}
    (h : InOrder (calls ++ [.takeFlow now state])) :
    ((after calls).takeFlow now state).1 = some flow ↔
      Untaken calls state flow ∧ now.durationSince flow.createdAt < FLOW_TTL := by
  rw [takeFlow_eq_some_iff h]
  refine and_congr_left (fun hage => ⟨?_, ?_⟩)
  · rintro ⟨earlier, t, later, rfl, hlater⟩
    refine ⟨earlier, t, later, rfl, fun t' g hmem => ?_, fun soFar t' rest heq => ?_⟩
    · exact hlater _ hmem (flowUse_key_eq_some_iff.mpr (Or.inl ⟨t', g, rfl⟩))
    · have hmem : .takeFlow t' state ∈ later := by simp [heq]
      exact absurd (flowUse_key_eq_some_iff.mpr (Or.inr ⟨t', rfl⟩)) (hlater _ hmem)
  · rintro ⟨earlier, t, later, rfl, hinserts, htakes⟩
    exact ⟨earlier, t, later, rfl, not_taken_while_fresh h hage hinserts htakes⟩

lemma getResult_iff {calls : List CacheCall} {now : Instant} {state : String}
    {signed : SignedBinding} (h : InOrder (calls ++ [.getResult now state])) :
    ((after calls).getResult now state).1 = some signed ↔
      ∃ createdAt, LastResult calls state signed createdAt ∧
        now.durationSince createdAt < FLOW_TTL := by
  have hleft : ((after calls).getResult now state).1 =
      (resultsLeft calls now state).map ResultState.signed :=
    congrArg (Option.map ResultState.signed) (congrFun (gc_results_after h) state)
  have hfresh : ∀ r : ResultState, resultFreshness.fresh now r = true ↔
      now.durationSince r.createdAt < FLOW_TTL := fun _ => decide_eq_true_iff
  rw [hleft, Option.map_eq_some_iff]
  simp only [resultsLeft, collect_eq_some_iff, kept_map_eq_some_iff, hfresh, resultUse_eq_put_iff]
  constructor
  · rintro ⟨r, ⟨⟨earlier, c, later, hcalls, ⟨t, rfl⟩, hlater⟩, hage⟩, rfl⟩
    refine ⟨r.createdAt, ⟨earlier, t, later, hcalls, fun t' t'' b hmem => ?_⟩, hage⟩
    exact hlater _ hmem (resultUse_key_eq_some_iff.mpr ⟨t', t'', b, rfl⟩)
  · rintro ⟨createdAt, ⟨earlier, t, later, hcalls, hlater⟩, hage⟩
    refine ⟨⟨signed, createdAt⟩, ⟨⟨earlier, _, later, hcalls, ⟨t, rfl⟩, fun c hc hkey => ?_⟩, hage⟩, rfl⟩
    obtain ⟨t', t'', b, rfl⟩ := resultUse_key_eq_some_iff.mp hkey
    exact hlater t' t'' b hc

/-! ### What a call does not change -/

lemma kept_map_snoc {ν : Type} (use : CacheCall → Use String ν) (calls : List CacheCall)
    (c : CacheCall) : kept ((calls ++ [c]).map use) = (use c).apply (kept (calls.map use)) := by
  rw [List.map_append, List.map_singleton, kept_snoc]

/-- Later answers depend on what is kept. -/
lemma answersFrom_congr {calls calls' later : List CacheCall}
    (hflows : kept (calls.map CacheCall.flowUse) = kept (calls'.map CacheCall.flowUse))
    (hresults : kept (calls.map CacheCall.resultUse) = kept (calls'.map CacheCall.resultUse))
    (h : InOrder (calls ++ later)) (h' : InOrder (calls' ++ later)) :
    answersFrom (after calls) later = answersFrom (after calls') later := by
  induction later generalizing calls calls' with
  | nil => rfl
  | cons c later ih =>
    have hfirst : ((after calls).call c).1 = ((after calls').call c).1 := by
      rw [answer_eq_ideal (h.sublist (by simp)), answer_eq_ideal (h'.sublist (by simp))]
      unfold idealAnswer flowsLeft resultsLeft
      rw [hflows, hresults]
    rw [answersFrom_after_cons, answersFrom_after_cons, hfirst]
    congr 1
    apply ih
    · rw [kept_map_snoc, kept_map_snoc, hflows]
    · rw [kept_map_snoc, kept_map_snoc, hresults]
    · simpa using h
    · simpa using h'

/-- A `get_result` changes no later answer. -/
lemma answersFrom_getResult {calls later : List CacheCall} {now : Instant} {state : String}
    (h : InOrder (calls ++ .getResult now state :: later)) :
    answersFrom (after (calls ++ [.getResult now state])) later = answersFrom (after calls) later := by
  apply answersFrom_congr
  · exact kept_map_snoc _ _ _
  · exact kept_map_snoc _ _ _
  · simpa using h
  · exact h.sublist (by simp)

/-- The answers of the calls under one state. -/
def answersUnder (state : String) (calls : List CacheCall) : List CacheAnswer :=
  ((calls.zip (answersFrom new calls)).filter (fun p => p.1.state = state)).map Prod.snd

lemma answersFrom_snoc (calls : List CacheCall) (c : CacheCall) :
    answersFrom new (calls ++ [c]) = answersFrom new calls ++ [((after calls).call c).1] :=
  answersFrom_append new calls [c]

lemma idealAnswer_filter (calls : List CacheCall) (c : CacheCall) :
    idealAnswer (calls.filter (fun x => x.state = c.state)) c = idealAnswer calls c := by
  have hflows : kept ((calls.filter (fun x => x.state = c.state)).map CacheCall.flowUse) c.state =
      kept (calls.map CacheCall.flowUse) c.state := by
    refine kept_map_filter (fun x hx => ?_) calls
    rcases flowUse_key_eq_some_iff.mp hx with ⟨t, flow, rfl⟩ | ⟨t, rfl⟩ <;> exact decide_eq_true rfl
  have hresults : kept ((calls.filter (fun x => x.state = c.state)).map CacheCall.resultUse) c.state =
      kept (calls.map CacheCall.resultUse) c.state := by
    refine kept_map_filter (fun x hx => ?_) calls
    obtain ⟨t, t', b, rfl⟩ := resultUse_key_eq_some_iff.mp hx
    exact decide_eq_true rfl
  cases c with
  | takeFlow now state =>
    exact congrArg (fun f => CacheAnswer.flow (f.filter (flowFreshness.fresh now))) hflows
  | getResult now state =>
    exact congrArg (fun r => CacheAnswer.result
      ((r.filter (resultFreshness.fresh now)).map ResultState.signed)) hresults
  | insertFlow now state flow => rfl
  | insertResult now createdAt state signed => rfl

/-- Calls under other states do not change the answers under this one. -/
lemma answersUnder_eq {calls : List CacheCall} (h : InOrder calls) (state : String) :
    answersUnder state calls = answersFrom new (calls.filter (fun c => c.state = state)) := by
  induction calls using List.reverseRecOn with
  | nil => rfl
  | append_singleton calls c ih =>
    have hstep : answersUnder state (calls ++ [c]) = answersUnder state calls ++
        (if c.state = state then [((after calls).call c).1] else []) := by
      rw [answersUnder, answersFrom_snoc, List.zip_append (answersFrom_length new calls).symm,
        List.filter_append, List.map_append]
      congr 1
      by_cases hc : c.state = state <;> simp [hc]
    rw [hstep, ih (h.sublist (by simp)), List.filter_append]
    by_cases hc : c.state = state
    · subst hc
      have hin : InOrder (calls.filter (fun x => x.state = c.state) ++ [c]) :=
        h.sublist (List.Sublist.append List.filter_sublist (List.Sublist.refl _))
      have hlast : [c].filter (fun x => x.state = c.state) = [c] := by simp
      rw [if_pos rfl, hlast, answersFrom_snoc, answer_eq_ideal h, answer_eq_ideal hin,
        idealAnswer_filter]
    · rw [if_neg hc, List.filter_cons_of_neg (by simp [hc]), List.filter_nil, List.append_nil,
        List.append_nil]

/-- What the answers of a run are. -/
structure TimedMap (calls : List CacheCall) : Prop where
  takes : ∀ earlier now state later, calls = earlier ++ .takeFlow now state :: later → ∀ flow,
    ((after earlier).takeFlow now state).1 = some flow ↔
      Untaken earlier state flow ∧ now.durationSince flow.createdAt < FLOW_TTL
  gets : ∀ earlier now state later, calls = earlier ++ .getResult now state :: later → ∀ signed,
    ((after earlier).getResult now state).1 = some signed ↔
      ∃ createdAt, LastResult earlier state signed createdAt ∧
        now.durationSince createdAt < FLOW_TTL
  reads : ∀ earlier now state later, calls = earlier ++ .getResult now state :: later →
    answersFrom (after (earlier ++ [.getResult now state])) later = answersFrom (after earlier) later
  apart : ∀ state,
    answersUnder state calls = answersFrom new (calls.filter (fun c => c.state = state))

theorem timedMap_of_inOrder (calls : List CacheCall) (h : InOrder calls) : TimedMap calls where
  takes := by
    rintro earlier now state later rfl flow
    exact takeFlow_iff (h.sublist (by simp))
  gets := by
    rintro earlier now state later rfl signed
    exact getResult_iff (h.sublist (by simp))
  reads := by
    rintro earlier now state later rfl
    exact answersFrom_getResult h
  apart := answersUnder_eq h

/-- A flow is there for 600 seconds, less one nanosecond. -/
theorem timedMap_boundary :
    let flow : FlowState := ⟨"", "alice.example", "did:plc:a", ⟨"", "", "", ""⟩, ⟨[]⟩, "", none, 0⟩
    let binding : SignedBinding := ⟨⟨.replicate 1, "atproto", "did:plc:a", none, 0⟩, [], .replicate 2⟩
    let calls := [.insertFlow 0 "s" flow, .insertResult 0 0 "s" binding, .takeFlow (FLOW_TTL - 1) "s",
      .getResult FLOW_TTL "s"]
    TimedMap calls ∧
      answersFrom new calls = [.inserted, .inserted, .flow (some flow), .result none] := by
  intro flow binding calls
  have h : InOrder calls := by
    constructor
    · simp [calls, CacheCall.now, CacheCall.left]
    · simp [calls, CacheCall.now, CacheCall.left, FLOW_TTL]
  exact ⟨timedMap_of_inOrder calls h, rfl⟩

end FlowCacheInner

end Laye
