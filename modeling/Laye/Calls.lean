import Laye.Tracking

/-!
# What a call submits and receives

For every call, the payloads it submits for publication and the events it hands to the receive
queues.
-/

namespace Laye

namespace AppState

variable {lib : Libp2pIdentity} (deps : Deps lib)

/-- The run from `st` makes the call `op` in the state `before`, which leads to `after`. -/
structure Call (st : AppState lib) (ops : List (ClientOp lib)) (before : AppState lib)
    (op : ClientOp lib) (after : AppState lib) : Prop where
  place : ∃ pre post, ops = pre ++ op :: post ∧ run deps st pre = .ok before
  step : AppState.step deps before op = .ok after

/-- The first call of a run, or a call of the rest. -/
lemma call_cons {st before after : AppState lib} {op op' : ClientOp lib} {ops : List (ClientOp lib)} :
    Call deps st (op :: ops) before op' after ↔
      (before = st ∧ op' = op ∧ AppState.step deps st op = .ok after) ∨
        ∃ st₁, AppState.step deps st op = .ok st₁ ∧ Call deps st₁ ops before op' after := by
  constructor
  · rintro ⟨⟨pre, post, hops, hpre⟩, hstep⟩
    cases pre with
    | nil =>
      cases hpre
      obtain ⟨rfl, rfl⟩ := List.cons.inj hops
      exact Or.inl ⟨rfl, rfl, hstep⟩
    | cons first pre =>
      obtain ⟨rfl, rfl⟩ := List.cons.inj hops
      obtain ⟨st₁, hfirst, hrest⟩ := run_cons_eq_ok.mp hpre
      exact Or.inr ⟨st₁, hfirst, ⟨pre, post, rfl, hrest⟩, hstep⟩
  · rintro (⟨rfl, rfl, hstep⟩ | ⟨st₁, hfirst, ⟨pre, post, rfl, hpre⟩, hstep⟩)
    · exact ⟨⟨[], ops, rfl, rfl⟩, hstep⟩
    · exact ⟨⟨op :: pre, post, rfl, run_cons_eq_ok.mpr ⟨st₁, hfirst, hpre⟩⟩, hstep⟩

/-- What every call of a run keeps holds before each of its calls. -/
lemma Call.invariant {motive : AppState lib → Prop} {st : AppState lib} {ops : List (ClientOp lib)}
    (hstart : motive st)
    (hkeep : ∀ before op after, Call deps st ops before op after → motive before → motive after)
    {before after : AppState lib} {op : ClientOp lib} (h : Call deps st ops before op after) :
    motive before := by
  induction ops generalizing st with
  | nil =>
    obtain ⟨⟨pre, post, hops, -⟩, -⟩ := h
    simp at hops
  | cons first ops ih =>
    rcases (call_cons deps).mp h with ⟨rfl, -, -⟩ | ⟨st₁, hfirst, hrest⟩
    · exact hstart
    · have hcall : ∀ before op after, Call deps st₁ ops before op after →
          Call deps st (first :: ops) before op after :=
        fun before op after hc => (call_cons deps).mpr (Or.inr ⟨st₁, hfirst, hc⟩)
      have hfirstCall : Call deps st (first :: ops) st first st₁ :=
        (call_cons deps).mpr (Or.inl ⟨rfl, rfl, hfirst⟩)
      exact ih (hkeep _ _ _ hfirstCall hstart) (fun _ _ _ hc => hkeep _ _ _ (hcall _ _ _ hc)) hrest

/-! ### Drains -/

/-- What only `drain_net_events` touches is as before. -/
structure Undrained (st st' : AppState lib) : Prop where
  rx : st'.rx = st.rx
  topicPeers : st'.topicPeers = st.topicPeers
  polled : polledIn st'.log = polledIn st.log

lemma undrained_act {P : String → Bytes → Prop} {st st' : AppState lib} (h : Act deps P st st') :
    Undrained st st' := by
  cases h with
  | page | accept | close => exact ⟨rfl, rfl, rfl⟩
  | own | commit => exact ⟨rfl, rfl, (polledIn_append _ [_]).trans (List.append_nil _)⟩
  | send topic bytes =>
    obtain ⟨pendingSends, added, hframe, hadded⟩ := sendOrBuffer_frame st topic bytes
    rw [hframe]
    refine ⟨rfl, rfl, ?_⟩
    simp only [polledIn_append]
    rcases hadded with rfl | rfl <;> exact List.append_nil _

theorem undrained_step {st st' : AppState lib} {op : ClientOp lib} (hop : op.drains = false)
    (h : step deps st op = .ok st') : Undrained st st' :=
  (acts_step deps hop h).induction deps (fun _ => ⟨rfl, rfl, rfl⟩)
    (fun _ _ _ h h' => ⟨h'.rx.trans h.rx, h'.topicPeers.trans h.topicPeers, h'.polled.trans h.polled⟩)
    (fun _ _ => undrained_act deps)

/-- The history records the events each call polls, in order. -/
theorem step_polled {st st' : AppState lib} (op : ClientOp lib) (h : step deps st op = .ok st') :
    polledIn st'.log = polledIn st.log ++ polledBy st op := by
  cases hop : op.drains with
  | false =>
    rw [(undrained_step deps hop h).polled, polledBy_of_not_drains st hop, List.append_nil]
  | true =>
    obtain ⟨order, events, rx, hpolled, rfl⟩ := step_of_drains deps hop h
    rw [hpolled]
    exact polledIn_drainNetEvents deps st order events

/-- The events that the calls of a run poll, in order. -/
def pollsOf (deps : Deps lib) : AppState lib → List (ClientOp lib) → List NetEvent
  | _, [] => []
  | st, op :: ops =>
    polledBy st op ++ (step deps st op).toOption.elim [] fun st' => pollsOf deps st' ops

/-- The history of a run has the events that its calls polled. -/
theorem run_polled {st st' : AppState lib} {ops : List (ClientOp lib)}
    (h : run deps st ops = .ok st') : polledIn st'.log = polledIn st.log ++ pollsOf deps st ops := by
  induction ops generalizing st with
  | nil =>
    cases h
    exact (List.append_nil _).symm
  | cons op ops ih =>
    obtain ⟨st₁, hstep, hrest⟩ := run_cons_eq_ok.mp h
    rw [ih hrest, step_polled deps op hstep, pollsOf, hstep, List.append_assoc]
    rfl

/-! ### Submissions -/

/-- Every payload submitted on the way from `st` to `st'` is one that `P` allows on its topic. -/
def Submits (P : String → Bytes → Prop) (st st' : AppState lib) : Prop :=
  ∀ topic, ∃ new, submittedFor topic st'.log = submittedFor topic st.log ++ new ∧
    ∀ s ∈ new, P topic s.payload

section Submits

variable {deps} {P : String → Bytes → Prop} {st st₁ st' : AppState lib}

lemma Submits.none (h : ∀ topic, submittedFor topic st'.log = submittedFor topic st.log) :
    Submits P st st' :=
  fun topic => ⟨[], by rw [h topic, List.append_nil], by simp⟩

lemma Submits.trans (h : Submits P st st₁) (h' : Submits P st₁ st') : Submits P st st' := by
  intro topic
  obtain ⟨new, hlog, hnew⟩ := h topic
  obtain ⟨new', hlog', hnew'⟩ := h' topic
  refine ⟨new ++ new', by rw [hlog', hlog, List.append_assoc], ?_⟩
  intro s hs
  exact (List.mem_append.mp hs).elim (hnew s) (hnew' s)

lemma submits_sendOrBuffer {topic : String} {bytes : Bytes} (h : P topic bytes) :
    Submits P st (st.sendOrBuffer topic bytes).2 := by
  obtain ⟨pendingSends, added, hframe, hadded⟩ := sendOrBuffer_frame st topic bytes
  have hquiet : ∀ t, submittedFor t added = [] := by
    intro t
    rcases hadded with rfl | rfl <;> rfl
  intro t
  rw [hframe]
  refine ⟨submittedFor t (.submitted topic bytes (st.hasMeshFor topic) :: added), ?_, ?_⟩
  · exact submittedFor_append _ _ _
  · intro s hs
    rw [← List.singleton_append, submittedFor_append, hquiet, List.append_nil] at hs
    by_cases ht : topic = t
    · subst ht
      simp only [submittedFor, List.filterMap_cons, List.filterMap_nil, if_true,
        List.mem_singleton] at hs
      rw [hs]
      exact h
    · simp [submittedFor, ht] at hs

lemma submits_act (h : Act deps P st st') : Submits P st st' := by
  cases h with
  | page | accept | close => exact .none fun _ => rfl
  | own => exact .none fun topic => by simp [pushChat, observe, submittedFor]
  | commit => exact .none fun topic => by simp [commit, observe, submittedFor]
  | send topic bytes hallowed => exact submits_sendOrBuffer hallowed

lemma submits_acts (h : Acts deps P st st') : Submits P st st' :=
  h.induction deps (fun _ => .none fun _ => rfl) (fun _ _ _ h h' => h.trans h')
    (fun _ _ => submits_act)

end Submits

lemma submits_drainNetEvents (P : String → Bytes → Prop) (st : AppState lib)
    (order : IterOrder String) (events : List NetEvent) :
    Submits P st (drainNetEvents deps order st events) := by
  apply Submits.none
  intro topic
  cases hnet : st.net with
  | none =>
    obtain ⟨page, rx, heq⟩ := drainNetEvents_unwired deps hnet order events
    rw [heq]
    rfl
  | some net =>
    exact congrArg Outbox.Box.submitted (outbox_drainNetEvents deps hnet order events topic)

theorem step_submits {st st' : AppState lib} (op : ClientOp lib) (h : step deps st op = .ok st') :
    Submits (MaySubmit deps st st' op) st st' := by
  cases hop : op.drains with
  | false =>
    exact submits_acts (acts_step deps hop h)
  | true =>
    obtain ⟨order, events, rx, -, rfl⟩ := step_of_drains deps hop h
    exact (submits_drainNetEvents deps _ st order events).trans (.none fun _ => rfl)

/-- A payload submitted in a run is one that some call of the run submitted. -/
lemma run_submits {st st' : AppState lib} {ops : List (ClientOp lib)} (h : run deps st ops = .ok st')
    {topic : String} {s : Outbox.Submission Bytes} (hs : s ∈ submittedFor topic st'.log) :
    s ∈ submittedFor topic st.log ∨ ∃ before op after, Call deps st ops before op after ∧
      (∃ new, submittedFor topic after.log = submittedFor topic before.log ++ new ∧ s ∈ new) ∧
      MaySubmit deps before after op topic s.payload := by
  induction ops generalizing st with
  | nil =>
    cases h
    exact Or.inl hs
  | cons op ops ih =>
    obtain ⟨st₁, hstep, hrest⟩ := run_cons_eq_ok.mp h
    rcases ih hrest with hold | ⟨before, op', after, hcall, hnew, hmay⟩
    · obtain ⟨new, hlog, hnew⟩ := step_submits deps op hstep topic
      rw [hlog, List.mem_append] at hold
      rcases hold with hold | hin
      · exact Or.inl hold
      · exact Or.inr ⟨st, op, st₁, (call_cons deps).mpr (Or.inl ⟨rfl, rfl, hstep⟩),
          ⟨new, hlog, hin⟩, hnew s hin⟩
    · exact Or.inr ⟨before, op', after, (call_cons deps).mpr (Or.inr ⟨st₁, hstep, hcall⟩),
        hnew, hmay⟩

/-- What is handed over was submitted. -/
lemma submitted_of_handed (dom : DomContext) (ops : List (ClientOp lib)) (st : AppState lib)
    (h : run deps (start dom) ops = .ok st) {topic : String} {bytes : Bytes}
    (hsent : bytes ∈ handedFor topic st.log) : ∃ s ∈ submittedFor topic st.log, s.payload = bytes := by
  obtain ⟨sentAt, queuedAt, hacc⟩ := (outbox_sound deps dom ops st h topic).accounted
  have hmem : some bytes ∈ (handedFor topic st.log ++ st.pendingOf topic).map some :=
    List.mem_map_of_mem (List.mem_append_left _ hsent)
  have hplaces : some bytes ∈ (sentAt ++ queuedAt).map
      (fun i => ((submittedFor topic st.log)[i]?).map Outbox.Submission.payload) :=
    hacc.picks.holds ▸ hmem
  obtain ⟨i, -, hi⟩ := List.mem_map.mp hplaces
  obtain ⟨s, hs, hpayload⟩ := Option.map_eq_some_iff.mp hi
  exact ⟨s, List.mem_of_getElem? hs, hpayload⟩

end AppState

end Laye
