import Mathlib.Logic.Relation
import Laye.Lib.Interaction

/-!
# Interleaved programs

Jobs arrive one after the other, each starts a thread, and the threads share a state. At any
time any thread may have its next operation served, and the shared state may move on by
itself. The log keeps which thread was served what, and in which shared state.
-/

namespace Interaction

variable {σ Op Job : Type} {Ans : Op → Type} {ε α : Type}

/-- How a system starts the thread of a job, serves an operation, and moves on by itself. -/
structure System (σ Op : Type) (Ans : Op → Type) (ε α Job : Type) where
  body : Job → Program Op Ans ε α
  serve : σ → (o : Op) → Ans o → σ → Prop
  tick : σ → σ → Prop

structure Entry (σ Op : Type) (Ans : Op → Type) where
  thread : Nat
  before : σ
  event : Event Op Ans

structure Pool (σ Op : Type) (Ans : Op → Type) (ε α Job : Type) where
  shared : σ
  threads : List (Job × Program Op Ans ε α)
  log : List (Entry σ Op Ans)

namespace Pool

def start (s : σ) : Pool σ Op Ans ε α Job := ⟨s, [], []⟩

def arrive (sys : System σ Op Ans ε α Job) (P : Pool σ Op Ans ε α Job) (job : Job) :
    Pool σ Op Ans ε α Job :=
  { P with threads := P.threads ++ [(job, sys.body job)] }

def served (P : Pool σ Op Ans ε α Job) (i : Nat) (job : Job) (e : Event Op Ans)
    (left : Program Op Ans ε α) (s' : σ) : Pool σ Op Ans ε α Job :=
  { shared := s'
    threads := P.threads.set i (job, left)
    log := P.log ++ [⟨i, P.shared, e⟩] }

end Pool

inductive Step (sys : System σ Op Ans ε α Job) :
    Pool σ Op Ans ε α Job → Pool σ Op Ans ε α Job → Prop
  | arrive (P : Pool σ Op Ans ε α Job) (job : Job) : Step sys P (P.arrive sys job)
  | tick (P : Pool σ Op Ans ε α Job) (s' : σ) (h : sys.tick P.shared s') :
      Step sys P { P with shared := s' }
  | turn (P : Pool σ Op Ans ε α Job) (i : Nat) (job : Job) (o : Op)
      (next : Ans o → Program Op Ans ε α) (x : Ans o) (s' : σ)
      (hi : P.threads[i]? = some (job, .op o next)) (hserve : sys.serve P.shared o x s') :
      Step sys P (P.served i job ⟨o, x⟩ (next x) s')

abbrev Run (sys : System σ Op Ans ε α Job) :
    Pool σ Op Ans ε α Job → Pool σ Op Ans ε α Job → Prop :=
  Relation.ReflTransGen (Step sys)

/-- The events of thread `i`. -/
def eventsOf (i : Nat) (log : List (Entry σ Op Ans)) : List (Event Op Ans) :=
  (log.filter (fun e => e.thread == i)).map Entry.event

@[simp] lemma eventsOf_append (i : Nat) (log log' : List (Entry σ Op Ans)) :
    eventsOf i (log ++ log') = eventsOf i log ++ eventsOf i log' := by
  simp [eventsOf]

@[simp] lemma eventsOf_singleton_self (i : Nat) (s : σ) (e : Event Op Ans) :
    eventsOf i [⟨i, s, e⟩] = [e] := by
  simp [eventsOf]

lemma eventsOf_singleton_of_ne {i : Nat} {e : Entry σ Op Ans} (h : e.thread ≠ i) :
    eventsOf i [e] = [] := by
  simp [eventsOf, h]

lemma mem_eventsOf {i : Nat} {log : List (Entry σ Op Ans)} {ev : Event Op Ans} :
    ev ∈ eventsOf i log ↔ ∃ (n : Nat) (e : Entry σ Op Ans), log[n]? = some e ∧ e.thread = i ∧ e.event = ev := by
  simp only [eventsOf, List.mem_map, List.mem_filter, beq_iff_eq]
  constructor
  · rintro ⟨e, ⟨he, hi⟩, hev⟩
    obtain ⟨n, hn⟩ := List.mem_iff_getElem?.mp he
    exact ⟨n, e, hn, hi, hev⟩
  · rintro ⟨n, e, hn, hi, hev⟩
    exact ⟨e, ⟨List.mem_of_getElem? hn, hi⟩, hev⟩

variable {sys : System σ Op Ans ε α Job}

/-! ### Threads run their programs -/

/-- Each thread is where its own events have brought it, and only threads have events. -/
structure Threaded (sys : System σ Op Ans ε α Job) (P : Pool σ Op Ans ε α Job) : Prop where
  after : ∀ i job p, P.threads[i]? = some (job, p) → After (eventsOf i P.log) (sys.body job) p
  fresh : ∀ i, P.threads.length ≤ i → eventsOf i P.log = []

lemma Threaded.start (s : σ) : Threaded sys (.start s) := by
  refine ⟨?_, ?_⟩
  · intro i job p h
    simp [Pool.start] at h
  · intro i _
    rfl

lemma Threaded.step {P Q : Pool σ Op Ans ε α Job} (hP : Threaded sys P) (h : Step sys P Q) :
    Threaded sys Q := by
  cases h with
  | arrive job =>
    refine ⟨?_, ?_⟩
    · intro i job' p hi
      by_cases hlt : i < P.threads.length
      · rw [Pool.arrive, List.getElem?_append_left hlt] at hi
        exact hP.after i job' p hi
      · rw [Pool.arrive, List.getElem?_append_right (by omega)] at hi
        obtain ⟨hi0, hjob⟩ := List.getElem?_eq_some_iff.mp hi
        have h0 : i - P.threads.length = 0 := by simpa using hi0
        simp only [h0, List.getElem_cons_zero, Prod.mk.injEq] at hjob
        obtain ⟨rfl, rfl⟩ := hjob
        have hfresh : eventsOf i P.log = [] := hP.fresh i (by omega)
        simp only [Pool.arrive, hfresh]
        exact .nil _
    · intro i hi
      simp only [Pool.arrive, List.length_append] at hi
      exact hP.fresh i (by omega)
  | tick s' _ => exact ⟨hP.after, hP.fresh⟩
  | turn i job o next x s' hi hserve =>
    have hlt : i < P.threads.length := (List.getElem?_eq_some_iff.mp hi).1
    refine ⟨?_, ?_⟩
    · intro j job' p hj
      rw [Pool.served, List.getElem?_set] at hj
      by_cases hij : i = j
      · subst hij
        simp only [if_pos hlt, if_true, Option.some.injEq, Prod.mk.injEq] at hj
        obtain ⟨rfl, rfl⟩ := hj
        rw [Pool.served, eventsOf_append, eventsOf_singleton_self]
        exact (hP.after i job _ hi).snoc x
      · rw [if_neg hij] at hj
        rw [Pool.served, eventsOf_append, eventsOf_singleton_of_ne hij, List.append_nil]
        exact hP.after j job' p hj
    · intro j hj
      simp only [Pool.served, List.length_set] at hj
      have hij : i ≠ j := by omega
      rw [Pool.served, eventsOf_append, eventsOf_singleton_of_ne hij, List.append_nil]
      exact hP.fresh j hj

lemma Threaded.run {s : σ} {P : Pool σ Op Ans ε α Job} (h : Run sys (.start s) P) :
    Threaded sys P := by
  induction h with
  | refl => exact Threaded.start s
  | tail _ hstep ih => exact ih.step hstep

/-- The run of a thread that has ended. -/
lemma Run.returns {s : σ} {P : Pool σ Op Ans ε α Job} (h : Run sys (.start s) P) {i : Nat}
    {job : Job} {a : α} (hi : P.threads[i]? = some (job, .done a)) :
    Returns (sys.body job) (eventsOf i P.log) a :=
  (Threaded.run h).after i job _ hi

/-! ### Going back to an entry of the log -/

lemma getElem?_of_take {log : List (Entry σ Op Ans)} {n m : Nat} {e : Entry σ Op Ans}
    (h : (log.take n)[m]? = some e) : m < n ∧ log[m]? = some e := by
  rw [List.getElem?_take] at h
  split at h
  · rename_i hlt
    exact ⟨hlt, h⟩
  · cases h

/-- A thread keeps its job. -/
lemma Step.job {P Q : Pool σ Op Ans ε α Job} (h : Step sys P Q) {i : Nat} {job : Job}
    (hi : (P.threads[i]?).map Prod.fst = some job) : (Q.threads[i]?).map Prod.fst = some job := by
  obtain ⟨⟨job', p⟩, hp, rfl⟩ := Option.map_eq_some_iff.mp hi
  have hlt : i < P.threads.length := (List.getElem?_eq_some_iff.mp hp).1
  cases h with
  | arrive job =>
    rw [Pool.arrive, List.getElem?_append_left hlt]
    exact hi
  | tick s' _ => exact hi
  | turn j job o next x s' hj _ =>
    rw [Pool.served, List.getElem?_set]
    by_cases hij : j = i
    · subst hij
      have heq : (job, Program.op o next) = (job', p) := Option.some.inj (hj.symm.trans hp)
      cases heq
      simp [hlt]
    · rw [if_neg hij]
      exact hi

lemma Run.job {P Q : Pool σ Op Ans ε α Job} (h : Run sys P Q) {i : Nat} {job : Job}
    (hi : (P.threads[i]?).map Prod.fst = some job) : (Q.threads[i]?).map Prod.fst = some job := by
  induction h with
  | refl => exact hi
  | tail _ hstep ih => exact hstep.job ih

/-- A thread that has ended stays as it is. -/
lemma Step.ended {P Q : Pool σ Op Ans ε α Job} (h : Step sys P Q) {i : Nat} {job : Job} {a : α}
    (hi : P.threads[i]? = some (job, .done a)) : Q.threads[i]? = some (job, .done a) := by
  have hlt : i < P.threads.length := (List.getElem?_eq_some_iff.mp hi).1
  cases h with
  | arrive job =>
    rw [Pool.arrive, List.getElem?_append_left hlt]
    exact hi
  | tick s' _ => exact hi
  | turn j job' o next x s' hj _ =>
    have hne : j ≠ i := by
      rintro rfl
      rw [hj] at hi
      cases hi
    rw [Pool.served, List.getElem?_set_ne hne]
    exact hi

/-- The turn an entry of the log records, in the run that led to it. -/
lemma Run.entry {s : σ} {P : Pool σ Op Ans ε α Job} (h : Run sys (.start s) P) {n : Nat}
    {e : Entry σ Op Ans} (hn : P.log[n]? = some e) :
    ∃ Q job next s', Run sys (.start s) Q ∧ Q.log = P.log.take n ∧ Q.shared = e.before ∧
      Q.threads[e.thread]? = some (job, .op e.event.op next) ∧
      sys.serve e.before e.event.op e.event.answer s' ∧
      Run sys (Q.served e.thread job e.event (next e.event.answer) s') P := by
  induction h with
  | refl => simp [Pool.start] at hn
  | @tail P R hrun hstep ih =>
    have hgrow : P.log[n]? = some e → P.log.take n = R.log.take n → ∃ Q job next s',
        Run sys (.start s) Q ∧ Q.log = R.log.take n ∧ Q.shared = e.before ∧
        Q.threads[e.thread]? = some (job, .op e.event.op next) ∧
        sys.serve e.before e.event.op e.event.answer s' ∧
        Run sys (Q.served e.thread job e.event (next e.event.answer) s') R := by
      intro hP htake
      obtain ⟨Q, job, next, s', hQ, hQlog, hshared, hthread, hserve, hto⟩ := ih hP
      exact ⟨Q, job, next, s', hQ, hQlog.trans htake, hshared, hthread, hserve, hto.tail hstep⟩
    cases hstep with
    | arrive job => exact hgrow hn rfl
    | tick s' _ => exact hgrow hn rfl
    | turn i job o next x s' hi hserve =>
      by_cases hlt : n < P.log.length
      · rw [Pool.served, List.getElem?_append_left hlt] at hn
        exact hgrow hn (List.take_append_of_le_length (by omega)).symm
      · -- the new entry is the last one
        rw [Pool.served, List.getElem?_append_right (by omega)] at hn
        obtain ⟨hn0, he⟩ := List.getElem?_eq_some_iff.mp hn
        have h0 : n - P.log.length = 0 := by simpa using hn0
        simp only [h0, List.getElem_cons_zero] at he
        subst he
        have hlen : n = P.log.length := by omega
        refine ⟨P, job, next, s', hrun, ?_, rfl, hi, hserve, .refl⟩
        rw [Pool.served, hlen, List.take_left]

/-- What a thread asked for in the log, it asked for after its earlier events. -/
lemma Run.asks {s : σ} {P : Pool σ Op Ans ε α Job} (h : Run sys (.start s) P) {n : Nat}
    {e : Entry σ Op Ans} (hn : P.log[n]? = some e) :
    ∃ job, (P.threads[e.thread]?).map Prod.fst = some job ∧
      Asks (sys.body job) (eventsOf e.thread (P.log.take n)) e.event.op := by
  obtain ⟨Q, job, next, s', hQ, hQlog, _, hthread, _, hto⟩ := h.entry hn
  have hlt : e.thread < Q.threads.length := (List.getElem?_eq_some_iff.mp hthread).1
  rw [← hQlog]
  exact ⟨job, hto.job (by simp [Pool.served, hlt]), next, (Threaded.run hQ).after _ _ _ hthread⟩

/-! ### Serial schedules -/

/-- Serve thread `i`, which has come to a program, until it ends or gets no answer. -/
def Pool.playThread (answer : σ → (o : Op) → Option (Ans o × σ)) (i : Nat) (job : Job) :
    Program Op Ans ε α → Pool σ Op Ans ε α Job → Pool σ Op Ans ε α Job
  | .done _, P => P
  | .fail _, P => P
  | .op o next, P =>
    match answer P.shared o with
    | none => P
    | some (x, s') => playThread answer i job (next x) (P.served i job ⟨o, x⟩ (next x) s')

/-- Start a job's thread and serve no other before it ends. -/
def Pool.serial (sys : System σ Op Ans ε α Job) (answer : σ → (o : Op) → Option (Ans o × σ))
    (P : Pool σ Op Ans ε α Job) (job : Job) : Pool σ Op Ans ε α Job :=
  (P.arrive sys job).playThread answer P.threads.length job (sys.body job)

section Serial

variable {answer : σ → (o : Op) → Option (Ans o × σ)}

lemma run_playThread (hanswer : ∀ s o x s', answer s o = some (x, s') → sys.serve s o x s')
    {i : Nat} {job : Job} {p : Program Op Ans ε α} {P : Pool σ Op Ans ε α Job}
    (hi : P.threads[i]? = some (job, p)) : Run sys P (P.playThread answer i job p) := by
  induction p generalizing P with
  | done a => exact .refl
  | fail e => exact .refl
  | op o next ih =>
    unfold Pool.playThread
    cases h : answer P.shared o with
    | none => exact .refl
    | some r =>
      have hlt : i < P.threads.length := (List.getElem?_eq_some_iff.mp hi).1
      have hturn : Step sys P (P.served i job ⟨o, r.1⟩ (next r.1) r.2) :=
        .turn P i job o next r.1 r.2 hi (hanswer _ _ _ _ h)
      exact (Relation.ReflTransGen.single hturn).trans (ih r.1 (by simp [Pool.served, hlt]))

lemma run_serial (hanswer : ∀ s o x s', answer s o = some (x, s') → sys.serve s o x s')
    (P : Pool σ Op Ans ε α Job) (job : Job) : Run sys P (P.serial sys answer job) :=
  (Relation.ReflTransGen.single (Step.arrive P job)).trans
    (run_playThread hanswer (by simp [Pool.arrive]))

end Serial

/-! ### Given schedules -/

/-- Serve the next operation of thread `i`, if there is one that gets an answer. -/
def Pool.turn (answer : Nat → σ → (o : Op) → Option (Ans o × σ)) (P : Pool σ Op Ans ε α Job)
    (i : Nat) : Pool σ Op Ans ε α Job :=
  match P.threads[i]? with
  | some (job, .op o next) =>
    match answer i P.shared o with
    | some (x, s') => P.served i job ⟨o, x⟩ (next x) s'
    | none => P
  | _ => P

lemma run_turns {answer : Nat → σ → (o : Op) → Option (Ans o × σ)}
    (hanswer : ∀ i s o x s', answer i s o = some (x, s') → sys.serve s o x s')
    (schedule : List Nat) (P : Pool σ Op Ans ε α Job) :
    Run sys P (schedule.foldl (Pool.turn answer) P) := by
  induction schedule generalizing P with
  | nil => exact .refl
  | cons i schedule ih =>
    have hturn : Run sys P (P.turn answer i) := by
      unfold Pool.turn
      split
      · rename_i job o next hi
        split
        · rename_i x s' h
          exact .single (.turn P i job o next x s' hi (hanswer _ _ _ _ _ h))
        · exact .refl
      · exact .refl
    exact hturn.trans (ih _)

end Interaction
