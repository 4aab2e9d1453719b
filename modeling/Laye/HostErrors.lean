import Laye.ErrorWire
import Laye.Lib.Delimited
import Laye.OwnErrors

/-!
# The errors of the game

`bevy-starter/src/lib.rs`: the game hands the errors it logs and its panics to the client in JSON.
They are shown among the client's own on the same overlay, and stay apart from these.
-/

namespace Laye

open Tally (Note)

def HOST_SURFACE : String := "bevy-starter"

/-- The level of a `tracing` event. -/
inductive Level
  | trace
  | debug
  | info
  | warn
  | error

def Level.severity : Level → Option Severity
  | .error => some .error
  | .warn => some .warn
  | _ => none

/-- `MessageVisitor`, over the fields of an event and their `Debug` forms. -/
def visitMessage (fields : List (String × String)) : String :=
  fields.foldl (fun message field => if field.1 = "message" then field.2 else message) ""

inductive PanicPayload
  | str (s : String)
  | string (s : String)
  | other

def PanicPayload.message : PanicPayload → String
  | .str s | .string s => s
  | .other => "<non-string panic payload>"

/-- File, line and column. -/
structure Location where
  file : String
  line : Nat
  column : Nat

def Location.text (l : Location) : String := s!"{l.file}:{l.line}:{l.column}"

def starterId (n : Nat) : String := s!"err-starter-{n}"

section Errors

variable (F : Type)

/-- The error of `emit_typed`. -/
def typedError (severity : Severity) (region title why : String) (now : UInt64) (n : Nat) : WireError F where
  id := starterId n
  severity := severity
  context := ⟨HOST_SURFACE, some region, none⟩
  title := title
  why := why
  trace := []
  raw := none
  at_ := toString now
  source := some "rust-ffi"
  ffiCall := none
  location := none
  jsStack := none
  rawStderr := none
  requiresReload := false

/-- The error of the panic hook. -/
def panicError (location : Option Location) (payload : PanicPayload) (now : UInt64) (n : Nat) :
    WireError F where
  id := starterId n
  severity := .panic
  context := ⟨HOST_SURFACE, some "wasm-panic", none⟩
  title := "bevy-starter panicked"
  why := "panic: " ++ payload.message
  trace := []
  raw := none
  at_ := toString now
  source := some "rust-panic"
  ffiCall := none
  location := location.map Location.text
  jsStack := none
  rawStderr := none
  requiresReload := true

end Errors

/-- The client and the game in one page: the number of the last error of the game, and what the
overlay was given of it. -/
structure Hosted (lib : Libp2pIdentity) where
  st : AppState lib
  counter : Nat
  history : List BoardEvent

/-- What goes on in the page. The game calls `emit_error` with its own errors only. -/
inductive HostCall (lib : Libp2pIdentity)
  | call (op : ClientOp lib) (h : op.Own)
  | dismissError (id : String)
  | onEvent (level : Level) (target : String) (fields : List (String × String)) (now : UInt64)
  | panicked (location : Option Location) (payload : PanicPayload) (now : UInt64)

namespace Hosted

variable {lib : Libp2pIdentity} {F : Type}

def start (dom : DomContext) : Hosted lib := ⟨AppState.start dom, 0, []⟩

/-- The error goes out as text and is read by `emit_error`. -/
def emitError (deps : Deps lib) (floats : Floats F) (h : Hosted lib) (err : Nat → WireError F) :
    Hosted lib :=
  let err := err (h.counter + 1)
  let json := deps.serde.toVec (err.toJson floats)
  { st := h.st.emitError ((deps.serde.read (WireError.ofJson floats) json).map WireError.shown)
    counter := h.counter + 1
    history := if h.st.page.Mounted then h.history ++ [.posted err.shown] else h.history }

def step (deps : Deps lib) (floats : Floats F) (h : Hosted lib) :
    HostCall lib → Except Fault (Hosted lib)
  | .call op _ => (AppState.step deps h.st op).map fun st => { h with st }
  | .dismissError id => .ok
    { h with
      st := h.st.setPage (h.st.page.dismissError id)
      history := if h.st.page.dom = .document then h.history ++ [.dismissed id] else h.history }
  | .onEvent level target fields now =>
    match level.severity with
    | none => .ok h
    | some severity =>
      .ok (h.emitError deps floats (typedError F severity "bevy-log" target (visitMessage fields) now))
  | .panicked location payload now => .ok (h.emitError deps floats (panicError F location payload now))

def run (deps : Deps lib) (floats : Floats F) : Hosted lib → List (HostCall lib) → Except Fault (Hosted lib)
  | h, [] => .ok h
  | h, call :: calls => do
    let h ← step deps floats h call
    run deps floats h calls

end Hosted

/-- What the calls of the game bring to an overlay, after its `n`-th error. -/
def heard {lib : Libp2pIdentity} (F : Type) : Nat → List (HostCall lib) → List BoardEvent
  | _, [] => []
  | n, .call _ _ :: calls => heard F n calls
  | n, .dismissError id :: calls => .dismissed id :: heard F n calls
  | n, .onEvent level target fields now :: calls =>
    match level.severity with
    | none => heard F n calls
    | some severity =>
      .posted (typedError F severity "bevy-log" target (visitMessage fields) now (n + 1)).shown ::
        heard F (n + 1) calls
  | n, .panicked location payload now :: calls =>
    .posted (panicError F location payload now (n + 1)).shown :: heard F (n + 1) calls

/-- Built by the game, as number `n`. -/
structure LayeError.FromHost (err : LayeError) (n : Nat) : Prop where
  id : err.id = starterId n
  surface : err.surface = HOST_SURFACE
  region : ∃ region, err.region = some region ∧ Plain region

lemma starterId_toList (n : Nat) :
    (starterId n).toList = "err-starter-".toList ++ (toString n).toList := by
  simp [starterId, toString]

lemma starterId_inj {m n : Nat} (h : starterId m = starterId n) : m = n := by
  have htext := congrArg String.toList h
  rw [starterId_toList, starterId_toList] at htext
  exact toList_toString_inj (List.append_cancel_left htext)

lemma layeId_ne_starterId (m n : Nat) : layeId m ≠ starterId n := by
  intro h
  have htext := congrArg (List.take 5) (congrArg String.toList h)
  rw [layeId_toList, starterId_toList, List.take_append_of_le_length (by decide),
    List.take_append_of_le_length (by decide)] at htext
  exact absurd htext (by decide)

namespace Hosted

variable {lib : Libp2pIdentity} {F : Type} {dom : DomContext}

/-- Is the triple that of an error of the game? -/
def ofHost (triple : String × Option String × String) : Bool := triple.1 = HOST_SURFACE

/-- The events that the history of the game records. -/
abbrev hostEvents (events : List BoardEvent) : List BoardEvent :=
  Tally.restrict LayeError.triple ofHost events

/-- Built by the client or by the game, with numbers that were given out. -/
def Known (own host : Nat) (err : LayeError) : Prop :=
  (∃ n, n ≤ own ∧ err.Own n) ∨ ∃ n, n ≤ host ∧ err.FromHost n

/-- The page went through `ops`. -/
structure Sound (dom : DomContext) (h : Hosted lib) (ops : List PageOp) : Prop where
  page : h.st.page = (Page.start dom).run ops
  known : ∀ err ∈ Page.emittedIn ops, Known h.st.page.errors.counter h.counter err
  once : ∀ err ∈ Page.emittedIn ops, ∀ err' ∈ Page.emittedIn ops, err.id = err'.id → err = err'
  buffer : ∀ err ∈ h.st.page.errors.buffer, err.surface = SURFACE
  history : hostEvents ((Page.start dom).boardedIn ops) = h.history

lemma Known.mono {own own' host host' : Nat} {err : LayeError} (h : Known own host err)
    (hown : own ≤ own') (hhost : host ≤ host') : Known own' host' err := by
  rcases h with ⟨n, hn, hbuilt⟩ | ⟨n, hn, hbuilt⟩
  · exact Or.inl ⟨n, hn.trans hown, hbuilt⟩
  · exact Or.inr ⟨n, hn.trans hhost, hbuilt⟩

/-- Ids that are still to be given out. -/
lemma Known.ne_layeId {own host n : Nat} {err : LayeError} (h : Known own host err) (hn : own < n) :
    err.id ≠ layeId n := by
  rcases h with ⟨m, hm, hbuilt⟩ | ⟨m, hm, hbuilt⟩ <;> rw [hbuilt.id]
  · intro heq
    have hsame := layeId_inj heq
    omega
  · exact (layeId_ne_starterId n m).symm

lemma Known.ne_starterId {own host n : Nat} {err : LayeError} (h : Known own host err) (hn : host < n) :
    err.id ≠ starterId n := by
  rcases h with ⟨m, hm, hbuilt⟩ | ⟨m, hm, hbuilt⟩ <;> rw [hbuilt.id]
  · exact layeId_ne_starterId m n
  · intro heq
    have hsame := starterId_inj heq
    omega

lemma hostEvents_append (as bs : List BoardEvent) :
    hostEvents (as ++ bs) = hostEvents as ++ hostEvents bs := List.filter_append _ _

lemma hostEvents_own {errors : List LayeError} (h : ∀ err ∈ errors, err.surface = SURFACE) :
    hostEvents (errors.map .posted) = [] := by
  apply List.filter_eq_nil_iff.mpr
  intro e he
  obtain ⟨err, herr, rfl⟩ := List.mem_map.mp he
  have hne : err.surface ≠ HOST_SURFACE := by
    rw [h err herr]
    decide
  simp [ofHost, LayeError.triple, hne]

lemma boardedIn_snoc (ops ops' : List PageOp) :
    (Page.start dom).boardedIn (ops ++ ops') =
      (Page.start dom).boardedIn ops ++ ((Page.start dom).run ops).boardedIn ops' :=
  Page.boardedIn_append _ _ _

/-- Calls of the client bring nothing of the game's to the overlay. -/
lemma Sound.reports {h : Hosted lib} {ops : List PageOp} (hs : Sound dom h ops)
    {st : AppState lib} (hreports : h.st.page.Reports st.page []) :
    ∃ ops, Sound dom { h with st } ops := by
  obtain ⟨more, hrun, hquiet, hle, hown⟩ := hreports
  rw [List.append_nil] at hown
  have hsurface : ∀ err ∈ Page.emittedIn more, err.surface = SURFACE := by
    intro err herr
    obtain ⟨n, -, -, hbuilt⟩ := hown.own err herr
    exact hbuilt.surface
  refine ⟨ops ++ more, ?_, fun err herr => ?_, fun err herr err' herr' hid => ?_, fun err herr => ?_, ?_⟩
  · rw [Page.run_append, ← hs.page]
    exact hrun
  · rw [Page.emittedIn_append] at herr
    rcases List.mem_append.mp herr with herr | herr
    · exact (hs.known err herr).mono hle le_rfl
    · obtain ⟨n, -, hn, hbuilt⟩ := hown.own err herr
      exact Or.inl ⟨n, hn, hbuilt⟩
  · have hcross : ∀ e ∈ Page.emittedIn ops, ∀ e' ∈ Page.emittedIn more, e.id ≠ e'.id := by
      intro e he e' he'
      obtain ⟨n, hn, -, hbuilt⟩ := hown.own e' he'
      rw [hbuilt.id]
      exact (hs.known e he).ne_layeId hn
    rw [Page.emittedIn_append] at herr herr'
    rcases List.mem_append.mp herr with herr | herr
    · rcases List.mem_append.mp herr' with herr' | herr'
      · exact hs.once err herr err' herr' hid
      · exact absurd hid (hcross err herr err' herr')
    · rcases List.mem_append.mp herr' with herr' | herr'
      · exact absurd hid.symm (hcross err' herr' err herr)
      · exact hown.once err herr err' herr' hid
  · rw [hrun] at herr
    rcases Page.buffer_run h.st.page more herr with hold | hnew
    · exact hs.buffer err hold
    · exact hsurface err hnew
  · have hnone : hostEvents (h.st.page.boardedIn more) = [] := by
      apply List.filter_eq_nil_iff.mpr
      intro e he
      cases e with
      | posted err =>
        have hown : err.surface = SURFACE := by
          rcases Page.emitted_of_posted _ more he with hold | hnew
          · exact hs.buffer err hold
          · exact hsurface err hnew
        have hne : err.surface ≠ HOST_SURFACE := by
          rw [hown]
          decide
        simp [ofHost, LayeError.triple, hne]
      | dismissed domId => exact absurd rfl (hquiet _ (Page.dismissed_mem _ more he) domId)
    rw [boardedIn_snoc, hostEvents_append, ← hs.page, hnone, List.append_nil]
    exact hs.history

/-- A dismissal comes to the overlay and to the history. -/
lemma Sound.dismissError {h : Hosted lib} {ops : List PageOp} (hs : Sound dom h ops) (id : String) :
    Sound dom
      { h with
        st := h.st.setPage (h.st.page.dismissError id)
        history := if h.st.page.dom = .document then h.history ++ [.dismissed id] else h.history }
      (ops ++ [.dismissError id]) := by
  have hemits : Page.emittedIn (ops ++ [.dismissError id]) = Page.emittedIn ops := by
    rw [Page.emittedIn_append]
    exact List.append_nil _
  have hcounter : h.st.page.errors.counter ≤ (h.st.page.dismissError id).errors.counter := by
    have hdoc := Page.document_counter h.st.page
    unfold Page.dismissError
    split <;> rename_i page' hpage <;> rw [hpage] at hdoc <;> exact hdoc
  refine ⟨?_, ?_, ?_, ?_, ?_⟩
  · rw [Page.run_append, ← hs.page]
    rfl
  · intro err herr
    rw [hemits] at herr
    exact (hs.known err herr).mono hcounter le_rfl
  · rw [hemits]
    exact hs.once
  · intro err herr
    rcases Page.buffer_step h.st.page (.dismissError id) herr with hold | hnew
    · exact hs.buffer err hold
    · cases hnew
  · have hone : h.st.page.boardedIn [.dismissError id] = h.st.page.boardedBy (.dismissError id) :=
      List.append_nil _
    rw [boardedIn_snoc, hostEvents_append, ← hs.page, hone, hs.history, Page.boardedBy]
    split
    · rfl
    · exact List.append_nil _

/-- What an error of the game brings to the overlay. -/
lemma hostEvents_emit {page : Page} (hbuffer : ∀ err ∈ page.errors.buffer, err.surface = SURFACE)
    {err : LayeError} (herr : err.surface = HOST_SURFACE) :
    hostEvents (page.boardedIn [.emit err, .renderErrors]) =
      if page.Mounted then [.posted err] else [] := by
  have hboarded : page.boardedIn [.emit err, .renderErrors] =
      if page.Mounted then (page.emit err).errors.buffer.map .posted else [] := List.append_nil _
  rw [hboarded]
  split
  · have hkept : ∀ e ∈ page.errors.buffer.drop (if ErrPipe.CAP ≤ page.errors.buffer.length then 1 else 0),
        e.surface = SURFACE := fun e he => hbuffer e (List.mem_of_mem_drop he)
    have hhost : hostEvents [.posted err] = [.posted err] := by
      simp [Tally.restrict, ofHost, LayeError.triple, herr]
    have hmap : (page.emit err).errors.buffer.map .posted =
        (page.errors.buffer.drop (if ErrPipe.CAP ≤ page.errors.buffer.length then 1 else 0)).map
          .posted ++ [(.posted err : BoardEvent)] := List.map_append
    rw [hmap, hostEvents_append, hostEvents_own hkept, hhost, List.nil_append]
  · rfl

/-- An error of the game is read as it was written, and shown if there is an overlay. -/
lemma Sound.emitError {deps : Deps lib} (htrip : deps.serde.RoundTripsWithin 3) (floats : Floats F)
    {h : Hosted lib} {ops : List PageOp} (hs : Sound dom h ops) {err : Nat → WireError F}
    (hbuilt : ∀ n, (err n).shown.FromHost n) (hanchor : ∀ n, (err n).context.anchor = none) :
    ∃ ops, Sound dom (h.emitError deps floats err) ops := by
  obtain ⟨e, he⟩ : ∃ e, err (h.counter + 1) = e := ⟨_, rfl⟩
  have hhost : e.shown.FromHost (h.counter + 1) := he ▸ hbuilt _
  have hread := WireError.read_toVec_unanchored htrip floats (hanchor (h.counter + 1))
  rw [he] at hread
  have hemit : h.emitError deps floats err =
      { st := (h.st.emit e.shown).renderErrors
        counter := h.counter + 1
        history := if h.st.page.Mounted then h.history ++ [.posted e.shown] else h.history } := by
    simp only [Hosted.emitError, he, hread]
    rfl
  rw [hemit]
  have hemits : Page.emittedIn (ops ++ [.emit e.shown, .renderErrors]) =
      Page.emittedIn ops ++ [e.shown] := Page.emittedIn_append _ _
  have hcounter : h.st.page.errors.counter ≤ (h.st.page.emit e.shown).renderErrors.errors.counter :=
    Page.counter_step (h.st.page.emit e.shown) .renderErrors trivial
  have hnew : ∀ err ∈ Page.emittedIn ops, err.id ≠ e.shown.id := by
    intro err herr
    rw [hhost.id]
    exact (hs.known err herr).ne_starterId (Nat.lt_succ_self _)
  refine ⟨ops ++ [.emit e.shown, .renderErrors], ?_, ?_, ?_, ?_, ?_⟩
  · rw [Page.run_append, ← hs.page]
    rfl
  · intro err herr
    rw [hemits, List.mem_append, List.mem_singleton] at herr
    rcases herr with herr | rfl
    · exact (hs.known err herr).mono hcounter (Nat.le_succ _)
    · exact Or.inr ⟨_, le_rfl, hhost⟩
  · intro err herr err' herr' hid
    rw [hemits, List.mem_append, List.mem_singleton] at herr herr'
    rcases herr with herr | rfl
    · rcases herr' with herr' | rfl
      · exact hs.once err herr err' herr' hid
      · exact absurd hid (hnew err herr)
    · rcases herr' with herr' | rfl
      · exact absurd hid.symm (hnew err' herr')
      · rfl
  · intro err herr
    have hempty : (h.st.page.emit e.shown).renderErrors.errors.buffer = [] :=
      Page.buffer_renderErrors _
    have herr' : err ∈ (h.st.page.emit e.shown).renderErrors.errors.buffer := herr
    rw [hempty] at herr'
    cases herr'
  · rw [boardedIn_snoc, hostEvents_append, ← hs.page, hs.history,
      hostEvents_emit hs.buffer hhost.surface]
    split
    · rfl
    · exact List.append_nil _

/-! ### Runs -/

variable {deps : Deps lib} {floats : Floats F}

lemma typedError_fromHost (severity : Severity) {region : String} (hregion : Plain region)
    (title why : String) (now : UInt64) (n : Nat) :
    (typedError F severity region title why now n).shown.FromHost n :=
  ⟨rfl, rfl, region, rfl, hregion⟩

lemma panicError_fromHost (location : Option Location) (payload : PanicPayload) (now : UInt64)
    (n : Nat) : (panicError F location payload now n).shown.FromHost n :=
  ⟨rfl, rfl, "wasm-panic", rfl, by decide⟩

lemma called_of_step {h h' : Hosted lib} {op : ClientOp lib} {hop : op.Own}
    (hstep : step deps floats h (.call op hop) = .ok h') :
    ∃ st, AppState.step deps h.st op = .ok st ∧ h' = { h with st } := by
  simp only [step] at hstep
  cases hop' : AppState.step deps h.st op with
  | error e => simp [hop', Except.map] at hstep
  | ok st =>
    rw [hop'] at hstep
    cases hstep
    exact ⟨st, rfl, rfl⟩

lemma sound_step (htrip : deps.serde.RoundTripsWithin 3) {h h' : Hosted lib} {ops : List PageOp}
    (hs : Sound dom h ops) {call : HostCall lib} (hstep : step deps floats h call = .ok h') :
    ∃ ops, Sound dom h' ops := by
  cases call with
  | call op hop =>
    obtain ⟨st, hop', rfl⟩ := called_of_step hstep
    exact hs.reports (AppState.reports_step deps hop hop')
  | dismissError id =>
    cases hstep
    exact ⟨_, hs.dismissError id⟩
  | onEvent level target fields now =>
    simp only [step] at hstep
    split at hstep
    · cases hstep
      exact ⟨ops, hs⟩
    · cases hstep
      apply hs.emitError htrip floats
      · exact typedError_fromHost _ (by decide) _ _ _
      · exact fun _ => rfl
  | panicked location payload now =>
    cases hstep
    apply hs.emitError htrip floats
    · exact panicError_fromHost _ _ _
    · exact fun _ => rfl

lemma sound_run (htrip : deps.serde.RoundTripsWithin 3) {h h' : Hosted lib} {ops : List PageOp}
    (hs : Sound dom h ops) {calls : List (HostCall lib)} (hrun : run deps floats h calls = .ok h') :
    ∃ ops, Sound dom h' ops := by
  induction calls generalizing h ops with
  | nil =>
    cases hrun
    exact ⟨ops, hs⟩
  | cons call calls ih =>
    obtain ⟨h₁, hstep, hrest⟩ := bind_eq_ok.mp hrun
    obtain ⟨ops₁, hs₁⟩ := sound_step htrip hs hstep
    exact ih hs₁ hrest

lemma sound_start (dom : DomContext) : Sound dom (start dom : Hosted lib) [] :=
  ⟨rfl, by simp [Page.emittedIn], by simp [Page.emittedIn], List.forall_mem_nil _, rfl⟩

lemma Known.plain {own host : Nat} {err : LayeError} (h : Known own host err) :
    Plain err.surface ∧ ∃ region, err.region = some region ∧ Plain region := by
  rcases h with ⟨n, -, hbuilt⟩ | ⟨n, -, hbuilt⟩
  · exact ⟨by rw [hbuilt.surface]; decide, hbuilt.region⟩
  · exact ⟨by rw [hbuilt.surface]; decide, hbuilt.region⟩

lemma Known.named {own host : Nat} {err : LayeError} (h : Known own host err) : err.id ≠ "" := by
  have hnil : "".toList = [] := rfl
  intro hempty
  have htext := congrArg String.toList hempty
  rcases h with ⟨n, -, hbuilt⟩ | ⟨n, -, hbuilt⟩
  · rw [hbuilt.id, layeId_toList, hnil] at htext
    exact absurd (List.append_eq_nil_iff.mp htext).1 (by decide)
  · rw [hbuilt.id, starterId_toList, hnil] at htext
    exact absurd (List.append_eq_nil_iff.mp htext).1 (by decide)

lemma run_append (h : Hosted lib) (before after : List (HostCall lib)) :
    run deps floats h (before ++ after) =
      (run deps floats h before).bind fun h => run deps floats h after := by
  induction before generalizing h with
  | nil => rfl
  | cons call before ih =>
    rw [List.cons_append, run, run]
    cases step deps floats h call with
    | error e => rfl
    | ok h₁ => exact ih h₁

section Example

def exampleDeps : Deps (Libp2pIdentity.recorded []) := .plain .compact (fun _ => none)

def exampleFloats : Floats JsonNumber := ⟨id, .number⟩

end Example

end Hosted

end Laye
