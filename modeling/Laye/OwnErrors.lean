import Laye.Acts
import Laye.ErrorBoard

/-!
# What the client reports of its own

Every error that the client builds itself has the next number in its id, and it emits an error it
has built at most once. A call reports in any other way only what the host hands to `emit_error`.
-/

namespace Laye

def layeId (n : Nat) : String := s!"err-laye-{n}"

/-- No separator of joined keys. -/
def Plain (text : String) : Prop := '|' ∉ text.toList

instance (text : String) : Decidable (Plain text) := inferInstanceAs (Decidable (¬_))

/-- Built by the client, as number `n`. -/
structure LayeError.Own (err : LayeError) (n : Nat) : Prop where
  id : err.id = layeId n
  surface : err.surface = SURFACE
  region : ∃ region, err.region = some region ∧ Plain region

/-- Errors of the client, each with a number of its own above `low` and up to `high`. -/
structure Numbered (low high : Nat) (errors : List LayeError) : Prop where
  own : ∀ err ∈ errors, ∃ n, low < n ∧ n ≤ high ∧ err.Own n
  once : ∀ err ∈ errors, ∀ err' ∈ errors, err.id = err'.id → err = err'

lemma layeId_toList (n : Nat) : (layeId n).toList = "err-laye-".toList ++ (toString n).toList := by
  simp [layeId, toString]

lemma layeId_inj {m n : Nat} (h : layeId m = layeId n) : m = n := by
  have htext := congrArg String.toList h
  rw [layeId_toList, layeId_toList] at htext
  exact toList_toString_inj (List.append_cancel_left htext)

namespace Numbered

variable {low mid high : Nat} {errors errors' : List LayeError}

lemma nil (low high : Nat) : Numbered low high [] := ⟨by simp, by simp⟩

lemma mono (h : Numbered low mid errors) (hle : mid ≤ high) : Numbered low high errors := by
  refine ⟨fun err herr => ?_, h.once⟩
  obtain ⟨n, hlow, hmid, hown⟩ := h.own err herr
  exact ⟨n, hlow, hmid.trans hle, hown⟩

/-- Later errors have higher numbers. -/
lemma append (h : Numbered low mid errors) (h' : Numbered mid high errors') (hle : low ≤ mid)
    (hle' : mid ≤ high) : Numbered low high (errors ++ errors') := by
  have hcross : ∀ err ∈ errors, ∀ err' ∈ errors', err.id ≠ err'.id := by
    intro err herr err' herr' hid
    obtain ⟨n, -, hn, hown⟩ := h.own err herr
    obtain ⟨n', hn', -, hown'⟩ := h'.own err' herr'
    rw [hown.id, hown'.id] at hid
    have hsame := layeId_inj hid
    omega
  refine ⟨fun err herr => ?_, fun err herr err' herr' hid => ?_⟩
  · rcases List.mem_append.mp herr with herr | herr
    · exact (h.mono hle').own err herr
    · obtain ⟨n, hlow, hhigh, hown⟩ := h'.own err herr
      exact ⟨n, by omega, hhigh, hown⟩
  · rcases List.mem_append.mp herr with herr | herr
    · rcases List.mem_append.mp herr' with herr' | herr'
      · exact h.once err herr err' herr' hid
      · exact absurd hid (hcross err herr err' herr')
    · rcases List.mem_append.mp herr' with herr' | herr'
      · exact absurd hid.symm (hcross err' herr' err herr)
      · exact h'.once err herr err' herr' hid

end Numbered

/-! ### Reports on a page -/

/-- The operation emits and dismisses nothing. -/
def PageOp.Silent : PageOp → Prop
  | .emit _ | .dismissError _ => False
  | _ => True

namespace Page

/-- From one page to the next by operations that dismiss nothing and emit what the client built on
the way; what it built and keeps is `pending`. -/
def Reports (page page' : Page) (pending : List LayeError) : Prop :=
  ∃ ops, page' = page.run ops ∧ (∀ op ∈ ops, ∀ domId, op ≠ .dismissError domId) ∧
    page.errors.counter ≤ page'.errors.counter ∧
    Numbered page.errors.counter page'.errors.counter (emittedIn ops ++ pending)

lemma document_counter (page : Page) : page.errors.counter ≤ page.document.2.errors.counter := by
  unfold document build ErrPipe.build ErrPipe.nextId
  split
  · exact le_rfl
  · exact Nat.le_succ _
  · exact Nat.le_succ _

lemma counter_step (page : Page) (op : PageOp) (hop : op.Silent) :
    page.errors.counter ≤ (page.step op).errors.counter := by
  cases op with
  | emit | dismissError => cases hop
  | installErrorOverlay | installChatOverlay | updateLoginButton => exact le_rfl
  | build => exact Nat.le_succ _
  | renderErrors =>
    have hdoc := document_counter { page with errors := { page.errors with buffer := [] } }
    change _ ≤ page.renderErrors.errors.counter
    unfold renderErrors ErrPipe.drain
    dsimp only at hdoc ⊢
    split
    · exact le_rfl
    · split <;> rename_i page' hpage <;> rw [hpage] at hdoc
      · exact hdoc
      · split <;> exact hdoc
  | renderChat chat =>
    simp only [step, renderChat]
    have hdoc := document_counter page
    split <;> rename_i page' hpage <;> rw [hpage] at hdoc <;> exact hdoc

namespace Reports

variable {page page₁ page₂ : Page} {pending : List LayeError}

lemma refl (page : Page) : Reports page page [] :=
  ⟨[], rfl, by simp, le_rfl, Numbered.nil _ _⟩

lemma trans (h : Reports page page₁ []) (h' : Reports page₁ page₂ pending) :
    Reports page page₂ pending := by
  obtain ⟨ops, rfl, hquiet, hle, hown⟩ := h
  obtain ⟨ops', rfl, hquiet', hle', hown'⟩ := h'
  rw [List.append_nil] at hown
  refine ⟨ops ++ ops', (run_append page ops ops').symm, fun op hop => ?_, hle.trans hle', ?_⟩
  · rcases List.mem_append.mp hop with hop | hop
    · exact hquiet op hop
    · exact hquiet' op hop
  · rw [emittedIn_append, List.append_assoc]
    exact hown.append hown' hle hle'

lemma silent (h : Reports page page₁ pending) (op : PageOp) (hop : op.Silent) :
    Reports page (page₁.step op) pending := by
  obtain ⟨ops, rfl, hquiet, hle, hown⟩ := h
  have hcounter := counter_step (page.run ops) op hop
  refine ⟨ops ++ [op], (run_append page ops [op]).symm, fun op' hop' => ?_, hle.trans hcounter, ?_⟩
  · rcases List.mem_append.mp hop' with hop' | hop'
    · exact hquiet op' hop'
    · rw [List.mem_singleton.mp hop']
      rintro domId rfl
      exact hop
  · have hnone : emittedIn [op] = [] := by
      cases op <;> first | rfl | cases hop
    rw [emittedIn_append, hnone, List.append_nil]
    exact hown.mono hcounter

/-- An error that is built gets the next number. -/
lemma built (h : Reports page page₁ pending) (severity : Severity) {region : String}
    (hregion : Plain region) (title why : String) :
    Reports page (page₁.build severity region title why).2
      (pending ++ [(page₁.build severity region title why).1]) := by
  obtain ⟨ops, rfl, hquiet, hle, hown⟩ := h
  obtain ⟨err, herr⟩ : ∃ err, ((page.run ops).build severity region title why).1 = err := ⟨_, rfl⟩
  have hnew : err.Own ((page.run ops).errors.counter + 1) := by
    rw [← herr]
    exact ⟨rfl, rfl, region, rfl, hregion⟩
  have hone : Numbered (page.run ops).errors.counter ((page.run ops).errors.counter + 1) [err] := by
    refine ⟨fun e he => ?_, fun e he e' he' _ => ?_⟩
    · rw [List.mem_singleton.mp he]
      exact ⟨_, Nat.lt_succ_self _, le_rfl, hnew⟩
    · rw [List.mem_singleton.mp he, List.mem_singleton.mp he']
  refine ⟨ops ++ [.build severity region title why], ?_, fun op hop => ?_,
    hle.trans (Nat.le_succ _), ?_⟩
  · rw [run_append]
    rfl
  · rcases List.mem_append.mp hop with hop | hop
    · exact hquiet op hop
    · rw [List.mem_singleton.mp hop]
      exact fun domId => PageOp.noConfusion
  · have hbuilds : emittedIn [.build severity region title why] = [] := rfl
    rw [emittedIn_append, hbuilds, List.append_nil, ← List.append_assoc, herr]
    exact hown.append hone hle (Nat.le_succ _)

lemma emitted_eq_run (errors : List LayeError) (page : Page) :
    errors.foldl emit page = page.run (errors.map .emit) := by
  rw [run, List.foldl_map]
  rfl

lemma counter_emitted (errors : List LayeError) (page : Page) :
    (errors.foldl emit page).errors.counter = page.errors.counter := by
  induction errors generalizing page with
  | nil => rfl
  | cons err errors ih => exact ih (page.emit err)

/-- What is pending is emitted. -/
lemma emitted (h : Reports page page₁ pending) : Reports page (pending.foldl emit page₁) [] := by
  obtain ⟨ops, rfl, hquiet, hle, hown⟩ := h
  refine ⟨ops ++ pending.map .emit, ?_, fun op hop => ?_, ?_, ?_⟩
  · rw [run_append, emitted_eq_run]
  · rcases List.mem_append.mp hop with hop | hop
    · exact hquiet op hop
    · obtain ⟨err, -, rfl⟩ := List.mem_map.mp hop
      exact fun domId => PageOp.noConfusion
  · rwa [counter_emitted]
  · have hemits : emittedIn (pending.map .emit) = pending := by
      simp [emittedIn, List.filterMap_map]
    rw [counter_emitted, List.append_nil, emittedIn_append, hemits]
    exact hown

/-- `errpipe::emit(build(..))` -/
lemma report (h : Reports page page₁ []) (severity : Severity) {region : String}
    (hregion : Plain region) (title why : String) :
    Reports page (page₁.report severity region title why) [] :=
  (h.built severity hregion title why).emitted

end Reports

end Page

/-! ### Reports of a call -/

namespace AppState

variable {lib : Libp2pIdentity} {page : Page} {st : AppState lib}

/-- The region of a failure separates no keys. -/
def PlainFailures {α : Type} (x : Except Failure α) : Prop := ∀ e, x = .error e → Plain e.region

/-- What an inner function returns next to the state is the error it has built last. -/
def Reported (page : Page) : Option LayeError × AppState lib → Prop
  | (none, st) => page.Reports st.page []
  | (some err, st) => page.Reports st.page [err]

lemma reported_fail (h : page.Reports st.page []) (severity : Severity) {region : String}
    (hregion : Plain region) (title why : String) :
    Reported page (st.fail severity region title why) :=
  h.built severity hregion title why

lemma reports_renderErrors (h : page.Reports st.page []) : page.Reports st.renderErrors.page [] :=
  h.silent .renderErrors trivial

lemma reports_renderChat (h : page.Reports st.page []) : page.Reports st.renderChat.page [] :=
  h.silent (.renderChat st.chat) trivial

lemma reports_updateLoginButton (h : page.Reports st.page []) :
    page.Reports st.updateLoginButton.page [] :=
  h.silent (.updateLoginButton _) trivial

lemma reports_surfaced {r : Option LayeError × AppState lib} (h : Reported page r) :
    page.Reports (surfaced r).page [] := by
  obtain ⟨_ | err, st'⟩ := r
  · exact h
  · have hemitted : page.Reports (st'.emit err).page [] := h.emitted
    exact reports_renderErrors hemitted

lemma page_netPublish (st : AppState lib) (topic : String) (bytes : Bytes) :
    (st.netPublish topic bytes).2.page = st.page := by
  unfold netPublish
  split <;> rfl

lemma page_sendOrBuffer (st : AppState lib) (topic : String) (bytes : Bytes) :
    (st.sendOrBuffer topic bytes).2.page = st.page := by
  unfold sendOrBuffer
  dsimp only
  split
  · exact page_netPublish _ topic bytes
  · rfl

lemma reports_flushOne (h : page.Reports st.page []) (topic : String) (bytes : Bytes) :
    page.Reports (flushOne topic st bytes).page [] := by
  unfold flushOne
  have hpage := page_netPublish st topic bytes
  split <;> rename_i hpublish <;> rw [hpublish] at hpage
  all_goals
    rw [← hpage] at h
  · exact h
  · exact h.report _ (by decide) _ _
  · exact h.report _ (by decide) _ _

lemma reports_foldl {α : Type} {f : AppState lib → α → AppState lib}
    (hf : ∀ st a, page.Reports st.page [] → page.Reports (f st a).page []) (items : List α)
    (h : page.Reports st.page []) : page.Reports (items.foldl f st).page [] := by
  induction items generalizing st with
  | nil => exact h
  | cons a items ih => exact ih (hf st a h)

lemma reports_flushPendingFor (h : page.Reports st.page []) (topic : String) :
    page.Reports (st.flushPendingFor topic).page [] := by
  unfold flushPendingFor
  split
  · exact h
  · exact reports_foldl (fun st bytes h => reports_flushOne h topic bytes) _ h

lemma reports_publish (h : page.Reports st.page []) (topic : String) (bytes : Bytes) :
    page.Reports (st.publish topic bytes).page [] := by
  apply reports_surfaced
  unfold publishInner
  split
  · exact reported_fail h _ (by decide) _ _
  · have hpage := page_sendOrBuffer st topic bytes
    split <;> rename_i hsend <;> rw [hsend] at hpage
    all_goals
      rw [← hpage] at h
    · exact h
    · exact h
    · exact reported_fail h _ (by decide) _ _
    · exact reported_fail h _ (by decide) _ _

lemma reports_subscribeOpaque (h : page.Reports st.page []) (topic : String) :
    page.Reports (st.subscribeOpaque topic).page [] := by
  apply reports_surfaced
  unfold subscribeOpaqueInner
  split
  · exact reported_fail h _ (by decide) _ _
  · split
    · split
      · exact h
      · exact reported_fail h _ (by decide) _ _
    · exact reported_fail h _ (by decide) _ _

variable (deps : Deps lib)

lemma reports_sendChat (h : page.Reports st.page []) (value : String) (now : UInt64) :
    page.Reports (sendChat deps st value now).page [] := by
  unfold sendChat
  split
  · exact h
  · apply reports_surfaced
    unfold publishChat
    split
    · exact reported_fail h _ (by decide) _ _
    · split
      · exact reported_fail h _ (by decide) _ _
      · rename_i bytes _
        have hpage := page_sendOrBuffer st CHAT_TOPIC bytes
        split <;> rename_i hsend <;> rw [hsend] at hpage
        all_goals
          rw [← hpage] at h
        · exact reports_renderChat h
        · exact reports_renderChat h
        · exact reported_fail h _ (by decide) _ _
        · exact reported_fail h _ (by decide) _ _

lemma reports_republishSelfBindings (h : page.Reports st.page []) :
    page.Reports (republishSelfBindings deps st).page [] := by
  unfold republishSelfBindings
  split
  · exact h
  · have hpage := page_sendOrBuffer st IDENTITY_TOPIC (encodeWire deps.serde st.selfBindings)
    split <;> rename_i hsend <;> rw [hsend] at hpage
    all_goals
      rw [← hpage] at h
    · exact h
    · exact h
    · exact h
    · exact h.report _ (by decide) _ _

section PlainFailures

variable {α β ε : Type}

lemma plainFailures_ok (a : α) : PlainFailures (.ok a) := by
  intro e h
  cases h

lemma plainFailures_error {e : Failure} (h : Plain e.region) : PlainFailures (.error e : Except Failure α) := by
  intro e' heq
  cases heq
  exact h

lemma PlainFailures.bind {x : Except Failure α} {f : α → Except Failure β} (h : PlainFailures x)
    (hf : ∀ a, PlainFailures (f a)) : PlainFailures (x >>= f) := by
  cases x with
  | error e => exact plainFailures_error (h e rfl)
  | ok a => exact hf a

lemma plainFailures_mapError (x : Except ε α) {f : ε → Failure} (hf : ∀ e, Plain (f e).region) :
    PlainFailures (x.mapError f) := by
  cases x with
  | error e => exact plainFailures_error (hf e)
  | ok a => exact plainFailures_ok a

lemma reported_failWith {x : Except Failure α} {e : Failure} (h : page.Reports st.page [])
    (hx : PlainFailures x) (he : x = .error e) : Reported page (st.failWith e) :=
  reported_fail h _ (hx e he) _ _

lemma plainFailures_checkLogin (st : AppState lib) (json : String) :
    PlainFailures (checkLogin deps st json) := by
  have hparse : Plain "login-parse" := by decide
  have hempty : Plain "login-empty" := by decide
  have hverify : Plain "login-verify" := by decide
  have hpreinit : Plain "login-preinit" := by decide
  have hpeer : Plain "login-wrong-peer" := by decide
  unfold checkLogin
  apply (plainFailures_mapError _ fun _ => hparse).bind
  intro msg
  split
  · exact plainFailures_ok _
  · split
    · apply (plainFailures_mapError _ fun _ => hverify).bind
      intro _
      split
      · split
        · exact plainFailures_error hpeer
        · exact plainFailures_ok _
      · exact plainFailures_error hpreinit
    · exact plainFailures_error hempty

lemma reports_login (h : page.Reports st.page []) (json : String) :
    page.Reports (login deps st json).page [] := by
  apply reports_surfaced
  unfold handleLoginMessage
  split
  · rename_i hcheck
    exact reported_failWith h (plainFailures_checkLogin deps st json) hcheck
  · exact h
  · rename_i self binding _
    have haccept : page.Reports (st.acceptLogin self binding).page [] := h
    have hsent := reports_republishSelfBindings deps haccept
    exact reports_renderErrors (reports_renderChat (reports_updateLoginButton hsent))

lemma plainFailures_loadIdentity (answers : InitAnswers lib) :
    PlainFailures (loadIdentity deps answers) := by
  have hopen : Plain "idb-open" := by decide
  have hload : Plain "idb-load-identity" := by decide
  have hmint : Plain "identity-mint" := by decide
  have hsave : Plain "idb-save-identity" := by decide
  unfold loadIdentity
  apply (plainFailures_mapError _ fun _ => hopen).bind
  intro _
  apply (plainFailures_mapError _ fun _ => hload).bind
  intro existing
  cases existing with
  | some bytes => exact plainFailures_mapError _ fun _ => hmint
  | none =>
    apply (plainFailures_mapError _ fun _ => hmint).bind
    intro _
    apply (plainFailures_mapError _ fun _ => hsave).bind
    intro _
    exact plainFailures_ok _

lemma plainFailures_prepare (configJson : String) (answers : InitAnswers lib) :
    PlainFailures (prepare deps configJson answers) := by
  have hconfig : Plain "init-config-parse" := by decide
  have hguard : Plain "init-topic-guard" := by decide
  have hkey : Plain "identity-nonEd25519" := by decide
  have hbindings : Plain "idb-load-bindings" := by decide
  have hnet : Plain "net-build" := by decide
  unfold prepare
  apply (plainFailures_mapError _ fun _ => hconfig).bind
  intro config
  split
  · exact plainFailures_error hguard
  · apply (plainFailures_loadIdentity deps answers).bind
    intro keypair
    apply (plainFailures_mapError _ fun _ => hkey).bind
    intro key
    split
    · apply (plainFailures_mapError _ fun _ => hbindings).bind
      intro selfBindings
      apply (plainFailures_mapError _ fun _ => hnet).bind
      intro _
      exact plainFailures_ok _
    · exact plainFailures_error hkey

end PlainFailures

/-- The regions of the errors that installing the overlays builds. -/
def DOM_REGIONS : List String :=
  ["dom-window", "dom-document", "dom-head", "dom-body", "dom-create", "dom-append", "dom-cast",
    "dom-listener", "dom-mount"]

lemma plain_of_dom {region : String} (h : region ∈ DOM_REGIONS) : Plain region := by
  have hall : ∀ region ∈ DOM_REGIONS, Plain region := by decide
  exact hall region h

/-- The overlays fail as their installation does. -/
structure InitAnswers.Genuine (answers : InitAnswers lib) : Prop where
  errorOverlay : ∀ e, answers.errorOverlay = .error e → e.region ∈ DOM_REGIONS
  chatOverlay : ∀ e, answers.chatOverlay = .stopped e ∨ answers.chatOverlay = .withoutListener e →
    e.region ∈ DOM_REGIONS

lemma reports_init (h : page.Reports st.page []) (configJson : String) {answers : InitAnswers lib}
    (hanswers : answers.Genuine) : page.Reports (init deps st configJson answers).page [] := by
  have hinner : Reported page (initInner deps st configJson answers) := by
    unfold initInner
    split
    · rename_i hprepare
      exact reported_failWith h (plainFailures_prepare deps configJson answers) hprepare
    · rename_i identity _
      have hcommit : page.Reports (st.commit identity).page [] := h
      have herrors := hcommit.silent .installErrorOverlay trivial
      have hchat := herrors.silent .installChatOverlay trivial
      dsimp only
      split
      · rename_i hoverlay
        exact reported_fail hcommit _ (plain_of_dom (hanswers.errorOverlay _ hoverlay)) _ _
      · rename_i hoverlay
        exact reported_fail herrors _ (plain_of_dom (hanswers.chatOverlay _ (Or.inl hoverlay))) _ _
      · rename_i hoverlay
        exact reported_fail hchat _ (plain_of_dom (hanswers.chatOverlay _ (Or.inr hoverlay))) _ _
      · exact reports_republishSelfBindings deps (hchat.silent (.updateLoginButton _) trivial)
  unfold init
  split <;> rename_i hinit <;> rw [hinit] at hinner
  · exact reports_renderErrors hinner
  · exact reports_renderErrors hinner.emitted

/-! ### Network events -/

lemma reports_drainEvent {acc : DrainAcc lib} (h : page.Reports acc.st.page acc.collectedErrors)
    (selfPubkey : Option PubKey) (selfPeerId : String) (e : NetEvent) :
    page.Reports (drainEvent deps selfPubkey selfPeerId acc e).st.page
      (drainEvent deps selfPubkey selfPeerId acc e).collectedErrors := by
  unfold drainEvent
  cases e with
  | subscriptionChange topic peer joined =>
    dsimp only
    split <;> exact h
  | peerDown | peerUp => exact h
  | error netErr => exact h.built _ (by decide) _ _
  | message topic peer bytes atMs =>
    dsimp only
    split
    · split <;> exact h
    · split <;> exact h

lemma reports_finishDrain (topics : List String) {acc : DrainAcc lib}
    (h : page.Reports acc.st.page acc.collectedErrors) :
    page.Reports (finishDrain topics acc).page [] := by
  have hpage : ∀ (errors : List LayeError) (st : AppState lib),
      (errors.foldl emit st).page = errors.foldl Page.emit st.page := by
    intro errors
    induction errors with
    | nil => exact fun _ => rfl
    | cons err errors ih => exact fun st => ih (st.emit err)
  have hemitted : page.Reports
      (acc.collectedErrors.foldl emit (acc.st.setRx (acc.st.rx.ingest acc.opaqueEvents))).page [] := by
    rw [hpage]
    exact h.emitted
  have hflushed := reports_foldl (fun st topic h => reports_flushPendingFor h topic) topics hemitted
  unfold finishDrain
  apply reports_renderErrors
  split
  · apply reports_updateLoginButton
    split
    · exact reports_renderChat hflushed
    · exact hflushed
  · split
    · exact reports_renderChat hflushed
    · exact hflushed

lemma reports_drainNetEvents (h : page.Reports st.page []) (order : IterOrder String)
    (events : List NetEvent) : page.Reports (drainNetEvents deps order st events).page [] := by
  apply reports_finishDrain
  apply drainEvents_induction deps
    (motive := fun _ acc => page.Reports acc.st.page acc.collectedErrors) st h
  intro pk id _ acc e hacc
  exact reports_drainEvent deps hacc pk id e

/-! ### Calls -/

end AppState

/-- A call of the client's own exports, apart from `emit_error` and `dismiss_error`, in a document
whose failures are genuine. -/
def ClientOp.Own {lib : Libp2pIdentity} : ClientOp lib → Prop
  | .emitError _ | .dismissError _ => False
  | .init _ answers => answers.Genuine
  | _ => True

namespace AppState

variable {lib : Libp2pIdentity}

/-- Such a call reports what it has built and nothing else. -/
theorem reports_step (deps : Deps lib) {st st' : AppState lib} {op : ClientOp lib} (hop : op.Own)
    (h : step deps st op = .ok st') : st.page.Reports st'.page [] := by
  have hrefl := Page.Reports.refl st.page
  cases hdrains : op.drains with
  | true =>
    obtain ⟨order, events, rx, -, rfl⟩ := step_of_drains deps hdrains h
    exact reports_drainNetEvents deps hrefl order events
  | false =>
    cases op with
    | emitError | dismissError => cases hop
    | pendingBytes | recvBytes => cases hdrains
    | init configJson answers => cases h; exact reports_init deps hrefl configJson hop
    | publish topic bytes => cases h; exact reports_publish hrefl topic bytes
    | subscribeOpaque topic => cases h; exact reports_subscribeOpaque hrefl topic
    | sendChat value now => cases h; exact reports_sendChat deps hrefl value now
    | login json => cases h; exact reports_login deps hrefl json
    | driveEnded => cases h; exact hrefl

end AppState

end Laye
