import Laye.Calls

/-!
# Logins in several tabs

Every tab of a profile keeps the own bindings in memory, from what it read at `init` on, and an
accepted login writes the tab's whole list back.
-/

namespace Laye

/-! ### The tabs and what they store -/

/-- A tab, with what the last read of the stored bindings gave it. -/
structure Tab (lib : Libp2pIdentity) where
  st : AppState lib
  loaded : List SignedBinding

/-- The tabs and the list whose JSON is in IndexedDB. The logins that were accepted are recorded,
in order; no function reads them. -/
structure Browser (lib : Libp2pIdentity) where
  tabs : List (Tab lib)
  stored : List SignedBinding
  logins : List SignedBinding

/-- The read transaction of an `init` and the rest of it are apart. -/
inductive BrowserOp (lib : Libp2pIdentity)
  | openTab (dom : DomContext)
  | idbLoadBindings (tab : Nat)
  | call (tab : Nat) (op : ClientOp lib)

/-- An `init` whose read succeeds goes on with what was read. -/
def ClientOp.reading {lib : Libp2pIdentity} (loaded : List SignedBinding) :
    ClientOp lib → ClientOp lib
  | .init configJson answers => .init configJson
    { answers with idbLoadBindings := answers.idbLoadBindings.map fun _ => loaded }
  | op => op

/-- The binding a call accepts as a login. -/
def AppState.accepted {lib : Libp2pIdentity} (deps : Deps lib) (st : AppState lib) :
    ClientOp lib → Option SignedBinding
  | .login json =>
    match AppState.checkLogin deps st json with
    | .ok (some (_, binding)) => some binding
    | _ => none
  | _ => none

namespace Browser

variable {lib : Libp2pIdentity} (deps : Deps lib)

def start (stored : List SignedBinding) : Browser lib := ⟨[], stored, []⟩

/-- A login persists at once what the tab has then. -/
def step (B : Browser lib) : BrowserOp lib → Except Fault (Browser lib)
  | .openTab dom => .ok { B with tabs := B.tabs ++ [⟨.start dom, []⟩] }
  | .idbLoadBindings i =>
    match B.tabs[i]? with
    | some tab => .ok { B with tabs := B.tabs.set i { tab with loaded := B.stored } }
    | none => .ok B
  | .call i op =>
    match B.tabs[i]? with
    | none => .ok B
    | some tab => do
      let st ← AppState.step deps tab.st (op.reading tab.loaded)
      let tabs := B.tabs.set i { tab with st }
      match AppState.accepted deps tab.st op with
      | some binding => return ⟨tabs, st.selfBindings, B.logins ++ [binding]⟩
      | none => return { B with tabs }

def run : Browser lib → List (BrowserOp lib) → Except Fault (Browser lib)
  | B, [] => .ok B
  | B, op :: ops => do
    let B ← step deps B op
    run B ops

lemma run_snoc (B : Browser lib) (ops : List (BrowserOp lib)) (op : BrowserOp lib) :
    run deps B (ops ++ [op]) = run deps B ops >>= fun B => step deps B op := by
  induction ops generalizing B with
  | nil =>
    simp only [List.nil_append, run, bind, Except.bind]
    cases step deps B op <;> rfl
  | cons first ops ih =>
    simp only [List.cons_append, run, bind, Except.bind]
    cases step deps B first with
    | error e => rfl
    | ok B' => exact ih B'

/-- The last login with a provider. -/
def latestLogin (provider : String) (logins : List SignedBinding) : Option SignedBinding :=
  (logins.filter (fun b => b.claim.provider == provider)).getLast?

lemma latestLogin_self (logins : List SignedBinding) (b : SignedBinding) :
    latestLogin b.claim.provider (logins ++ [b]) = some b := by
  simp [latestLogin, List.filter_append]

lemma latestLogin_other (logins : List SignedBinding) {b : SignedBinding} {provider : String}
    (h : provider ≠ b.claim.provider) :
    latestLogin provider (logins ++ [b]) = latestLogin provider logins := by
  have hne : (b.claim.provider == provider) = false := beq_eq_false_iff_ne.mpr (Ne.symm h)
  simp [latestLogin, List.filter_append, hne]

lemma latestLogin_provider {logins : List SignedBinding} {b : SignedBinding} {provider : String}
    (h : latestLogin provider logins = some b) : b.claim.provider = provider := by
  have hmem := List.mem_of_getLast? h
  exact beq_iff_eq.mp (List.mem_filter.mp hmem).2

/-- The stored list has the last login with every provider. -/
def LoginsKept (B : Browser lib) : Prop :=
  ∀ provider b, latestLogin provider B.logins = some b → b ∈ B.stored

/-- The tab has the last login with every provider but that of `b`. -/
def Informed (B : Browser lib) (st : AppState lib) (b : SignedBinding) : Prop :=
  ∀ provider ≠ b.claim.provider, ∀ l, latestLogin provider B.logins = some l → l ∈ st.selfBindings

/-- What an accepted login leaves in the tab. -/
lemma selfBindings_login {st st' : AppState lib} {op : ClientOp lib} {b : SignedBinding}
    (hlogin : AppState.accepted deps st op = some b) (loaded : List SignedBinding)
    (h : AppState.step deps st (op.reading loaded) = .ok st') :
    st'.selfBindings = b :: st.selfBindings.filter (fun l => l.claim.provider != b.claim.provider) := by
  cases op with
  | login json =>
    cases h
    cases hcheck : AppState.checkLogin deps st json with
    | error e => simp [AppState.accepted, hcheck] at hlogin
    | ok link =>
      cases link with
      | none => simp [AppState.accepted, hcheck] at hlogin
      | some link =>
        obtain ⟨self, binding⟩ := link
        obtain rfl : binding = b := by simpa [AppState.accepted, hcheck] using hlogin
        rw [AppState.login, AppState.selfBindings_surfaced]
        simp only [AppState.handleLoginMessage, hcheck]
        exact (AppState.quiet_acceptedLogin deps (st.acceptLogin self binding)).selfBindings
  | _ => cases hlogin

/-- Exactly when a login keeps what others have stored: the tab knew of it. -/
lemma loginsKept_login_iff {B : Browser lib} {st : AppState lib} {b : SignedBinding}
    (tabs : List (Tab lib)) :
    LoginsKept ⟨tabs, b :: st.selfBindings.filter (fun l => l.claim.provider != b.claim.provider),
      B.logins ++ [b]⟩ ↔ Informed B st b := by
  constructor
  · intro h provider hne l hl
    have hkept := h provider l ((latestLogin_other B.logins hne).trans hl)
    rcases List.mem_cons.mp hkept with rfl | hmem
    · exact absurd (latestLogin_provider hl).symm hne
    · exact (List.mem_filter.mp hmem).1
  · intro h provider l hl
    by_cases hne : provider = b.claim.provider
    · subst hne
      rw [latestLogin_self] at hl
      rw [← Option.some.inj hl]
      exact List.mem_cons_self
    · rw [latestLogin_other _ hne] at hl
      have hprovider := latestLogin_provider hl
      refine List.mem_cons_of_mem _ (List.mem_filter.mpr ⟨h provider hne l hl, ?_⟩)
      rw [hprovider]
      simpa using hne

/-- An accepted login keeps all logins exactly when its tab is informed. -/
lemma step_accepted {B : Browser lib} {i : Nat} {call : ClientOp lib} {tab : Tab lib}
    {b : SignedBinding} (htab : B.tabs[i]? = some tab)
    (hlogin : AppState.accepted deps tab.st call = some b) :
    ∃ st, step deps B (.call i call) =
        .ok ⟨B.tabs.set i { tab with st }, st.selfBindings, B.logins ++ [b]⟩ ∧
      (LoginsKept ⟨B.tabs.set i { tab with st }, st.selfBindings, B.logins ++ [b]⟩ ↔
        Informed B tab.st b) := by
  obtain ⟨st, hst⟩ : ∃ st, AppState.step deps tab.st (call.reading tab.loaded) = .ok st := by
    cases call with
    | login json => exact ⟨_, rfl⟩
    | _ => cases hlogin
  refine ⟨st, ?_, ?_⟩
  · simp only [step, htab, hst, hlogin, bind, Except.bind]
    rfl
  · rw [selfBindings_login deps hlogin tab.loaded hst]
    exact loginsKept_login_iff _

/-- A step is an accepted login, or leaves the stored list and the logins alone. -/
lemma step_ok {B B' : Browser lib} {op : BrowserOp lib} (h : step deps B op = .ok B') :
    (B'.stored = B.stored ∧ B'.logins = B.logins) ∨
      ∃ i call tab b, op = .call i call ∧ B.tabs[i]? = some tab ∧
        AppState.accepted deps tab.st call = some b := by
  cases op with
  | openTab dom =>
    cases h
    exact Or.inl ⟨rfl, rfl⟩
  | idbLoadBindings i =>
    simp only [step] at h
    split at h <;> cases h <;> exact Or.inl ⟨rfl, rfl⟩
  | call i call =>
    simp only [step] at h
    split at h
    · cases h
      exact Or.inl ⟨rfl, rfl⟩
    · rename_i tab htab
      cases hlogin : AppState.accepted deps tab.st call with
      | some b => exact Or.inr ⟨i, call, tab, b, rfl, htab, hlogin⟩
      | none =>
        simp only [hlogin, bind, Except.bind] at h
        split at h
        · cases h
        · cases h
          exact Or.inl ⟨rfl, rfl⟩

/-- In every run of any number of tabs: the last login with every provider is stored all along,
exactly when every login is made in a tab that has the last logins with all other providers. -/
theorem logins_kept_iff (stored : List SignedBinding) (ops : List (BrowserOp lib)) :
    (∀ pre, pre <+: ops → ∀ B, run deps (start stored) pre = .ok B → LoginsKept B) ↔
    ∀ pre i call, pre ++ [.call i call] <+: ops → ∀ B tab b,
      run deps (start stored) pre = .ok B → B.tabs[i]? = some tab →
        AppState.accepted deps tab.st call = some b → Informed B tab.st b := by
  constructor
  · intro h pre i call hpre B tab b hrun htab hlogin
    obtain ⟨st, hstep, hiff⟩ := step_accepted deps htab hlogin
    refine hiff.mp (h _ hpre _ ?_)
    rw [run_snoc, hrun]
    exact hstep
  · intro h pre hpre
    induction pre using List.reverseRecOn with
    | nil =>
      intro B hrun
      cases hrun
      intro provider b hb
      cases hb
    | append_singleton pre op ih =>
      intro B' hrun
      rw [run_snoc, bind_eq_ok] at hrun
      obtain ⟨B, hbefore, hlast⟩ := hrun
      rcases step_ok deps hlast with ⟨hstored, hlogins⟩ | ⟨i, call, tab, b, rfl, htab, hlogin⟩
      · have hkept := ih ((List.prefix_append _ _).trans hpre) B hbefore
        rwa [LoginsKept, hstored, hlogins]
      · obtain ⟨st, hstep, hiff⟩ := step_accepted deps htab hlogin
        obtain rfl := Except.ok.inj (hlast.symm.trans hstep)
        exact hiff.mpr (h pre i call hpre B tab b hbefore htab hlogin)

lemma ofJson_link (b : SignedBinding) :
    AppState.BrokerMessageWire.ofJson (.object [("type", .string "laye/identity/link"),
      ("signed", b.toJson)]) = some ⟨"laye/identity/link", some b⟩ := by
  have hread := SignedBinding.ofJson_toJson b
  simp only [SignedBinding.toJson] at hread ⊢
  simp [AppState.BrokerMessageWire.ofJson, Json.structFields, Json.stringField, hread]

/-- A broker message with a binding that verifies and is about the client's own key. -/
lemma accepted_link {st : AppState lib} {json : String} {b : SignedBinding}
    (hread : deps.serde.read AppState.BrokerMessageWire.ofJson (intoBytes json) =
      .ok ⟨"laye/identity/link", some b⟩)
    (hverify : b.verify lib = .ok ()) (hself : st.selfPubkey = some b.claim.peerPubkey) :
    AppState.accepted deps st (.login json) = some b := by
  have hcheck : AppState.checkLogin deps st json = .ok (some (b.claim.peerPubkey, b)) := by
    simp [AppState.checkLogin, hread, hverify, hself, bind, Except.bind, Except.mapError, pure,
      Except.pure]
  simp [AppState.accepted, hcheck]

/-- A login in a tab that has no bindings loses the one before. -/
lemma drops_login {stored : List SignedBinding} {pre : List (BrowserOp lib)} {B : Browser lib}
    (hrun : run deps (start stored) pre = .ok B) {i j : Nat} {first second : ClientOp lib}
    {tab tab' : Tab lib} {b b' : SignedBinding} (hij : i ≠ j) (hi : B.tabs[i]? = some tab)
    (hj : B.tabs[j]? = some tab') (hfirst : AppState.accepted deps tab.st first = some b)
    (hsecond : AppState.accepted deps tab'.st second = some b')
    (hprovider : b.claim.provider ≠ b'.claim.provider) (hnone : tab'.st.selfBindings = []) :
    ∃ B', run deps (start stored) (pre ++ [.call i first] ++ [.call j second]) = .ok B' ∧
      ¬LoginsKept B' := by
  obtain ⟨st, hstep, -⟩ := step_accepted deps hi hfirst
  obtain ⟨B₁, hB₁⟩ : ∃ B₁ : Browser lib,
      B₁ = ⟨B.tabs.set i { tab with st }, st.selfBindings, B.logins ++ [b]⟩ := ⟨_, rfl⟩
  have hj' : B₁.tabs[j]? = some tab' := by
    rw [hB₁, List.getElem?_set_ne hij]
    exact hj
  obtain ⟨st', hstep', hiff⟩ := step_accepted deps hj' hsecond
  have hafter : run deps (start stored) (pre ++ [.call i first]) = .ok B₁ := by
    rw [run_snoc, hrun, hB₁]
    exact hstep
  refine ⟨⟨B₁.tabs.set j { tab' with st := st' }, st'.selfBindings, B₁.logins ++ [b']⟩, ?_,
    fun hkept => ?_⟩
  · rw [run_snoc, hafter]
    exact hstep'
  · have hlatest : latestLogin b.claim.provider B₁.logins = some b := by
      rw [hB₁]
      exact latestLogin_self _ _
    have hmem := hiff.mp hkept _ hprovider b hlatest
    rw [hnone] at hmem
    cases hmem

/-- Two tabs start before anybody has logged in; a login in the one is lost by a login in the
other. -/
theorem second_tab_drops_login :
    let key := PubKey.replicate 7
    let relay := PubKey.replicate 1
    let claim (provider : String) : BindingClaim := ⟨key, provider, "id", some "@a", 0⟩
    let binding (provider : String) : SignedBinding :=
      ⟨claim provider, relay.bytes ++ (claim provider).canonicalBytes, relay⟩
    let lib := Libp2pIdentity.recorded
      [(relay, (claim "mastodon").canonicalBytes), (relay, (claim "atproto").canonicalBytes)]
    let link (provider : String) := Json.object [("type", .string "laye/identity/link"),
      ("signed", (binding provider).toJson)]
    let deps : Deps lib := { Deps.plain (.ofTexts [
        (intoBytes "config", .object [("bootstrap_addrs", .array [])]),
        (intoBytes "m", link "mastodon"), (intoBytes "a", link "atproto")]) (fun _ => none) with
      loadKeypair _ := .ok key }
    let answers := { (AppState.InitAnswers.firstVisit key : AppState.InitAnswers lib) with
      idbLoadBytes := .ok (some key.bytes) }
    let ops : List (BrowserOp lib) := [.openTab .document, .openTab .document,
      .idbLoadBindings 0, .call 0 (.init "config" answers),
      .idbLoadBindings 1, .call 1 (.init "config" answers),
      .call 0 (.login "m"), .call 1 (.login "a")]
    ¬∀ pre, pre <+: ops → ∀ B, run deps (start []) pre = .ok B → LoginsKept B := by
  intro key relay claim binding lib link deps answers ops h
  obtain ⟨B, tab₀, tab₁, hrun, h₀, h₁, hnone, hself₀, hself₁, hown⟩ : ∃ B tab₀ tab₁,
      run deps (start []) [.openTab .document, .openTab .document, .idbLoadBindings 0,
        .call 0 (.init "config" answers), .idbLoadBindings 1,
        .call 1 (.init "config" answers)] = .ok B ∧
      B.tabs[0]? = some tab₀ ∧ B.tabs[1]? = some tab₁ ∧ B.logins = [] ∧
      tab₀.st.selfPubkey = some key ∧ tab₁.st.selfPubkey = some key ∧ tab₁.st.selfBindings = [] :=
    ⟨_, _, _, rfl, rfl, rfl, rfl, rfl, rfl, rfl⟩
  have hverify : ∀ provider, (relay, (claim provider).canonicalBytes) ∈
      [(relay, (claim "mastodon").canonicalBytes), (relay, (claim "atproto").canonicalBytes)] →
      (binding provider).verify lib = .ok () := by
    intro provider hmem
    rw [SignedBinding.verify, verifyUnder_ok_iff, recorded_verify]
    exact ⟨rfl, hmem, rfl⟩
  have hlogin₀ : AppState.accepted deps tab₀.st (.login "m") = some (binding "mastodon") :=
    accepted_link deps (SerdeJson.read_ofTexts rfl (ofJson_link _)) (hverify _ (by simp)) hself₀
  have hlogin₁ : AppState.accepted deps tab₁.st (.login "a") = some (binding "atproto") :=
    accepted_link deps (SerdeJson.read_ofTexts rfl (ofJson_link _)) (hverify _ (by simp)) hself₁
  obtain ⟨B', hafter, hlost⟩ := drops_login deps hrun (by decide) h₀ h₁ hlogin₀ hlogin₁
    (by decide) hown
  exact hlost (h ops (List.prefix_refl _) B' hafter)

end Browser

end Laye
