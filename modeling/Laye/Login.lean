import Laye.Moves

/-!
# One login message

`handle_login_message` either leaves the own bindings, the table and the pending sends as they
are, or puts the binding it was handed in front of those of the other providers.
-/

namespace Laye

namespace AppState

variable {lib : Libp2pIdentity} (deps : Deps lib)

/-- What `handle_login_message` reads its text as. -/
def readMessage (json : String) : Except String BrokerMessageWire :=
  deps.serde.read BrokerMessageWire.ofJson (intoBytes json)

/-- The message is read, and is of another type than links are. -/
def Ignored (json : String) : Prop :=
  ∃ msg, readMessage deps json = .ok msg ∧ msg.type_ ≠ "laye/identity/link"

/-- The message carries a binding that verifies and claims the client's own key. -/
structure Linked (st : AppState lib) (json : String) (own : PubKey) (b : SignedBinding) :
    Prop where
  carried : readMessage deps json = .ok ⟨"laye/identity/link", some b⟩
  verifies : b.verify lib = .ok ()
  known : st.selfPubkey = some own
  claims : b.claim.peerPubkey = own

/-- The three ways a message goes through `handle_login_message`. -/
theorem checkLogin_cases (st : AppState lib) (json : String) :
    (∃ e, checkLogin deps st json = .error e ∧ ¬Ignored deps json) ∨
    (checkLogin deps st json = .ok none ∧ Ignored deps json) ∨
    (∃ own b, checkLogin deps st json = .ok (some (own, b)) ∧ Linked deps st json own b) := by
  have hcheck := checkLogin.eq_def deps st json
  simp only [throw, throwThe, MonadExceptOf.throw, bind, Except.bind, pure, Except.pure] at hcheck
  cases hread : deps.serde.read BrokerMessageWire.ofJson (intoBytes json) with
  | error why =>
    rw [hread] at hcheck
    refine Or.inl ⟨_, hcheck, ?_⟩
    rintro ⟨msg, hmsg, -⟩
    rw [readMessage, hread] at hmsg
    cases hmsg
  | ok msg =>
    have hignored : Ignored deps json ↔ msg.type_ ≠ "laye/identity/link" := by
      simp [Ignored, readMessage, hread]
    rw [hread] at hcheck
    simp only [Except.mapError] at hcheck
    by_cases htype : msg.type_ = "laye/identity/link"
    · have hlink : ¬Ignored deps json := fun h => hignored.mp h htype
      rw [if_neg (not_not.mpr htype)] at hcheck
      cases hsigned : msg.signed with
      | none =>
        simp only [hsigned] at hcheck
        exact Or.inl ⟨_, hcheck, hlink⟩
      | some b =>
        simp only [hsigned] at hcheck
        cases hverify : b.verify lib with
        | error e =>
          simp only [hverify] at hcheck
          exact Or.inl ⟨_, hcheck, hlink⟩
        | ok _ =>
          simp only [hverify] at hcheck
          cases hself : st.selfPubkey with
          | none =>
            simp only [hself] at hcheck
            exact Or.inl ⟨_, hcheck, hlink⟩
          | some own =>
            simp only [hself] at hcheck
            by_cases hclaim : b.claim.peerPubkey = own
            · have hcarried : readMessage deps json = .ok ⟨"laye/identity/link", some b⟩ := by
                rw [readMessage, hread, ← htype, ← hsigned]
              simp only [hclaim, ne_eq, not_true_eq_false, if_false] at hcheck
              exact Or.inr (Or.inr ⟨own, b, hcheck, hcarried, hverify, hself, hclaim⟩)
            · simp only [ne_eq, hclaim, not_false_eq_true, if_true] at hcheck
              exact Or.inl ⟨_, hcheck, hlink⟩
    · rw [if_pos htype] at hcheck
      exact Or.inr (Or.inl ⟨hcheck, hignored.mpr htype⟩)

/-- What a login leaves alone that is refused or ignored. -/
structure LoginUntouched (st st' : AppState lib) : Prop where
  selfBindings : st'.selfBindings = st.selfBindings
  bindings : st'.bindings = st.bindings
  pendingSends : st'.pendingSends = st.pendingSends

/-- No two of the bindings are with one provider. -/
def OneEachProvider (bindings : List SignedBinding) : Prop :=
  (bindings.map fun b => b.claim.provider).Nodup

/-- What an accepted login of `b` does to the own bindings and the table. -/
structure LoginPlaced (st st' : AppState lib) (own : PubKey) (b : SignedBinding) : Prop where
  selfBindings : st'.selfBindings =
    b :: st.selfBindings.filter (fun old => old.claim.provider != b.claim.provider)
  entry : st'.bindings own = some st'.selfBindings
  others : ∀ pk ≠ own, st'.bindings pk = st.bindings pk
  providers : OneEachProvider st.selfBindings → OneEachProvider st'.selfBindings

lemma OneEachProvider.replace {bindings : List SignedBinding} (h : OneEachProvider bindings)
    (b : SignedBinding) : OneEachProvider
      (b :: bindings.filter (fun old => old.claim.provider != b.claim.provider)) := by
  have hkept : List.Sublist
      ((bindings.filter (fun old => old.claim.provider != b.claim.provider)).map
        fun old => old.claim.provider)
      (bindings.map fun old => old.claim.provider) := List.filter_sublist.map _
  apply List.nodup_cons.mpr
  constructor
  · intro hmem
    obtain ⟨old, hold, hprovider⟩ := List.mem_map.mp hmem
    have hne := (List.mem_filter.mp hold).2
    exact bne_iff_ne.mp hne hprovider
  · exact h.sublist hkept

lemma loginPlaced_acceptLogin (st : AppState lib) (own : PubKey) (b : SignedBinding) :
    LoginPlaced st (st.acceptLogin own b) own b where
  selfBindings := rfl
  entry := HashMap.insert_self _ _ _
  others _ hpk := HashMap.insert_of_ne _ _ hpk
  providers h := h.replace b

/-- Sending the bindings out and drawing them changes neither them nor the table. -/
lemma LoginPlaced.of_quiet {st st₁ st' : AppState lib} {own : PubKey} {b : SignedBinding}
    (h : LoginPlaced st st₁ own b) (hquiet : Quiet st₁ st') : LoginPlaced st st' own b := by
  refine ⟨?_, ?_, ?_, ?_⟩
  · rw [hquiet.selfBindings, h.selfBindings]
  · rw [hquiet.bindings, hquiet.selfBindings, h.entry]
  · intro pk hpk
    rw [hquiet.bindings, h.others pk hpk]
  · rw [hquiet.selfBindings]
    exact h.providers

lemma checkLogin_of_linked {st : AppState lib} {json : String} {own : PubKey} {b : SignedBinding}
    (h : Linked deps st json own b) : checkLogin deps st json = .ok (some (own, b)) := by
  obtain ⟨hcarried, hverifies, hknown, hclaims⟩ := h
  rw [readMessage] at hcarried
  simp [checkLogin, hcarried, hverifies, hknown, hclaims, bind, Except.bind, Except.mapError, pure,
    Except.pure]

/-- A link for the client's own key is put in its place. -/
lemma handleLoginMessage_of_linked {st : AppState lib} {json : String} {own : PubKey}
    {b : SignedBinding} (h : Linked deps st json own b) :
    (handleLoginMessage deps st json).1 = none ∧
      LoginPlaced st (handleLoginMessage deps st json).2 own b := by
  have hresult : handleLoginMessage deps st json = (none, (republishSelfBindings deps
      (st.acceptLogin own b)).updateLoginButton.renderChat.renderErrors) := by
    simp only [handleLoginMessage, checkLogin_of_linked deps h]
  have hplaced := (loginPlaced_acceptLogin st own b).of_quiet
    (quiet_acceptedLogin deps (st.acceptLogin own b))
  rw [hresult]
  exact ⟨rfl, hplaced⟩

lemma handleLoginMessage_of_error {st : AppState lib} {json : String} {e : Failure}
    (h : checkLogin deps st json = .error e) : (handleLoginMessage deps st json).1.isSome ∧
      LoginUntouched st (handleLoginMessage deps st json).2 := by
  have hresult : handleLoginMessage deps st json = st.failWith e := by
    simp only [handleLoginMessage, h]
  rw [hresult]
  exact ⟨rfl, rfl, rfl, rfl⟩

/-- All or nothing; and a link for the client's own key is taken. -/
theorem handleLoginMessage_all_or_nothing (st : AppState lib) (json : String) :
    (((handleLoginMessage deps st json).1.isSome ∨ Ignored deps json) →
      LoginUntouched st (handleLoginMessage deps st json).2) ∧
    (¬((handleLoginMessage deps st json).1.isSome ∨ Ignored deps json) →
      ∃ own b, Linked deps st json own b ∧
        LoginPlaced st (handleLoginMessage deps st json).2 own b) ∧
    ∀ own b, Linked deps st json own b → (handleLoginMessage deps st json).1 = none ∧
      LoginPlaced st (handleLoginMessage deps st json).2 own b := by
  rw [← and_assoc]
  refine ⟨?_, fun own b hlinked => handleLoginMessage_of_linked deps hlinked⟩
  rcases checkLogin_cases deps st json with ⟨e, hcheck, -⟩ | ⟨hcheck, hignored⟩ | ⟨own, b, -, hlinked⟩
  · obtain ⟨hsome, huntouched⟩ := handleLoginMessage_of_error deps hcheck
    exact ⟨fun _ => huntouched, fun h => absurd (Or.inl hsome) h⟩
  · have hresult : handleLoginMessage deps st json = (none, st) := by
      simp only [handleLoginMessage, hcheck]
    rw [hresult]
    exact ⟨fun _ => ⟨rfl, rfl, rfl⟩, fun h => absurd (Or.inr hignored) h⟩
  · obtain ⟨hnone, hplaced⟩ := handleLoginMessage_of_linked deps hlinked
    have haccepted : ¬((handleLoginMessage deps st json).1.isSome ∨ Ignored deps json) := by
      rintro (h | ⟨msg, hmsg, htype⟩)
      · rw [hnone] at h
        cases h
      · rw [hlinked.carried] at hmsg
        cases hmsg
        exact htype rfl
    exact ⟨fun h => absurd h haccepted, fun _ => ⟨own, b, hlinked, hplaced⟩⟩

end AppState

end Laye
