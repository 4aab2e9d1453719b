import Laye.Binding

/-!
# The relay's cache of OAuth flows

A flow waits under its `state` between the start request and the callback, a signed binding
under the same `state` between the callback and the page that fetches it. Entries older than
`FLOW_TTL` are dropped on every access.
-/

namespace Laye

/-- An ES256 key (`p256::ecdsa::SigningKey`), as its scalar bytes. -/
structure SigningKey where
  scalar : Bytes
deriving DecidableEq

/-- `std::time::Instant` and `std::time::Duration`, in nanoseconds. -/
abbrev Instant := Nat

abbrev Duration := Nat

/-- `Instant::duration_since`, which saturates. -/
def Instant.durationSince (now earlier : Instant) : Duration := now - earlier

def FLOW_TTL : Duration := 600 * 1000000000

structure AuthServerMetadata where
  issuer : String
  authorizationEndpoint : String
  tokenEndpoint : String
  pushedAuthorizationRequestEndpoint : String
deriving DecidableEq

structure FlowState where
  peerPubkeyHex : String
  handle : String
  did : String
  authMeta : AuthServerMetadata
  dpopKey : SigningKey
  pkceVerifier : String
  dpopNonceAuth : Option String
  createdAt : Instant
deriving DecidableEq

structure ResultState where
  signed : SignedBinding
  createdAt : Instant

/-- `HashMap::retain` -/
def HashMap.retain {κ ν : Type} (keep : ν → Bool) (m : HashMap κ ν) : HashMap κ ν :=
  fun k => (m k).filter keep

lemma HashMap.retain_eq_some {κ ν : Type} {keep : ν → Bool} {m : HashMap κ ν} {k : κ} {v : ν} :
    m.retain keep k = some v ↔ m k = some v ∧ keep v = true := by
  simp [HashMap.retain, Option.filter_eq_some_iff]

structure FlowCacheInner where
  flows : HashMap String FlowState
  results : HashMap String ResultState

namespace FlowCacheInner

def new : FlowCacheInner := ⟨HashMap.empty, HashMap.empty⟩

def fresh (now createdAt : Instant) : Bool := now.durationSince createdAt < FLOW_TTL

def gc (now : Instant) (inner : FlowCacheInner) : FlowCacheInner where
  flows := inner.flows.retain (fun f => fresh now f.createdAt)
  results := inner.results.retain (fun r => fresh now r.createdAt)

def insertFlow (now : Instant) (state : String) (flow : FlowState) (inner : FlowCacheInner) :
    FlowCacheInner :=
  { inner.gc now with flows := (inner.gc now).flows.insert state flow }

def takeFlow (now : Instant) (state : String) (inner : FlowCacheInner) :
    Option FlowState × FlowCacheInner :=
  ((inner.gc now).flows state, { inner.gc now with flows := (inner.gc now).flows.remove state })

/-- `createdAt` is read after the clean-up, at an instant of its own. -/
def insertResult (now createdAt : Instant) (state : String) (signed : SignedBinding)
    (inner : FlowCacheInner) : FlowCacheInner :=
  { inner.gc now with results := (inner.gc now).results.insert state ⟨signed, createdAt⟩ }

def getResult (now : Instant) (state : String) (inner : FlowCacheInner) :
    Option SignedBinding × FlowCacheInner :=
  (((inner.gc now).results state).map ResultState.signed, inner.gc now)

/-! ### What an access leaves of the flows -/

lemma gc_flows_eq_some {now : Instant} {inner : FlowCacheInner} {state : String}
    {flow : FlowState} : (inner.gc now).flows state = some flow ↔
      inner.flows state = some flow ∧ now.durationSince flow.createdAt < FLOW_TTL := by
  simp [gc, HashMap.retain_eq_some, fresh]

lemma insertFlow_flows_self (now : Instant) (state : String) (flow : FlowState)
    (inner : FlowCacheInner) : (inner.insertFlow now state flow).flows state = some flow := by
  simp [insertFlow]

lemma flows_of_insertFlow {now : Instant} {state other : String} {flow kept : FlowState}
    {inner : FlowCacheInner} (hne : other ≠ state)
    (h : (inner.insertFlow now state flow).flows other = some kept) :
    inner.flows other = some kept := by
  rw [insertFlow] at h
  simp only [HashMap.insert_of_ne _ _ hne] at h
  exact (gc_flows_eq_some.mp h).1

lemma takeFlow_eq_some {now : Instant} {state : String} {flow : FlowState}
    {inner : FlowCacheInner} : (inner.takeFlow now state).1 = some flow ↔
      inner.flows state = some flow ∧ now.durationSince flow.createdAt < FLOW_TTL :=
  gc_flows_eq_some

/-- A taken flow is gone. -/
lemma takeFlow_flows_self (now : Instant) (state : String) (inner : FlowCacheInner) :
    (inner.takeFlow now state).2.flows state = none := by
  simp [takeFlow]

lemma flows_of_takeFlow {now : Instant} {state other : String} {kept : FlowState}
    {inner : FlowCacheInner} (h : (inner.takeFlow now state).2.flows other = some kept) :
    inner.flows other = some kept := by
  by_cases hne : other = state
  · subst hne
    rw [takeFlow_flows_self] at h
    cases h
  · rw [takeFlow] at h
    simp only [HashMap.remove_of_ne _ hne] at h
    exact (gc_flows_eq_some.mp h).1

lemma flows_of_insertResult {now createdAt : Instant} {state other : String}
    {signed : SignedBinding} {kept : FlowState} {inner : FlowCacheInner}
    (h : (inner.insertResult now createdAt state signed).flows other = some kept) :
    inner.flows other = some kept :=
  (gc_flows_eq_some.mp h).1

lemma flows_of_getResult {now : Instant} {state other : String} {kept : FlowState}
    {inner : FlowCacheInner} (h : (inner.getResult now state).2.flows other = some kept) :
    inner.flows other = some kept :=
  (gc_flows_eq_some.mp h).1

end FlowCacheInner

end Laye
