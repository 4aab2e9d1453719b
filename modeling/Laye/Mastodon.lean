import Laye.SignEndpoint

/-!
# What a Mastodon signature attests

The signed `canonical_id` is the `url` of some server's answer, and the signed handle is whatever
the request says. Neither the handle nor the server that was asked is compared with anything.
-/

namespace Laye

open Interaction

/-- How the surroundings of one request behave: the server, the clock, the signing key. -/
abbrev Env := (o : RelayOp) → Option o.Ans

/-- `handle_sign` succeeds on `body`, having asked a server `query`, had the account described
by `actor`, and signed `claim`. -/
def Issues (d : RelayDeps) (env : Env) (body : Bytes) (claim : BindingClaim) (query : HttpRequest)
    (actor : Json) : Prop :=
  ∃ tr out resp signature, Returns (handleSign d body) tr out ∧ Follows env tr ∧
    ⟨.send query, .ok resp⟩ ∈ tr ∧ resp.json = .ok actor ∧ ⟨.sign claim, .ok signature⟩ ∈ tr

/-- The body is a request that passes every check, in surroundings where nothing fails. -/
structure Acceptable (d : RelayDeps) (env : Env) (body : Bytes) (req : SignRequest)
    (peer : PubKey) (actor : Json) (now : Option UInt64) : Prop where
  client : env .buildClient = some (.ok ())
  answer : ∃ resp, env (.send req.verifyCredentials) = some (.ok resp) ∧
    Accepts d body resp req peer actor
  clock : env .unixTime = some now
  signs : ∃ signature, env (.sign (req.claim peer now)) = some (.ok signature)
  signer : ∃ key, d.lib.tryIntoEd25519 d.keypair = .ok key

section

variable {d : RelayDeps} {env env' : Env} {body body' : Bytes}

lemma issues_iff {claim : BindingClaim} {query : HttpRequest} {actor : Json} :
    Issues d env body claim query actor ↔
      ∃ req peer now, Acceptable d env body req peer actor now ∧ claim = req.claim peer now ∧
        query = req.verifyCredentials := by
  simp only [Issues, returns_handleSign_iff]
  constructor
  · rintro ⟨_, _, resp', sig', ⟨resp, req, peer, actor', now, signature, signer, hacc, hsigner,
      rfl, rfl⟩, hfollows, hsend, hjson, hsign⟩
    simp only [follows_cons_iff] at hfollows
    obtain ⟨hclient, hanswer, hclock, hsigns, _⟩ := hfollows
    simp only [List.mem_cons, Event.mk.injEq, RelayOp.send.injEq, RelayOp.sign.injEq, reduceCtorEq,
      false_and, List.not_mem_nil, or_false, false_or] at hsend hsign
    obtain ⟨rfl, hresp⟩ := hsend
    obtain ⟨rfl, _⟩ := hsign
    have hr : resp' = resp := by simpa using hresp
    rw [hr, hacc.json] at hjson
    cases hjson
    exact ⟨req, peer, now, ⟨hclient, ⟨resp, hanswer, hacc⟩, hclock, ⟨signature, hsigns⟩,
      ⟨signer, hsigner⟩⟩, rfl, rfl⟩
  · rintro ⟨req, peer, now, ⟨hclient, ⟨resp, hanswer, hacc⟩, hclock, ⟨signature, hsigns⟩,
      ⟨signer, hsigner⟩⟩, rfl, rfl⟩
    refine ⟨_, _, resp, signature, ⟨resp, req, peer, actor, now, signature, signer, hacc, hsigner,
      rfl, rfl⟩, ?_, ?_, hacc.json, ?_⟩
    · simp [hclient, hanswer, hclock, hsigns]
    · simp
    · simp

end

/-! ### Servers -/

structure Host where
  name : String
  no_slash : '/' ∉ name.toList
deriving DecidableEq

/-- The web as the relay sees it: which host an URL names, and what a host replies to a token. -/
structure Web where
  hostOf : String → Option Host
  reply : Host → String → Except String HttpResponse

def Web.answer (web : Web) (req : HttpRequest) : Except String HttpResponse :=
  match web.hostOf req.url with
  | none => .error "builder error"
  | some host => web.reply host (req.bearerAuth.getD "")

/-- The URL is one of `host`. -/
def OnHost (host : Host) (url : String) : Prop :=
  Str.startsWith url ("https://" ++ host.name ++ "/") = true

instance (host : Host) (url : String) : Decidable (OnHost host url) :=
  inferInstanceAs (Decidable (_ = true))

/-- Host names have no slash, so an URL is on one host at most. -/
lemma OnHost.unique {host host' : Host} {url : String} (h : OnHost host url)
    (h' : OnHost host' url) : host = host' := by
  unfold OnHost Str.startsWith at h h'
  simp only [String.toList_append, List.isPrefixOf_iff_prefix] at h h'
  obtain ⟨rest, hrest⟩ := h
  obtain ⟨rest', hrest'⟩ := h'
  have heq := hrest.trans hrest'.symm
  simp only [List.append_assoc, List.append_cancel_left_eq] at heq
  have hname := ((Delimited.append_sep_inj host.no_slash host'.no_slash).mp heq).1
  cases host
  cases host'
  cases String.toList_inj.mp hname
  rfl

/-- The host's replies describe accounts of its own only. -/
def Web.HonestHost (web : Web) (host : Host) : Prop :=
  ∀ token resp actor url, web.reply host token = .ok resp → resp.json = .ok actor →
    actorUrl actor = some url → OnHost host url

/-! ### Two servers and an account -/

namespace MastodonExample

def peer : PubKey := PubKey.replicate 7

/-- A request for `peer` that claims Alice's account. -/
def requestJson (handle host token : String) : Json :=
  .object [("peer_pubkey_hex", .string (hexLower peer.bytes)), ("provider", .string "mastodon"),
    ("canonical_id", .string "https://social.example/@alice"), ("handle", .string handle),
    ("mastodon_token", .string token), ("mastodon_instance", .string host)]

def request (handle host token : String) : SignRequest :=
  ⟨hexLower peer.bytes, "mastodon", "https://social.example/@alice", some handle, token, host⟩

def deps (texts : List (Bytes × Json)) : RelayDeps where
  lib := Libp2pIdentity.recorded []
  keypair := PubKey.replicate 1
  serde := SerdeJson.ofTexts texts
  hex := ⟨hexLower, hexDecode⟩
  crypto := ⟨fun _ => "", id, fun _ msg => msg, fun _ => (none, none)⟩
  statusText _ := ""
  cfg := ⟨"", "", ⟨[]⟩, ""⟩

def social : Host := ⟨"social.example", by decide⟩

def evil : Host := ⟨"evil.example", by decide⟩

def aliceJson : Json := .object [("url", .string "https://social.example/@alice")]

/-- Alice's token at `social.example` is `"alice"`; `evil.example` says of every token that it
is hers. -/
def web : Web where
  hostOf url :=
    if OnHost social url then some social else if OnHost evil url then some evil else none
  reply host token :=
    if host = evil ∨ (host = social ∧ token = "alice") then
      .ok ⟨200, none, .error "", .ok aliceJson, ""⟩
    else .ok ⟨401, none, .error "", .error "", ""⟩

def env : Env
  | .buildClient => some (.ok ())
  | .send req => some (web.answer req)
  | .unixTime => some (some 0)
  | .sign claim => some (.ok claim.canonicalBytes)
  | _ => none

lemma read_request {texts : List (Bytes × Json)} {body : Bytes} {handle host token : String}
    (hbody : texts.lookup body = some (requestJson handle host token)) :
    (deps texts).serde.read SignRequest.ofJson body = .ok (request handle host token) :=
  SerdeJson.read_ofTexts hbody rfl

lemma acceptable {texts : List (Bytes × Json)} {body : Bytes} {handle host token : String}
    {resp : HttpResponse} (hbody : texts.lookup body = some (requestJson handle host token))
    (hanswer : web.answer (request handle host token).verifyCredentials = .ok resp)
    (hsuccess : resp.isSuccess = true) (hjson : resp.json = .ok aliceJson) :
    Acceptable (deps texts) env body (request handle host token) peer aliceJson (some 0) where
  client := rfl
  answer := by
    refine ⟨resp, congrArg some hanswer, read_request hbody, rfl, ?_, hsuccess, hjson, rfl⟩
    simp [SignEndpoint.decodePeerPubkey, decodePubkey, deps, request, hexDecode_hexLower,
      peer.length_eq]
  clock := rfl
  signs := ⟨_, rfl⟩
  signer := ⟨_, rfl⟩

lemma social_honest : web.HonestHost social := by
  intro token resp actor url hreply hjson hurl
  simp only [web] at hreply
  split at hreply
  · cases hreply
    cases hjson
    cases hurl
    decide
  · cases hreply
    cases hjson

end MastodonExample

/-! ### Handles -/

section

variable {d : RelayDeps} {env env' : Env} {body body' : Bytes}

/-- The handle of a signed claim is absent or the one `account` reads off the answer. -/
def HandlesVerified (d : RelayDeps) (env : Env) (body : Bytes) (account : Json → Option String) :
    Prop :=
  ∀ claim query actor, Issues d env body claim query actor →
    claim.handle = none ∨ claim.handle = account actor

/-- Two requests for one key with the same question and the same answer do not get claims with
two different handles. -/
def OneHandle (d : RelayDeps) (env env' : Env) (body body' : Bytes) : Prop :=
  ∀ claim claim' query actor h h', Issues d env body claim query actor →
    Issues d env' body' claim' query actor → claim.peerPubkey = claim'.peerPubkey →
    claim.handle = some h → claim'.handle = some h' → h ≠ "" → h' ≠ "" → h = h'

/-- The handle is not checked: it is right exactly when the request's own is. -/
theorem handles_verified_iff (account : Json → Option String) :
    (HandlesVerified d env body account ↔
      ∀ req peer actor now, Acceptable d env body req peer actor now →
        req.handle = none ∨ req.handle = account actor) ∧
    (OneHandle d env env' body body' ↔
      ∀ req req' peer actor now now' h h', Acceptable d env body req peer actor now →
        Acceptable d env' body' req' peer actor now' →
        req.verifyCredentials = req'.verifyCredentials →
        req.handle = some h → req'.handle = some h' → h ≠ "" → h' ≠ "" → h = h') := by
  refine ⟨⟨?_, ?_⟩, ⟨?_, ?_⟩⟩
  · intro h req peer actor now hacc
    exact h (req.claim peer now) req.verifyCredentials actor
      (issues_iff.mpr ⟨req, peer, now, hacc, rfl, rfl⟩)
  · intro h claim query actor hissues
    obtain ⟨req, peer, now, hacc, rfl, rfl⟩ := issues_iff.mp hissues
    exact h req peer actor now hacc
  · intro h req req' peer actor now now' a a' hacc hacc' hquery
    exact h (req.claim peer now) (req'.claim peer now') req.verifyCredentials actor a a'
      (issues_iff.mpr ⟨req, peer, now, hacc, rfl, rfl⟩)
      (issues_iff.mpr ⟨req', peer, now', hacc', rfl, hquery⟩) rfl
  · intro h claim claim' query actor a a' hissues hissues' hpeer
    obtain ⟨req, peer, now, hacc, rfl, rfl⟩ := issues_iff.mp hissues
    obtain ⟨req', peer', now', hacc', rfl, hquery⟩ := issues_iff.mp hissues'
    have hpp : peer = peer' := hpeer
    subst hpp
    exact h req req' peer actor now now' a a' hacc hacc' hquery

end

/-- One account, one key, one question and one answer: the relay signs `"@a"` and `"@b"`. -/
theorem signs_two_handles_for_one_account :
    let d := MastodonExample.deps [([1], MastodonExample.requestJson "@a" "social.example" "alice"),
      ([2], MastodonExample.requestJson "@b" "social.example" "alice")]
    (¬∃ account, ∀ body, HandlesVerified d MastodonExample.env body account) ∧
      ¬OneHandle d MastodonExample.env MastodonExample.env [1] [2] := by
  intro d
  have ha : Issues d MastodonExample.env [1] _ _ MastodonExample.aliceJson := issues_iff.mpr
    ⟨MastodonExample.request "@a" "social.example" "alice", MastodonExample.peer, some 0,
      MastodonExample.acceptable rfl rfl rfl rfl, rfl, rfl⟩
  have hb : Issues d MastodonExample.env [2] _ _ MastodonExample.aliceJson := issues_iff.mpr
    ⟨MastodonExample.request "@b" "social.example" "alice", MastodonExample.peer, some 0,
      MastodonExample.acceptable rfl rfl rfl rfl, rfl, rfl⟩
  refine ⟨?_, ?_⟩
  · rintro ⟨account, h⟩
    have h1 : some "@a" = account MastodonExample.aliceJson :=
      (h [1] _ _ _ ha).resolve_left (fun h => by cases h)
    have h2 : some "@b" = account MastodonExample.aliceJson :=
      (h [2] _ _ _ hb).resolve_left (fun h => by cases h)
    exact absurd (h1.trans h2.symm) (by decide)
  · intro h
    have heq := h _ _ _ _ "@a" "@b" ha hb rfl rfl rfl (by decide) (by decide)
    exact absurd heq (by decide)

/-! ### Hosts -/

/-- A signed `canonical_id` on an honest host is that host's own reply to the request's token. -/
def VouchedByOwnServer (d : RelayDeps) (env : Env) (body : Bytes) (web : Web)
    (honest : Host → Prop) : Prop :=
  ∀ claim query actor host, Issues d env body claim query actor → honest host →
    OnHost host claim.canonicalId →
    ∃ req resp, d.serde.read SignRequest.ofJson body = .ok req ∧
      query = req.verifyCredentials ∧ web.hostOf query.url = some host ∧
      web.reply host req.mastodonToken = .ok resp ∧ resp.json = .ok actor ∧
      actorUrl actor = some claim.canonicalId

/-- The host that is asked is not compared with the claimed URL: an honest host's URLs are
vouched for by itself exactly when only honest hosts are asked about them. -/
theorem vouched_by_own_server_iff (d : RelayDeps) (env : Env) (body : Bytes) (web : Web)
    (honest : Host → Prop) (hserved : ∀ req, env (.send req) = some (web.answer req))
    (hhonest : ∀ host, honest host → web.HonestHost host) :
    VouchedByOwnServer d env body web honest ↔
      ∀ req peer actor now host, Acceptable d env body req peer actor now → honest host →
        OnHost host req.canonicalId →
        ∃ asked, web.hostOf req.verifyCredentials.url = some asked ∧ honest asked := by
  constructor
  · intro h req peer actor now host hacc hh hon
    obtain ⟨_, _, _, _, hhost, _⟩ := h (req.claim peer now) req.verifyCredentials actor host
      (issues_iff.mpr ⟨req, peer, now, hacc, rfl, rfl⟩) hh hon
    exact ⟨host, hhost, hh⟩
  · intro h claim query actor host hissues hh hon
    obtain ⟨req, peer, now, hacc, rfl, rfl⟩ := issues_iff.mp hissues
    obtain ⟨asked, hasked, hha⟩ := h req peer actor now host hacc hh hon
    obtain ⟨resp, hanswer, haccepts⟩ := hacc.answer
    have hreply : web.reply asked req.mastodonToken = .ok resp := by
      rw [hserved, Option.some.injEq, Web.answer, hasked] at hanswer
      exact hanswer
    have hown : OnHost asked req.canonicalId :=
      hhonest asked hha _ _ _ _ hreply haccepts.json haccepts.url
    have heq : asked = host := hown.unique hon
    subst heq
    exact ⟨req, resp, haccepts.read, rfl, hasked, hreply, haccepts.json, haccepts.url⟩

/-- `evil.example` is asked, and the relay signs for Alice's account at `social.example`. -/
theorem evil_host_vouches_for_alice :
    let d := MastodonExample.deps [([1], MastodonExample.requestJson "@a" "evil.example" "x")]
    MastodonExample.web.HonestHost MastodonExample.social ∧
      (∀ req, MastodonExample.env (.send req) = some (MastodonExample.web.answer req)) ∧
      ¬VouchedByOwnServer d MastodonExample.env [1] MastodonExample.web
        (· = MastodonExample.social) := by
  intro d
  refine ⟨MastodonExample.social_honest, fun _ => rfl, ?_⟩
  intro h
  obtain ⟨_, _, _, _, hhost, _⟩ := h _ _ MastodonExample.aliceJson MastodonExample.social
    (issues_iff.mpr ⟨MastodonExample.request "@a" "evil.example" "x", MastodonExample.peer, some 0,
      MastodonExample.acceptable rfl rfl rfl rfl, rfl, rfl⟩) rfl (by decide)
  exact absurd hhost (by decide)

/-- A request that has Alice's own server asked. -/
theorem vouched_by_own_server_iff_alice :
    VouchedByOwnServer
      (MastodonExample.deps [([1], MastodonExample.requestJson "@a" "social.example" "alice")])
      MastodonExample.env [1] MastodonExample.web (· = MastodonExample.social) := by
  refine (vouched_by_own_server_iff _ _ _ _ _ (fun _ => rfl) ?_).mpr ?_
  · rintro host rfl
    exact MastodonExample.social_honest
  · rintro req peer actor now host hacc rfl _
    obtain ⟨resp, _, haccepts⟩ := hacc.answer
    have hread := haccepts.read
    rw [MastodonExample.read_request rfl] at hread
    cases hread
    exact ⟨MastodonExample.social, by decide, rfl⟩

end Laye
