import Laye.Tabs

/-!
# The identity of the relay

`load_identity` in `crates/relaye/src/main.rs`: a relay finds its key pair in a file or in its
environment, or mints one. It is started again and again on one disk, and a start may fail or be cut
off anywhere.
-/

namespace Laye

open Interaction

/-! ### One start -/

/-- `RELAYE_IDENTITY_FILE` and `RELAYE_IDENTITY_BYTES`. -/
structure IdentityVars where
  file : Option String
  bytes : Option String

/-- What `load_identity` asks of the system. -/
inductive BootOp
  | fileExists (path : String)
  | readFile (path : String)
  | fresh
  | createDirAll (path : String)
  | writeFile (path : String) (bytes : Bytes)

@[reducible] def BootOp.Ans (lib : Libp2pIdentity) : BootOp → Type
  | .fileExists _ => Bool
  | .readFile _ => Except String Bytes
  | .fresh => lib.Keypair
  | .createDirAll _ => Except String Unit
  | .writeFile _ _ => Except String Unit

/-- A start fails with an error and the contexts around it, the outermost first. -/
abbrev Boot (lib : Libp2pIdentity) (α : Type) : Type :=
  Program BootOp (BootOp.Ans lib) (List String) α

abbrev BootEvent (lib : Libp2pIdentity) : Type := Event BootOp (BootOp.Ans lib)

/-- `Path::parent` and the base64 decoder, next to the other crates. -/
structure BootDeps (lib : Libp2pIdentity) extends Deps lib where
  parent : String → Option String
  b64Decode : String → Except String Bytes

namespace Boot

variable {lib : Libp2pIdentity}

def ask (o : BootOp) : Boot lib (o.Ans lib) := .op o .done

/-- An error with its context. -/
def context {α : Type} (text : String) (r : Except String α) : Boot lib α :=
  .ofExcept (r.mapError fun e => [text, e])

/-- An error of which only the text is kept. -/
def described {α : Type} (text : String) (r : Except String α) : Boot lib α :=
  .ofExcept (r.mapError fun e => [text ++ ": " ++ e])

variable (d : BootDeps lib)

def readIdentity (path : String) : Boot lib lib.Keypair := do
  let read ← ask (.readFile path)
  let bytes ← context ("read identity file " ++ d.debugString path) read
  described "decode identity from file" (d.loadKeypair bytes)

def makeParent (path : String) : Boot lib Unit :=
  match d.parent path with
  | some parent => do
    let made ← ask (.createDirAll parent)
    context ("create identity dir " ++ d.debugString parent) made
  | none => return ()

def mintIdentity (path : String) : Boot lib lib.Keypair := do
  let keypair ← ask .fresh
  let bytes ← described "encode fresh identity" (d.keypairBytes keypair)
  makeParent d path
  let written ← ask (.writeFile path bytes)
  context ("write identity file " ++ d.debugString path) written
  return keypair

def loadIdentity (vars : IdentityVars) : Boot lib lib.Keypair :=
  match vars.file with
  | some path => do
    let present ← ask (.fileExists path)
    if present then readIdentity d path else mintIdentity d path
  | none =>
    match vars.bytes with
    | some text => do
      let bytes ← context "RELAYE_IDENTITY_BYTES base64 decode" (d.b64Decode (Str.trim text))
      described "decode identity from env" (d.loadKeypair bytes)
    | none => ask .fresh

/-! ### The disk -/

/-- What the system answers, and what becomes of the files. A write that fails, or in which the
start is cut off, may leave a part of what it was to write. -/
def Serves (disk : HashMap String Bytes) : (o : BootOp) → o.Ans lib → HashMap String Bytes → Prop
  | .fileExists path, present, disk' => disk' = disk ∧ (present = true → (disk path).isSome)
  | .readFile path, read, disk' => disk' = disk ∧ ∀ bytes, read = .ok bytes → disk path = some bytes
  | .fresh, _, disk' => disk' = disk
  | .createDirAll _, _, disk' => disk' = disk
  | .writeFile path bytes, written, disk' =>
    (written = .ok () ∧ disk' = disk.insert path bytes) ∨
      ∃ e, written = .error e ∧
        (disk' = disk ∨ ∃ part, part <+: bytes ∧ disk' = disk.insert path part)

/-- The events of a start, each with the files it found. -/
inductive Moved : HashMap String Bytes → List (HashMap String Bytes × BootEvent lib) →
    HashMap String Bytes → Prop
  | nil (disk : HashMap String Bytes) : Moved disk [] disk
  | cons {disk disk₁ disk₂ : HashMap String Bytes} {e : BootEvent lib}
      {log : List (HashMap String Bytes × BootEvent lib)} (h : Serves disk e.op e.answer disk₁)
      (hrest : Moved disk₁ log disk₂) : Moved disk ((disk, e) :: log) disk₂

/-- Starts one after the other, with how far each of them got. -/
inductive Starts (vars : IdentityVars) (disk : HashMap String Bytes) :
    List (HashMap String Bytes × BootEvent lib) → List (Boot lib lib.Keypair) →
      HashMap String Bytes → Prop
  | none : Starts vars disk [] [] disk
  | next {log added : List (HashMap String Bytes × BootEvent lib)}
      {ends : List (Boot lib lib.Keypair)} {p : Boot lib lib.Keypair}
      {disk₁ disk₂ : HashMap String Bytes} (h : Starts vars disk log ends disk₁)
      (hmoved : Moved disk₁ added disk₂)
      (hafter : After (added.map Prod.snd) (loadIdentity d vars) p) :
      Starts vars disk (log ++ added) (ends ++ [p]) disk₂

/-- `exists` misses no file. -/
def Truthful (log : List (HashMap String Bytes × BootEvent lib)) : Prop :=
  ∀ entry ∈ log, ∀ path, entry.2 = ⟨.fileExists path, false⟩ → entry.1 path = none

variable {d}

/-! ### How far a start gets -/

lemma returns_ask {o : BootOp} {tr : List (BootEvent lib)} {x : o.Ans lib}
    (h : Returns (ask o : Boot lib _) tr x) : tr = [⟨o, x⟩] := by
  obtain ⟨y, rest, rfl, hdone⟩ := returns_op_iff.mp h
  obtain ⟨rfl, rfl⟩ := returns_done_iff.mp hdone
  rfl

lemma returns_context_iff {α : Type} {text : String} {r : Except String α}
    {tr : List (BootEvent lib)} {a : α} :
    Returns (context text r : Boot lib α) tr a ↔ tr = [] ∧ r = .ok a := by
  rw [context, returns_ofExcept_iff, mapError_eq_ok]

lemma returns_described_iff {α : Type} {text : String} {r : Except String α}
    {tr : List (BootEvent lib)} {a : α} :
    Returns (described text r : Boot lib α) tr a ↔ tr = [] ∧ r = .ok a := by
  rw [described, returns_ofExcept_iff, mapError_eq_ok]

/-- A start that mints its key and gets through has written it last. -/
lemma mint_returns {path : String} {tr : List (BootEvent lib)} {keypair : lib.Keypair}
    (h : Returns (mintIdentity d path) tr keypair) :
    ∃ bytes before, tr = before ++ [⟨.writeFile path bytes, .ok ()⟩] ∧
      d.keypairBytes keypair = .ok bytes := by
  obtain ⟨tr₁, rest₁, fresh, rfl, -, h₁⟩ := returns_bind_iff.mp h
  obtain ⟨tr₂, rest₂, bytes, rfl, hbytes, h₂⟩ := returns_bind_iff.mp h₁
  obtain ⟨tr₃, rest₃, -, rfl, -, h₃⟩ := returns_bind_iff.mp h₂
  obtain ⟨tr₄, rest₄, written, rfl, hask, h₄⟩ := returns_bind_iff.mp h₃
  obtain ⟨tr₅, rest₅, u, rfl, hwritten, h₅⟩ := returns_bind_iff.mp h₄
  obtain ⟨-, hencoded⟩ := returns_described_iff.mp hbytes
  obtain ⟨rfl, rfl⟩ := returns_context_iff.mp hwritten
  obtain ⟨rfl, rfl⟩ := returns_done_iff.mp h₅
  rw [returns_ask hask]
  exact ⟨bytes, tr₁ ++ (tr₂ ++ tr₃), by simp, hencoded⟩

lemma Moved.of_append {disk disk' : HashMap String Bytes}
    {log log' : List (HashMap String Bytes × BootEvent lib)} (h : Moved disk (log ++ log') disk') :
    ∃ disk₁, Moved disk log disk₁ ∧ Moved disk₁ log' disk' := by
  induction log generalizing disk with
  | nil => exact ⟨disk, .nil disk, h⟩
  | cons entry log ih =>
    cases h with
    | cons hserves hrest =>
      obtain ⟨disk₁, hlog, hlog'⟩ := ih hrest
      exact ⟨disk₁, .cons hserves hlog, hlog'⟩

/-- What is written last is what is there. -/
lemma Moved.written {disk disk' : HashMap String Bytes} {path : String} {bytes : Bytes}
    {log : List (HashMap String Bytes × BootEvent lib)} {before : List (BootEvent lib)}
    (h : Moved disk log disk')
    (hlast : log.map Prod.snd = before ++ [⟨.writeFile path bytes, .ok ()⟩]) :
    disk' path = some bytes := by
  obtain ⟨log₁, log₂, rfl, -, hwrite⟩ := List.map_eq_append_iff.mp hlast
  obtain ⟨disk₁, -, hmoved⟩ := h.of_append
  obtain ⟨entry, rfl, hentry⟩ := List.map_eq_singleton_iff.mp hwrite
  obtain ⟨found, e⟩ := entry
  cases hentry
  cases hmoved with
  | cons hserves hrest =>
    cases hrest
    rcases hserves with ⟨-, rfl⟩ | ⟨e, herror, -⟩
    · exact HashMap.insert_self ..
    · cases herror

/-- A start that reads changes nothing, and gets through with the key in the file. -/
lemma read_after {path : String} {disk disk' : HashMap String Bytes} {p : Boot lib lib.Keypair}
    {log : List (HashMap String Bytes × BootEvent lib)}
    (hafter : After (log.map Prod.snd) (readIdentity d path) p) (hmoved : Moved disk log disk') :
    disk' = disk ∧ ∀ keypair, p = .done keypair →
      ∃ bytes, disk path = some bytes ∧ d.loadKeypair bytes = .ok keypair := by
  cases hmoved with
  | nil =>
    rw [List.map_nil, after_nil_iff] at hafter
    subst hafter
    exact ⟨rfl, fun _ hdone => by cases hdone⟩
  | @cons _ disk₁ _ e log hserves hrest =>
    obtain ⟨next, hop, hnext⟩ := after_cons_iff.mp hafter
    obtain ⟨o, read⟩ := e
    cases hop
    obtain ⟨rfl, hread⟩ := hserves
    -- the rest of the start asks for nothing
    have hquiet : log = [] ∧ ∀ keypair, p = .done keypair →
        ∃ bytes, read = .ok bytes ∧ d.loadKeypair bytes = .ok keypair := by
      cases read with
      | error e =>
        obtain ⟨hlog, rfl⟩ := after_fail_iff.mp hnext
        exact ⟨List.map_eq_nil_iff.mp hlog, fun _ hdone => by cases hdone⟩
      | ok bytes =>
        have hdecode : After (log.map Prod.snd)
            (described "decode identity from file" (d.loadKeypair bytes)) p := hnext
        cases hload : d.loadKeypair bytes with
        | error e =>
          rw [hload] at hdecode
          obtain ⟨hlog, rfl⟩ := after_fail_iff.mp hdecode
          exact ⟨List.map_eq_nil_iff.mp hlog, fun _ hdone => by cases hdone⟩
        | ok keypair =>
          rw [hload] at hdecode
          obtain ⟨hlog, rfl⟩ := after_done_iff.mp hdecode
          refine ⟨List.map_eq_nil_iff.mp hlog, fun _ hdone => ?_⟩
          cases hdone
          exact ⟨bytes, rfl, hload⟩
    obtain ⟨rfl, hkey⟩ := hquiet
    cases hrest
    refine ⟨rfl, fun keypair hdone => ?_⟩
    obtain ⟨bytes, hbytes, hload⟩ := hkey keypair hdone
    exact ⟨bytes, hread bytes hbytes, hload⟩

section Found

variable {vars : IdentityVars} {path : String} {disk disk' : HashMap String Bytes}
  {p : Boot lib lib.Keypair} {log : List (HashMap String Bytes × BootEvent lib)}

/-- A start with a file set looks for it first. -/
lemma looks_first (hfile : vars.file = some path)
    (hafter : After (log.map Prod.snd) (loadIdentity d vars) p) (hmoved : Moved disk log disk') :
    (disk' = disk ∧ ∀ keypair, p ≠ .done keypair) ∨
      ∃ present rest, log = (disk, ⟨.fileExists path, present⟩) :: rest ∧
        (present = true → (disk path).isSome) ∧ Moved disk rest disk' ∧
        After (rest.map Prod.snd)
          (if present then readIdentity d path else mintIdentity d path) p := by
  simp only [loadIdentity, hfile] at hafter
  cases hmoved with
  | nil =>
    rw [List.map_nil, after_nil_iff] at hafter
    subst hafter
    exact Or.inl ⟨rfl, fun _ hdone => by cases hdone⟩
  | @cons _ disk₁ _ e rest hserves hrest =>
    obtain ⟨next, hop, hnext⟩ := after_cons_iff.mp hafter
    obtain ⟨o, present⟩ := e
    cases hop
    obtain ⟨rfl, hpresent⟩ := hserves
    exact Or.inr ⟨present, rest, rfl, hpresent, hrest, hnext⟩

/-- A file that is there stays as it is, and a start that gets through has its key. -/
lemma kept_of_found {stored : Bytes} (hfile : vars.file = some path)
    (hstored : disk path = some stored)
    (hafter : After (log.map Prod.snd) (loadIdentity d vars) p) (hmoved : Moved disk log disk')
    (htruth : Truthful log) : disk' path = some stored ∧
      ∀ keypair, p = .done keypair → d.loadKeypair stored = .ok keypair := by
  rcases looks_first hfile hafter hmoved with ⟨rfl, hend⟩ | ⟨present, rest, rfl, -, hrest, hgoes⟩
  · exact ⟨hstored, fun keypair hdone => absurd hdone (hend keypair)⟩
  · cases present with
    | false =>
      have hnone : disk path = none := htruth _ List.mem_cons_self path rfl
      rw [hstored] at hnone
      cases hnone
    | true =>
      obtain ⟨rfl, hkey⟩ := read_after hgoes hrest
      refine ⟨hstored, fun keypair hdone => ?_⟩
      obtain ⟨bytes, hbytes, hload⟩ := hkey keypair hdone
      rw [hstored] at hbytes
      rw [Option.some.inj hbytes]
      exact hload

/-- Where there is no file, a start that gets through leaves one with its key. -/
lemma stored_of_missing {keypair : lib.Keypair} (hcodec : d.KeypairRoundTrip)
    (hfile : vars.file = some path) (hmissing : disk path = none)
    (hreturns : Returns (loadIdentity d vars) (log.map Prod.snd) keypair)
    (hmoved : Moved disk log disk') :
    ∃ stored, disk' path = some stored ∧ d.loadKeypair stored = .ok keypair := by
  rcases looks_first hfile hreturns hmoved with ⟨-, hend⟩ |
    ⟨present, rest, rfl, hpresent, hrest, hgoes⟩
  · exact absurd rfl (hend keypair)
  · cases present with
    | true =>
      have hfound := hpresent rfl
      rw [hmissing] at hfound
      cases hfound
    | false =>
      obtain ⟨bytes, before, hlast, hencoded⟩ := mint_returns hgoes
      exact ⟨bytes, hrest.written hlast, hcodec keypair bytes hencoded⟩

end Found

/-! ### All starts -/

/-- The key of every start that got through is in the file. -/
lemma stored_of_done {vars : IdentityVars} {path : String} {disk disk' : HashMap String Bytes}
    {log : List (HashMap String Bytes × BootEvent lib)} {ends : List (Boot lib lib.Keypair)}
    (hcodec : d.KeypairRoundTrip) (hfile : vars.file = some path)
    (h : Starts d vars disk log ends disk') (htruth : Truthful log) {keypair : lib.Keypair}
    (hdone : .done keypair ∈ ends) :
    ∃ stored, disk' path = some stored ∧ d.loadKeypair stored = .ok keypair := by
  induction h generalizing keypair with
  | none => cases hdone
  | @next log added ends p disk₁ disk₂ _ hmoved hafter ih =>
    have hbefore : Truthful log := fun entry hentry => htruth entry (List.mem_append_left _ hentry)
    have hlast : Truthful added := fun entry hentry => htruth entry (List.mem_append_right _ hentry)
    cases hstored : disk₁ path with
    | some stored =>
      obtain ⟨hkept, hkey⟩ := kept_of_found hfile hstored hafter hmoved hlast
      refine ⟨stored, hkept, ?_⟩
      rcases List.mem_append.mp hdone with hold | hnew
      · obtain ⟨stored', hstored', hload⟩ := ih hbefore hold
        rw [hstored] at hstored'
        rw [Option.some.inj hstored']
        exact hload
      · exact hkey keypair (List.mem_singleton.mp hnew).symm
    | none =>
      rcases List.mem_append.mp hdone with hold | hnew
      · obtain ⟨stored', hstored', -⟩ := ih hbefore hold
        rw [hstored] at hstored'
        cases hstored'
      · rw [← List.mem_singleton.mp hnew] at hafter
        exact stored_of_missing hcodec hfile hstored hafter hmoved

/-- Without a file the environment decides. -/
lemma decoded_of_done {vars : IdentityVars} {text : String} {disk disk' : HashMap String Bytes}
    {log : List (HashMap String Bytes × BootEvent lib)} {ends : List (Boot lib lib.Keypair)}
    (hfile : vars.file = none) (hbytes : vars.bytes = some text)
    (h : Starts d vars disk log ends disk') {keypair : lib.Keypair} (hdone : .done keypair ∈ ends) :
    ∃ bytes, d.b64Decode (Str.trim text) = .ok bytes ∧ d.loadKeypair bytes = .ok keypair := by
  induction h generalizing keypair with
  | none => cases hdone
  | @next log added ends p disk₁ disk₂ _ hmoved hafter ih =>
    rcases List.mem_append.mp hdone with hold | hnew
    · exact ih hold
    · rw [← List.mem_singleton.mp hnew] at hafter
      simp only [loadIdentity, hfile, hbytes] at hafter
      obtain ⟨tr, rest, bytes, -, hdecoded, hloaded⟩ := returns_bind_iff.mp hafter
      exact ⟨bytes, (returns_context_iff.mp hdecoded).2, (returns_described_iff.mp hloaded).2⟩

/-- All starts that get through load their key from the same bytes. -/
lemma one_source {vars : IdentityVars} {disk disk' : HashMap String Bytes}
    {log : List (HashMap String Bytes × BootEvent lib)} {ends : List (Boot lib lib.Keypair)}
    (hcodec : d.KeypairRoundTrip) (hvars : vars.file.isSome ∨ vars.bytes.isSome)
    (h : Starts d vars disk log ends disk') (htruth : Truthful log) {keypair keypair' : lib.Keypair}
    (hdone : .done keypair ∈ ends) (hdone' : .done keypair' ∈ ends) :
    ∃ bytes, d.loadKeypair bytes = .ok keypair ∧ d.loadKeypair bytes = .ok keypair' := by
  cases hfile : vars.file with
  | some path =>
    obtain ⟨stored, hstored, hload⟩ := stored_of_done hcodec hfile h htruth hdone
    obtain ⟨stored', hstored', hload'⟩ := stored_of_done hcodec hfile h htruth hdone'
    rw [hstored] at hstored'
    rw [← Option.some.inj hstored'] at hload'
    exact ⟨stored, hload, hload'⟩
  | none =>
    have hbytes : vars.bytes.isSome := by
      rw [hfile] at hvars
      exact hvars.resolve_left (by simp)
    obtain ⟨text, htext⟩ := Option.isSome_iff_exists.mp hbytes
    obtain ⟨bytes, hdecoded, hload⟩ := decoded_of_done hfile htext h hdone
    obtain ⟨bytes', hdecoded', hload'⟩ := decoded_of_done hfile htext h hdone'
    rw [hdecoded] at hdecoded'
    rw [← Except.ok.inj hdecoded'] at hload'
    exact ⟨bytes, hload, hload'⟩

/-- A start that can read the file gets through with the key in it. -/
lemma answered_of_stored {vars : IdentityVars} {path : String} {stored : Bytes}
    {keypair : lib.Keypair} (hfile : vars.file = some path)
    (hload : d.loadKeypair stored = .ok keypair) {answers : (o : BootOp) → o.Ans lib}
    (hexists : answers (.fileExists path) = true) (hread : answers (.readFile path) = .ok stored) :
    (loadIdentity d vars).answered answers = .ok keypair := by
  have hreads : (readIdentity d path).answered answers = .ok keypair := by
    rw [readIdentity, Program.answered_bind]
    change (context _ (answers (.readFile path)) >>= _ : Boot lib _).answered answers = _
    rw [hread]
    exact (Program.answered_ofExcept _ _).trans (mapError_eq_ok.mpr hload)
  simp only [loadIdentity, hfile]
  rw [Program.answered_bind]
  change ((if answers (.fileExists path) then readIdentity d path
    else mintIdentity d path).answered answers) = _
  rw [hexists, if_pos rfl]
  exact hreads

/-- A relay that is given a file or a key keeps its identity over all its starts, however they fail
or are cut off, as long as `exists` misses no file: those that get through have one key. With a file
this is the key in it, and a start that can read it gets through with it. -/
theorem one_identity_over_restarts {vars : IdentityVars} {disk disk' : HashMap String Bytes}
    {log : List (HashMap String Bytes × BootEvent lib)} {ends : List (Boot lib lib.Keypair)}
    (hcodec : d.KeypairRoundTrip) (hvars : vars.file.isSome ∨ vars.bytes.isSome)
    (h : Starts d vars disk log ends disk') (htruth : Truthful log) {keypair : lib.Keypair}
    (hdone : .done keypair ∈ ends) :
    (∀ keypair', .done keypair' ∈ ends → keypair' = keypair) ∧
    ∀ path, vars.file = some path → ∃ stored, disk' path = some stored ∧
      ∀ answers : (o : BootOp) → o.Ans lib, answers (.fileExists path) = true →
        answers (.readFile path) = .ok stored →
          (loadIdentity d vars).answered answers = .ok keypair := by
  constructor
  · intro keypair' hdone'
    obtain ⟨bytes, hload, hload'⟩ := one_source hcodec hvars h htruth hdone hdone'
    rw [hload] at hload'
    exact (Except.ok.inj hload').symm
  · intro path hfile
    obtain ⟨stored, hstored, hload⟩ := stored_of_done hcodec hfile h htruth hdone
    exact ⟨stored, hstored, fun answers => answered_of_stored hfile hload⟩

/-! ### Three starts -/

namespace Example

def deps : BootDeps (Libp2pIdentity.recorded []) where
  toDeps := TabsExample.deps
  parent _ := some "/data"
  b64Decode _ := .error "invalid padding"

def vars : IdentityVars := ⟨some "/data/identity", none⟩

/-- The system minted the key `[i; 32]`. -/
def minted (i : UInt8) : BootEvent (Libp2pIdentity.recorded []) := ⟨.fresh, PubKey.replicate i⟩

def looked (present : Bool) : BootEvent (Libp2pIdentity.recorded []) :=
  ⟨.fileExists "/data/identity", present⟩

def made : BootEvent (Libp2pIdentity.recorded []) := ⟨.createDirAll "/data", .ok ()⟩

def wrote : BootEvent (Libp2pIdentity.recorded []) :=
  ⟨.writeFile "/data/identity" (PubKey.replicate 2).bytes, .ok ()⟩

def read : BootEvent (Libp2pIdentity.recorded []) :=
  ⟨.readFile "/data/identity", .ok (PubKey.replicate 2).bytes⟩

def keyDisk : HashMap String Bytes :=
  HashMap.empty.insert "/data/identity" (PubKey.replicate 2).bytes

/-- The first start is cut off with its key, the second stores another one, the third reads it. -/
def log : List (HashMap String Bytes × BootEvent (Libp2pIdentity.recorded [])) :=
  [(HashMap.empty, looked false), (HashMap.empty, minted 1)] ++
    [(HashMap.empty, looked false), (HashMap.empty, minted 2), (HashMap.empty, made),
      (HashMap.empty, wrote)] ++
    [(keyDisk, looked true), (keyDisk, read)]

lemma starts : ∃ cutOff, Starts deps vars HashMap.empty log
    [cutOff, .done (PubKey.replicate 2), .done (PubKey.replicate 2)] keyDisk := by
  have hload := TabsExample.keypairRoundTrip (PubKey.replicate 2) _ rfl
  have hfirst : Moved HashMap.empty [(HashMap.empty, looked false), (HashMap.empty, minted 1)]
      HashMap.empty := .cons ⟨rfl, nofun⟩ (.cons rfl (.nil _))
  have hsecond : Moved HashMap.empty [(HashMap.empty, looked false), (HashMap.empty, minted 2),
      (HashMap.empty, made), (HashMap.empty, wrote)] keyDisk :=
    .cons ⟨rfl, nofun⟩ (.cons rfl (.cons rfl (.cons (Or.inl ⟨rfl, rfl⟩) (.nil _))))
  have hthird : Moved keyDisk [(keyDisk, looked true), (keyDisk, read)] keyDisk := by
    refine .cons ⟨rfl, fun _ => rfl⟩ (.cons ⟨rfl, fun bytes hbytes => ?_⟩ (.nil _))
    rw [← Except.ok.inj hbytes]
    exact HashMap.insert_self ..
  have hread : After [looked true, read] (loadIdentity deps vars) (.done (PubKey.replicate 2)) := by
    refine .cons (.cons ?_)
    change After [] (described "decode identity from file"
      (TabsExample.deps.loadKeypair (PubKey.replicate 2).bytes)) _
    rw [hload]
    exact .nil _
  have hminted : After [looked false, minted 2, made, wrote] (loadIdentity deps vars)
      (.done (PubKey.replicate 2)) := .cons (.cons (.cons (.cons (.nil _))))
  have hcutOff : ∃ cutOff, After [looked false, minted 1] (loadIdentity deps vars) cutOff :=
    ⟨_, .cons (.cons (.nil _))⟩
  obtain ⟨cutOff, hcutOff⟩ := hcutOff
  exact ⟨cutOff, ((Starts.none.next hfirst hcutOff).next hsecond hminted).next hthird hread⟩

lemma truthful : Truthful log := by
  intro entry hentry path hlooked
  simp only [log, List.cons_append, List.nil_append, List.mem_cons, List.not_mem_nil, or_false]
    at hentry
  rcases hentry with rfl | rfl | rfl | rfl | rfl | rfl | rfl | rfl <;> first | rfl | cases hlooked

end Example

open Example in
theorem one_identity_over_restarts_cutOff : ∃ cutOff, Starts deps vars HashMap.empty log
    [cutOff, .done (PubKey.replicate 2), .done (PubKey.replicate 2)] keyDisk ∧
    ∃ stored, keyDisk "/data/identity" = some stored := by
  obtain ⟨cutOff, hstarts⟩ := starts
  obtain ⟨-, hfile⟩ := one_identity_over_restarts TabsExample.keypairRoundTrip (Or.inl rfl) hstarts
    truthful (List.mem_cons_of_mem _ List.mem_cons_self)
  obtain ⟨stored, hstored, -⟩ := hfile "/data/identity" rfl
  exact ⟨cutOff, hstarts, stored, hstored⟩

end Boot

end Laye
