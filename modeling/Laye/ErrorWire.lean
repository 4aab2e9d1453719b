import Laye.Errors
import Laye.JsonText
import Laye.Scene

/-!
# The typed error on the wire

`crates/laye-error`: one error as every layer writes it in JSON and reads it again. Fields that hold
nothing are left out; a severity is one of four labels.
-/

namespace Laye

/-- The label a severity has on the wire. -/
def Severity.name : Severity → String
  | .info => "info"
  | .warn => "warn"
  | .error => "error"
  | .panic => "panic"

def Severity.ofName : String → Option Severity
  | "info" => some .info
  | "warn" => some .warn
  | "error" => some .error
  | "panic" => some .panic
  | _ => none

/-- A variant is its label, or an object with the label and nothing under it. -/
def Severity.ofJson : Json → Option Severity
  | .string label => ofName label
  | .object [(label, .null)] => ofName label
  | _ => none

structure Anchor (F : Type) where
  x : F
  y : F

structure ErrorContext (F : Type) where
  surface : String
  region : Option String
  anchor : Option (Anchor F)

/-- `laye_error::Error`. -/
structure WireError (F : Type) where
  id : String
  severity : Severity
  context : ErrorContext F
  title : String
  why : String
  trace : List String
  raw : Option String
  at_ : String
  source : Option String
  ffiCall : Option String
  location : Option String
  jsStack : Option String
  rawStderr : Option String
  requiresReload : Bool

/-- A member that is left out when it holds nothing. -/
def Json.optional (name : String) (value : Option Json) : List (String × Json) :=
  value.toList.map fun doc => (name, doc)

/-- An `Option` field may be absent or `null`. -/
def Json.optionField {α : Type} (decode : Json → Option α) : Option Json → Option (Option α)
  | none | some .null => some none
  | some doc => (decode doc).map some

/-- A `bool` field that is `false` when absent. -/
def Json.boolField : Option Json → Option Bool
  | none => some false
  | some (.bool b) => some b
  | _ => none

variable {F : Type}

namespace Anchor

def toJson (floats : Floats F) (a : Anchor F) : Json :=
  .object [("x", floats.toJson a.x), ("y", floats.toJson a.y)]

def ofJson (floats : Floats F) (doc : Json) : Option (Anchor F) := do
  let fields ← doc.structFields ["x", "y"] 2
  let x ← floats.field fields[0]!
  let y ← floats.field fields[1]!
  return { x, y }

end Anchor

namespace ErrorContext

def members (floats : Floats F) (c : ErrorContext F) : List (String × Json) :=
  [("surface", .string c.surface)] ++ Json.optional "region" (c.region.map .string) ++
    Json.optional "anchor" (c.anchor.map (Anchor.toJson floats))

def toJson (floats : Floats F) (c : ErrorContext F) : Json := .object (c.members floats)

def ofJson (floats : Floats F) (doc : Json) : Option (ErrorContext F) := do
  let fields ← doc.structFields ["surface", "region", "anchor"] 1
  let surface ← Json.stringField fields[0]!
  let region ← Json.optionStringField fields[1]!
  let anchor ← Json.optionField (Anchor.ofJson floats) fields[2]!
  return { surface, region, anchor }

end ErrorContext

namespace WireError

def FIELDS : List String :=
  ["id", "severity", "context", "title", "why", "trace", "raw", "at", "source", "ffi_call",
    "location", "js_stack", "raw_stderr", "requires_reload"]

def members (floats : Floats F) (e : WireError F) : List (String × Json) :=
  [("id", .string e.id), ("severity", .string e.severity.name),
    ("context", e.context.toJson floats), ("title", .string e.title), ("why", .string e.why)] ++
  Json.optional "trace" (if e.trace.isEmpty then none else some (.array (e.trace.map .string))) ++
  Json.optional "raw" (e.raw.map .string) ++
  [("at", .string e.at_)] ++
  Json.optional "source" (e.source.map .string) ++
  Json.optional "ffi_call" (e.ffiCall.map .string) ++
  Json.optional "location" (e.location.map .string) ++
  Json.optional "js_stack" (e.jsStack.map .string) ++
  Json.optional "raw_stderr" (e.rawStderr.map .string) ++
  Json.optional "requires_reload" (if e.requiresReload then some (.bool true) else none)

def toJson (floats : Floats F) (e : WireError F) : Json := .object (e.members floats)

/-- What the members under `FIELDS` make. -/
def ofFields (floats : Floats F) : List (Option Json) → Option (WireError F)
  | [id, severity, context, title, why, trace, raw, at_, source, ffiCall, location, jsStack, rawStderr,
      requiresReload] => do
    return {
      id := ← Json.stringField id
      severity := ← severity.bind Severity.ofJson
      context := ← context.bind (ErrorContext.ofJson floats)
      title := ← Json.stringField title
      why := ← Json.stringField why
      trace := ← trace.elim (some []) AppState.stringList
      raw := ← Json.optionStringField raw
      at_ := ← Json.stringField at_
      source := ← Json.optionStringField source
      ffiCall := ← Json.optionStringField ffiCall
      location := ← Json.optionStringField location
      jsStack := ← Json.optionStringField jsStack
      rawStderr := ← Json.optionStringField rawStderr
      requiresReload := ← Json.boolField requiresReload }
  | _ => none

/-- Written as an array, an error has its fields up to `at`. -/
def ofJson (floats : Floats F) (doc : Json) : Option (WireError F) := do
  let fields ← doc.structFields FIELDS 8
  ofFields floats fields

/-- What the overlay reads. -/
def shown (e : WireError F) : LayeError where
  id := e.id
  severity := e.severity
  surface := e.context.surface
  region := e.context.region
  title := e.title
  why := e.why
  trace := e.trace
  requiresReload := e.requiresReload

end WireError

/-! ### Members in any order -/

lemma lookup_optional (name key : String) (value : Option Json) :
    (Json.optional name value).lookup key = if key == name then value else none := by
  cases value with
  | none => simp [Json.optional]
  | some doc =>
    rw [Json.optional, Option.toList_some, List.map_singleton, List.lookup_cons, List.lookup_nil]
    cases key == name <;> rfl

lemma optional_names (name : String) (value : Option Json) :
    ((Json.optional name value).map Prod.fst).Sublist [name] := by
  cases value with
  | none => exact List.nil_sublist _
  | some doc => exact List.Sublist.refl _

lemma filter_name_of_nodup {written : List (String × Json)} (h : (written.map Prod.fst).Nodup)
    (name : String) :
    written.filter (fun m => m.1 == name) = Json.optional name (written.lookup name) := by
  induction written with
  | nil => rfl
  | cons m written ih =>
    obtain ⟨other, doc⟩ := m
    rw [List.map_cons, List.nodup_cons] at h
    obtain ⟨hnew, hrest⟩ := h
    by_cases hname : other = name
    · subst hname
      have hnone : written.filter (fun m => m.1 == other) = [] := by
        apply List.filter_eq_nil_iff.mpr
        intro m hm heq
        exact hnew (List.mem_map.mpr ⟨m, hm, beq_iff_eq.mp heq⟩)
      rw [List.filter_cons_of_pos (by simp), hnone, List.lookup_cons_self]
      rfl
    · have hne : (name == other) = false := beq_false_of_ne (Ne.symm hname)
      rw [List.filter_cons_of_neg (by simpa using hname), List.lookup_cons, hne]
      exact ih hrest

/-- The members are those of `written` in any order, among any others. -/
def Reorders (names : List String) (members written : List (String × Json)) : Prop :=
  (members.filter (fun m => m.1 ∈ names)).Perm written

lemma reorders_self {names : List String} {written : List (String × Json)}
    (h : (written.map Prod.fst).Sublist names) : Reorders names written written := by
  rw [Reorders, List.filter_eq_self.mpr]
  intro m hm
  exact decide_eq_true (h.subset (List.mem_map_of_mem hm))

lemma mapM_eq_some_map {α β : Type} {f : α → Option β} {g : α → β} {as : List α}
    (h : ∀ a ∈ as, f a = some (g a)) : as.mapM f = some (as.map g) := by
  induction as with
  | nil => rfl
  | cons a as ih =>
    have hrest := ih fun a' ha' => h a' (List.mem_cons_of_mem a ha')
    rw [List.mapM_cons, h a List.mem_cons_self, hrest]
    rfl

lemma structFields_of_reorders {names : List String} {members written : List (String × Json)}
    (required : Nat) (hnames : names.Nodup) (hsub : (written.map Prod.fst).Sublist names)
    (hperm : Reorders names members written) :
    (Json.object members).structFields names required =
      some (names.map fun name => written.lookup name) := by
  have hnodup := hsub.nodup hnames
  have hone : ∀ name ∈ names,
      members.filter (fun m => m.1 == name) = Json.optional name (written.lookup name) := by
    intro name hname
    have hsame : (members.filter (fun m => m.1 ∈ names)).filter (fun m => m.1 == name) =
        members.filter (fun m => m.1 == name) := by
      rw [List.filter_filter]
      apply List.filter_congr
      intro m _
      by_cases hm : m.1 = name
      · simp [hm, hname]
      · simp [hm]
    have hfound := hperm.filter (fun m => m.1 == name)
    rw [hsame, filter_name_of_nodup hnodup] at hfound
    cases hlookup : written.lookup name with
    | none =>
      rw [hlookup] at hfound
      exact hfound.eq_nil
    | some doc =>
      rw [hlookup] at hfound
      exact List.perm_singleton.mp hfound
  rw [Json.structFields]
  apply mapM_eq_some_map
  intro name hname
  rw [hone name hname]
  cases written.lookup name <;> rfl

lemma mapM_asStr (texts : List String) : (texts.map Json.string).mapM Json.asStr = some texts := by
  induction texts with
  | nil => rfl
  | cons text texts ih =>
    rw [List.map_cons, List.mapM_cons, ih]
    rfl

lemma optionStringField_map (text : Option String) :
    Json.optionStringField (text.map .string) = some text := by
  cases text <;> rfl

lemma Severity.ofName_name (s : Severity) : Severity.ofName s.name = some s := by
  cases s <;> rfl

/-- The numbers of the anchor, if there is one, are read as what they were. -/
def ErrorContext.Exact (floats : Floats F) (c : ErrorContext F) : Prop :=
  ∀ a ∈ c.anchor, floats.field (some (floats.toJson a.x)) = some a.x ∧
    floats.field (some (floats.toJson a.y)) = some a.y

/-- The anchor is written with this number. -/
def ErrorContext.Writes (floats : Floats F) (c : ErrorContext F) (n : JsonNumber) : Prop :=
  ∃ a ∈ c.anchor, floats.toJson a.x = .number n ∨ floats.toJson a.y = .number n

lemma Floats.number_of_field {floats : Floats F} {doc : Json} {x : F}
    (h : floats.field (some doc) = some x) : ∃ n, doc = .number n := by
  cases doc with
  | number n => exact ⟨n, rfl⟩
  | _ => cases h

lemma Anchor.ofJson_toJson_iff {floats : Floats F} {a : Anchor F} :
    ofJson floats (a.toJson floats) = some a ↔
      floats.field (some (floats.toJson a.x)) = some a.x ∧
        floats.field (some (floats.toJson a.y)) = some a.y := by
  have hfields : (a.toJson floats).structFields ["x", "y"] 2 =
      some [some (floats.toJson a.x), some (floats.toJson a.y)] := by
    simp [Anchor.toJson, Json.structFields]
  rw [ofJson, hfields, Option.bind_eq_bind, Option.bind_some]
  constructor
  · intro h
    obtain ⟨x, hx, h⟩ := Option.bind_eq_some_iff.mp h
    obtain ⟨y, hy, h⟩ := Option.bind_eq_some_iff.mp h
    obtain rfl : (⟨x, y⟩ : Anchor F) = a := Option.some.inj h
    exact ⟨hx, hy⟩
  · rintro ⟨hx, hy⟩
    simp [hx, hy]

namespace ErrorContext

lemma members_names (floats : Floats F) (c : ErrorContext F) :
    ((c.members floats).map Prod.fst).Sublist ["surface", "region", "anchor"] := by
  simp only [members, List.map_append]
  exact ((List.Sublist.refl ["surface"]).append (optional_names _ _)).append (optional_names _ _)

lemma ofJson_toJson (floats : Floats F) (c : ErrorContext F) :
    ofJson floats (c.toJson floats) =
      (Json.optionField (Anchor.ofJson floats) (c.anchor.map (Anchor.toJson floats))).map
        fun anchor => { c with anchor } := by
  have hfields : (c.toJson floats).structFields ["surface", "region", "anchor"] 1 = some
      [some (.string c.surface), c.region.map .string, c.anchor.map (Anchor.toJson floats)] := by
    apply (structFields_of_reorders 1 (by decide) (members_names floats c)
      (reorders_self (members_names floats c))).trans
    simp [members, List.lookup_append, lookup_optional, List.lookup_cons]
  simp only [ofJson, hfields, Json.stringField, optionStringField_map, Option.bind_eq_bind,
    Option.bind_some, List.getElem!_cons_zero, List.getElem!_cons_succ]
  cases Json.optionField (Anchor.ofJson floats) (c.anchor.map (Anchor.toJson floats)) <;> rfl

/-- The context comes back as it was exactly when its anchor does. -/
lemma ofJson_toJson_iff {floats : Floats F} {c : ErrorContext F} :
    ofJson floats (c.toJson floats) = some c ↔ c.Exact floats := by
  rw [ofJson_toJson]
  obtain ⟨surface, region, anchor⟩ := c
  cases anchor with
  | none => exact iff_of_true rfl fun a ha => nomatch ha
  | some a =>
    have hanchor : Json.optionField (Anchor.ofJson floats) ((some a).map (Anchor.toJson floats)) =
        (Anchor.ofJson floats (a.toJson floats)).map some := rfl
    have hexact : Exact floats ⟨surface, region, some a⟩ ↔
        Anchor.ofJson floats (a.toJson floats) = some a := by
      rw [Anchor.ofJson_toJson_iff]
      exact ⟨fun h => h a rfl, fun h a' ha' => Option.some.inj ha' ▸ h⟩
    rw [hanchor, hexact]
    cases Anchor.ofJson floats (a.toJson floats) with
    | none => exact iff_of_false nofun nofun
    | some a' => simp

end ErrorContext

namespace WireError

lemma members_names (floats : Floats F) (e : WireError F) :
    ((e.members floats).map Prod.fst).Sublist FIELDS := by
  have hhead := List.Sublist.refl ["id", "severity", "context", "title", "why"]
  have htrace := (hhead.append (optional_names "trace"
    (if e.trace.isEmpty then none else some (.array (e.trace.map .string))))).append
      (optional_names "raw" (e.raw.map .string))
  have hat := htrace.append (List.Sublist.refl ["at"])
  have htail := (((((hat.append (optional_names "source" (e.source.map .string))).append
    (optional_names "ffi_call" (e.ffiCall.map .string))).append
    (optional_names "location" (e.location.map .string))).append
    (optional_names "js_stack" (e.jsStack.map .string))).append
    (optional_names "raw_stderr" (e.rawStderr.map .string))).append
    (optional_names "requires_reload" (if e.requiresReload then some (.bool true) else none))
  simp only [members, List.map_append]
  exact htail

/-- The fields that were written, in their own order. -/
lemma fields_of_reorders {floats : Floats F} {e : WireError F} {members : List (String × Json)}
    (h : Reorders FIELDS members (e.members floats)) :
    (Json.object members).structFields FIELDS 8 = some
      [some (.string e.id), some (.string e.severity.name), some (e.context.toJson floats),
        some (.string e.title), some (.string e.why),
        if e.trace.isEmpty then none else some (.array (e.trace.map .string)),
        e.raw.map .string, some (.string e.at_), e.source.map .string, e.ffiCall.map .string,
        e.location.map .string, e.jsStack.map .string, e.rawStderr.map .string,
        if e.requiresReload then some (.bool true) else none] := by
  rw [structFields_of_reorders 8 (by decide) (members_names floats e) h]
  simp [FIELDS, WireError.members, List.lookup_append, lookup_optional, List.lookup_cons]

lemma ofJson_of_reorders {floats : Floats F} {e : WireError F} {members : List (String × Json)}
    (h : Reorders FIELDS members (e.members floats)) :
    ofJson floats (.object members) =
      (ErrorContext.ofJson floats (e.context.toJson floats)).map fun context => { e with context } := by
  have hseverity : (some (Json.string e.severity.name)).bind Severity.ofJson = some e.severity :=
    Severity.ofName_name e.severity
  have htrace : (if e.trace.isEmpty then none else some (Json.array (e.trace.map .string))).elim
      (some []) AppState.stringList = some e.trace := by
    cases htext : e.trace with
    | nil => rfl
    | cons text texts => exact mapM_asStr (text :: texts)
  have hreload : Json.boolField (if e.requiresReload then some (.bool true) else none) =
      some e.requiresReload := by
    cases e.requiresReload <;> rfl
  have hraw := optionStringField_map e.raw
  have hsource := optionStringField_map e.source
  have hffiCall := optionStringField_map e.ffiCall
  have hlocation := optionStringField_map e.location
  have hjsStack := optionStringField_map e.jsStack
  have hrawStderr := optionStringField_map e.rawStderr
  rw [ofJson, fields_of_reorders h, Option.bind_eq_bind, Option.bind_some]
  rw [ofFields, hseverity, htrace, hraw, hsource, hffiCall, hlocation, hjsStack, hrawStderr,
    hreload, Option.bind_some]
  cases ErrorContext.ofJson floats (e.context.toJson floats) <;> rfl

/-- An error comes back as it was exactly when its anchor does. -/
lemma ofJson_iff_of_reorders {floats : Floats F} {e : WireError F} {members : List (String × Json)}
    (h : Reorders FIELDS members (e.members floats)) :
    ofJson floats (.object members) = some e ↔ e.context.Exact floats := by
  rw [ofJson_of_reorders h, ← ErrorContext.ofJson_toJson_iff]
  cases ErrorContext.ofJson floats (e.context.toJson floats) with
  | none => exact iff_of_false nofun nofun
  | some context =>
    constructor
    · intro heq
      exact congrArg some (congrArg WireError.context (Option.some.inj heq))
    · intro heq
      rw [Option.map_some, Option.some.inj heq]

/-! ### Text and labels -/

section

variable {numbers : JsonNumber → Prop} {levels : Nat}

lemma within_optional (name : String) {value : Option Json}
    (h : ∀ doc ∈ value, doc.Within numbers levels) :
    ∀ m ∈ Json.optional name value, m.2.Within numbers levels := by
  intro m hm
  obtain ⟨doc, hdoc, rfl⟩ := List.mem_map.mp hm
  exact h doc (Option.mem_toList.mp hdoc)

lemma within_texts (text : Option String) :
    ∀ doc ∈ text.map Json.string, doc.Within numbers levels := by
  intro doc hdoc
  obtain ⟨s, -, rfl⟩ := Option.map_eq_some_iff.mp hdoc
  exact .string _ s

end

/-- A context is two deep, and its numbers are those of the anchor. -/
lemma within_context {floats : Floats F} {c : ErrorContext F} (h : c.Exact floats) :
    (c.toJson floats).Within (c.Writes floats) 2 := by
  have hanchor : ∀ doc ∈ c.anchor.map (Anchor.toJson floats), doc.Within (c.Writes floats) 1 := by
    intro doc hdoc
    obtain ⟨a, ha, rfl⟩ := Option.map_eq_some_iff.mp hdoc
    obtain ⟨hx, hy⟩ := h a ha
    obtain ⟨nx, hnx⟩ := Floats.number_of_field hx
    obtain ⟨ny, hny⟩ := Floats.number_of_field hy
    apply Json.Within.object
    simp only [List.forall_mem_cons, hnx, hny]
    exact ⟨.number _ nx ⟨a, ha, Or.inl hnx⟩, .number _ ny ⟨a, ha, Or.inr hny⟩, nofun⟩
  apply Json.Within.object
  simp only [ErrorContext.members, List.forall_mem_append, List.forall_mem_singleton]
  exact ⟨⟨.string _ _, within_optional _ (within_texts _)⟩, within_optional _ hanchor⟩

lemma within_toJson {floats : Floats F} {e : WireError F} (h : e.context.Exact floats) :
    (e.toJson floats).Within (e.context.Writes floats) 3 := by
  have htrace : ∀ doc ∈ (if e.trace.isEmpty then none else some (Json.array (e.trace.map .string))),
      doc.Within (e.context.Writes floats) 2 := by
    intro doc hdoc
    split at hdoc
    · cases hdoc
    · cases hdoc
      refine .array _ fun item hitem => ?_
      obtain ⟨s, -, rfl⟩ := List.mem_map.mp hitem
      exact .string _ s
  have hreload : ∀ doc ∈ (if e.requiresReload then some (Json.bool true) else none),
      doc.Within (e.context.Writes floats) 2 := by
    intro doc hdoc
    split at hdoc
    · cases hdoc
      exact .bool _ true
    · cases hdoc
  apply Json.Within.object
  simp only [members, List.forall_mem_append, List.forall_mem_cons, List.not_mem_nil, false_imp_iff,
    implies_true, and_true]
  have htext : ∀ (name : String) (text : Option String), ∀ m ∈ Json.optional name (text.map .string),
      m.2.Within (e.context.Writes floats) 2 := fun name text => within_optional name (within_texts text)
  exact ⟨⟨⟨⟨⟨⟨⟨⟨⟨⟨.string _ _, .string _ _, within_context h, .string _ _, .string _ _⟩,
    within_optional _ htrace⟩, htext _ _⟩, .string _ _⟩, htext _ _⟩, htext _ _⟩, htext _ _⟩, htext _ _⟩,
    htext _ _⟩, within_optional _ hreload⟩

lemma read_toVec {serde : SerdeJson} {floats : Floats F} {e : WireError F}
    (hexact : e.context.Exact floats) (htrip : serde.ReadsBack (e.context.Writes floats) 3) :
    serde.read (ofJson floats) (serde.toVec (e.toJson floats)) = .ok e :=
  htrip.read (within_toJson hexact)
    ((ofJson_iff_of_reorders (reorders_self (members_names floats e))).mpr hexact)

/-- Without an anchor an error has no numbers. -/
lemma read_toVec_unanchored {serde : SerdeJson} (htrip : serde.RoundTripsWithin 3) (floats : Floats F)
    {e : WireError F} (h : e.context.anchor = none) :
    serde.read (ofJson floats) (serde.toVec (e.toJson floats)) = .ok e := by
  have hnone : ∀ a, a ∉ e.context.anchor := by simp [h]
  refine read_toVec (fun a ha => absurd ha (hnone a)) (htrip.mono ?_)
  rintro n ⟨a, ha, -⟩
  exact absurd ha (hnone a)

lemma mapM_cons_eq_some {α β : Type} {f : α → Option β} {a : α} {as : List α} {bs : List β}
    (h : (a :: as).mapM f = some bs) : ∃ b rest, f a = some b ∧ as.mapM f = some rest ∧ bs = b :: rest := by
  rw [List.mapM_cons] at h
  obtain ⟨b, hb, h⟩ := Option.bind_eq_some_iff.mp h
  obtain ⟨rest, hrest, h⟩ := Option.bind_eq_some_iff.mp h
  exact ⟨b, rest, hb, hrest, (Option.some.inj h).symm⟩

/-- A label that is none of the four makes the document unreadable. -/
lemma ofJson_of_unknown {floats : Floats F} {members : List (String × Json)} {label : String}
    (hmember : ("severity", Json.string label) ∈ members) (hlabel : Severity.ofName label = none) :
    ofJson floats (.object members) = none := by
  cases hfields : (Json.object members).structFields FIELDS 8 with
  | none => rw [ofJson, hfields, Option.bind_eq_bind, Option.bind_none]
  | some fields =>
    rw [ofJson, hfields, Option.bind_eq_bind, Option.bind_some]
    obtain ⟨id, behind, -, hbehind, rfl⟩ := mapM_cons_eq_some hfields
    obtain ⟨severity, rest, hseverity, -, rfl⟩ := mapM_cons_eq_some hbehind
    have hin : ("severity", Json.string label) ∈ members.filter (fun m => m.1 == "severity") :=
      List.mem_filter.mpr ⟨hmember, beq_self_eq_true "severity"⟩
    have hunknown : severity.bind Severity.ofJson = none := by
      split at hseverity
      · rename_i hnone
        rw [hnone] at hin
        cases hin
      · rename_i m hone
        rw [hone] at hin
        obtain rfl := List.mem_singleton.mp hin
        cases hseverity
        exact hlabel
      · cases hseverity
    unfold ofFields
    split
    · rename_i heq
      cases heq
      rw [hunknown]
      cases Json.stringField id <;> rfl
    · rfl

/-- In whatever order and among whatever others its members come, an error is read as it was exactly
when the numbers of its anchor are, and so it is from its text; a severity that nobody knows does not
pass for another. -/
theorem typed_error_unchanged (floats : Floats F) :
    (∀ (e : WireError F) (members : List (String × Json)), Reorders FIELDS members (e.members floats) →
      (ofJson floats (.object members) = some e ↔ e.context.Exact floats)) ∧
    (∀ (serde : SerdeJson) (e : WireError F), e.context.Exact floats →
      serde.ReadsBack (e.context.Writes floats) 3 →
        serde.read (ofJson floats) (serde.toVec (e.toJson floats)) = .ok e) ∧
    ∀ (members : List (String × Json)) (label : String), ("severity", Json.string label) ∈ members →
      (∀ s : Severity, s.name ≠ label) → ofJson floats (.object members) = none := by
  refine ⟨fun e members h => ofJson_iff_of_reorders h,
    fun serde e hexact htrip => read_toVec hexact htrip, fun members label hmember hlabel => ?_⟩
  apply ofJson_of_unknown hmember
  unfold Severity.ofName
  split
  · exact absurd rfl (hlabel .info)
  · exact absurd rfl (hlabel .warn)
  · exact absurd rfl (hlabel .error)
  · exact absurd rfl (hlabel .panic)
  · rfl

/-- Coordinates as the text of a JSON number has them; what is none is written as `null`. -/
def pixels : Floats (Option String) where
  ofNumber
    | .float text => some text
    | _ => none
  toJson x := x.elim .null fun text => .number (.float text)

/-- A click on a dead button. -/
def deadButton (x y : Option String) : WireError (Option String) where
  id := "err-1"
  severity := .warn
  context := ⟨"wasm", some "button", some ⟨x, y⟩⟩
  title := "nothing happened"
  why := "no listener"
  trace := ["click"]
  raw := none
  at_ := "1751000000000"
  source := none
  ffiCall := none
  location := none
  jsStack := none
  rawStderr := none
  requiresReload := true

/-- Told by a layer that writes its members from the last to the first and one more in front; the same
as text; and with a coordinate that is not a number. -/
theorem typed_error_unchanged_click :
    let e := deadButton (some "120.0") (some "40.5")
    let nowhere := deadButton none (some "40.5")
    ofJson pixels (.object (("stack", .null) :: (e.members pixels).reverse)) = some e ∧
      SerdeJson.compact.read (ofJson pixels) (SerdeJson.compact.toVec (e.toJson pixels)) = .ok e ∧
      ofJson pixels (nowhere.toJson pixels) ≠ some nowhere ∧
      ofJson pixels (.object [("severity", .string "fatal")]) = none := by
  intro e nowhere
  obtain ⟨hread, htext, hunknown⟩ := typed_error_unchanged pixels
  have hexact : e.context.Exact pixels := by
    intro a ha
    obtain rfl := Option.some.inj ha
    exact ⟨rfl, rfl⟩
  have hnowhere : ¬nowhere.context.Exact pixels := by
    intro h
    cases (h _ rfl).1
  have hreversed : Reorders FIELDS (("stack", .null) :: (e.members pixels).reverse) (e.members pixels) := by
    rw [Reorders, List.filter_cons_of_neg (by decide), List.filter_reverse]
    exact (List.reverse_perm _).trans (reorders_self (members_names pixels e))
  have hback : SerdeJson.compact.ReadsBack (e.context.Writes pixels) 3 := by
    apply (SerdeJson.readsBack_compact 3).mono
    rintro n ⟨a, ha, hn⟩
    obtain rfl := Option.some.inj ha
    rcases hn with hn | hn
    · cases hn
      exact .decimal (by decide +kernel)
    · cases hn
      exact .decimal (by decide +kernel)
  refine ⟨(hread e _ hreversed).mpr hexact, htext _ e hexact hback,
    fun h => hnowhere ((hread nowhere _ (reorders_self (members_names pixels nowhere))).mp h),
    hunknown _ "fatal" (List.mem_singleton_self _) ?_⟩
  intro s
  cases s <;> decide

end WireError

end Laye
