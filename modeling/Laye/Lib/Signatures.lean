import Mathlib.Logic.Basic

/-!
# Ideal signatures

Verification is judged against what the key holders signed: a signature that verifies under
a key was made by its holder on exactly that message. What a verified message then says
about its origin depends only on the encoding that was signed.
-/

namespace Signatures

variable {SK PK Msg Sig Doc : Type*}

/-- Whatever verifies under a key was signed by the key's holder. -/
def Unforgeable (verify : PK → Msg → Sig → Bool) (signed : PK → Msg → Prop) : Prop :=
  ∀ pk m s, verify pk m s = true → signed pk m

/-- A signature made on one message verifies under its key on that message only. -/
def SignatureOfOneMessage (sign : SK → Msg → Sig → Prop) (pub : SK → PK → Prop)
    (verify : PK → Msg → Sig → Bool) : Prop :=
  ∀ k pk m s m', sign k m s → pub k pk → verify pk m' s = true → m' = m

/-- The holder of `pk` signs encodings of documents it issued and nothing else. -/
def SignsOnly (signed : PK → Msg → Prop) (issued : PK → Doc → Prop) (encode : Doc → Msg)
    (pk : PK) : Prop :=
  ∀ m, signed pk m → ∃ d, issued pk d ∧ m = encode d

/-- A verified document was issued, up to documents with the same encoding. -/
theorem issued_up_to_encoding {verify : PK → Msg → Sig → Bool} {signed : PK → Msg → Prop}
    {issued : PK → Doc → Prop} {encode : Doc → Msg} {pk : PK} {d : Doc} {s : Sig}
    (hu : Unforgeable verify signed) (hs : SignsOnly signed issued encode pk)
    (hv : verify pk (encode d) s = true) : ∃ d', issued pk d' ∧ encode d' = encode d := by
  obtain ⟨d', hi, he⟩ := hs _ (hu _ _ _ hv)
  exact ⟨d', hi, he.symm⟩

/-- A verified document whose encoding is its own was issued itself. -/
theorem issued_of_verified {verify : PK → Msg → Sig → Bool} {signed : PK → Msg → Prop}
    {issued : PK → Doc → Prop} {encode : Doc → Msg} {pk : PK} {d : Doc} {s : Sig}
    (hu : Unforgeable verify signed) (hs : SignsOnly signed issued encode pk)
    (hd : ∀ d', encode d' = encode d → d' = d)
    (hv : verify pk (encode d) s = true) : issued pk d := by
  obtain ⟨d', hi, he⟩ := issued_up_to_encoding hu hs hv
  exact hd d' he ▸ hi

/-- A signature issued for one document carries over to another only if the encodings agree. -/
theorem encoding_of_reused {sign : SK → Msg → Sig → Prop} {pub : SK → PK → Prop}
    {verify : PK → Msg → Sig → Bool} {encode : Doc → Msg} {k : SK} {pk : PK} {d d' : Doc} {s : Sig}
    (h : SignatureOfOneMessage sign pub verify) (hk : pub k pk) (hs : sign k (encode d) s)
    (hv : verify pk (encode d') s = true) : encode d' = encode d :=
  h k pk _ s _ hs hk hv

end Signatures
