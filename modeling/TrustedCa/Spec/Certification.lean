import Mathlib.Data.List.Chain

/-!
# Certificates and trust anchors

A certificate is for a key and is signed with a key. A trust anchor vouches for every key that can be
reached from its own by certificates.

* `Pki.Path`: a certification path from a target to the anchor: each certificate is signed with the
  key of the next, the last one with the key of the anchor.
* `Pki.Path.certified`: the anchor vouches for every key on a path.
* `Pki.Bundle`: the same certificates in the order in which they were issued.
  `Pki.path_reverse_iff`: a bundle is a path read backwards.
-/

namespace TrustedCa
namespace Spec

/-- What a certificate is for, and who has signed it. -/
structure Pki (Cert Key : Type) where
  key : Cert → Key
  Signed : Key → Cert → Prop

namespace Pki

variable {Cert Key : Type} (pki : Pki Cert Key)

/-- The keys that the holder of a key vouches for. -/
inductive Certified (anchor : Key) : Key → Prop
  | anchor : Certified anchor anchor
  | issued {k : Key} {c : Cert} (hk : Certified anchor k) (hc : pki.Signed k c) :
      Certified anchor (pki.key c)

/-- A path to the anchor: the issuer of a certificate is the next one. -/
def Path (anchor : Cert) (path : List Cert) : Prop :=
  (path ++ [anchor]).IsChain fun c issuer => pki.Signed (pki.key issuer) c

/-- The certificates from the anchor on, each signed with the key of the one before. -/
def Bundle (anchor : Cert) (bundle : List Cert) : Prop :=
  (anchor :: bundle).IsChain fun issuer c => pki.Signed (pki.key issuer) c

theorem path_reverse_iff {anchor : Cert} {certs : List Cert} :
    pki.Path anchor certs.reverse ↔ pki.Bundle anchor certs := by
  rw [Path, Bundle, ← List.reverse_cons, List.isChain_reverse]

theorem path_cons_cons_iff {anchor c issuer : Cert} {path : List Cert} :
    pki.Path anchor (c :: issuer :: path) ↔
      pki.Signed (pki.key issuer) c ∧ pki.Path anchor (issuer :: path) :=
  List.isChain_cons_cons

theorem path_singleton_iff {anchor c : Cert} :
    pki.Path anchor [c] ↔ pki.Signed (pki.key anchor) c :=
  List.isChain_pair

/-- The anchor vouches for every key on a path to it. -/
theorem Path.certified {pki : Pki Cert Key} {anchor : Cert} {path : List Cert}
    (h : pki.Path anchor path) :
    ∀ c ∈ path, pki.Certified (pki.key anchor) (pki.key c) := by
  induction path with
  | nil => exact fun c hc => absurd hc List.not_mem_nil
  | cons c path ih =>
    cases path with
    | nil =>
      rintro _ (_ | ⟨_, hc⟩)
      · exact .issued .anchor ((path_singleton_iff pki).mp h)
      · cases hc
    | cons issuer path =>
      obtain ⟨hsigned, hpath⟩ := (path_cons_cons_iff pki).mp h
      rintro _ (_ | ⟨_, hc⟩)
      · exact .issued (ih hpath issuer List.mem_cons_self) hsigned
      · exact ih hpath _ hc

end Pki

end Spec
end TrustedCa
