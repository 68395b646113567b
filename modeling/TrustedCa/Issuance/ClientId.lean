import TrustedCa.Issuance.Domain
import TrustedCa.Spec.Framing

/-!
# Tenants do not share a policy file (`CallerIdentity.getClientId`)

The client id is the path of a caller's policy file. The two parts of a client id are escaped, so that
the only slash in it is the one between them, and an escaped text determines the text.
-/

namespace TrustedCa
namespace Issuance

open Spec

namespace CallerIdentity

theorem hexDigit_inj {m n : Nat} (hm : m < 16) (hn : n < 16)
    (h : JString.hexDigit m = JString.hexDigit n) : m = n := by
  have hall : ∀ m n : Fin 16, JString.hexDigit m = JString.hexDigit n → m = n := by decide
  exact Fin.mk.inj_iff.mp (hall ⟨m, hm⟩ ⟨n, hn⟩ h)

theorem isSafe_hexDigit {n : Nat} (hn : n < 16) : isSafe (JString.hexDigit n) = true := by
  have hall : ∀ n : Fin 16, isSafe (JString.hexDigit n) = true := by decide
  exact hall ⟨n, hn⟩

/-- The four digits determine the code unit. -/
theorem hex4_inj {c d : UInt16} (h : JString.hex4 c = JString.hex4 d) : c = d := by
  have hc := c.toNat_lt
  have hd := d.toNat_lt
  simp only [JString.hex4, List.cons.injEq, and_true] at h
  obtain ⟨h₁, h₂, h₃, h₄⟩ := h
  have e₁ := hexDigit_inj (by omega) (by omega) h₁
  have e₂ := hexDigit_inj (by omega) (by omega) h₂
  have e₃ := hexDigit_inj (by omega) (by omega) h₃
  have e₄ := hexDigit_inj (by omega) (by omega) h₄
  apply UInt16.toNat_inj.mp
  omega

/-- What a code unit is written as. -/
def piece (c : UInt16) : JString :=
  if isSafe c then [c] else JString.char '_' :: JString.hex4 c

theorem escape_eq (s : JString) : escape s = s.flatMap piece := rfl

/-- Only an escaped code unit starts with an underscore, and what follows has a fixed length. -/
theorem piece_front (c d : UInt16) (s t : JString) (h : piece c ++ s = piece d ++ t) : c = d := by
  have hunder : ∀ e, isSafe e = true → e ≠ JString.char '_' := by
    rintro e he rfl
    exact absurd he (by decide)
  unfold piece at h
  split at h
  · next hc =>
    split at h
    · exact (List.cons.inj h).1
    · exact absurd (List.cons.inj h).1 (hunder c hc)
  · split at h
    · next hd => exact absurd (List.cons.inj h).1.symm (hunder d hd)
    · have hparts : JString.hex4 c ++ s = JString.hex4 d ++ t := (List.cons.inj h).2
      exact hex4_inj (List.append_inj hparts rfl).1

theorem escape_injective : Function.Injective escape := by
  refine flatMap_injective (fun c => ?_) piece_front
  split <;> simp

theorem mem_escape {s : JString} {c : UInt16} (hc : c ∈ escape s) :
    isSafe c = true ∨ c = JString.char '_' := by
  rw [escape_eq, List.mem_flatMap] at hc
  obtain ⟨d, -, hd⟩ := hc
  unfold piece at hd
  split at hd
  · next hsafe =>
    rw [List.mem_singleton] at hd
    exact .inl (hd ▸ hsafe)
  · have hlt := d.toNat_lt
    simp only [JString.hex4, List.mem_cons, List.not_mem_nil, or_false] at hd
    rcases hd with rfl | rfl | rfl | rfl | rfl
    · exact .inr rfl
    all_goals exact .inl (isSafe_hexDigit (by omega))

theorem slash_notMem_escape (s : JString) : JString.char '/' ∉ escape s := by
  intro hmem
  rcases mem_escape hmem with h | h <;> exact absurd h (by decide)

/-- Tenant isolation: callers share a client id if and only if they have the same issuer and subject.
A client id has exactly one slash, and otherwise letters, digits, hyphens, periods and
underscores. -/
theorem getClientId_isolates (a b : CallerIdentity) :
    (a.getClientId = b.getClientId ↔ a.issuer = b.issuer ∧ a.subject = b.subject) ∧
      a.getClientId.count (JString.char '/') = 1 ∧
      ∀ c ∈ a.getClientId,
        c = JString.char '/' ∨ isSafe c = true ∨ c = JString.char '_' := by
  have hid : ∀ x : CallerIdentity,
      x.getClientId = escape x.issuer ++ JString.char '/' :: escape x.subject := by
    intro x
    rw [getClientId, List.append_assoc]
    rfl
  have hnone : ∀ s, (escape s).count (JString.char '/') = 0 := fun s =>
    List.count_eq_zero.mpr (slash_notMem_escape s)
  refine ⟨⟨fun h => ?_, fun h => by rw [hid, hid, h.1, h.2]⟩, ?_, ?_⟩
  · rw [hid, hid] at h
    obtain ⟨hi, hs⟩ := append_cons_inj_of_count ((hnone _).trans (hnone _).symm) h
    exact ⟨escape_injective hi, escape_injective hs⟩
  · rw [hid, List.count_append, List.count_cons, hnone, hnone]
    rfl
  · intro c hc
    rw [hid, List.mem_append, List.mem_cons] at hc
    rcases hc with hc | rfl | hc
    · exact .inr (mem_escape hc)
    · exact .inl rfl
    · exact .inr (mem_escape hc)

end CallerIdentity

end Issuance
end TrustedCa
