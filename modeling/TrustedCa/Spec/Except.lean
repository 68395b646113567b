import Mathlib.Data.List.Forall2

/-!
# Blocks that return or throw

What a block of `Except` has done, when it has returned.
-/

namespace TrustedCa
namespace Spec

variable {ε α β : Type}

/-- A block returned: its first step did, and so did the rest. -/
theorem bind_eq_ok {x : Except ε α} {f : α → Except ε β} {b : β} :
    (x >>= f) = .ok b ↔ ∃ a, x = .ok a ∧ f a = .ok b := by
  cases x <;> simp [bind, Except.bind]

/-- What is known of a block from its result alone. -/
theorem toOption_eq_some {x : Except ε α} {a : α} : x.toOption = some a ↔ x = .ok a := by
  cases x <;> simp [Except.toOption]

/-- A `try` returned and its handler only throws: its block returned. -/
theorem tryCatch_eq_ok {x : Except ε α} {handler : ε → Except ε α} {a : α}
    (hthrows : ∀ e b, handler e ≠ .ok b) : tryCatch x handler = .ok a ↔ x = .ok a := by
  cases x with
  | ok b => exact .rfl
  | error e => exact ⟨fun h => absurd h (hthrows e a), fun h => by cases h⟩

/-- A block for each element of a list returned: each of them did. -/
theorem mapM_eq_ok_iff {f : α → Except ε β} {as : List α} {bs : List β} :
    as.mapM f = .ok bs ↔ List.Forall₂ (fun a b => f a = .ok b) as bs := by
  induction as generalizing bs with
  | nil =>
    rw [List.mapM_nil, List.forall₂_nil_left_iff]
    exact ⟨fun h => (Except.ok.inj h).symm, fun h => h ▸ rfl⟩
  | cons a as ih =>
    rw [List.mapM_cons, List.forall₂_cons_left_iff, bind_eq_ok]
    constructor
    · rintro ⟨b, hb, h⟩
      obtain ⟨bs', hbs', h⟩ := bind_eq_ok.mp h
      exact ⟨b, bs', hb, ih.mp hbs', (Except.ok.inj h).symm⟩
    · rintro ⟨b, bs', hb, hbs', rfl⟩
      exact ⟨b, hb, bind_eq_ok.mpr ⟨bs', ih.mpr hbs', rfl⟩⟩

theorem mapM_map_eq_ok {γ : Type} {l : List γ} {g : γ → α} {f : α → Except ε β} {k : γ → β}
    (h : ∀ c ∈ l, f (g c) = .ok (k c)) : (l.map g).mapM f = .ok (l.map k) := by
  rw [mapM_eq_ok_iff, List.forall₂_map_left_iff, List.forall₂_map_right_iff]
  exact List.forall₂_same.mpr h

end Spec
end TrustedCa
