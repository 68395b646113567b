import Mathlib.Data.List.Count
import Mathlib.Data.List.TakeWhile

/-!
# Texts that can be taken apart again

* `flatMap_injective`: a text written symbol by symbol, where each symbol's piece can be told at the
  front of any text.
* `append_cons_inj_of_count`: two parts joined by a separator, where it is known how many separators
  the first part has.
* `takeWhile_append_cons_eq_iff`: when the first part is what stands before the first separator.
-/

namespace TrustedCa
namespace Spec

variable {α β : Type}

/-- A text of pieces determines its symbols, if the front of a text determines the first one. -/
theorem flatMap_injective {f : α → List β} (hne : ∀ a, f a ≠ [])
    (hfront : ∀ a b s t, f a ++ s = f b ++ t → a = b) : Function.Injective (List.flatMap f) := by
  intro as
  induction as with
  | nil =>
    rintro (_ | ⟨b, bs⟩) h
    · rfl
    · exact absurd (List.append_eq_nil_iff.mp h.symm).1 (hne b)
  | cons a as ih =>
    rintro (_ | ⟨b, bs⟩) h
    · exact absurd (List.append_eq_nil_iff.mp h).1 (hne a)
    · rw [List.flatMap_cons, List.flatMap_cons] at h
      obtain rfl := hfront a b _ _ h
      rw [ih (List.append_cancel_left h)]

/-- The two parts of a text around a separator, if the first parts have as many separators. -/
theorem append_cons_inj_of_count [DecidableEq α] {c : α} {a b s t : List α}
    (hcount : a.count c = b.count c) (h : a ++ c :: s = b ++ c :: t) : a = b ∧ s = t := by
  induction a generalizing b with
  | nil =>
    cases b with
    | nil => exact ⟨rfl, (List.cons.inj h).2⟩
    | cons y b =>
      obtain ⟨rfl, -⟩ := List.cons.inj h
      simp at hcount
  | cons x a ih =>
    cases b with
    | nil =>
      obtain ⟨rfl, -⟩ := List.cons.inj h
      simp at hcount
    | cons y b =>
      obtain ⟨rfl, htail⟩ := List.cons.inj h
      have hcount' : a.count c = b.count c := by
        simp only [List.count_cons] at hcount
        omega
      obtain ⟨rfl, rfl⟩ := ih hcount' htail
      exact ⟨rfl, rfl⟩

theorem takeWhile_append_cons_eq_iff {p : α → Bool} {c : α} (hc : p c = false) (a s : List α) :
    (a ++ c :: s).takeWhile p = a ↔ ∀ x ∈ a, p x = true := by
  constructor
  · intro h x hx
    rw [← h] at hx
    exact List.mem_takeWhile_imp hx
  · intro h
    have hstop : ¬ p c = true := by rw [hc]; exact Bool.false_ne_true
    rw [List.takeWhile_append_of_pos h, List.takeWhile_cons_of_neg hstop, List.append_nil]

/-- A text of the same length as the first part is what stands before the separator if it is the first
part and that has no separator. -/
theorem takeWhile_append_cons_eq_iff_of_length {p : α → Bool} {c : α} (hc : p c = false)
    {a b : List α} (s : List α) (hlen : b.length = a.length) :
    (a ++ c :: s).takeWhile p = b ↔ b = a ∧ ∀ x ∈ a, p x = true := by
  constructor
  · intro h
    have hprefix : b <+: a ++ c :: s := h ▸ List.takeWhile_prefix p
    have heq : b = a := by
      rw [List.prefix_iff_eq_take.mp hprefix, hlen, List.take_left]
    exact ⟨heq, (takeWhile_append_cons_eq_iff hc a s).mp (h.trans heq)⟩
  · rintro ⟨rfl, h⟩
    exact (takeWhile_append_cons_eq_iff hc _ s).mpr h

end Spec
end TrustedCa
