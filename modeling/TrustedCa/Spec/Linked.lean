import Mathlib.Logic.Function.Basic
import Mathlib.Data.List.Basic

/-!
# Singly linked lists in a memory of cells

`Seg next p xs q` says that the cells from pointer `p` on are `xs`, in order, and that the last
one points to `q`. `next` is the link field of every cell, and `none` is the null pointer.

* `Seg.append` cuts a list in two, `Seg.congr` is its frame rule, and `Seg.unique` says that a
  pointer is the head of one list only.
* `Seg.cons_front` and `Seg.snoc` are the two ways to insert a cell, and `Seg.link_last` joins two
  lists.
-/

namespace TrustedCa
namespace Spec

variable {A : Type}

/-- The cells from `p` on are `xs`, and the last one points to `q`. -/
def Seg (next : A → Option A) : Option A → List A → Option A → Prop
  | p, [], q => p = q
  | p, a :: xs, q => p = some a ∧ Seg next (next a) xs q

namespace Seg

variable {next next' : A → Option A} {p q : Option A} {xs ys : List A} {a t : A}

theorem append :
    Seg next p (xs ++ ys) q ↔ ∃ r, Seg next p xs r ∧ Seg next r ys q := by
  induction xs generalizing p with
  | nil => simp [Seg]
  | cons x xs ih => simp [Seg, ih, and_assoc]

/-- The cells of a list do not depend on the links of other cells. -/
theorem congr (hs : Seg next p xs q) (heq : ∀ a ∈ xs, next' a = next a) : Seg next' p xs q := by
  induction xs generalizing p with
  | nil => exact hs
  | cons x xs ih =>
    obtain ⟨hp, hs⟩ := hs
    rw [← heq x (by simp)] at hs
    exact ⟨hp, ih hs fun a ha => heq a (by simp [ha])⟩

/-- A pointer to a list that ends in null points to the list's first cell. -/
theorem eq_head? (hs : Seg next p xs none) : p = xs.head? := by
  cases xs with
  | nil => exact hs
  | cons x xs => exact hs.1

/-- The pointer and the links determine the cells. -/
theorem unique (hx : Seg next p xs none) (hy : Seg next p ys none) : xs = ys := by
  induction xs generalizing p ys with
  | nil =>
    obtain rfl : p = none := hx
    exact (List.head?_eq_none_iff.mp hy.eq_head?.symm).symm
  | cons x xs ih =>
    obtain ⟨rfl, hx⟩ := hx
    cases ys with
    | nil => cases hy
    | cons y ys =>
      obtain ⟨hxy, hy⟩ := hy
      obtain rfl := Option.some.inj hxy
      rw [ih hx hy]

/-- The link of a cell is its successor in the list. -/
theorem next_eq (hs : Seg next p (xs ++ a :: ys) none) : next a = ys.head? := by
  obtain ⟨r, -, -, hs⟩ := append.mp hs
  exact hs.eq_head?

/-- The part of a list from one of its cells on. -/
theorem suffix (hs : Seg next p (xs ++ a :: ys) none) : Seg next (some a) (a :: ys) none := by
  obtain ⟨r, -, rfl, hs⟩ := append.mp hs
  exact ⟨rfl, hs⟩

variable [DecidableEq A]

/-- A new cell in front of a list. -/
theorem cons_front (hs : Seg next p xs q) (ha : a ∉ xs) :
    Seg (Function.update next a p) (some a) (a :: xs) q := by
  refine ⟨rfl, ?_⟩
  rw [Function.update_self]
  refine hs.congr fun x hx => Function.update_of_ne ?_ _ _
  rintro rfl
  exact ha hx

/-- Linking the last cell `t` of a list to another list. -/
theorem link_last (hx : Seg next p (xs ++ [t]) none) (hy : Seg next q ys none) (htx : t ∉ xs)
    (hty : t ∉ ys) : Seg (Function.update next t q) p (xs ++ [t] ++ ys) none := by
  obtain ⟨r, hxs, hr, -⟩ := append.mp hx
  rw [List.append_assoc]
  refine append.mpr ⟨r, hxs.congr fun x hmem => Function.update_of_ne ?_ _ _, hr, ?_⟩
  · rintro rfl
    exact htx hmem
  · rw [Function.update_self]
    refine hy.congr fun y hmem => Function.update_of_ne ?_ _ _
    rintro rfl
    exact hty hmem

/-- A new cell `a` behind the last cell `t` of a list. -/
theorem snoc (hs : Seg next p (xs ++ [t]) none) (hnd : (xs ++ [t]).Nodup) (ha : next a = none)
    (hat : a ≠ t) : Seg (Function.update next t (some a)) p (xs ++ [t] ++ [a]) none := by
  have htx : t ∉ xs := fun ht => (List.nodup_append.mp hnd).2.2 t ht t (by simp) rfl
  exact hs.link_last ⟨rfl, ha⟩ htx (by simpa using hat.symm)

end Seg

end Spec
end TrustedCa
