import Mathlib.Data.List.Perm.Basic
import Mathlib.Data.List.Nodup

/-!
# One item for each slot

Items with a slot number each: `OneEach` says that every slot below `n` has exactly one. An item is
taken off its slot (`OneEach.eraseIdx`), the slot is then free (`AllBut`) and another item is put on
it (`AllBut.snoc`). `OneEach.grow` adds a slot at the end.
-/

namespace TrustedCa
namespace Spec
namespace Slots

variable {α : Type*} {slot : α → Nat} {items : List α} {n k i : Nat} {a b : α}

/-- Each slot below `n` has one item. -/
def OneEach (slot : α → Nat) (items : List α) (n : Nat) : Prop :=
  (items.map slot).Perm (List.range n)

/-- Each slot below `n` has one item, but slot `i` has none. -/
def AllBut (slot : α → Nat) (items : List α) (n i : Nat) : Prop :=
  (i :: items.map slot).Perm (List.range n)

theorem OneEach.nodup (h : OneEach slot items n) : (items.map slot).Nodup :=
  h.nodup_iff.mpr List.nodup_range

/-- Two items of one slot are the same. -/
theorem OneEach.unique (h : OneEach slot items n) (ha : a ∈ items) (hb : b ∈ items)
    (heq : slot a = slot b) : a = b :=
  List.inj_on_of_nodup_map h.nodup ha hb heq

theorem OneEach.countP_eq_one (h : OneEach slot items n) (hi : i < n) :
    items.countP (fun a => slot a = i) = 1 := by
  have hcount : (items.map slot).count i = 1 :=
    List.count_eq_one_of_mem h.nodup (h.mem_iff.mpr (List.mem_range.mpr hi))
  rw [← hcount, List.count, List.countP_map]
  refine List.countP_congr fun a _ => ?_
  simp

theorem OneEach.eraseIdx (h : OneEach slot items n) (hk : items[k]? = some a) :
    AllBut slot (items.eraseIdx k) n (slot a) := by
  obtain ⟨hlt, rfl⟩ := List.getElem?_eq_some_iff.mp hk
  exact ((List.getElem_cons_eraseIdx_perm hlt).map slot).trans h

theorem AllBut.lt (h : AllBut slot items n i) : i < n :=
  List.mem_range.mp (h.mem_iff.mp List.mem_cons_self)

theorem AllBut.slot_ne (h : AllBut slot items n i) (ha : a ∈ items) : slot a ≠ i := by
  have hnodup : (i :: items.map slot).Nodup := h.nodup_iff.mpr List.nodup_range
  intro heq
  exact (List.nodup_cons.mp hnodup).1 (heq ▸ List.mem_map_of_mem ha)

theorem AllBut.snoc (h : AllBut slot items n i) (ha : slot a = i) :
    OneEach slot (items ++ [a]) n := by
  rw [OneEach, List.map_append, List.map_singleton, ha]
  exact List.perm_append_singleton i (items.map slot) |>.trans h

theorem OneEach.grow (h : OneEach slot items n) (ha : slot a = n) :
    OneEach slot (items ++ [a]) (n + 1) := by
  rw [OneEach, List.map_append, List.map_singleton, ha, List.range_succ]
  exact h.append_right [n]

theorem map_set_of_slot_eq (hk : items[k]? = some a) (hb : slot b = slot a) :
    (items.set k b).map slot = items.map slot := by
  obtain ⟨hlt, rfl⟩ := List.getElem?_eq_some_iff.mp hk
  rw [List.map_set, hb, ← List.map_set, List.set_getElem_self]

end Slots
end Spec
end TrustedCa
