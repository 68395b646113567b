import Mathlib.Logic.Function.Basic
import Mathlib.Data.List.Basic
import Mathlib.Algebra.BigOperators.Group.List.Basic
import Mathlib.Algebra.GroupWithZero.Nat

/-!
# Scatter and gather lists

A `Span` is a run of cells of one memory region, and a list of spans (an `iovec` array) names
cells in order. The memory is any function from a region and an index to a value.

* `read` gathers the values of the spans, `scatter` writes values into them.
* `take` and `drop` cut a list of spans at a position in the sequence of its cells.
* `Covers` is membership of a cell in the spans: `read_congr` and `scatter_of_not_covers` are the
  frame rules, and `read_scatter` says what is read back when the spans are in distinct regions.
-/

namespace TrustedCa
namespace Spec

/-- `len` cells of region `base` from index `off` on. -/
structure Span (A : Type) where
  base : A
  off : Nat
  len : Nat
  deriving DecidableEq

namespace Span

variable {A V : Type}

/-- The values of one span. -/
def read (m : A → Nat → V) (s : Span A) : List V :=
  (List.range s.len).map fun i => m s.base (s.off + i)

@[simp] theorem length_read (m : A → Nat → V) (s : Span A) : (s.read m).length = s.len := by
  simp [read]

/-- A span of no cells has no values. -/
theorem read_of_len {m : A → Nat → V} {s : Span A} (h : s.len = 0) : s.read m = [] := by
  simp [read, h]

/-- Two adjacent spans are one. -/
theorem read_split (m : A → Nat → V) (a : A) (off n k : Nat) :
    read m ⟨a, off, n + k⟩ = read m ⟨a, off, n⟩ ++ read m ⟨a, off + n, k⟩ := by
  simp [read, List.range_add, Nat.add_assoc, Function.comp_def]

theorem read_take (m : A → Nat → V) (s : Span A) (n : Nat) :
    (s.read m).take n = read m { s with len := min n s.len } := by
  simp [read, ← List.map_take, List.take_range]

theorem read_drop (m : A → Nat → V) (s : Span A) (n : Nat) :
    (s.read m).drop n = read m ⟨s.base, s.off + n, s.len - n⟩ := by
  by_cases hn : n ≤ s.len
  · obtain ⟨k, hk⟩ := Nat.exists_eq_add_of_le hn
    have : s.read m = read m ⟨s.base, s.off, n + k⟩ := by rw [← hk]
    rw [this, read_split, hk, Nat.add_sub_cancel_left]
    exact List.drop_left' (length_read ..)
  · rw [List.drop_eq_nil_of_le (by rw [length_read]; omega)]
    exact (read_of_len (by show s.len - n = 0; omega)).symm

end Span

namespace Gather

variable {A V : Type}

/-- The values of the spans, in order. -/
def read (m : A → Nat → V) (ss : List (Span A)) : List V := ss.flatMap (Span.read m)

/-- The number of cells. -/
def total (ss : List (Span A)) : Nat := (ss.map Span.len).sum

/-- The first `n` cells. -/
def take : Nat → List (Span A) → List (Span A)
  | 0, _ => []
  | _, [] => []
  | n + 1, s :: ss => { s with len := min (n + 1) s.len } :: take (n + 1 - s.len) ss

/-- All but the first `n` cells. -/
def drop : Nat → List (Span A) → List (Span A)
  | 0, ss => ss
  | _, [] => []
  | n + 1, s :: ss => ⟨s.base, s.off + (n + 1), s.len - (n + 1)⟩ :: drop (n + 1 - s.len) ss

/-- Cell `i` of region `a` is one of the spans' cells. -/
def Covers (ss : List (Span A)) (a : A) (i : Nat) : Prop :=
  ∃ s ∈ ss, s.base = a ∧ s.off ≤ i ∧ i < s.off + s.len

section Read

variable {m m' : A → Nat → V} {s : Span A} {ss ts : List (Span A)} {n : Nat}

@[simp] theorem read_nil : read m [] = [] := rfl

@[simp] theorem read_cons : read m (s :: ss) = s.read m ++ read m ss := by simp [read]

@[simp] theorem read_append : read m (ss ++ ts) = read m ss ++ read m ts := by simp [read]

@[simp] theorem total_nil : total ([] : List (Span A)) = 0 := rfl

@[simp] theorem total_cons : total (s :: ss) = s.len + total ss := by simp [total]

@[simp] theorem total_append : total (ss ++ ts) = total ss + total ts := by simp [total]

@[simp] theorem length_read (m : A → Nat → V) (ss : List (Span A)) :
    (read m ss).length = total ss := by
  induction ss with
  | nil => rfl
  | cons s ss ih => simp [ih]

@[simp] theorem covers_nil {a : A} {i : Nat} : ¬ Covers [] a i := by simp [Covers]

@[simp] theorem covers_cons {a : A} {i : Nat} :
    Covers (s :: ss) a i ↔ (s.base = a ∧ s.off ≤ i ∧ i < s.off + s.len) ∨ Covers ss a i := by
  simp [Covers]

/-- What is read depends on the cells of the spans only. -/
theorem read_congr (heq : ∀ a i, Covers ss a i → m' a i = m a i) : read m' ss = read m ss := by
  induction ss with
  | nil => rfl
  | cons s ss ih =>
    have hs : s.read m' = s.read m := by
      refine List.map_congr_left fun i hi => heq _ _ ?_
      rw [List.mem_range] at hi
      exact covers_cons.mpr (.inl ⟨rfl, by omega, by omega⟩)
    rw [read_cons, read_cons, hs, ih fun a i hc => heq a i (covers_cons.mpr (.inr hc))]

@[simp] theorem take_zero : take 0 ss = [] := by cases ss <;> rfl

@[simp] theorem drop_zero : drop 0 ss = ss := by cases ss <;> rfl

theorem take_cons (hn : 0 < n) :
    take n (s :: ss) = { s with len := min n s.len } :: take (n - s.len) ss := by
  cases n with
  | zero => omega
  | succ n => rfl

theorem drop_cons :
    drop n (s :: ss) = ⟨s.base, s.off + n, s.len - n⟩ :: drop (n - s.len) ss := by
  cases n with
  | zero =>
    rw [Nat.zero_sub, drop_zero, drop_zero]
    rfl
  | succ n => rfl

theorem drop_base : (drop n ss).map Span.base = ss.map Span.base := by
  induction ss generalizing n with
  | nil => cases n <;> rfl
  | cons s ss ih => rw [drop_cons, List.map_cons, List.map_cons, ih]

theorem read_take : read m (take n ss) = (read m ss).take n := by
  induction ss generalizing n with
  | nil => cases n <;> simp [take]
  | cons s ss ih =>
    by_cases hn : 0 < n
    · rw [take_cons hn, read_cons, read_cons, List.take_append, ih, Span.read_take,
        Span.length_read]
    · obtain rfl : n = 0 := by omega
      simp

theorem read_drop : read m (drop n ss) = (read m ss).drop n := by
  induction ss generalizing n with
  | nil => cases n <;> simp [drop]
  | cons s ss ih =>
    rw [drop_cons, read_cons, read_cons, List.drop_append, ih, Span.read_drop, Span.length_read]

@[simp] theorem total_take : total (take n ss) = min n (total ss) := by
  rw [← length_read (fun _ _ => ()), read_take, List.length_take, length_read]

/-- A span of the first part of a cut is the front of one of the spans. -/
theorem mem_take {t : Span A} (ht : t ∈ take n ss) :
    ∃ s ∈ ss, t.base = s.base ∧ t.off = s.off ∧ t.len ≤ s.len := by
  induction ss generalizing n with
  | nil => cases n <;> simp [take] at ht
  | cons s ss ih =>
    by_cases hn : 0 < n
    · rw [take_cons hn] at ht
      rcases List.mem_cons.mp ht with rfl | ht
      · exact ⟨s, by simp, rfl, rfl, Nat.min_le_right ..⟩
      · obtain ⟨r, hr, heq⟩ := ih ht
        exact ⟨r, by simp [hr], heq⟩
    · obtain rfl : n = 0 := by omega
      simp at ht

/-- No span of the first part of a cut is empty, when none of the spans is. -/
theorem len_pos_of_take {t : Span A} (hpos : ∀ s ∈ ss, 0 < s.len) (ht : t ∈ take n ss) :
    0 < t.len := by
  induction ss generalizing n with
  | nil => cases n <;> simp [take] at ht
  | cons s ss ih =>
    by_cases hn : 0 < n
    · rw [take_cons hn] at ht
      rcases List.mem_cons.mp ht with rfl | ht
      · exact Nat.lt_min.mpr ⟨hn, hpos s (by simp)⟩
      · exact ih (fun s hs => hpos s (by simp [hs])) ht
    · obtain rfl : n = 0 := by omega
      simp at ht

/-- The first cells of a list are cells of the list. -/
theorem covers_of_take {a : A} {i : Nat} (h : Covers (take n ss) a i) : Covers ss a i := by
  obtain ⟨t, ht, rfl, hle, hlt⟩ := h
  obtain ⟨s, hs, hbase, hoff, hlen⟩ := mem_take ht
  exact ⟨s, hs, hbase.symm, by omega, by omega⟩

theorem covers_of_drop {a : A} {i : Nat} (h : Covers (drop n ss) a i) : Covers ss a i := by
  induction ss generalizing n with
  | nil => cases n <;> simp [drop] at h
  | cons s ss ih =>
    rw [drop_cons, covers_cons] at h
    rcases h with ⟨h1, h2, h3⟩ | h
    · exact covers_cons.mpr (.inl ⟨h1, by simp only at h2; omega, by simp only at h2 h3; omega⟩)
    · exact covers_cons.mpr (.inr (ih h))

theorem base_mem_of_covers {a : A} {i : Nat} (h : Covers ss a i) : a ∈ ss.map Span.base := by
  obtain ⟨s, hs, rfl, -⟩ := h
  exact List.mem_map_of_mem hs

/-- The two parts of a cut have no cell in common, when the regions are distinct. -/
theorem not_covers_take_drop {a : A} {i : Nat} (hnd : (ss.map Span.base).Nodup)
    (ht : Covers (take n ss) a i) (hd : Covers (drop n ss) a i) : False := by
  induction ss generalizing n with
  | nil => cases n <;> simp [take] at ht
  | cons s ss ih =>
    rw [List.map_cons, List.nodup_cons] at hnd
    by_cases hn : 0 < n
    · rw [take_cons hn, covers_cons] at ht
      rw [drop_cons, covers_cons] at hd
      rcases ht with ⟨rfl, ht⟩ | ht <;> rcases hd with ⟨hs, hd⟩ | hd
      · simp only at ht hd
        omega
      · exact hnd.1 (base_mem_of_covers (covers_of_drop hd))
      · obtain rfl : s.base = a := hs
        exact hnd.1 (base_mem_of_covers (covers_of_take ht))
      · exact ih hnd.2 ht hd
    · obtain rfl : n = 0 := by omega
      simp at ht

end Read

section Write

variable [DecidableEq A]

/-- `memcpy` of `vs` to index `off` of region `a`. -/
def copyTo (m : A → Nat → V) (a : A) (off : Nat) (vs : List V) : A → Nat → V := fun a' i =>
  if a' = a ∧ off ≤ i then (vs[i - off]?).getD (m a' i) else m a' i

/-- The values `vs` written into the spans, in order. Values that do not fit are left out. -/
def scatter (m : A → Nat → V) : List (Span A) → List V → A → Nat → V
  | [], _ => m
  | s :: ss, vs => scatter (copyTo m s.base s.off (vs.take s.len)) ss (vs.drop s.len)

variable {m : A → Nat → V} {s : Span A} {ss : List (Span A)} {vs : List V} {a : A} {i n : Nat}

theorem copyTo_of_not {b : A} {off : Nat} (h : ¬ (b = a ∧ off ≤ i ∧ i < off + vs.length)) :
    copyTo m b off vs a i = m a i := by
  unfold copyTo
  split
  · next hc =>
    have : vs.length ≤ i - off := by
      by_contra hlt
      exact h ⟨hc.1.symm, hc.2, by omega⟩
    rw [List.getElem?_eq_none this]
    rfl
  · rfl

theorem copyTo_self {off : Nat} {v : V} (hv : vs[n]? = some v) :
    copyTo m a off vs a (off + n) = v := by
  rw [copyTo, if_pos ⟨rfl, by omega⟩, Nat.add_sub_cancel_left, hv]
  rfl

theorem read_copyTo_all {off : Nat} :
    Span.read (copyTo m a off vs) ⟨a, off, vs.length⟩ = vs := by
  refine List.ext_getElem (by simp) fun k hk _ => ?_
  rw [Span.length_read] at hk
  simp only [Span.read, List.getElem_map, List.getElem_range]
  exact copyTo_self (List.getElem?_eq_getElem hk)

/-- The values copied to the front of a span are read back from it. -/
theorem read_copyTo (hlen : vs.length ≤ s.len) :
    s.read (copyTo m s.base s.off vs) = vs ++ (s.read m).drop vs.length := by
  obtain ⟨k, hk⟩ := Nat.exists_eq_add_of_le hlen
  have hs : s = ⟨s.base, s.off, vs.length + k⟩ := by rw [← hk]
  have hrest : Span.read (copyTo m s.base s.off vs) ⟨s.base, s.off + vs.length, k⟩
      = Span.read m ⟨s.base, s.off + vs.length, k⟩ :=
    List.map_congr_left fun i _ => copyTo_of_not (by simp only; omega)
  rw [Span.read_drop, hk, Nat.add_sub_cancel_left, ← hrest]
  conv_lhs => rw [hs]
  rw [Span.read_split, read_copyTo_all]

theorem scatter_of_not_covers (h : ¬ Covers ss a i) : scatter m ss vs a i = m a i := by
  induction ss generalizing m vs with
  | nil => rfl
  | cons s ss ih =>
    rw [covers_cons, not_or] at h
    rw [scatter, ih h.2]
    refine copyTo_of_not fun hc => h.1 ⟨hc.1, hc.2.1, ?_⟩
    have := hc.2.2
    rw [List.length_take] at this
    omega

/-- Values written into spans of distinct regions are read back from them. -/
theorem read_scatter (hnd : (ss.map Span.base).Nodup) (hlen : vs.length ≤ total ss) :
    read (scatter m ss vs) ss = vs ++ (read m ss).drop vs.length := by
  induction ss generalizing m vs with
  | nil =>
    obtain rfl : vs = [] := List.length_eq_zero_iff.mp (by simpa using hlen)
    rfl
  | cons s ss ih =>
    rw [List.map_cons, List.nodup_cons] at hnd
    rw [total_cons] at hlen
    have hs : s.read (scatter m (s :: ss) vs) = s.read (copyTo m s.base s.off (vs.take s.len)) := by
      rw [scatter]
      exact List.map_congr_left fun k _ =>
        scatter_of_not_covers fun hc => hnd.1 (base_mem_of_covers hc)
    have hss : read (copyTo m s.base s.off (vs.take s.len)) ss = read m ss := by
      refine read_congr fun a k hc => copyTo_of_not ?_
      rintro ⟨rfl, -⟩
      exact hnd.1 (base_mem_of_covers hc)
    rw [read_cons, read_cons, hs, read_copyTo (by rw [List.length_take]; omega), scatter,
      ih hnd.2 (by rw [List.length_drop]; omega), hss, List.drop_append, Span.length_read,
      List.length_take, List.length_drop]
    by_cases hv : vs.length ≤ s.len
    · rw [List.take_of_length_le hv, List.drop_of_length_le hv, Nat.min_eq_right hv]
      simp [Nat.sub_eq_zero_of_le hv]
    · have hmin : min s.len vs.length = s.len := by omega
      rw [hmin, List.drop_of_length_le (by simp : (s.read m).length ≤ s.len),
        List.drop_of_length_le (by rw [Span.length_read]; omega : (s.read m).length ≤ vs.length)]
      simp [← List.append_assoc]

/-- Values written at position `n` of the spans replace the ones that were there. -/
theorem read_scatter_drop (hnd : (ss.map Span.base).Nodup) (hlen : n + vs.length ≤ total ss) :
    read (scatter m (drop n ss) vs) ss
      = (read m ss).take n ++ vs ++ (read m ss).drop (n + vs.length) := by
  have hdrop : total (drop n ss) = total ss - n := by
    rw [← length_read (fun _ _ => ()), read_drop, List.length_drop, length_read]
  have htake : read (scatter m (drop n ss) vs) (take n ss) = read m (take n ss) :=
    read_congr fun a k hc => scatter_of_not_covers fun hd => not_covers_take_drop hnd hc hd
  rw [← List.take_append_drop n (read (scatter m (drop n ss) vs) ss), ← read_take, ← read_drop,
    htake, read_scatter (by rw [drop_base]; exact hnd) (by omega), read_take, read_drop,
    List.drop_drop, List.append_assoc]

end Write

end Gather

end Spec
end TrustedCa
