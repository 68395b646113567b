import Mathlib.Data.Int.Order.Basic
import Mathlib.Logic.Function.Basic

/-!
# Caches that load what they do not have

A cache between threads and a source that changes. A thread that asks for a key is given its entry
while that is young, and otherwise loads it: it asks the source and makes an entry of the answer.
The others that ask for the key wait meanwhile. A load that fails leaves the cache as it is.

* Moments are counted, and `Source.millis` is the clock. The source may change from moment to moment.
* `Step`: what a thread that asks for a key does next. A load is three steps, as the source may
  change before it answers and the clock may go on before the entry is made.
* `Sound`: what holds of the cache at all times. `Step.ok_fresh`: how old an answer may be.
  `Sound.spaced`: how long after an entry was made the next load of its key begins.
-/

namespace TrustedCa
namespace Spec
namespace LoadingCache

variable {ι K V ε : Type}

/-- The source, the clock, and the lifetime of an entry. -/
structure Source (K V ε : Type) where
  content : Nat → K → V
  fails : K → ε → Prop
  millis : Nat → Int
  millis_mono : ∀ {m n}, m ≤ n → millis m ≤ millis n
  lifetime : Int
  lifetime_pos : 0 < lifetime

/-- A value, with the moments at which the source gave it and at which it was stored. -/
structure Entry (V : Type) where
  value : V
  read : Nat
  written : Nat

/-- A load by a thread, with the answer of the source and its moment. -/
structure Load (ι V : Type) where
  owner : ι
  begun : Nat
  answer : Option (V × Nat)

/-- A load that ended with an entry: the moments at which it began and at which the entry was made. -/
structure Made where
  begun : Nat
  written : Nat

/-- The entries and the loads, the loads that have ended with an entry, in their order, and the longest
time that it took to make an entry of an answer. The last two are not part of a cache. -/
structure Cache (ι K V : Type) where
  entries : K → Option (Entry V) := fun _ => none
  loads : K → Option (Load ι V) := fun _ => none
  made : K → List Made := fun _ => []
  slowest : Int := 0

variable (src : Source K V ε)

/-- The entry has not expired. -/
def Entry.Alive (m : Nat) (e : Entry V) : Prop := src.millis m - src.millis e.written < src.lifetime

variable [DecidableEq K]

/-- A step of the thread `i` that asks for the key `k`, at the moment `m`, with the result where it
is the last one. -/
inductive Step (i : ι) (k : K) (m : Nat) :
    Cache ι K V → Option (Except ε V) → Cache ι K V → Prop
  | hit {c : Cache ι K V} {e : Entry V} (he : c.entries k = some e) (ha : e.Alive src m) :
    Step i k m c (some (.ok e.value)) c
  | start {c : Cache ι K V} (he : ∀ e, c.entries k = some e → ¬ e.Alive src m)
      (hl : c.loads k = none) :
    Step i k m c none { c with loads := Function.update c.loads k (some ⟨i, m, none⟩) }
  | read {c : Cache ι K V} {b : Nat} (hl : c.loads k = some ⟨i, b, none⟩) :
    Step i k m c none
      { c with loads := Function.update c.loads k (some ⟨i, b, some (src.content m k, m)⟩) }
  | fail {c : Cache ι K V} {b : Nat} {e : ε} (hl : c.loads k = some ⟨i, b, none⟩)
      (he : src.fails k e) :
    Step i k m c (some (.error e)) { c with loads := Function.update c.loads k none }
  | write {c : Cache ι K V} {b : Nat} {v : V} {r : Nat}
      (hl : c.loads k = some ⟨i, b, some (v, r)⟩) :
    Step i k m c (some (.ok v))
      { entries := Function.update c.entries k (some ⟨v, r, m⟩)
        loads := Function.update c.loads k none
        made := Function.update c.made k (c.made k ++ [⟨b, m⟩])
        slowest := max c.slowest (src.millis m - src.millis r) }

variable {src}

/-- The entry holds what the source gave. -/
structure Entry.Sound (src : Source K V ε) (k : K) (m : Nat) (slowest : Int) (e : Entry V) : Prop where
  value : e.value = src.content e.read k
  read_le : e.read ≤ e.written
  written_le : e.written ≤ m
  slowest : src.millis e.written - src.millis e.read ≤ slowest

/-- The load was begun when the entry had expired, and its answer is what the source gave since. -/
structure Load.Sound (src : Source K V ε) (k : K) (m : Nat) (entry : Option (Entry V))
    (l : Load ι V) : Prop where
  begun_le : l.begun ≤ m
  expired : ∀ e, entry = some e → src.millis e.written + src.lifetime ≤ src.millis l.begun
  answer : ∀ v r, l.answer = some (v, r) → v = src.content r k ∧ l.begun ≤ r ∧ r ≤ m

/-- The load `b` began when the entry that the load `a` had made was a lifetime old. -/
def Apart (src : Source K V ε) (a b : Made) : Prop :=
  src.millis a.written + src.lifetime ≤ src.millis b.begun

/-- The loads that made entries are apart, and the entry is that of the last one. -/
structure Spaced (src : Source K V ε) (made : List Made) (entry : Option (Entry V)) : Prop where
  apart : made.Pairwise (Apart src)
  begun_le : ∀ a ∈ made, a.begun ≤ a.written
  written_le : ∀ a ∈ made, ∃ e, entry = some e ∧ a.written ≤ e.written
  last : ∀ e, entry = some e → ∃ a ∈ made, a.written = e.written

/-- What holds of the cache at the moment `m`. -/
structure Sound (src : Source K V ε) (m : Nat) (c : Cache ι K V) : Prop where
  entry : ∀ k e, c.entries k = some e → e.Sound src k m c.slowest
  load : ∀ k l, c.loads k = some l → l.Sound src k m (c.entries k)
  spaced : ∀ k, Spaced src (c.made k) (c.entries k)

omit [DecidableEq K] in
theorem sound_empty (m : Nat) : Sound src m ({} : Cache ι K V) where
  entry _ _ h := by cases h
  load _ _ h := by cases h
  spaced _ :=
    { apart := .nil
      begun_le := List.forall_mem_nil _
      written_le := List.forall_mem_nil _
      last := fun e he => by cases he }

variable {i : ι} {k : K} {m n : Nat} {c c' : Cache ι K V} {r : Option (Except ε V)}

omit [DecidableEq K] in
/-- Time passes. -/
theorem Sound.later (h : Sound src m c) (hn : m ≤ n) : Sound src n c where
  entry k e he := { h.entry k e he with written_le := Nat.le_trans (h.entry k e he).written_le hn }
  load k l hl :=
    { begun_le := Nat.le_trans (h.load k l hl).begun_le hn
      expired := (h.load k l hl).expired
      answer := fun v r hr =>
        let ⟨hv, hb, hm⟩ := (h.load k l hl).answer v r hr
        ⟨hv, hb, Nat.le_trans hm hn⟩ }
  spaced := h.spaced

theorem Step.slowest_le (hs : Step src i k m c r c') : c.slowest ≤ c'.slowest := by
  cases hs with
  | write hl => exact le_max_left _ _
  | _ => exact le_refl _

/-- A new load, or another state of one. -/
theorem Sound.update_load (h : Sound src m c) {l : Option (Load ι V)}
    (hl : ∀ l', l = some l' → l'.Sound src k m (c.entries k)) :
    Sound src m { c with loads := Function.update c.loads k l } where
  entry := h.entry
  load k' l' hl' := by
    by_cases hk : k' = k
    · subst hk
      dsimp only at hl'
      rw [Function.update_self] at hl'
      exact hl l' hl'
    · dsimp only at hl'
      rw [Function.update_of_ne hk] at hl'
      exact h.load k' l' hl'
  spaced := h.spaced

omit [DecidableEq K] in
/-- The next load that makes an entry. It began when the entry of the last one had expired. -/
theorem Spaced.write {made : List Made} {entry : Option (Entry V)} (h : Spaced src made entry)
    (hw : ∀ e, entry = some e → e.written ≤ m) {l : Load ι V} (hl : l.Sound src k m entry) (v : V)
    (r : Nat) : Spaced src (made ++ [⟨l.begun, m⟩]) (some ⟨v, r, m⟩) where
  apart := by
    refine List.pairwise_append.mpr ⟨h.apart, List.pairwise_singleton _ _, fun a ha b hb => ?_⟩
    rw [List.mem_singleton.mp hb]
    obtain ⟨e, he, hle⟩ := h.written_le a ha
    have hexpired := hl.expired e he
    have hmono : src.millis a.written ≤ src.millis e.written := src.millis_mono hle
    unfold Apart
    dsimp only
    omega
  begun_le := by
    rw [List.forall_mem_append, List.forall_mem_singleton]
    exact ⟨h.begun_le, hl.begun_le⟩
  written_le a ha := by
    refine ⟨_, rfl, ?_⟩
    rcases List.mem_append.mp ha with ha | ha
    · obtain ⟨e, he, hle⟩ := h.written_le a ha
      exact Nat.le_trans hle (hw e he)
    · exact Nat.le_of_eq (congrArg Made.written (List.mem_singleton.mp ha))
  last e he := by
    cases he
    exact ⟨_, List.mem_append_right _ (List.mem_singleton_self _), rfl⟩

/-- The entry that a load makes. -/
theorem Sound.write (h : Sound src m c) {l : Load ι V} (hl : c.loads k = some l) {v : V} {r : Nat}
    (hr : l.answer = some (v, r)) :
    Sound src m
      { entries := Function.update c.entries k (some ⟨v, r, m⟩)
        loads := Function.update c.loads k none
        made := Function.update c.made k (c.made k ++ [⟨l.begun, m⟩])
        slowest := max c.slowest (src.millis m - src.millis r) } where
  entry k' e he := by
    dsimp only at he ⊢
    by_cases hk : k' = k
    · subst hk
      rw [Function.update_self] at he
      cases he
      obtain ⟨hv, -, hm⟩ := (h.load k' l hl).answer v r hr
      exact ⟨hv, hm, Nat.le_refl _, le_max_right _ _⟩
    · rw [Function.update_of_ne hk] at he
      exact { h.entry k' e he with
        slowest := Int.le_trans (h.entry k' e he).slowest (le_max_left _ _) }
  load k' l' hl' := by
    dsimp only at hl' ⊢
    by_cases hk : k' = k
    · subst hk
      rw [Function.update_self] at hl'
      cases hl'
    · rw [Function.update_of_ne hk] at hl' ⊢
      exact h.load k' l' hl'
  spaced k' := by
    dsimp only
    by_cases hk : k' = k
    · subst hk
      rw [Function.update_self, Function.update_self]
      exact (h.spaced k').write (fun e he => (h.entry k' e he).written_le) (h.load k' l hl) v r
    · rw [Function.update_of_ne hk, Function.update_of_ne hk]
      exact h.spaced k'

theorem Step.sound (hs : Step src i k m c r c') (h : Sound src m c) : Sound src m c' := by
  cases hs with
  | hit he ha => exact h
  | start he hl =>
    refine h.update_load fun l' hl' => ?_
    cases hl'
    refine ⟨Nat.le_refl _, fun e hke => ?_, fun v r hr => by cases hr⟩
    have hdead := he e hke
    simp only [Entry.Alive] at hdead
    dsimp only
    omega
  | read hl =>
    refine h.update_load fun l' hl' => ?_
    cases hl'
    refine ⟨(h.load k _ hl).begun_le, (h.load k _ hl).expired, fun v r hr => ?_⟩
    cases hr
    exact ⟨rfl, (h.load k _ hl).begun_le, Nat.le_refl _⟩
  | fail hl he => exact h.update_load fun l' hl' => by cases hl'
  | write hl => exact h.write hl rfl

/-- An answer is what the source gave, less than a lifetime before the entry was made and it was
served. -/
def Fresh (src : Source K V ε) (slowest : Int) (k : K) (m : Nat) (v : V) : Prop :=
  ∃ read, read ≤ m ∧ v = src.content read k ∧
    src.millis m < src.millis read + src.lifetime + slowest

omit [DecidableEq K] in
theorem Fresh.mono {slowest slowest' : Int} {v : V} (h : Fresh src slowest k m v)
    (hs : slowest ≤ slowest') : Fresh src slowest' k m v := by
  obtain ⟨read, hread, hv, hm⟩ := h
  exact ⟨read, hread, hv, by omega⟩

theorem Step.ok_fresh (h : Sound src m c) {v : V} (hs : Step src i k m c (some (.ok v)) c') :
    Fresh src c'.slowest k m v := by
  cases hs with
  | @hit e he ha =>
    obtain ⟨hv, hread, hwritten, hslow⟩ := h.entry k e he
    refine ⟨e.read, Nat.le_trans hread hwritten, hv, ?_⟩
    simp only [Entry.Alive] at ha
    omega
  | @write b _ r hl =>
    obtain ⟨hv, -, hm⟩ := (h.load k _ hl).answer v r rfl
    refine ⟨r, hm, hv, ?_⟩
    have hpos := src.lifetime_pos
    dsimp only
    omega

/-- The loads that have made entries stay recorded. -/
theorem Step.made_prefix (hs : Step src i k m c r c') (k' : K) : c.made k' <+: c'.made k' := by
  cases hs with
  | write hl =>
    dsimp only
    by_cases hk : k' = k
    · subst hk
      rw [Function.update_self]
      exact List.prefix_append _ _
    · exact (Function.update_of_ne hk _ c.made).symm ▸ List.prefix_refl _
  | _ => exact List.prefix_refl _

/-- A whole load in one moment. -/
theorem exists_load (src : Source K V ε) (m : Nat) (i : ι)
    (he : ∀ e, c.entries k = some e → ¬ e.Alive src m) (hl : c.loads k = none) :
    ∃ c₁ c₂ c₃, Step src i k m c none c₁ ∧ Step src i k m c₁ none c₂ ∧
      Step src i k m c₂ (some (.ok (src.content m k))) c₃ ∧
      c₃.entries = Function.update c.entries k (some ⟨src.content m k, m, m⟩) ∧
      c₃.loads = c.loads := by
  have hstart : Step src i k m c none _ := .start he hl
  have hread : Step src i k m
      { c with loads := Function.update c.loads k (some ⟨i, m, none⟩) } none
      { c with
        loads := Function.update (Function.update c.loads k (some ⟨i, m, none⟩)) k
          (some ⟨i, m, some (src.content m k, m)⟩) } := .read (Function.update_self _ _ _)
  refine ⟨_, _, _, hstart, hread, .write (Function.update_self _ _ _), rfl, ?_⟩
  funext k'
  by_cases hk : k' = k
  · subst hk
    exact (Function.update_self _ _ _).trans hl.symm
  · simp [Function.update_of_ne hk]

end LoadingCache
end Spec
end TrustedCa
