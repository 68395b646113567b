import TrustedCa.Proxy.Buffer
import TrustedCa.Spec.Linked

/-!
# The blocks of a buffer

`Owns h b ns free others` says which blocks a buffer's pointers reach: `ns` from its head, `free`
from its freelist, and that these are distinct from each other and from `others`, the blocks of
other buffers.

* `new_spec` and `delete_spec` move one block between the freelist and the rest of the heap.
* `Grown` is what appending blocks does to a buffer. `stepperNext_spec` is one step of a
  `SpaceStepper`, and the loops of `Reserve` and `ReserveAtLeast` follow from it by induction.
-/

namespace TrustedCa
namespace Proxy
namespace Buffer

open Spec

/-- The link field of every block. -/
def Heap.link (h : Heap) (a : Addr) : Ptr := (h.block a).next

/-- The freelist `i` is a list of allocated blocks. It need not be empty. -/
def Heap.Valid (h : Heap) (i : Nat) : Prop :=
  ∃ free, Seg h.link (h.freelist i).head free none ∧ free.Nodup ∧ ∀ a ∈ free, a < h.fresh

/-- The memory that two new buffers find: one freelist for both, or a new one for each. -/
def Heap.Fresh (h : Heap) (i j : Nat) : Prop :=
  (i = j ∧ h.Valid i) ∨ (i ≠ j ∧ h.freelist i = {} ∧ h.freelist j = {})

/-- The buffer's blocks are `ns`, its freelist's are `free`, and all are distinct. -/
structure Owns (h : Heap) (b : BasicBuffer) (ns free others : List Addr) : Prop where
  chain : Seg h.link b.head ns none
  freeChain : Seg h.link (h.freelist b.freelist).head free none
  nodup : (ns ++ (free ++ others)).Nodup
  bound : ∀ a ∈ ns ++ (free ++ others), a < h.fresh
  tail : ns ≠ [] → b.tail = ns.getLast?
  count : b.blockCnt = ns.length

/-- What a buffer with freelist `i` leaves as it was: all bytes, the other blocks and the other
freelists. -/
structure Frame (h h' : Heap) (i : Nat) (others : List Addr) : Prop where
  buf : h'.buf = h.buf
  block : ∀ a ∈ others, h'.block a = h.block a
  freelist : ∀ j, j ≠ i → h'.freelist j = h.freelist j

theorem Frame.refl (h : Heap) (i : Nat) (others : List Addr) : Frame h h i others :=
  ⟨rfl, fun _ _ => rfl, fun _ _ => rfl⟩

theorem Frame.trans {h₁ h₂ h₃ : Heap} {i : Nat} {others : List Addr} (h₁₂ : Frame h₁ h₂ i others)
    (h₂₃ : Frame h₂ h₃ i others) : Frame h₁ h₃ i others where
  buf := h₂₃.buf.trans h₁₂.buf
  block a ha := (h₂₃.block a ha).trans (h₁₂.block a ha)
  freelist j hj := (h₂₃.freelist j hj).trans (h₁₂.freelist j hj)

section Links

variable {h : Heap} {a x : Addr} {blk : Block} {i : Nat} {l : Freelist}

@[simp] theorem Heap.link_setFreelist : (h.setFreelist i l).link = h.link := rfl

@[simp] theorem Heap.freelist_setBlock : (h.setBlock a blk).freelist = h.freelist := rfl

@[simp] theorem Heap.freelist_setFreelist_self : (h.setFreelist i l).freelist i = l := by
  simp [Heap.setFreelist]

theorem Heap.link_setBlock : (h.setBlock a blk).link = Function.update h.link a blk.next := by
  funext x
  by_cases hx : x = a
  · subst hx
    simp [Heap.link, Heap.setBlock]
  · simp [Heap.link, Heap.setBlock, hx]

theorem Heap.block_setBlock_self : (h.setBlock a blk).block a = blk := by simp [Heap.setBlock]

theorem Heap.block_setBlock_ne (hx : x ≠ a) : (h.setBlock a blk).block x = h.block x := by
  simp [Heap.setBlock, hx]

end Links

section Freelist

variable {h : Heap} {b : BasicBuffer} {ns free others : List Addr}

/-- `Freelist::New` takes a block that nobody has. -/
theorem new_spec (ho : Owns h b ns free others) :
    ∃ a h' free', h.new b.freelist = (a, h') ∧ h'.block = Function.update h.block a {} ∧
      Seg h'.link (h'.freelist b.freelist).head free' none ∧
      (a :: (ns ++ (free' ++ others))).Nodup ∧
      (∀ x ∈ a :: (ns ++ (free' ++ others)), x < h'.fresh) ∧ Frame h h' b.freelist others := by
  unfold Heap.new
  cases hf : (h.freelist b.freelist).head with
  | none =>
    have hfree : free = [] := by
      have := ho.freeChain.eq_head?
      rw [hf] at this
      exact List.head?_eq_none_iff.mp this.symm
    subst hfree
    have hne : h.fresh ∉ ns ++ ([] ++ others) := fun hm => Nat.lt_irrefl _ (ho.bound _ hm)
    refine ⟨_, _, [], rfl, rfl, ?_, List.nodup_cons.mpr ⟨hne, ho.nodup⟩, ?_, rfl, ?_, ?_⟩
    · exact hf
    · intro x hx
      show x < h.fresh + 1
      rcases List.mem_cons.mp hx with rfl | hx
      · exact Nat.lt_succ_self _
      · exact Nat.lt_succ_of_lt (ho.bound x hx)
    · intro x hx
      refine Heap.block_setBlock_ne ?_
      rintro rfl
      exact hne (by simp [hx])
    · intro j _
      rfl
  | some a =>
    have hchain := ho.freeChain
    rw [hf] at hchain
    cases free with
    | nil => cases hchain
    | cons a' free' =>
      obtain ⟨heq, hchain⟩ := hchain
      obtain rfl : a = a' := by simpa using heq
      have hperm : (a :: (ns ++ (free' ++ others))).Perm (ns ++ (a :: free' ++ others)) :=
        List.perm_middle.symm
      have hnd := hperm.nodup_iff.mpr ho.nodup
      have hna : a ∉ free' := fun hm => (List.nodup_cons.mp hnd).1 (by simp [hm])
      refine ⟨_, _, free', rfl, rfl, ?_, hnd, ?_, rfl, ?_, ?_⟩
      · rw [Heap.link_setBlock]
        refine Seg.congr ?_ (fun x hx => Function.update_of_ne ?_ _ _)
        · simp only [Heap.link_setFreelist, Heap.freelist_setBlock, Heap.freelist_setFreelist_self]
          exact hchain
        · rintro rfl
          exact hna hx
      · intro x hx
        exact ho.bound x (hperm.mem_iff.mp hx)
      · intro x hx
        refine Heap.block_setBlock_ne ?_
        rintro rfl
        exact (List.nodup_cons.mp hnd).1 (by simp [hx])
      · intro j hj
        simp [Heap.setBlock, Heap.setFreelist, hj]

/-- `Freelist::Delete` of the head block. -/
theorem delete_spec {a : Addr} (b' : BasicBuffer) (ho : Owns h b (a :: ns) free others)
    (hhead : b'.head = h.link a) (htail : b'.tail = b.tail) (hcnt : b'.blockCnt = b.blockCnt - 1)
    (hfl : b'.freelist = b.freelist) :
    Owns (h.delete b.freelist a) b' ns (a :: free) others ∧
      (∀ x ∈ ns, (h.delete b.freelist a).block x = h.block x) ∧
      Frame h (h.delete b.freelist a) b.freelist others := by
  have hperm : (a :: ns ++ (free ++ others)).Perm (ns ++ (a :: free ++ others)) :=
    List.perm_middle.symm
  have hnd : a ∉ ns ++ (free ++ others) := (List.nodup_cons.mp ho.nodup).1
  have hblock : ∀ x, x ≠ a → (h.delete b.freelist a).block x = h.block x := by
    intro x hx
    simp [Heap.delete, Heap.setBlock, Heap.setFreelist, hx]
  have hmem : ∀ x ∈ ns ++ (free ++ others), x ≠ a := by
    rintro x hx rfl
    exact hnd hx
  refine ⟨?_, fun x hx => hblock x (hmem x (by simp [hx])), ?_⟩
  · refine ⟨?_, ?_, hperm.nodup_iff.mp ho.nodup, ?_, ?_, ?_⟩
    · rw [hhead]
      refine ho.chain.2.congr fun x hx => ?_
      exact congrArg Block.next (hblock x (hmem x (by simp [hx])))
    · have := ho.freeChain.cons_front (a := a) (fun hm => hnd (by simp [hm]))
      rw [hfl]
      simpa [Heap.delete, Heap.link_setBlock] using this
    · intro x hx
      exact ho.bound x (hperm.mem_iff.mpr hx)
    · intro hne
      rw [htail, ho.tail (by simp), List.getLast?_cons_of_ne_nil hne]
    · rw [hcnt, ho.count]
      simp
  · refine ⟨rfl, fun x hx => hblock x (hmem x (by simp [hx])), ?_⟩
    intro j hj
    simp [Heap.delete, Heap.setBlock, Heap.setFreelist, hj]

end Freelist

/-- The heap and the buffer after the blocks `added` were appended to `ns`. -/
structure Grown (h : Heap) (b : BasicBuffer) (ns : List Addr) (h' : Heap) (b' : BasicBuffer)
    (added free' others : List Addr) : Prop where
  owns : Owns h' b' (ns ++ added) free' others
  kept : ∀ a ∈ ns, (h'.block a).offset = (h.block a).offset ∧ (h'.block a).len = (h.block a).len
  empty : ∀ a ∈ added, (h'.block a).offset = 0 ∧ (h'.block a).len = 0
  frame : Frame h h' b.freelist others
  end_ : b'.end_ = if ns = [] ∧ added ≠ [] then added.head? else b.end_
  freelist : b'.freelist = b.freelist
  dataSize : b'.dataSize = b.dataSize
  reserved : b'.reserved = b.reserved
  peeked : b'.peeked = b.peeked

namespace Grown

variable {h h₁ h₂ : Heap} {b b₁ b₂ : BasicBuffer} {ns free others : List Addr}

theorem refl (ho : Owns h b ns free others) : Grown h b ns h b [] free others where
  owns := by rwa [List.append_nil]
  kept _ _ := ⟨rfl, rfl⟩
  empty a ha := by simp at ha
  frame := Frame.refl ..
  end_ := by simp
  freelist := rfl
  dataSize := rfl
  reserved := rfl
  peeked := rfl

theorem trans {added₁ added₂ free₁ free₂ : List Addr}
    (g₁ : Grown h b ns h₁ b₁ added₁ free₁ others)
    (g₂ : Grown h₁ b₁ (ns ++ added₁) h₂ b₂ added₂ free₂ others) :
    Grown h b ns h₂ b₂ (added₁ ++ added₂) free₂ others where
  owns := by
    rw [← List.append_assoc]
    exact g₂.owns
  kept a ha := by
    have k₁ := g₁.kept a ha
    have k₂ := g₂.kept a (by simp [ha])
    exact ⟨k₂.1.trans k₁.1, k₂.2.trans k₁.2⟩
  empty a ha := by
    rcases List.mem_append.mp ha with ha | ha
    · have k := g₂.kept a (by simp [ha])
      rw [k.1, k.2]
      exact g₁.empty a ha
    · exact g₂.empty a ha
  frame := g₁.frame.trans (by rw [← g₁.freelist]; exact g₂.frame)
  end_ := by
    rw [g₂.end_, g₁.end_]
    cases ns <;> cases added₁ <;> simp
  freelist := g₂.freelist.trans g₁.freelist
  dataSize := g₂.dataSize.trans g₁.dataSize
  reserved := g₂.reserved.trans g₁.reserved
  peeked := g₂.peeked.trans g₁.peeked

end Grown

section Append

variable {h : Heap} {b : BasicBuffer} {ns free others : List Addr}

theorem Owns.head_eq (ho : Owns h b ns free others) : b.head = ns.head? := ho.chain.eq_head?

/-- `AppendNewBlock()` appends one empty block, which is the tail after it. -/
theorem appendNewBlock_spec (ho : Owns h b ns free others) :
    ∃ a h' b' free', appendNewBlock 1 h b = .ok (h', b') ∧ b'.tail = some a ∧
      Grown h b ns h' b' [a] free' others := by
  obtain ⟨a, h₁, free', hnew, hblock, hfree, hnd, hbound, hframe⟩ := new_spec ho
  have hperm : (a :: (ns ++ (free' ++ others))).Perm (ns ++ [a] ++ (free' ++ others)) := by
    rw [List.append_assoc]
    exact List.perm_middle.symm
  have ha := (List.nodup_cons.mp hnd).1
  have hlink : h₁.link = Function.update h.link a none := by
    funext x
    by_cases hx : x = a
    · subst hx
      simp [Heap.link, hblock]
    · simp [Heap.link, hblock, hx]
  unfold appendNewBlock
  cases hns : ns.getLast? with
  | none =>
    -- The buffer has no block: the new one is head, tail and end.
    obtain rfl : ns = [] := List.getLast?_eq_none_iff.mp hns
    have hhead : b.head = none := ho.head_eq
    simp only [hhead, hnew]
    refine ⟨a, h₁, _, free', rfl, rfl, ⟨⟨?_, hfree, ?_, ?_, ?_, ?_⟩, ?_, ?_, hframe, ?_, rfl, rfl,
      rfl, rfl⟩⟩
    · exact ⟨rfl, by rw [hlink]; exact Function.update_self ..⟩
    · exact hperm.nodup_iff.mp hnd
    · intro x hx
      exact hbound x (hperm.mem_iff.mpr hx)
    · intro _
      rfl
    · simp [ho.count]
    · intro x hx
      simp at hx
    · intro x hx
      obtain rfl : x = a := by simpa using hx
      simp [hblock]
    · simp
  | some t =>
    obtain ⟨xs, rfl⟩ := List.getLast?_eq_some_iff.mp hns
    have htail : b.tail = some t := by rw [ho.tail (by simp), hns]
    have hta : t ≠ a := by
      rintro rfl
      exact ha (by simp)
    obtain ⟨c, hc⟩ : ∃ c, b.head = some c := by
      rw [ho.head_eq]
      cases xs <;> simp
    simp only [hc, assert, htail, ne_eq, reduceCtorEq, not_false_eq_true, if_true, appendBlocks,
      deref, hnew]
    refine ⟨a, h₁.setBlock t { h₁.block t with next := some a }, _, free', rfl, ?_, ⟨⟨?_, ?_, ?_, ?_,
      ?_, ?_⟩, ?_, ?_, ?_, ?_, rfl, rfl, rfl, rfl⟩⟩
    · simp [Heap.block_setBlock_self]
    · rw [Heap.link_setBlock]
      refine Seg.snoc ?_ ?_ ?_ hta.symm
      · have hchain := ho.chain
        rw [hc] at hchain
        refine hchain.congr fun x hx => ?_
        rw [hlink]
        refine Function.update_of_ne ?_ _ _
        rintro rfl
        exact ha (List.mem_append_left _ hx)
      · exact (List.nodup_append.mp (List.nodup_cons.mp hnd).2).1
      · rw [hlink]
        exact Function.update_self ..
    · rw [Heap.link_setBlock]
      refine hfree.congr fun x hx => Function.update_of_ne ?_ _ _
      rintro rfl
      exact (List.nodup_append.mp (List.nodup_cons.mp hnd).2).2.2 x (by simp) x (by simp [hx]) rfl
    · exact hperm.nodup_iff.mp hnd
    · intro x hx
      exact hbound x (hperm.mem_iff.mpr hx)
    · intro _
      simp [Heap.block_setBlock_self]
    · simp [ho.count]
    · intro x hx
      have hxa : x ≠ a := by
        rintro rfl
        exact ha (List.mem_append_left _ hx)
      by_cases hxt : x = t
      · subst hxt
        simp [Heap.block_setBlock_self, hblock, hxa]
      · simp [Heap.block_setBlock_ne hxt, hblock, hxa]
    · intro x hx
      obtain rfl : x = a := by simpa using hx
      simp [Heap.block_setBlock_ne hta.symm, hblock]
    · refine hframe.trans ⟨rfl, fun x hx => Heap.block_setBlock_ne ?_, fun _ _ => rfl⟩
      rintro rfl
      exact (List.nodup_append.mp (List.nodup_cons.mp hnd).2).2.2 x (by simp) x (by simp [hx]) rfl
    · simp

/-- A stepper at a block returns it. -/
theorem stepperNext_some {vis todo : List Addr} {a : Addr}
    (ho : Owns h b (vis ++ a :: todo) free others) :
    stepperNext h b (some a) = .ok (a, todo.head?, h, b) := by
  have hnext : (h.block a).next = todo.head? := ho.chain.next_eq
  simp [stepperNext, hnext, pure, Except.pure]

/-- A stepper behind the last block appends one. -/
theorem stepperNext_none {ns : List Addr} (ho : Owns h b ns free others) :
    ∃ a h' b' free', stepperNext h b none = .ok (a, none, h', b') ∧
      appendNewBlock 1 h b = .ok (h', b') ∧ Grown h b ns h' b' [a] free' others := by
  obtain ⟨a, h', b', free', happ, htail, hg⟩ := appendNewBlock_spec ho
  refine ⟨a, h', b', free', ?_, happ, hg⟩
  have hnext : (h'.block a).next = none := by
    have := hg.owns.chain
    exact this.next_eq
  simp [stepperNext, happ, htail, deref, hnext, bind, Except.bind, pure, Except.pure]

/-- One step of a `SpaceStepper` that is at `todo`: it returns the first block of `todo`, or
appends a block and returns that. -/
theorem stepperNext_spec {vis todo : List Addr} (ho : Owns h b (vis ++ todo) free others) :
    ∃ a todo' added h' b' free', stepperNext h b todo.head? = .ok (a, todo'.head?, h', b') ∧
      todo ++ added = a :: todo' ∧ Grown h b (vis ++ todo) h' b' added free' others := by
  cases todo with
  | nil =>
    obtain ⟨a, h', b', free', heq, -, hg⟩ := stepperNext_none ho
    exact ⟨a, [], [a], h', b', free', heq, rfl, hg⟩
  | cons a todo' =>
    exact ⟨a, todo', [], h, b, free, stepperNext_some ho, by simp, Grown.refl ho⟩

end Append

/-- The free spaces of the blocks `ns`. -/
def spaces (k : BlockSize) (h : Heap) (ns : List Addr) : List SysBuf :=
  ns.map fun a => ⟨a, (h.block a).spaceOff, (h.block a).spaceLen k⟩

/-- The data of the blocks `ns`. -/
def datas (h : Heap) (ns : List Addr) : List SysBuf :=
  ns.map fun a => ⟨a, (h.block a).offset, (h.block a).len⟩

section Reserve

variable {k : BlockSize} {h : Heap} {b : BasicBuffer} {ns free others : List Addr}

theorem spaces_congr {h' : Heap} (heq : ∀ a ∈ ns, (h'.block a).offset = (h.block a).offset ∧
    (h'.block a).len = (h.block a).len) : spaces k h' ns = spaces k h ns := by
  refine List.map_congr_left fun a ha => ?_
  simp only [Block.spaceOff, Block.spaceLen, heq a ha]

/-- A step of a reserving loop meets a block with free space. -/
theorem Grown.spaceLen_pos {h' : Heap} {b' : BasicBuffer} {vis todo todo' added free' : List Addr}
    {a : Addr} (hg : Grown h b (vis ++ todo) h' b' added free' others)
    (hcons : todo ++ added = a :: todo') (hspace : ∀ x ∈ todo, 0 < (h.block x).spaceLen k) :
    ∀ x ∈ a :: todo', 0 < (h'.block x).spaceLen k := by
  intro x hx
  rw [← hcons] at hx
  rcases List.mem_append.mp hx with hx | hx
  · have hk := hg.kept x (by simp [hx])
    have := hspace x hx
    simpa only [Block.spaceLen, hk.1, hk.2] using this
  · have he := hg.empty x hx
    have := k.capacity_pos
    simp only [Block.spaceLen, he.1, he.2]
    omega

/-- The free space that a reserving loop has found, from the block of its first step on. -/
theorem Grown.spaces_cons {h₁ h₂ : Heap} {b₁ b₂ : BasicBuffer}
    {vis todo todo' added₁ added₂ free₂ : List Addr} {a : Addr}
    (hg : Grown h₁ b₁ (vis ++ [a] ++ todo') h₂ b₂ added₂ free₂ others)
    (hcons : todo ++ added₁ = a :: todo') :
    spaces k h₂ (todo ++ (added₁ ++ added₂))
      = ⟨a, (h₁.block a).spaceOff, (h₁.block a).spaceLen k⟩ :: spaces k h₂ (todo' ++ added₂) := by
  rw [← List.append_assoc, hcons, List.cons_append, spaces, List.map_cons, ← spaces]
  have hk := hg.kept a (by simp)
  simp only [Block.spaceOff, Block.spaceLen, hk.1, hk.2]

/-- The loop of `Reserve` returns the first `remaining` bytes of free space behind the blocks it
has visited, and appends the blocks that are missing. -/
theorem reserveLoop_spec {fuel remaining : Nat} {vis todo : List Addr}
    (ho : Owns h b (vis ++ todo) free others) (hspace : ∀ a ∈ todo, 0 < (h.block a).spaceLen k)
    (hfuel : remaining ≤ fuel) :
    ∃ ret h' b' added free',
      reserveLoop k fuel remaining h b todo.head? = .ok (ret, h', b') ∧
      Grown h b (vis ++ todo) h' b' added free' others ∧
      ret = Gather.take remaining (spaces k h' (todo ++ added)) ∧
      remaining ≤ Gather.total (spaces k h' (todo ++ added)) := by
  induction fuel generalizing remaining h b vis todo free with
  | zero =>
    obtain rfl : remaining = 0 := by omega
    exact ⟨[], h, b, [], free, by simp [reserveLoop], Grown.refl ho, by simp, by simp⟩
  | succ fuel ih =>
    by_cases hrem : 0 < remaining
    · obtain ⟨a, todo', added₁, h₁, b₁, free₁, hstep, hcons, hg₁⟩ := stepperNext_spec ho
      have hpos := hg₁.spaceLen_pos hcons hspace
      have hlist : vis ++ todo ++ added₁ = vis ++ [a] ++ todo' := by simp [hcons]
      have hlen := hpos a (by simp)
      have hle : remaining - min ((h₁.block a).spaceLen k) remaining ≤ fuel := by omega
      obtain ⟨ret, h₂, b₂, added₂, free₂, hloop, hg₂, hret, htot⟩ :=
        ih (hlist ▸ hg₁.owns) (fun x hx => hpos x (by simp [hx])) hle
      refine ⟨⟨a, (h₁.block a).spaceOff, min ((h₁.block a).spaceLen k) remaining⟩ :: ret, h₂, b₂,
        added₁ ++ added₂, free₂, ?_, hg₁.trans (hlist ▸ hg₂), ?_, ?_⟩
      · rw [reserveLoop, if_pos hrem]
        simp only [hstep, bind, Except.bind, ← Nat.min_def, hloop, pure, Except.pure]
      · rw [hg₂.spaces_cons hcons, Gather.take_cons hrem, hret, Nat.min_comm]
        congr 2
        show remaining - min _ _ = remaining - (h₁.block a).spaceLen k
        omega
      · rw [hg₂.spaces_cons hcons, Gather.total_cons]
        simp only
        omega
    · obtain rfl : remaining = 0 := by omega
      exact ⟨[], h, b, [], free, by simp [reserveLoop], Grown.refl ho, by simp, by simp⟩

/-- The loop of `ReserveAtLeast` returns the free space of whole blocks, at least as much as is
missing to `size`. -/
theorem reserveAtLeastLoop_spec {size fuel done : Nat} {vis todo : List Addr}
    (ho : Owns h b (vis ++ todo) free others) (hspace : ∀ a ∈ todo, 0 < (h.block a).spaceLen k)
    (hfuel : size ≤ done + fuel) :
    ∃ ret reserved h' b' added free' n,
      reserveAtLeastLoop k size fuel done h b todo.head? = .ok (ret, reserved, h', b') ∧
      Grown h b (vis ++ todo) h' b' added free' others ∧
      ret = Gather.take n (spaces k h' (todo ++ added)) ∧
      n ≤ Gather.total (spaces k h' (todo ++ added)) ∧ size ≤ done + n := by
  induction fuel generalizing done h b vis todo free with
  | zero =>
    refine ⟨[], done, h, b, [], free, 0, ?_, Grown.refl ho, by simp, by simp, hfuel⟩
    rw [reserveAtLeastLoop, if_neg (by omega)]
  | succ fuel ih =>
    by_cases hdone : done < size
    · obtain ⟨a, todo', added₁, h₁, b₁, free₁, hstep, hcons, hg₁⟩ := stepperNext_spec ho
      have hpos := hg₁.spaceLen_pos hcons hspace
      have hlist : vis ++ todo ++ added₁ = vis ++ [a] ++ todo' := by simp [hcons]
      have hlen := hpos a (by simp)
      have hle : size ≤ done + (h₁.block a).spaceLen k + fuel := by omega
      obtain ⟨ret, reserved, h₂, b₂, added₂, free₂, n, hloop, hg₂, hret, htot, hn⟩ :=
        ih (hlist ▸ hg₁.owns) (fun x hx => hpos x (by simp [hx])) hle
      refine ⟨⟨a, (h₁.block a).spaceOff, (h₁.block a).spaceLen k⟩ :: ret, reserved, h₂, b₂,
        added₁ ++ added₂, free₂, (h₁.block a).spaceLen k + n, ?_, hg₁.trans (hlist ▸ hg₂), ?_, ?_,
        by omega⟩
      · rw [reserveAtLeastLoop, if_pos hdone]
        simp only [hstep, bind, Except.bind, hloop, pure, Except.pure]
      · rw [hg₂.spaces_cons hcons, Gather.take_cons (by omega), hret, Nat.add_sub_cancel_left,
          Nat.min_eq_right (by simp)]
      · rw [hg₂.spaces_cons hcons, Gather.total_cons]
        simp only
        omega
    · refine ⟨[], done, h, b, [], free, 0, ?_, Grown.refl ho, by simp, by simp, by omega⟩
      rw [reserveAtLeastLoop, if_neg hdone]

end Reserve

end Buffer
end Proxy
end TrustedCa
