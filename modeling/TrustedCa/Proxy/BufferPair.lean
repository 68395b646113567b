import TrustedCa.Proxy.BufferRefinement

/-!
# Two buffers in one memory

`Pair` says that two buffers hold two queues and have no block in common. They may share a
freelist or have one each. `Pair.left` is the frame rule: an operation on the first buffer is
looked at alone, with the second buffer's blocks among those that it does not touch.
-/

namespace TrustedCa
namespace Proxy
namespace Buffer

open Spec

/-- A buffer and the buffers that its client has, without the memory. -/
structure Chan where
  buf : BasicBuffer
  region : Option (List SysBuf) := none
  view : Option (List SysBuf) := none

/-- The buffer in the memory `h`. -/
def Chan.at (c : Chan) (h : Heap) : State := ⟨h, c.buf, c.region, c.view⟩

/-- What a buffer with freelist `i` leaves as it was in the rest of the memory. Other than in
`Frame`, it may have written into its own blocks. -/
structure Untouched (h h' : Heap) (i : Nat) (others : List Addr) : Prop where
  block : ∀ a ∈ others, h'.block a = h.block a
  buf : ∀ a ∈ others, h'.buf a = h.buf a
  freelist : ∀ j, j ≠ i → h'.freelist j = h.freelist j

section Untouched

variable {h h' h₁ h₂ h₃ : Heap} {i : Nat} {others : List Addr}

theorem Frame.untouched (hf : Frame h h' i others) : Untouched h h' i others :=
  ⟨hf.block, fun a _ => by rw [hf.buf], hf.freelist⟩

theorem Untouched.refl (h : Heap) (i : Nat) (others : List Addr) : Untouched h h i others :=
  (Frame.refl h i others).untouched

theorem Untouched.trans (h₁₂ : Untouched h₁ h₂ i others) (h₂₃ : Untouched h₂ h₃ i others) :
    Untouched h₁ h₃ i others where
  block a ha := (h₂₃.block a ha).trans (h₁₂.block a ha)
  buf a ha := (h₂₃.buf a ha).trans (h₁₂.buf a ha)
  freelist j hj := (h₂₃.freelist j hj).trans (h₁₂.freelist j hj)

end Untouched

/-- The blocks of a freelist that only one of two buffers uses. -/
def privateFree (b d : BasicBuffer) (free : List Addr) : List Addr :=
  if b.freelist = d.freelist then [] else free

/-- Two buffers that hold the queues `f` and `g` and have no block in common. -/
def Pair (k : BlockSize) (h : Heap) (c d : Chan) (f g : Fifo) : Prop :=
  ∃ full rest free full' rest' free',
    Rep k (c.at h) f full rest free (full' ++ rest' ++ privateFree c.buf d.buf free') ∧
    Rep k (d.at h) g full' rest' free' (full ++ rest ++ privateFree d.buf c.buf free) ∧
    (c.buf.freelist = d.buf.freelist → free = free')

section Pair

variable {k : BlockSize} {h h' : Heap} {c d : Chan} {f g : Fifo} {full rest free others : List Addr}

theorem Pair.symm (hp : Pair k h c d f g) : Pair k h d c g f := by
  obtain ⟨full, rest, free, full', rest', free', hc, hd, hfree⟩ := hp
  exact ⟨full', rest', free', full, rest, free, hd, hc, fun heq => (hfree heq.symm).symm⟩

theorem Pair.size (hp : Pair k h c d f g) : c.buf.dataSize = f.queue.length := by
  obtain ⟨_, _, _, _, _, _, hr, -⟩ := hp
  exact hr.size

/-- A buffer is as it was when the memory of its blocks is. -/
theorem Rep.frame {s : State} {free' others' : List Addr} (hr : Rep k s f full rest free others)
    (hblock : ∀ a ∈ full ++ rest, h'.block a = s.heap.block a)
    (hbuf : ∀ a ∈ full ++ rest, h'.buf a = s.heap.buf a)
    (hfree : Seg h'.link (h'.freelist s.buf.freelist).head free' none)
    (hnodup : (full ++ rest ++ (free' ++ others')).Nodup)
    (hbound : ∀ a ∈ full ++ rest ++ (free' ++ others'), a < h'.fresh) :
    Rep k { s with heap := h' } f full rest free' others' := by
  have hhead : ∀ a ∈ full ++ rest, (h'.block a).offset = (s.heap.block a).offset ∧
      (h'.block a).len = (s.heap.block a).len := by
    intro a ha
    rw [hblock a ha]
    exact ⟨rfl, rfl⟩
  have hspaces : spaces k h' rest = spaces k s.heap rest :=
    spaces_congr fun a ha => hhead a (by simp [ha])
  have hread : ∀ bufs : List SysBuf, (∀ sp ∈ bufs, sp.base ∈ full ++ rest) →
      h'.read bufs = s.heap.read bufs := by
    intro bufs hmem
    refine Gather.read_congr fun a i hc => ?_
    obtain ⟨sp, hsp, rfl, -⟩ := hc
    rw [hbuf _ (hmem sp hsp)]
  refine ⟨⟨?_, hfree, hnodup, hbound, hr.owns.tail, hr.owns.count⟩, hr.shape.congr hhead, ?_, ?_,
    hr.size, hr.reserved, ?_, ?_, hr.peeked, ?_, hr.seen⟩
  · refine hr.owns.chain.congr fun a ha => ?_
    exact congrArg Block.next (hblock a ha)
  · rw [hr.end_]
    exact (endOf_congr fun a ha => (hhead a (by simp [ha])).2).symm
  · rw [← hr.queue, datas_congr hhead]
    refine hread _ fun sp hsp => ?_
    obtain ⟨a, ha, rfl⟩ := List.mem_map.mp hsp
    exact ha
  · intro bufs hb
    rw [hspaces]
    exact hr.region bufs hb
  · rw [hr.resv]
    cases hreg : s.region with
    | none => rfl
    | some bufs =>
      obtain ⟨n, -, -, rfl⟩ := hr.region bufs hreg
      refine congrArg some (hread _ fun sp hsp => ?_).symm
      obtain ⟨t, ht, hbase, -⟩ := Gather.mem_take hsp
      obtain ⟨a, ha, rfl⟩ := List.mem_map.mp ht
      rw [hbase]
      exact List.mem_append_right _ ha
  · intro bufs hb
    obtain ⟨hsp, hle, hpre⟩ := hr.view bufs hb
    refine ⟨fun sp hm => ?_, hle, by rw [hread bufs fun sp hm => (hsp sp hm).1]; exact hpre⟩
    obtain ⟨hmem, hoff⟩ := hsp sp hm
    exact ⟨hmem, by simpa only [hblock _ hmem] using hoff⟩

theorem perm_swap (xs ys zs : List Addr) : (xs ++ (ys ++ zs)).Perm (zs ++ (ys ++ xs)) := by
  have hxy : (xs ++ ys).Perm (ys ++ xs) := List.perm_append_comm
  rw [← List.append_assoc]
  exact (hxy.append_right zs).trans List.perm_append_comm

/-- An operation on the first of two buffers: when it keeps the blocks of the other buffer, the
two are still a pair. -/
theorem Pair.left (hp : Pair k h c d f g) :
    ∃ others, Refines k (c.at h) f others ∧
      ∀ {h' : Heap} {c' : Chan} {f' : Fifo}, c'.buf.freelist = c.buf.freelist →
        Untouched h h' c.buf.freelist others → Refines k (c'.at h') f' others →
        Pair k h' c' d f' g := by
  obtain ⟨full, rest, free, full', rest', free', hc, hd, hfree⟩ := hp
  refine ⟨_, ⟨full, rest, free, hc⟩, ?_⟩
  rintro h' c' f' hfl hun ⟨full₁, rest₁, free₁, hc₁⟩
  have hown := hc₁.owns
  have hfl' : (c'.at h').buf.freelist = c.buf.freelist := hfl
  by_cases heq : c.buf.freelist = d.buf.freelist
  · -- One freelist: it now holds the blocks that the first buffer left there.
    have hpc : ∀ free, privateFree c.buf d.buf free = [] := fun _ => if_pos heq
    have hpc' : ∀ free, privateFree c'.buf d.buf free = [] := fun _ => if_pos (hfl.trans heq)
    have hpd' : ∀ free, privateFree d.buf c'.buf free = [] := fun _ => if_pos (hfl.trans heq).symm
    rw [hpc, List.append_nil] at hun hc₁ hown
    have hperm := perm_swap (full₁ ++ rest₁) free₁ (full' ++ rest')
    refine ⟨full₁, rest₁, free₁, full', rest', free₁, ?_, hd.frame ?_ ?_ ?_ ?_ ?_, fun _ => rfl⟩
    · rw [hpc', List.append_nil]
      exact hc₁
    · exact hun.block
    · exact hun.buf
    · have := hown.freeChain
      rw [hfl', heq] at this
      exact this
    · rw [hpd', List.append_nil]
      exact hperm.nodup_iff.mp hown.nodup
    · rw [hpd', List.append_nil]
      intro a ha
      exact hown.bound a (hperm.mem_iff.mpr ha)
  · -- The second buffer's freelist is among the blocks that the first buffer does not touch.
    have hpc : ∀ free, privateFree c.buf d.buf free = free := fun _ => if_neg heq
    have hpc' : ∀ free, privateFree c'.buf d.buf free = free :=
      fun _ => if_neg fun h => heq (hfl.symm.trans h)
    have hpd' : ∀ free, privateFree d.buf c'.buf free = free :=
      fun _ => if_neg fun h => heq (hfl.symm.trans h.symm)
    rw [hpc] at hun hc₁ hown
    have hperm : (full₁ ++ rest₁ ++ (free₁ ++ (full' ++ rest' ++ free'))).Perm
        (full' ++ rest' ++ (free' ++ (full₁ ++ rest₁ ++ free₁))) := by
      rw [← List.append_assoc, ← List.append_assoc (full' ++ rest')]
      exact List.perm_append_comm
    refine ⟨full₁, rest₁, free₁, full', rest', free', ?_, hd.frame ?_ ?_ ?_ ?_ ?_,
      fun h => absurd (hfl.symm.trans h) heq⟩
    · rw [hpc']
      exact hc₁
    · intro a ha
      exact hun.block a (List.mem_append_left _ ha)
    · intro a ha
      exact hun.buf a (List.mem_append_left _ ha)
    · have hsame : h'.freelist (d.at h).buf.freelist = h.freelist d.buf.freelist :=
        hun.freelist _ (fun h => heq h.symm)
      rw [hsame]
      refine hd.owns.freeChain.congr fun a ha => ?_
      exact congrArg Block.next (hun.block a (List.mem_append_right _ ha))
    · rw [hpd']
      exact hperm.nodup_iff.mp hown.nodup
    · rw [hpd']
      intro a ha
      exact hown.bound a (hperm.mem_iff.mpr ha)

theorem pair_new {i j : Nat} (hf : h.Fresh i j) :
    Pair k h ⟨{ freelist := i }, none, none⟩ ⟨{ freelist := j }, none, none⟩ {} {} := by
  have hpriv : ∀ b d : BasicBuffer, privateFree b d [] = [] := fun _ _ => ite_self _
  rcases hf with ⟨rfl, free, hfree, hnd, hbound⟩ | ⟨-, hi, hj⟩
  · have hr : ∀ b : BasicBuffer, b = { freelist := i } →
        Rep k ⟨h, b, none, none⟩ {} [] [] free ([] ++ [] ++ privateFree b b free) := by
      rintro b rfl
      rw [privateFree, if_pos rfl]
      exact rep_new hfree (by simpa using hnd) (by simpa using hbound)
    exact ⟨[], [], free, [], [], free, hr _ rfl, hr _ rfl, fun _ => rfl⟩
  · refine ⟨[], [], [], [], [], [], ?_, ?_, fun _ => rfl⟩
    · rw [hpriv]
      exact rep_new (by rw [hi]; rfl) List.nodup_nil (by simp)
    · rw [hpriv]
      exact rep_new (by rw [hj]; rfl) List.nodup_nil (by simp)

/-- `ReserveAtLeast` on the first buffer. -/
theorem Pair.reserveAtLeast {size : Nat} (hp : Pair k h c d f g) (hfree : c.region = none)
    (hsize : 0 < size) :
    ∃ ret h' b' bytes, Buffer.reserveAtLeast k h c.buf size = .ok (ret, h', b') ∧
      Pair k h' { c with buf := b', region := some ret } d { f with resv := some bytes } g := by
  obtain ⟨others, ⟨full, rest, free, hr⟩, hback⟩ := hp.left
  obtain ⟨ret, h', b', rest', free', heq, -, hframe, hfl, hr'⟩ := hr.reserveAtLeast hfree hsize
  exact ⟨ret, h', b', _, heq, hback hfl hframe.untouched ⟨_, _, _, hr'⟩⟩

/-- `Commit` on the first buffer. -/
theorem Pair.commit {size : Nat} {bytes : List Byte} (hp : Pair k h c d f g)
    (hb : f.resv = some bytes) (hsize : size ≤ bytes.length) :
    ∃ h' b', Buffer.commit k h c.buf size = .ok (h', b') ∧
      Pair k h' { c with buf := b', region := none } d
        { f with queue := f.queue ++ bytes.take size, resv := none } g := by
  obtain ⟨others, ⟨full, rest, free, hr⟩, hback⟩ := hp.left
  obtain ⟨bufs, hbufs, rfl⟩ := hr.region_of_resv hb
  rw [Heap.length_read] at hsize
  obtain ⟨h', b', full', rest', heq, hframe, hfl, hr'⟩ := hr.commit hbufs hsize
  exact ⟨h', b', heq, hback hfl hframe.untouched ⟨_, _, _, hr'⟩⟩

/-- `Peek` on the first buffer. -/
theorem Pair.peek (hp : Pair k h c d f g) (hnone : c.view = none) :
    ∃ ret b', Buffer.peek h c.buf = .ok (ret, b') ∧ h.read ret = f.queue ∧
      Pair k h { c with buf := b', view := some ret } d { f with seen := some f.queue.length } g := by
  obtain ⟨others, ⟨full, rest, free, hr⟩, hback⟩ := hp.left
  obtain ⟨ret, b', heq, hread, hfl, hr'⟩ := hr.peek hnone
  exact ⟨ret, b', heq, hread, hback hfl (Untouched.refl ..) ⟨_, _, _, hr'⟩⟩

/-- `Drain` on the first buffer. -/
theorem Pair.drain {size n : Nat} (hp : Pair k h c d f g) (hn : f.seen = some n)
    (hsize : size ≤ n) :
    ∃ h' b', Buffer.drain k h c.buf size = .ok (h', b') ∧
      Pair k h' { c with buf := b', view := none } d
        { f with queue := f.queue.drop size, seen := none } g := by
  obtain ⟨others, ⟨full, rest, free, hr⟩, hback⟩ := hp.left
  obtain ⟨bufs, hbufs, rfl⟩ := hr.view_of_seen hn
  obtain ⟨h', b', full', free', heq, hframe, hfl, hr'⟩ := hr.drain hbufs hsize
  exact ⟨h', b', heq, hback hfl hframe.untouched ⟨_, _, _, hr'⟩⟩

/-- Bytes written to the front of the first buffer's region. -/
theorem Pair.scatter {bytes : List Byte} {bufs : List SysBuf} (hp : Pair k h c d f g)
    (hbufs : c.region = some bufs) (hlen : bytes.length ≤ Gather.total bufs) :
    Pair k (h.scatter bufs bytes) c d
      { f with resv := some (bytes ++ (h.read bufs).drop bytes.length) } g := by
  obtain ⟨others, ⟨full, rest, free, hr⟩, hback⟩ := hp.left
  have hr' := hr.scatter 0 hbufs (by omega : 0 + bytes.length ≤ Gather.total bufs)
  rw [Gather.drop_zero, List.take_zero, List.nil_append, Nat.zero_add] at hr'
  refine hback rfl ⟨fun _ _ => rfl, fun a ha => ?_, fun _ _ => rfl⟩ ⟨_, _, _, hr'⟩
  funext i
  refine Gather.scatter_of_not_covers fun hc => ?_
  obtain ⟨n, -, -, rfl⟩ := hr.region bufs hbufs
  have hrest : a ∈ rest := by
    have := Gather.base_mem_of_covers (Gather.covers_of_take hc)
    rwa [spaces_base] at this
  exact hr.owns.not_others (List.mem_append_right _ hrest) ha

end Pair

end Buffer
end Proxy
end TrustedCa
