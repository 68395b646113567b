import TrustedCa.Proxy.BufferShape

/-!
# The block buffer is a byte queue

`Fifo` is what `BasicBuffer` is for: a queue of bytes, with a region that the client may write
into before it appends it (`Reserve`, `Commit`) and a view of the front that it may look at before
it removes it (`Peek`, `Drain`). Both may be outstanding at once.

* `exec` is one call on the block buffer, by a client that keeps the buffers it was given.
* `Rep` relates a state of the block buffer to a `Fifo`, and there is one lemma for each operation
  that the relation is kept: `Rep.reserve`, `Rep.write`, `Rep.commit`, ...
* `basicBuffer_refines_fifo` puts them together over all sequences of legal calls.
-/

namespace TrustedCa
namespace Proxy
namespace Buffer

open Spec

/-- A byte queue, the region reserved behind it, and the number of bytes seen at its front. -/
structure Fifo where
  queue : List Byte := []
  resv : Option (List Byte) := none
  seen : Option Nat := none
  deriving DecidableEq

/-- A call on a buffer, or a write of the client into the reserved region. -/
inductive Call where
  | reserve (size : Nat)
  | reserveAtLeast (size : Nat)
  | write (pos : Nat) (bytes : List Byte)
  | commit (size : Nat)
  | peek
  | drain (size : Nat)
  | copyIn (bytes : List Byte)
  | copyOut (size : Nat)
  deriving DecidableEq

namespace Fifo

variable (f : Fifo)

/-- The calls that a client may make. -/
def Legal : Call → Prop
  | .reserve size | .reserveAtLeast size => f.resv = none ∧ 0 < size
  | .write pos bytes => ∃ region ∈ f.resv, pos + bytes.length ≤ region.length
  | .commit size => ∃ region ∈ f.resv, size ≤ region.length
  | .peek | .copyOut _ => f.seen = none
  | .drain size => ∃ n ∈ f.seen, size ≤ n
  | .copyIn bytes => f.resv = none ∧ 0 < bytes.length

/-- The bytes that a call may answer: those of the buffers it returns, or those copied out. A
reserved region holds any bytes. -/
def Answers (answer : List Byte) : Call → Prop
  | .reserve size => answer.length = size
  | .reserveAtLeast size => size ≤ answer.length
  | .peek => answer = f.queue
  | .copyOut size => answer = f.queue.take size
  | .write _ _ | .commit _ | .drain _ | .copyIn _ => answer = []

/-- The queue after a call that answered `answer`. -/
def apply (answer : List Byte) : Call → Fifo
  | .reserve _ | .reserveAtLeast _ => { f with resv := some answer }
  | .write pos bytes =>
    { f with resv := f.resv.map fun region =>
        region.take pos ++ bytes ++ region.drop (pos + bytes.length) }
  | .commit size => { f with queue := f.queue ++ (f.resv.getD []).take size, resv := none }
  | .peek => { f with seen := some f.queue.length }
  | .drain size => { f with queue := f.queue.drop size, seen := none }
  | .copyIn bytes => { f with queue := f.queue ++ bytes }
  | .copyOut size => { f with queue := f.queue.drop size }

end Fifo

/-- A buffer and the buffers that its client was given by a `Reserve` and a `Peek` that are
outstanding. -/
structure State where
  heap : Heap
  buf : BasicBuffer
  region : Option (List SysBuf) := none
  view : Option (List SysBuf) := none

/-- One call: the bytes it answers and the state after it. -/
def exec (k : BlockSize) (s : State) : Call → Except Fault (List Byte × State)
  | .reserve size => do
    let (ret, h, b) ← reserve k s.heap s.buf size
    return (h.read ret, { s with heap := h, buf := b, region := some ret })
  | .reserveAtLeast size => do
    let (ret, h, b) ← reserveAtLeast k s.heap s.buf size
    return (h.read ret, { s with heap := h, buf := b, region := some ret })
  | .write pos bytes =>
    return ([], { s with heap := s.heap.scatter (Gather.drop pos (s.region.getD [])) bytes })
  | .commit size => do
    let (h, b) ← commit k s.heap s.buf size
    return ([], { s with heap := h, buf := b, region := none })
  | .peek => do
    let (ret, b) ← peek s.heap s.buf
    return (s.heap.read ret, { s with buf := b, view := some ret })
  | .drain size => do
    let (h, b) ← drain k s.heap s.buf size
    return ([], { s with heap := h, buf := b, view := none })
  | .copyIn bytes => do
    let (h, b) ← copyIn k s.heap s.buf bytes
    return ([], { s with heap := h, buf := b })
  | .copyOut size => do
    let (copied, h, b) ← copyOut k s.heap s.buf size
    return (copied, { s with heap := h, buf := b })

/-- The block buffer in state `s` holds the queue `f`. `others` are blocks that belong to other
buffers. -/
structure Rep (k : BlockSize) (s : State) (f : Fifo) (full rest free others : List Addr) :
    Prop where
  owns : Owns s.heap s.buf (full ++ rest) free others
  shape : Shape k s.heap full rest
  end_ : s.buf.end_ = endOf s.heap full rest
  queue : s.heap.read (datas s.heap (full ++ rest)) = f.queue
  size : s.buf.dataSize = f.queue.length
  reserved : s.buf.reserved = s.region.isSome
  region : ∀ bufs ∈ s.region, ∃ n, 0 < n ∧ n ≤ Gather.total (spaces k s.heap rest) ∧
    bufs = Gather.take n (spaces k s.heap rest)
  resv : f.resv = s.region.map s.heap.read
  peeked : s.buf.peeked = s.view.isSome
  view : ∀ bufs ∈ s.view, (∀ sp ∈ bufs, sp.base ∈ full ++ rest ∧
    sp.off + sp.len ≤ (s.heap.block sp.base).spaceOff) ∧
      Gather.total bufs ≤ f.queue.length ∧ s.heap.read bufs = f.queue.take (Gather.total bufs)
  seen : f.seen = s.view.map Gather.total

theorem Heap.length_read (h : Heap) (bufs : List SysBuf) :
    (h.read bufs).length = Gather.total bufs := Gather.length_read ..

section Cells

variable {k : BlockSize} {h : Heap} {ns : List Addr} {a : Addr} {i : Nat}

theorem covers_spaces (hc : Gather.Covers (spaces k h ns) a i) : (h.block a).spaceOff ≤ i := by
  obtain ⟨s, hs, rfl, hle, -⟩ := hc
  obtain ⟨x, -, rfl⟩ := List.mem_map.mp hs
  exact hle

theorem covers_datas (hc : Gather.Covers (datas h ns) a i) : i < (h.block a).spaceOff := by
  obtain ⟨s, hs, rfl, -, hlt⟩ := hc
  obtain ⟨x, -, rfl⟩ := List.mem_map.mp hs
  exact hlt

@[simp] theorem spaces_base : (spaces k h ns).map Span.base = ns := by
  simp [spaces, Function.comp_def]

theorem take_base (n : Nat) (ss : List SysBuf) :
    ((Gather.take n ss).map Span.base).Sublist (ss.map Span.base) := by
  induction ss generalizing n with
  | nil => cases n <;> simp [Gather.take]
  | cons s ss ih =>
    by_cases hn : 0 < n
    · rw [Gather.take_cons hn]
      exact (ih _).cons_cons _
    · obtain rfl : n = 0 := by omega
      simp

/-- The capacity of blocks without drained data is their data and their free space. -/
theorem total_capacity (hoff : ∀ a ∈ ns, (h.block a).offset = 0)
    (hle : ∀ a ∈ ns, (h.block a).offset + (h.block a).len ≤ k.capacity) :
    Gather.total (spaces k h ns) + Gather.total (datas h ns) = ns.length * k.capacity := by
  induction ns with
  | nil => simp [spaces]
  | cons a ns ih =>
    have ha := hle a (by simp)
    have h0 := hoff a (by simp)
    have := ih (fun x hx => hoff x (by simp [hx])) (fun x hx => hle x (by simp [hx]))
    simp only [spaces_cons, datas_cons, Gather.total_cons, List.length_cons, Block.spaceLen,
      Nat.add_mul]
    omega

/-- `space_size()` is the free space behind the data. -/
theorem spaceSize_eq {b : BasicBuffer} {full rest free others : List Addr}
    (ho : Owns h b (full ++ rest) free others) (hs : Shape k h full rest)
    (hsize : b.dataSize = Gather.total (datas h (full ++ rest))) :
    spaceSize k h b = Gather.total (spaces k h rest) := by
  have hle : ∀ a ∈ full ++ rest, (h.block a).offset + (h.block a).len ≤ k.capacity := by
    intro a ha
    rcases List.mem_append.mp ha with ha | ha
    · exact Nat.le_of_eq (hs.filled a ha).1
    · exact Nat.le_of_lt (hs.space a ha)
  have hfull : Gather.total (spaces k h full) = 0 := by
    refine List.sum_eq_zero fun x hx => ?_
    simp only [spaces, List.map_map, List.mem_map, Function.comp_apply] at hx
    obtain ⟨a, ha, rfl⟩ := hx
    exact hs.spaceLen_full a ha
  have hrest : Gather.total (spaces k h (full ++ rest)) = Gather.total (spaces k h rest) := by
    rw [spaces, List.map_append, Gather.total_append, ← spaces, ← spaces, hfull, Nat.zero_add]
  have hcnt := ho.count
  have hhead := ho.head_eq
  have hoff := hs.offset
  rw [← hrest]
  unfold spaceSize
  cases hns : full ++ rest with
  | nil =>
    rw [hns] at hhead
    rw [hhead]
    rfl
  | cons x xs =>
    rw [hns] at hle hcnt hhead hsize hoff
    have := total_capacity (k := k) hoff fun a ha => hle a (by simp [List.mem_of_mem_tail ha])
    have hx := hle x (by simp)
    rw [hhead, hcnt, hsize]
    simp only [List.tail_cons, List.head?_cons, spaces_cons, datas_cons, Gather.total_cons,
      List.length_cons, Block.spaceLen, Nat.add_mul] at *
    omega

end Cells

/-- The loop of `CopyOut` copies from the front of the buffers. -/
theorem copyOutLoop_eq {h : Heap} {size done : Nat} {bufs : List SysBuf} (hle : done ≤ size) :
    copyOutLoop h size bufs done = (h.read bufs).take (size - done) := by
  induction bufs generalizing done with
  | nil => simp [copyOutLoop, Heap.read]
  | cons buf bufs ih =>
    have hbuf : h.read [buf] = buf.read h.buf := by simp [Heap.read]
    by_cases hsize : 0 < size
    · simp only [copyOutLoop, hsize, if_true, hbuf]
      have hall : ∀ n, buf.len ≤ n → (buf.read h.buf).take n = buf.read h.buf := by
        intro n hn
        exact List.take_of_length_le (by rw [Span.length_read]; exact hn)
      rw [Heap.read, Gather.read_cons, List.take_append, Span.length_read]
      by_cases hlt : buf.len < size - done
      · rw [if_pos hlt, ih (by omega), hall _ (Nat.le_refl _), hall _ (Nat.le_of_lt hlt), Nat.sub_sub]
        rfl
      · rw [if_neg hlt, ih (by omega), Nat.sub_eq_zero_of_le (by omega : size - done ≤ buf.len),
          Nat.sub_eq_zero_of_le (by omega : size ≤ done + (size - done))]
        rfl
    · obtain rfl : size = 0 := by omega
      simp [copyOutLoop]

namespace Rep

variable {k : BlockSize} {s : State} {f : Fifo} {full rest free others : List Addr}

/-- A `Reserve` or `ReserveAtLeast`, from what its loop did. -/
theorem grown {h' : Heap} {b' : BasicBuffer} {added free' : List Addr} {n : Nat}
    (hr : Rep k s f full rest free others) (hn : 0 < n)
    (hg : Grown s.heap { s.buf with reserved := true } (full ++ rest) h' b' added free' others)
    (htot : n ≤ Gather.total (spaces k h' (rest ++ added))) {ret : List SysBuf}
    (hret : ret = Gather.take n (spaces k h' (rest ++ added))) :
    Rep k { s with heap := h', buf := b', region := some ret } { f with resv := some (h'.read ret) }
      full (rest ++ added) free' others := by
  obtain ⟨hs, he⟩ := hr.shape.grown (b := { s.buf with reserved := true }) hr.end_ hg
  have hread : h'.read = s.heap.read := by
    funext bufs
    simp only [Heap.read, hg.frame.buf]
  have hdatas : s.heap.read (datas h' (full ++ (rest ++ added))) = f.queue := by
    rw [← List.append_assoc, datas_append, Heap.read, Gather.read_append,
      read_datas_empty _ fun a ha => (hg.empty a ha).2, List.append_nil, datas_congr hg.kept]
    exact hr.queue
  refine ⟨by rw [← List.append_assoc]; exact hg.owns, hs, he, by rw [hread]; exact hdatas,
    hg.dataSize.trans hr.size, hg.reserved, ?_, rfl, hg.peeked.trans hr.peeked, ?_, hr.seen⟩
  · intro bufs hb
    obtain rfl : ret = bufs := by simpa using hb
    exact ⟨n, hn, htot, hret⟩
  · intro bufs hb
    obtain ⟨hsp, hle, hpre⟩ := hr.view bufs hb
    refine ⟨fun sp hm => ?_, hle, by rw [hread]; exact hpre⟩
    obtain ⟨hmem, hoff⟩ := hsp sp hm
    have hk := hg.kept sp.base hmem
    refine ⟨by rw [← List.append_assoc]; exact List.mem_append_left _ hmem, ?_⟩
    simpa only [Block.spaceOff, hk.1, hk.2] using hoff

/-- `Reserve`. -/
theorem reserve {size : Nat} (hr : Rep k s f full rest free others) (hfree : s.region = none)
    (hsize : 0 < size) :
    ∃ ret h' b' rest' free', Buffer.reserve k s.heap s.buf size = .ok (ret, h', b') ∧
      (h'.read ret).length = size ∧ Frame s.heap h' s.buf.freelist others ∧
      b'.freelist = s.buf.freelist ∧
      Rep k { s with heap := h', buf := b', region := some ret }
        { f with resv := some (h'.read ret) } full rest' free' others := by
  have hres : s.buf.reserved = false := by rw [hr.reserved, hfree]; rfl
  have ho : Owns s.heap { s.buf with reserved := true } (full ++ rest) free others :=
    hr.owns.fields rfl rfl rfl rfl
  obtain ⟨ret, h', b', added, free', hloop, hg, hret, htot⟩ :=
    reserveLoop_spec ho hr.shape.spaceLen_pos (Nat.le_refl size)
  refine ⟨ret, h', b', rest ++ added, free', ?_, ?_, hg.frame, hg.freelist,
    hr.grown hsize hg htot hret⟩
  · rw [Buffer.reserve, hres]
    simp only [assert, if_true, bind, Except.bind]
    rw [spaceStepper_eq ho hr.shape hr.end_]
    exact hloop
  · rw [hret, Heap.length_read, Gather.total_take, Nat.min_eq_left htot]

/-- `ReserveAtLeast`. -/
theorem reserveAtLeast {size : Nat} (hr : Rep k s f full rest free others)
    (hfree : s.region = none) (hsize : 0 < size) :
    ∃ ret h' b' rest' free', Buffer.reserveAtLeast k s.heap s.buf size = .ok (ret, h', b') ∧
      size ≤ (h'.read ret).length ∧ Frame s.heap h' s.buf.freelist others ∧
      b'.freelist = s.buf.freelist ∧
      Rep k { s with heap := h', buf := b', region := some ret }
        { f with resv := some (h'.read ret) } full rest' free' others := by
  have hres : s.buf.reserved = false := by rw [hr.reserved, hfree]; rfl
  have ho : Owns s.heap { s.buf with reserved := true } (full ++ rest) free others :=
    hr.owns.fields rfl rfl rfl rfl
  obtain ⟨ret, reserved, h', b', added, free', n, hloop, hg, hret, htot, hn⟩ :=
    reserveAtLeastLoop_spec ho hr.shape.spaceLen_pos (by omega : size ≤ 0 + size)
  refine ⟨ret, h', b', rest ++ added, free', ?_, ?_, hg.frame, hg.freelist,
    hr.grown (by omega) hg htot hret⟩
  · rw [Buffer.reserveAtLeast, reserveAtLeastSize, hres]
    simp only [assert, if_true, bind, Except.bind]
    rw [spaceStepper_eq ho hr.shape hr.end_, hloop]
    rfl
  · rw [hret, Heap.length_read, Gather.total_take, Nat.min_eq_left htot]
    omega

/-- Writes into the reserved region do not change the queue, nor what a view shows. -/
theorem write {m : Addr → Nat → Byte} {bufs : List SysBuf} (hr : Rep k s f full rest free others)
    (hbufs : s.region = some bufs)
    (hm : ∀ a i, ¬ Gather.Covers bufs a i → m a i = s.heap.buf a i) :
    Rep k { s with heap := { s.heap with buf := m } } { f with resv := some (Gather.read m bufs) }
      full rest free others := by
  obtain ⟨n, -, -, htake⟩ := hr.region bufs hbufs
  -- The region lies behind the data of every block.
  have hsame : ∀ a i, i < (s.heap.block a).spaceOff → m a i = s.heap.buf a i := by
    intro a i hi
    refine hm a i fun hc => ?_
    rw [htake] at hc
    exact Nat.not_lt.mpr (covers_spaces (Gather.covers_of_take hc)) hi
  have howns := hr.owns
  refine ⟨⟨howns.chain, howns.freeChain, howns.nodup, howns.bound, howns.tail, howns.count⟩,
    ⟨hr.shape.filled, hr.shape.space, hr.shape.empty, hr.shape.offset⟩, hr.end_, ?_, hr.size,
    hr.reserved, hr.region, ?_, hr.peeked, ?_, hr.seen⟩
  · rw [← hr.queue]
    exact Gather.read_congr fun a i hc => hsame a i (covers_datas hc)
  · simp only [hbufs, Option.map_some]
    rfl
  · intro view hv
    obtain ⟨hsp, hle, hpre⟩ := hr.view view hv
    refine ⟨hsp, hle, ?_⟩
    rw [← hpre]
    refine Gather.read_congr fun a i hc => hsame a i ?_
    obtain ⟨sp, hmem, rfl, -, hlt⟩ := hc
    have := (hsp sp hmem).2
    omega

theorem size_eq (hr : Rep k s f full rest free others) :
    s.buf.dataSize = Gather.total (datas s.heap (full ++ rest)) := by
  rw [hr.size, ← hr.queue, Heap.length_read]

/-- `Commit`: the first `size` bytes of the region are appended. -/
theorem commit {size : Nat} {bufs : List SysBuf} (hr : Rep k s f full rest free others)
    (hbufs : s.region = some bufs) (hsize : size ≤ Gather.total bufs) :
    ∃ h' b' full' rest', Buffer.commit k s.heap s.buf size = .ok (h', b') ∧
      Frame s.heap h' s.buf.freelist others ∧ b'.freelist = s.buf.freelist ∧
      Rep k { s with heap := h', buf := b', region := none }
        { f with queue := f.queue ++ (s.heap.read bufs).take size, resv := none }
        full' rest' free others := by
  obtain ⟨n, hn, htot, rfl⟩ := hr.region bufs hbufs
  rw [Gather.total_take, Nat.min_eq_left htot] at hsize
  obtain ⟨h', b', hloop, hcom⟩ :=
    commitLoop_spec hr.owns hr.shape hr.end_ (Nat.le_trans hsize htot) (Nat.le_refl size)
  obtain ⟨full', rest', hns, hshape, hend⟩ := hcom.shape
  have hfields := hcom.fields
  have hhead : s.buf.head ≠ none := by
    rw [hr.owns.head_eq]
    cases rest with
    | nil =>
      simp [spaces] at htot
      omega
    | cons r rs => cases full <;> simp
  have hspace : size ≤ spaceSize k s.heap s.buf := by
    rw [spaceSize_eq hr.owns hr.shape hr.size_eq]
    exact Nat.le_trans hsize htot
  have hres : s.buf.reserved = true := by rw [hr.reserved, hbufs]; rfl
  have hread : h'.read = s.heap.read := by
    funext bufs
    simp only [Heap.read, hcom.frame.buf]
  have happ : (s.heap.read (Gather.take n (spaces k s.heap rest))).take size
      = s.heap.read (Gather.take size (spaces k s.heap rest)) := by
    simp only [Heap.read, Gather.read_take, List.take_take, Nat.min_eq_left hsize]
  have hqueue : h'.read (datas h' (full ++ rest))
      = f.queue ++ (s.heap.read (Gather.take n (spaces k s.heap rest))).take size := by
    rw [hread, happ, ← hr.queue]
    exact hcom.data s.heap.buf
  refine ⟨h', { b' with dataSize := b'.dataSize + size, reserved := false }, full', rest', ?_,
    hcom.frame, by rw [hfields], ⟨?_, hshape, hend, ?_, ?_, rfl, ?_, rfl, ?_, ?_, hr.seen⟩⟩
  · simp only [Buffer.commit, assert, hres, hhead, hspace, ne_eq, not_false_eq_true, if_true, bind,
      Except.bind, spaceStepper_eq hr.owns hr.shape hr.end_, hloop, pure, Except.pure]
  · rw [hns]
    exact hcom.owns.fields rfl rfl rfl rfl
  · rw [hns]
    exact hqueue
  · have hlen : ((s.heap.read (Gather.take n (spaces k s.heap rest))).take size).length = size := by
      rw [List.length_take, Heap.length_read, Gather.total_take, Nat.min_eq_left htot,
        Nat.min_eq_left hsize]
    rw [List.length_append, hlen, hfields]
    exact congrArg (· + size) hr.size
  · intro bufs hb
    simp at hb
  · rw [hfields]
    exact hr.peeked
  · intro bufs hb
    obtain ⟨hsp, hle, hpre⟩ := hr.view bufs hb
    refine ⟨fun sp hm => ?_, ?_, ?_⟩
    · obtain ⟨hmem, hoff⟩ := hsp sp hm
      exact ⟨by rw [hns]; exact hmem, Nat.le_trans hoff (hcom.grows sp.base)⟩
    · rw [List.length_append]
      omega
    · rw [hread, List.take_append_of_le_length hle]
      exact hpre

/-- `Peek`: the buffers are a view of the whole queue. -/
theorem peek (hr : Rep k s f full rest free others) (hnone : s.view = none) :
    ∃ ret b', Buffer.peek s.heap s.buf = .ok (ret, b') ∧ s.heap.read ret = f.queue ∧
      b'.freelist = s.buf.freelist ∧
      Rep k { s with buf := b', view := some ret } { f with seen := some f.queue.length }
        full rest free others := by
  have hpk : s.buf.peeked = false := by rw [hr.peeked, hnone]; rfl
  have hloop := peekLoop_eq hr.owns.chain (Nat.le_of_eq hr.owns.count.symm)
  have hread := hr.shape.read_live s.heap.buf
  generalize hlive : (full ++ rest).takeWhile (fun a => 0 < (s.heap.block a).len) = live at *
  have hq : s.heap.read (datas s.heap live) = f.queue := hread.trans hr.queue
  have htot : Gather.total (datas s.heap live) = f.queue.length := by
    rw [← hq, Heap.length_read]
  refine ⟨datas s.heap live, { s.buf with peeked := true }, ?_, hq, rfl,
    ⟨hr.owns.fields rfl rfl rfl rfl, hr.shape, hr.end_, hr.queue, hr.size, hr.reserved, hr.region,
      hr.resv, rfl, ?_, ?_⟩⟩
  · simp only [Buffer.peek, assert, hpk, if_true, bind, Except.bind, hloop, pure, Except.pure]
  · intro bufs hb
    obtain rfl : datas s.heap live = bufs := by simpa using hb
    refine ⟨fun sp hm => ?_, Nat.le_of_eq htot, by rw [htot, List.take_length]; exact hq⟩
    obtain ⟨a, ha, rfl⟩ := List.mem_map.mp hm
    refine ⟨?_, Nat.le_refl _⟩
    rw [← hlive] at ha
    exact (List.takeWhile_sublist _).subset ha
  · simp [htot]

/-- The state after the loop of `Drain`, once `end_` is set. -/
theorem drained {size : Nat} {h₁ : Heap} {b₁ : BasicBuffer} {full' free' : List Addr}
    (hr : Rep k s f full rest free others) (b' : BasicBuffer)
    (hd : Drained k size full rest others s.heap s.buf full' free' h₁ b₁)
    (hb : b' = { b₁ with dataSize := b₁.dataSize - size, peeked := false, end_ := b'.end_ })
    (hend : b'.end_ = endOf h₁ full' rest) :
    Rep k { s with heap := h₁, buf := b', view := none }
      { f with queue := f.queue.drop size, seen := none } full' rest free' others := by
  have hfields := hd.fields
  have hread : h₁.read = s.heap.read := by
    funext bufs
    simp only [Heap.read, hd.frame.buf]
  refine ⟨?_, hd.shape, hend, ?_, ?_, ?_, ?_, ?_, ?_, ?_, rfl⟩
  · rw [hb]
    exact hd.owns.fields rfl rfl rfl rfl
  · rw [hread, ← hr.queue]
    exact hd.data s.heap.buf
  · rw [hb, hfields, List.length_drop, ← hr.size]
  · rw [hb, hfields]
    exact hr.reserved
  · intro bufs hbufs
    rw [hd.spaces]
    exact hr.region bufs hbufs
  · rw [hread]
    exact hr.resv
  · rw [hb]
    rfl
  · intro bufs hbufs
    simp at hbufs

/-- The head block may start over when it has no data and nobody has a part of it. -/
theorem resetHead {a : Addr} (hr : Rep k s f [] rest free others) (hhead : s.buf.head = some a)
    (hqueue : f.queue = []) (hregion : s.region = none) (hview : s.view = none) :
    Rep k { s with heap := s.heap.setBlock a { s.heap.block a with offset := 0 } } f [] rest free
      others := by
  obtain ⟨rs, rfl⟩ : ∃ rs, rest = a :: rs := by
    have := hr.owns.head_eq
    rw [hhead] at this
    exact List.head?_eq_some_iff.mp this.symm
  have hrs : a ∉ rs := (List.nodup_cons.mp hr.owns.nodup_ns).1
  have hne : ∀ x ∈ rs, x ≠ a := by
    rintro x hx rfl
    exact hrs hx
  have hlen : (s.heap.block a).len = 0 := by
    have := hr.size_eq
    rw [hr.size, hqueue] at this
    simp at this
    omega
  have hempty : ∀ x ∈ rs, (s.heap.block x).len = 0 := hr.shape.empty
  refine ⟨hr.owns.setBlock rfl, ⟨?_, ?_, ?_, ?_⟩, ?_, ?_, hr.size, hr.reserved, ?_, ?_, hr.peeked,
    ?_, hr.seen⟩
  · intro x hx
    simp at hx
  · intro x hx
    rcases List.mem_cons.mp hx with rfl | hx
    · rw [Heap.block_setBlock_self]
      simp only [hlen]
      exact k.capacity_pos
    · rw [Heap.block_setBlock_ne (hne x hx)]
      exact hr.shape.space x (by simp [hx])
  · intro x hx
    rw [Heap.block_setBlock_ne (hne x hx)]
    exact hr.shape.empty x hx
  · intro x hx
    rw [Heap.block_setBlock_ne (hne x hx)]
    exact hr.shape.offset x hx
  · rw [hr.end_]
    simp [endOf]
  · rw [hqueue, List.nil_append, datas_cons, datas_setBlock hrs, Heap.block_setBlock_self, Heap.read,
      Gather.read_cons, Span.read_of_len hlen, read_datas_empty _ hempty]
    rfl
  · intro bufs hb
    rw [hregion] at hb
    simp at hb
  · rw [hr.resv, hregion]
    rfl
  · intro bufs hb
    rw [hview] at hb
    simp at hb

/-- `Drain`: `size` bytes are removed from the front. The reserved region stays where it is. -/
theorem drain {size : Nat} {bufs : List SysBuf} (hr : Rep k s f full rest free others)
    (hview : s.view = some bufs) (hsize : size ≤ Gather.total bufs) :
    ∃ h' b' full' free', Buffer.drain k s.heap s.buf size = .ok (h', b') ∧
      Frame s.heap h' s.buf.freelist others ∧ b'.freelist = s.buf.freelist ∧
      Rep k { s with heap := h', buf := b', view := none }
        { f with queue := f.queue.drop size, seen := none } full' rest free' others := by
  have hle : size ≤ s.buf.dataSize := by
    rw [hr.size]
    exact Nat.le_trans hsize (hr.view bufs hview).2.1
  obtain ⟨full', free', h₁, b₁, hloop, hd⟩ :=
    drainLoop_spec hr.owns hr.shape (hr.size_eq ▸ hle) (Nat.le_refl size)
  have hpk : s.buf.peeked = true := by rw [hr.peeked, hview]; rfl
  have hrun : Buffer.drain k s.heap s.buf size = .ok (drainDone size h₁ b₁) := by
    simp only [Buffer.drain, assert, hpk, hle, if_true, bind, Except.bind, hloop, pure, Except.pure]
  rw [hrun]
  have hfl : b₁.freelist = s.buf.freelist := by rw [hd.fields]
  have hdata : b₁.dataSize = s.buf.dataSize := by rw [hd.fields]
  have hres : b₁.reserved = s.region.isSome := by rw [hd.fields]; exact hr.reserved
  unfold drainDone
  by_cases hzero : b₁.dataSize - size = 0
  · have htot : Gather.total (datas h₁ (full' ++ rest)) = 0 := by
      have := congrArg List.length (hd.data s.heap.buf)
      rw [Gather.length_read, List.length_drop, Gather.length_read, ← hr.size_eq] at this
      omega
    obtain rfl := hd.shape.full_eq_nil htot
    have hrep := hr.drained
      { b₁ with dataSize := b₁.dataSize - size, peeked := false, end_ := b₁.head } hd rfl
      (by rw [endOf_nil]; exact hd.owns.head_eq)
    have hqueue : f.queue.drop size = [] := List.drop_of_length_le (by rw [← hr.size]; omega)
    simp only [hzero, if_true]
    rw [hzero] at hrep
    cases hhead : b₁.head with
    | none =>
      rw [hhead] at hrep
      exact ⟨h₁, _, [], free', rfl, hd.frame, hfl, hrep⟩
    | some a =>
      rw [hhead] at hrep
      have ha : a ∈ [] ++ rest := by
        have := hd.owns.head_eq
        rw [hhead] at this
        exact List.mem_of_head? this.symm
      cases hreg : s.region with
      | some _ =>
        have hres₁ : b₁.reserved = true := by rw [hres, hreg]; rfl
        simp only [hres₁, if_true]
        rw [hres₁] at hrep
        exact ⟨h₁, _, [], free', rfl, hd.frame, hfl, hreg ▸ hrep⟩
      | none =>
        have hres₁ : b₁.reserved = false := by rw [hres, hreg]; rfl
        simp only [hres₁, Bool.false_eq_true, if_false]
        rw [hres₁] at hrep
        exact ⟨_, _, [], free', rfl, hd.frame.trans (Frame.setBlock _ (hd.owns.not_others ha)), hfl,
          hreg ▸ hrep.resetHead rfl hqueue hreg rfl⟩
  · rw [if_neg hzero]
    refine ⟨h₁, _, full', free', rfl, hd.frame, hfl, hr.drained _ hd rfl ?_⟩
    rw [hd.end_ (by rw [← hr.size_eq]; omega), ← hr.end_, hd.fields]

theorem region_nodup {bufs : List SysBuf} (hr : Rep k s f full rest free others)
    (hbufs : s.region = some bufs) : (bufs.map Span.base).Nodup := by
  obtain ⟨n, -, -, rfl⟩ := hr.region bufs hbufs
  have hrest : rest.Nodup := (List.nodup_append.mp hr.owns.nodup_ns).2.1
  exact (take_base n _).nodup (by rw [spaces_base]; exact hrest)

/-- Bytes scattered over the region from position `pos` on. -/
theorem scatter (pos : Nat) {bytes : List Byte} {bufs : List SysBuf}
    (hr : Rep k s f full rest free others) (hbufs : s.region = some bufs)
    (hlen : pos + bytes.length ≤ Gather.total bufs) :
    Rep k { s with heap := s.heap.scatter (Gather.drop pos bufs) bytes }
      { f with resv := some ((s.heap.read bufs).take pos ++ bytes
        ++ (s.heap.read bufs).drop (pos + bytes.length)) } full rest free others := by
  rw [Heap.read, ← Gather.read_scatter_drop (hr.region_nodup hbufs) hlen]
  refine hr.write hbufs fun a i hc => ?_
  exact Gather.scatter_of_not_covers fun hd => hc (Gather.covers_of_drop hd)

/-- `CopyIn`. -/
theorem copyIn {bytes : List Byte} (hr : Rep k s f full rest free others)
    (hfree : s.region = none) (hbytes : 0 < bytes.length) :
    ∃ h' b' full' rest' free', Buffer.copyIn k s.heap s.buf bytes = .ok (h', b') ∧
      Rep k { s with heap := h', buf := b' } { f with queue := f.queue ++ bytes }
        full' rest' free' others := by
  obtain ⟨ret, h₁, b₁, rest₁, free₁, hres, hlen, -, -, hr₁⟩ := hr.reserve hfree hbytes
  rw [Heap.length_read] at hlen
  have hr₂ := hr₁.scatter 0 rfl (by rw [Nat.zero_add]; exact Nat.le_of_eq hlen.symm)
  rw [Gather.drop_zero] at hr₂
  obtain ⟨h', b', full', rest', hcom, -, -, hr₃⟩ := hr₂.commit rfl (Nat.le_of_eq hlen.symm)
  -- The region was as long as the bytes, so they are all that it holds.
  have hregion : ((h₁.scatter ret bytes).read ret).take bytes.length = bytes := by
    have hnd := hr₁.region_nodup rfl
    rw [Heap.read, Heap.scatter, Gather.read_scatter hnd (Nat.le_of_eq hlen.symm), List.take_left]
  refine ⟨h', b', full', rest', free₁, ?_, ?_⟩
  · simp only [Buffer.copyIn, hres, bind, Except.bind]
    exact hcom
  · have hnone : f.resv = none := by rw [hr.resv, hfree]; rfl
    rw [hregion] at hr₃
    simpa only [hfree, hnone] using hr₃

/-- `CopyOut`. -/
theorem copyOut (size : Nat) (hr : Rep k s f full rest free others) (hnone : s.view = none) :
    ∃ h' b' full' free', Buffer.copyOut k s.heap s.buf size = .ok (f.queue.take size, h', b') ∧
      Frame s.heap h' s.buf.freelist others ∧ b'.freelist = s.buf.freelist ∧
      Rep k { s with heap := h', buf := b' } { f with queue := f.queue.drop size }
        full' rest free' others := by
  obtain ⟨ret, b₁, hpeek, hread, hfl₁, hr₁⟩ := hr.peek hnone
  have hcopied : copyOutLoop s.heap size ret 0 = f.queue.take size := by
    rw [copyOutLoop_eq (Nat.zero_le size), hread, Nat.sub_zero]
  have htot : Gather.total ret = f.queue.length := by rw [← Heap.length_read s.heap, hread]
  have hle : (f.queue.take size).length ≤ Gather.total ret := by
    rw [htot, List.length_take]
    exact Nat.min_le_right ..
  obtain ⟨h', b', full', free', hdrain, hframe, hfl, hr₂⟩ := hr₁.drain rfl hle
  refine ⟨h', b', full', free', ?_, hfl₁ ▸ hframe, hfl.trans hfl₁, ?_⟩
  · simp only [Buffer.copyOut, hpeek, bind, Except.bind, hcopied, hdrain, pure, Except.pure]
  · have hseen : f.seen = none := by rw [hr.seen, hnone]; rfl
    have hdrop : f.queue.drop (f.queue.take size).length = f.queue.drop size := by
      rw [List.length_take]
      by_cases hs : size ≤ f.queue.length
      · rw [Nat.min_eq_left hs]
      · rw [Nat.min_eq_right (by omega), List.drop_length, List.drop_of_length_le (by omega)]
    simpa only [hdrop, hseen, hnone] using hr₂

end Rep

end Buffer
end Proxy
end TrustedCa
