import TrustedCa.Proxy.BufferFifo

/-!
# Runs of the block buffer

`Run k s f` are the states that a client reaches from a new buffer by legal calls, with the byte
queue that results from the same calls. `Refines.exec` is one call, from the lemmas on `Rep`, and
`Run.refines` follows by induction: no legal call faults, and every call answers what the byte
queue does.
-/

namespace TrustedCa
namespace Proxy
namespace Buffer

open Spec

/-- The states reached from a new buffer by legal calls, and the queue after the same calls. -/
inductive Run (k : BlockSize) : State → Fifo → Prop
  | start {h : Heap} {i : Nat} : h.Valid i → Run k { heap := h, buf := { freelist := i } } {}
  | call {s s' : State} {f : Fifo} {c : Call} {answer : List Byte} : Run k s f → f.Legal c →
    exec k s c = .ok (answer, s') → Run k s' (f.apply answer c)

/-- Block `a` is in the list of the buffer and not in the freelist. -/
def State.InUse (s : State) (a : Addr) : Prop :=
  ∃ ns free, Seg s.heap.link s.buf.head ns none ∧
    Seg s.heap.link (s.heap.freelist s.buf.freelist).head free none ∧ a ∈ ns ∧ a ∉ free

/-- What a client can see of the buffer is what it would see of the queue. -/
structure Agrees (k : BlockSize) (s : State) (f : Fifo) : Prop where
  dataSize : s.buf.dataSize = f.queue.length
  view : s.view.map s.heap.read = f.seen.map f.queue.take
  region : s.region.map s.heap.read = f.resv
  inUse : ∀ bufs ∈ s.region, ∀ buf ∈ bufs, s.InUse buf.base ∧ buf.off + buf.len ≤ k.capacity

/-- The committed bytes in order, as the loop of `Peek` finds them. -/
def contents (h : Heap) (b : BasicBuffer) : Except Fault (List Byte) :=
  (peekLoop h b.blockCnt b.head).map h.read

/-- `Rep`, for some division of the blocks. -/
def Refines (k : BlockSize) (s : State) (f : Fifo) (others : List Addr) : Prop :=
  ∃ full rest free, Rep k s f full rest free others

section Refines

variable {k : BlockSize} {s : State} {f : Fifo} {others : List Addr}

/-- A new buffer holds the empty queue. -/
theorem rep_new {h : Heap} {i : Nat} {free : List Addr}
    (hfree : Seg h.link (h.freelist i).head free none) (hnd : (free ++ others).Nodup)
    (hbound : ∀ a ∈ free ++ others, a < h.fresh) :
    Rep k { heap := h, buf := { freelist := i } } {} [] [] free others := by
  refine ⟨⟨rfl, hfree, hnd, hbound, ?_, rfl⟩, Shape.nil k h, rfl, rfl, rfl, rfl, ?_, rfl, rfl, ?_,
    rfl⟩
  · intro hne
    exact absurd rfl hne
  · intro bufs hb
    simp at hb
  · intro bufs hb
    simp at hb

/-- The contents of a buffer are the queue that it represents. -/
theorem Rep.contents_eq {full rest free : List Addr} (hr : Rep k s f full rest free others) :
    contents s.heap s.buf = .ok f.queue := by
  rw [contents, peekLoop_eq hr.owns.chain (Nat.le_of_eq hr.owns.count.symm), ← hr.queue]
  exact congrArg Except.ok (hr.shape.read_live s.heap.buf)

theorem Rep.agrees {full rest free : List Addr} (hr : Rep k s f full rest free others) :
    Agrees k s f := by
  refine ⟨hr.size, ?_, hr.resv.symm, ?_⟩
  · rw [hr.seen]
    cases hv : s.view with
    | none => rfl
    | some bufs => simp [(hr.view bufs hv).2.2]
  · intro bufs hb buf hm
    obtain ⟨n, -, -, rfl⟩ := hr.region bufs hb
    obtain ⟨t, ht, hbase, hoff, hlen⟩ := Gather.mem_take hm
    obtain ⟨a, ha, rfl⟩ := List.mem_map.mp ht
    refine ⟨⟨full ++ rest, free, hr.owns.chain, hr.owns.freeChain, ?_, ?_⟩, ?_⟩
    · rw [hbase]
      exact List.mem_append_right _ ha
    · rw [hbase]
      intro hf
      refine (List.nodup_append.mp hr.owns.nodup).2.2 a (by simp [ha]) a (by simp [hf]) rfl
    · have := hr.shape.space a ha
      simp only [Block.spaceOff, Block.spaceLen] at hoff hlen
      omega

theorem Rep.region_of_resv {full rest free : List Addr} {bytes : List Byte}
    (hr : Rep k s f full rest free others) (hb : bytes ∈ f.resv) :
    ∃ bufs, s.region = some bufs ∧ s.heap.read bufs = bytes := by
  rw [hr.resv] at hb
  exact Option.map_eq_some_iff.mp hb

theorem Rep.view_of_seen {full rest free : List Addr} {n : Nat}
    (hr : Rep k s f full rest free others) (hn : n ∈ f.seen) :
    ∃ bufs, s.view = some bufs ∧ Gather.total bufs = n := by
  rw [hr.seen] at hn
  exact Option.map_eq_some_iff.mp hn

theorem Rep.region_of_unreserved {full rest free : List Addr} (hr : Rep k s f full rest free others)
    (hresv : f.resv = none) : s.region = none :=
  Option.map_eq_none_iff.mp (hr.resv.symm.trans hresv)

theorem Rep.view_of_unseen {full rest free : List Addr} (hr : Rep k s f full rest free others)
    (hseen : f.seen = none) : s.view = none :=
  Option.map_eq_none_iff.mp (hr.seen.symm.trans hseen)

/-- The flags of the buffer say whether there are a region and a view. -/
theorem Rep.region_none {full rest free : List Addr} (hr : Rep k s f full rest free others)
    (hres : s.buf.reserved = false) : s.region = none := by
  rw [hr.reserved] at hres
  exact Option.not_isSome_iff_eq_none.mp (by rw [hres]; exact Bool.false_ne_true)

theorem Rep.view_none {full rest free : List Addr} (hr : Rep k s f full rest free others)
    (hpeeked : s.buf.peeked = false) : s.view = none := by
  rw [hr.peeked] at hpeeked
  exact Option.not_isSome_iff_eq_none.mp (by rw [hpeeked]; exact Bool.false_ne_true)

/-- One legal call. -/
theorem Refines.exec {c : Call} (hr : Refines k s f others) (hc : f.Legal c) :
    ∃ answer s', Buffer.exec k s c = .ok (answer, s') ∧ f.Answers answer c ∧
      Refines k s' (f.apply answer c) others := by
  obtain ⟨full, rest, free, hr⟩ := hr
  cases c with
  | reserve size =>
    obtain ⟨ret, h', b', rest', free', heq, hlen, -, -, hr'⟩ := hr.reserve (hr.region_of_unreserved hc.1) hc.2
    exact ⟨_, _, by rw [Buffer.exec, heq]; rfl, hlen, full, rest', free', hr'⟩
  | reserveAtLeast size =>
    obtain ⟨ret, h', b', rest', free', heq, hlen, -, -, hr'⟩ :=
      hr.reserveAtLeast (hr.region_of_unreserved hc.1) hc.2
    exact ⟨_, _, by rw [Buffer.exec, heq]; rfl, hlen, full, rest', free', hr'⟩
  | write pos bytes =>
    obtain ⟨_, hb, hlen⟩ := hc
    obtain ⟨bufs, hbufs, rfl⟩ := hr.region_of_resv hb
    rw [Heap.length_read] at hlen
    refine ⟨[], _, rfl, rfl, full, rest, free, ?_⟩
    have hr' := hr.scatter pos hbufs hlen
    rw [Option.mem_def] at hb
    simpa only [Fifo.apply, hbufs, hb, Option.map_some, Option.getD_some] using hr'
  | commit size =>
    obtain ⟨_, hb, hlen⟩ := hc
    obtain ⟨bufs, hbufs, rfl⟩ := hr.region_of_resv hb
    rw [Heap.length_read] at hlen
    obtain ⟨h', b', full', rest', heq, -, -, hr'⟩ := hr.commit hbufs hlen
    refine ⟨_, _, by rw [Buffer.exec, heq]; rfl, rfl, full', rest', free, ?_⟩
    rw [Option.mem_def] at hb
    simpa only [Fifo.apply, hb, Option.getD_some] using hr'
  | peek =>
    obtain ⟨ret, b', heq, hread, -, hr'⟩ := hr.peek (hr.view_of_unseen hc)
    exact ⟨_, _, by rw [Buffer.exec, heq]; rfl, hread, full, rest, free, hr'⟩
  | drain size =>
    obtain ⟨_, hn, hlen⟩ := hc
    obtain ⟨bufs, hbufs, rfl⟩ := hr.view_of_seen hn
    obtain ⟨h', b', full', free', heq, -, -, hr'⟩ := hr.drain hbufs hlen
    exact ⟨_, _, by rw [Buffer.exec, heq]; rfl, rfl, full', rest, free', hr'⟩
  | copyIn bytes =>
    obtain ⟨h', b', full', rest', free', heq, hr'⟩ := hr.copyIn (hr.region_of_unreserved hc.1) hc.2
    exact ⟨_, _, by rw [Buffer.exec, heq]; rfl, rfl, full', rest', free', hr'⟩
  | copyOut size =>
    obtain ⟨h', b', full', free', heq, -, -, hr'⟩ := hr.copyOut size (hr.view_of_unseen hc)
    exact ⟨_, _, by rw [Buffer.exec, heq]; rfl, rfl, full', rest, free', hr'⟩

theorem Run.refines (hrun : Run k s f) : Refines k s f [] := by
  induction hrun with
  | start hv =>
    obtain ⟨free, hfree, hnd, hbound⟩ := hv
    exact ⟨[], [], free, rep_new hfree (by simpa using hnd) (by simpa using hbound)⟩
  | call _ hc heq ih =>
    obtain ⟨answer, s', heq', -, hr⟩ := ih.exec hc
    rw [heq] at heq'
    cases heq'
    exact hr

/-- The block buffer is a byte queue: in every state reached by legal calls, its size, the view of
an outstanding `Peek` and the region of an outstanding `Reserve` hold what the queue holds, the
region is in blocks that the buffer has in use, and every legal call returns, with an answer that
the queue may give. -/
theorem basicBuffer_refines_fifo (hrun : Run k s f) :
    Agrees k s f ∧ ∀ c, f.Legal c →
      ∃ answer s', exec k s c = .ok (answer, s') ∧ f.Answers answer c := by
  obtain ⟨full, rest, free, hr⟩ := hrun.refines
  refine ⟨hr.agrees, ?_⟩
  intro c hc
  obtain ⟨answer, s', heq, hans, -⟩ := Refines.exec ⟨full, rest, free, hr⟩ hc
  exact ⟨answer, s', heq, hans⟩

end Refines

/-- A memory of zeros in which nothing is allocated. -/
def Heap.empty : Heap := ⟨fun _ => {}, fun _ _ => 0, 0, fun _ => {}⟩

theorem Heap.empty_valid (i : Nat) : Heap.empty.Valid i := ⟨[], rfl, List.nodup_nil, by simp⟩

/-- Blocks of eight bytes: `CopyIn` of six bytes, `Reserve(5)` over two blocks, a `Peek`, a write to
the front of the region and a `Drain` of five bytes before the `Commit`. -/
theorem basicBuffer_refines_fifo_drainReserved :
    ∃ s tail, tail.length = 3 ∧ Run ⟨32, by decide⟩ s ⟨[6], some ([7, 8] ++ tail), none⟩ ∧
      Agrees ⟨32, by decide⟩ s ⟨[6], some ([7, 8] ++ tail), none⟩ := by
  have h₁ : Run ⟨32, by decide⟩ _ ⟨[1, 2, 3, 4, 5, 6], none, none⟩ :=
    (Run.start (Heap.empty_valid 0)).call (c := .copyIn [1, 2, 3, 4, 5, 6]) ⟨rfl, by decide⟩ rfl
  obtain ⟨region, s₂, heq₂, hlen⟩ := (basicBuffer_refines_fifo h₁).2 (.reserve 5) ⟨rfl, by decide⟩
  have h₂ : Run _ s₂ ⟨[1, 2, 3, 4, 5, 6], some region, none⟩ :=
    h₁.call (c := .reserve 5) ⟨rfl, by decide⟩ heq₂
  obtain ⟨_, s₃, heq₃, rfl⟩ := (basicBuffer_refines_fifo h₂).2 .peek rfl
  have h₃ : Run _ s₃ ⟨[1, 2, 3, 4, 5, 6], some region, some 6⟩ := h₂.call (c := .peek) rfl heq₃
  have hwrite : Fifo.Legal ⟨[1, 2, 3, 4, 5, 6], some region, some 6⟩ (.write 0 [7, 8]) :=
    ⟨region, rfl, by rw [show region.length = 5 from hlen]; decide⟩
  obtain ⟨_, s₄, heq₄, rfl⟩ := (basicBuffer_refines_fifo h₃).2 _ hwrite
  have h₄ : Run _ s₄ ⟨[1, 2, 3, 4, 5, 6], some ([7, 8] ++ region.drop 2), some 6⟩ := h₃.call hwrite heq₄
  have hdrain : Fifo.Legal ⟨[1, 2, 3, 4, 5, 6], some ([7, 8] ++ region.drop 2), some 6⟩ (.drain 5) :=
    ⟨6, rfl, by decide⟩
  obtain ⟨_, s₅, heq₅, rfl⟩ := (basicBuffer_refines_fifo h₄).2 _ hdrain
  have h₅ : Run _ s₅ ⟨[6], some ([7, 8] ++ region.drop 2), none⟩ := h₄.call hdrain heq₅
  refine ⟨s₅, region.drop 2, ?_, h₅, (basicBuffer_refines_fifo h₅).1⟩
  rw [List.length_drop, show region.length = 5 from hlen]

end Buffer
end Proxy
end TrustedCa
