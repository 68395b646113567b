import TrustedCa.Proxy.BufferChain

/-!
# Where the data and the free space of a buffer are

The blocks of a buffer are `full ++ rest` (`Shape`): blocks without free space, then blocks with
free space, of which at most the first has data. `end_` is the last block with data, or the head
(`endOf`), so a `SpaceStepper` starts at the first block of `rest` whichever of the two it is.

Each loop of the code keeps the shape. `commitLoop_spec` moves blocks from `rest` to `full`,
`drainLoop_spec` prunes blocks of `full`, and neither touches the free space of the other blocks:
this is why a `Drain` may come between a `Reserve` and its `Commit`.
-/

namespace TrustedCa
namespace Proxy
namespace Buffer

open Spec

/-- `full` are the blocks without free space, `rest` the blocks with free space. -/
structure Shape (k : BlockSize) (h : Heap) (full rest : List Addr) : Prop where
  filled : ∀ a ∈ full, (h.block a).offset + (h.block a).len = k.capacity ∧ 0 < (h.block a).len
  space : ∀ a ∈ rest, (h.block a).offset + (h.block a).len < k.capacity
  empty : ∀ a ∈ rest.tail, (h.block a).len = 0
  offset : ∀ a ∈ (full ++ rest).tail, (h.block a).offset = 0

/-- The last block with data, or the head. -/
def endOf (h : Heap) (full : List Addr) : List Addr → Ptr
  | [] => full.getLast?
  | r :: _ => if 0 < (h.block r).len then some r else full.getLast?.or (some r)

section Shape

variable {k : BlockSize} {h h' : Heap} {b b' : BasicBuffer} {full rest free others : List Addr}

theorem Shape.nil (k : BlockSize) (h : Heap) : Shape k h [] [] := by
  constructor <;> simp

theorem Shape.congr (hs : Shape k h full rest) (heq : ∀ a ∈ full ++ rest,
    (h'.block a).offset = (h.block a).offset ∧ (h'.block a).len = (h.block a).len) :
    Shape k h' full rest where
  filled a ha := by
    rw [(heq a (by simp [ha])).1, (heq a (by simp [ha])).2]
    exact hs.filled a ha
  space a ha := by
    rw [(heq a (by simp [ha])).1, (heq a (by simp [ha])).2]
    exact hs.space a ha
  empty a ha := by
    rw [(heq a (by simp [List.mem_of_mem_tail ha])).2]
    exact hs.empty a ha
  offset a ha := by
    rw [(heq a (List.mem_of_mem_tail ha)).1]
    exact hs.offset a ha

theorem Shape.spaceLen_pos (hs : Shape k h full rest) :
    ∀ a ∈ rest, 0 < (h.block a).spaceLen k := by
  intro a ha
  have := hs.space a ha
  unfold Block.spaceLen
  omega

theorem Shape.spaceLen_full (hs : Shape k h full rest) :
    ∀ a ∈ full, (h.block a).spaceLen k = 0 := by
  intro a ha
  have := (hs.filled a ha).1
  unfold Block.spaceLen
  omega

/-- A stepper starts at the first block with free space. -/
theorem spaceStepper_eq (ho : Owns h b (full ++ rest) free others) (hs : Shape k h full rest)
    (he : b.end_ = endOf h full rest) : spaceStepper k h b = rest.head? := by
  -- When `end_` is the last full block, the stepper moves on to its successor.
  have hlast : ∀ t, full.getLast? = some t → (h.block t).spaceLen k = 0 ∧ h.link t = rest.head? := by
    intro t ht
    obtain ⟨xs, rfl⟩ := List.getLast?_eq_some_iff.mp ht
    refine ⟨hs.spaceLen_full t (by simp), ?_⟩
    have := ho.chain
    rw [List.append_assoc] at this
    exact this.next_eq
  unfold spaceStepper
  rw [he]
  cases rest with
  | nil =>
    simp only [endOf]
    cases hl : full.getLast? with
    | none => rfl
    | some t =>
      simp only [(hlast t hl).1, if_true]
      exact (hlast t hl).2
  | cons r rs =>
    have hr := hs.spaceLen_pos r (by simp)
    simp only [endOf]
    by_cases hlen : 0 < (h.block r).len
    · simp [hlen, Nat.ne_of_gt hr]
    · cases hl : full.getLast? with
      | none => simp [hlen, Nat.ne_of_gt hr]
      | some t =>
        simp only [hlen, if_false, Option.some_or, (hlast t hl).1, if_true]
        exact (hlast t hl).2

/-- Appended blocks are further blocks with free space. -/
theorem Shape.grown {added free' : List Addr} (hs : Shape k h full rest)
    (he : b.end_ = endOf h full rest) (hg : Grown h b (full ++ rest) h' b' added free' others) :
    Shape k h' full (rest ++ added) ∧ b'.end_ = endOf h' full (rest ++ added) := by
  have hs' := hs.congr hg.kept
  refine ⟨⟨hs'.filled, ?_, ?_, ?_⟩, ?_⟩
  · intro a ha
    rcases List.mem_append.mp ha with ha | ha
    · exact hs'.space a ha
    · rw [(hg.empty a ha).1, (hg.empty a ha).2]
      exact k.capacity_pos
  · intro a ha
    cases rest with
    | nil => exact (hg.empty a (List.mem_of_mem_tail ha)).2
    | cons r rs =>
      rcases List.mem_append.mp ha with ha | ha
      · exact hs'.empty a ha
      · exact (hg.empty a ha).2
  · intro a ha
    rw [← List.append_assoc] at ha
    cases hns : full ++ rest with
    | nil =>
      rw [hns] at ha
      exact (hg.empty a (List.mem_of_mem_tail ha)).1
    | cons x xs =>
      rw [hns, List.cons_append, List.tail_cons] at ha
      rcases List.mem_append.mp ha with ha | ha
      · exact hs'.offset a (by rw [hns]; exact ha)
      · exact (hg.empty a ha).1
  · rw [hg.end_, he]
    cases rest with
    | cons r rs => simp [endOf, (hg.kept r (by simp)).2]
    | nil =>
      cases added with
      | nil => simp [endOf]
      | cons a added =>
        have hlen := (hg.empty a (by simp)).2
        cases hl : full.getLast? with
        | none =>
          obtain rfl : full = [] := List.getLast?_eq_none_iff.mp hl
          simp [endOf, hlen]
        | some t =>
          have hne : full ≠ [] := by
            rintro rfl
            cases hl
          simp [endOf, hlen, hl, hne]

end Shape

section Data

variable {h h' : Heap} {b : BasicBuffer} {ns xs ys free others : List Addr} {a : Addr}
  {blk : Block}

@[simp] theorem datas_nil : datas h [] = [] := rfl

@[simp] theorem datas_cons :
    datas h (a :: ns) = ⟨a, (h.block a).offset, (h.block a).len⟩ :: datas h ns := rfl

@[simp] theorem datas_append : datas h (xs ++ ys) = datas h xs ++ datas h ys := List.map_append

@[simp] theorem spaces_cons {k : BlockSize} : spaces k h (a :: ns)
    = ⟨a, (h.block a).spaceOff, (h.block a).spaceLen k⟩ :: spaces k h ns := rfl

theorem datas_congr (heq : ∀ a ∈ ns, (h'.block a).offset = (h.block a).offset ∧
    (h'.block a).len = (h.block a).len) : datas h' ns = datas h ns := by
  refine List.map_congr_left fun a ha => ?_
  rw [(heq a ha).1, (heq a ha).2]

theorem read_datas_empty (m : Addr → Nat → Byte) (h0 : ∀ a ∈ ns, (h.block a).len = 0) :
    Gather.read m (datas h ns) = [] := by
  induction ns with
  | nil => rfl
  | cons a ns ih =>
    rw [datas_cons, Gather.read_cons, Span.read_of_len (h0 a (by simp)),
      ih fun x hx => h0 x (by simp [hx])]
    rfl

theorem datas_setBlock (ha : a ∉ ns) : datas (h.setBlock a blk) ns = datas h ns := by
  refine datas_congr fun x hx => ?_
  rw [Heap.block_setBlock_ne (by rintro rfl; exact ha hx)]
  exact ⟨rfl, rfl⟩

theorem spaces_setBlock {k : BlockSize} (ha : a ∉ ns) :
    spaces k (h.setBlock a blk) ns = spaces k h ns := by
  refine spaces_congr fun x hx => ?_
  rw [Heap.block_setBlock_ne (by rintro rfl; exact ha hx)]
  exact ⟨rfl, rfl⟩

/-- A header changes, but not its link. -/
theorem Owns.setBlock (ho : Owns h b ns free others) (hnext : blk.next = (h.block a).next) :
    Owns (h.setBlock a blk) b ns free others := by
  have hlink : (h.setBlock a blk).link = h.link := by
    rw [Heap.link_setBlock, hnext]
    exact Function.update_eq_self ..
  exact ⟨hlink ▸ ho.chain, by rw [hlink]; exact ho.freeChain, ho.nodup, ho.bound, ho.tail, ho.count⟩

/-- Members that are no pointers to the blocks, and no count of them, do not matter. -/
theorem Owns.fields {b' : BasicBuffer} (ho : Owns h b ns free others) (hhead : b'.head = b.head)
    (htail : b'.tail = b.tail) (hfree : b'.freelist = b.freelist)
    (hcount : b'.blockCnt = b.blockCnt) : Owns h b' ns free others :=
  ⟨hhead ▸ ho.chain, hfree ▸ ho.freeChain, ho.nodup, ho.bound, htail ▸ ho.tail,
    hcount.trans ho.count⟩

theorem Frame.setBlock (i : Nat) (ha : a ∉ others) : Frame h (h.setBlock a blk) i others := by
  refine ⟨rfl, fun x hx => Heap.block_setBlock_ne ?_, fun _ _ => rfl⟩
  rintro rfl
  exact ha hx

theorem Owns.not_others (ho : Owns h b ns free others) (ha : a ∈ ns) : a ∉ others := by
  intro hm
  exact (List.nodup_append.mp ho.nodup).2.2 a ha a (by simp [hm]) rfl

theorem Owns.nodup_ns (ho : Owns h b ns free others) : ns.Nodup := (List.nodup_append.mp ho.nodup).1

end Data

/-- The heap and the buffer after the first `n` bytes of the free space of `rest` were committed.
`ns` are all blocks of the buffer. -/
structure Committed (k : BlockSize) (n : Nat) (ns rest free others : List Addr) (h : Heap)
    (b : BasicBuffer) (h' : Heap) (b' : BasicBuffer) : Prop where
  owns : Owns h' b' ns free others
  shape : ∃ full' rest', full' ++ rest' = ns ∧ Shape k h' full' rest' ∧
    b'.end_ = endOf h' full' rest'
  data : ∀ m : Addr → Nat → Byte, Gather.read m (datas h' ns)
    = Gather.read m (datas h ns) ++ Gather.read m (Gather.take n (spaces k h rest))
  grows : ∀ a, (h.block a).spaceOff ≤ (h'.block a).spaceOff
  frame : Frame h h' b.freelist others
  fields : b' = { b with end_ := b'.end_ }

theorem Committed.zero {k : BlockSize} {h : Heap} {b : BasicBuffer}
    {full rest free others : List Addr} (ho : Owns h b (full ++ rest) free others)
    (hs : Shape k h full rest) (he : b.end_ = endOf h full rest) :
    Committed k 0 (full ++ rest) rest free others h b h b where
  owns := ho
  shape := ⟨full, rest, rfl, hs, he⟩
  data m := by simp
  grows a := Nat.le_refl _
  frame := Frame.refl ..
  fields := rfl

/-- The effect of one iteration of the loop of `Commit` on the heap: `c` more bytes of data in the
first block with free space. -/
structure BlockCommitted (k : BlockSize) (c : Nat) (full : List Addr) (r : Addr)
    (rs free others : List Addr) (h : Heap) (b : BasicBuffer) (h' : Heap) : Prop where
  owns : Owns h' b (full ++ r :: rs) free others
  frame : Frame h h' b.freelist others
  grows : ∀ a, (h.block a).spaceOff ≤ (h'.block a).spaceOff
  spaces : spaces k h' rs = spaces k h rs
  data : ∀ m : Addr → Nat → Byte, Gather.read m (datas h' (full ++ r :: rs))
    = Gather.read m (datas h (full ++ r :: rs)) ++ Span.read m ⟨r, (h.block r).spaceOff, c⟩
  offset : (h'.block r).offset = (h.block r).offset
  len : (h'.block r).len = (h.block r).len + c
  kept : ∀ a ∈ full ++ rs, h'.block a = h.block a

section Commit

variable {k : BlockSize} {h : Heap} {b : BasicBuffer} {full rest rs free others : List Addr}
  {r : Addr} {c : Nat}

theorem blockCommitted (ho : Owns h b (full ++ r :: rs) free others)
    (hs : Shape k h full (r :: rs)) :
    BlockCommitted k c full r rs free others h b
      (h.setBlock r { h.block r with len := (h.block r).len + c }) := by
  have hr : r ∉ full ++ rs := (List.nodup_cons.mp (List.nodup_middle.mp ho.nodup_ns)).1
  have hkept : ∀ a ∈ full ++ rs,
      (h.setBlock r { h.block r with len := (h.block r).len + c }).block a = h.block a := by
    intro a ha
    refine Heap.block_setBlock_ne ?_
    rintro rfl
    exact hr ha
  rw [List.mem_append, not_or] at hr
  refine ⟨ho.setBlock rfl, Frame.setBlock _ (ho.not_others (by simp)), ?_, spaces_setBlock hr.2,
    ?_, ?_, ?_, hkept⟩
  · intro a
    by_cases ha : a = r
    · subst ha
      rw [Heap.block_setBlock_self]
      simp only [Block.spaceOff]
      omega
    · rw [Heap.block_setBlock_ne ha]
  · intro m
    have hempty : Gather.read m (datas h rs) = [] := read_datas_empty m hs.empty
    rw [datas_append, datas_append, datas_cons, datas_cons, datas_setBlock hr.1,
      datas_setBlock hr.2, Heap.block_setBlock_self]
    simp only [Gather.read_append, Gather.read_cons, hempty, Span.read_split, Block.spaceOff,
      List.append_nil, List.append_assoc]
  · rw [Heap.block_setBlock_self]
  · rw [Heap.block_setBlock_self]

namespace BlockCommitted

variable {h' : Heap} (hc : BlockCommitted k c full r rs free others h b h')

include hc

/-- A block that still has free space stays where it is. -/
theorem shape_part (hs : Shape k h full (r :: rs)) (hlt : c < (h.block r).spaceLen k) :
    Shape k h' full (r :: rs) where
  filled a ha := by
    rw [hc.kept a (by simp [ha])]
    exact hs.filled a ha
  space a ha := by
    rcases List.mem_cons.mp ha with rfl | ha
    · rw [hc.offset, hc.len]
      unfold Block.spaceLen at hlt
      omega
    · rw [hc.kept a (by simp [ha])]
      exact hs.space a (by simp [ha])
  empty a ha := by
    rw [hc.kept a (by simp at ha; simp [ha])]
    exact hs.empty a ha
  offset a ha := by
    by_cases har : a = r
    · subst har
      rw [hc.offset]
      exact hs.offset a ha
    · have : a ∈ full ++ rs := by
        have := List.mem_of_mem_tail ha
        simp only [List.mem_append, List.mem_cons, har, false_or] at this
        simpa using this
      rw [hc.kept a this]
      exact hs.offset a ha

/-- A block that is full now is the last of the full blocks. -/
theorem shape_full (hs : Shape k h full (r :: rs)) (heq : c = (h.block r).spaceLen k) :
    Shape k h' (full ++ [r]) rs where
  filled a ha := by
    rcases List.mem_append.mp ha with ha | ha
    · rw [hc.kept a (by simp [ha])]
      exact hs.filled a ha
    · obtain rfl : a = r := by simpa using ha
      have := hs.space a (by simp)
      rw [hc.offset, hc.len]
      unfold Block.spaceLen at heq
      omega
  space a ha := by
    rw [hc.kept a (by simp [ha])]
    exact hs.space a (by simp [ha])
  empty a ha := by
    have ha := List.mem_of_mem_tail ha
    rw [hc.kept a (by simp [ha])]
    exact hs.empty a ha
  offset a ha := by
    rw [List.append_assoc] at ha
    by_cases har : a = r
    · subst har
      rw [hc.offset]
      exact hs.offset a ha
    · have : a ∈ full ++ rs := by
        have := List.mem_of_mem_tail ha
        simp only [List.mem_append, List.mem_singleton, har, false_or] at this
        simpa using this
      rw [hc.kept a this]
      exact hs.offset a ha

theorem endOf_full (hs : Shape k h full (r :: rs)) : endOf h' (full ++ [r]) rs = some r := by
  cases rs with
  | nil => simp [endOf]
  | cons x xs => simp [endOf, hc.kept x (by simp), hs.empty x (by simp)]

end BlockCommitted

theorem commitLoop_zero {fuel : Nat} {p : Ptr} : commitLoop k fuel 0 h b p = .ok (h, b) := by
  cases fuel <;> simp [commitLoop]

/-- One iteration of the loop of `Commit` at a block `r`. -/
theorem commitLoop_succ {fuel n : Nat} (hn : 0 < n)
    (hc : c = if n < (h.block r).spaceLen k then n else (h.block r).spaceLen k) :
    commitLoop k (fuel + 1) n h b (some r)
      = commitLoop k fuel (n - c) (h.setBlock r { h.block r with len := (h.block r).len + c })
          { b with end_ := some r } (h.block r).next := by
  subst hc
  rw [commitLoop, if_pos hn]
  rfl

/-- The loop of `Commit`. -/
theorem commitLoop_spec {fuel n : Nat} (ho : Owns h b (full ++ rest) free others)
    (hs : Shape k h full rest) (he : b.end_ = endOf h full rest)
    (hn : n ≤ Gather.total (spaces k h rest)) (hfuel : n ≤ fuel) :
    ∃ h' b', commitLoop k fuel n h b rest.head? = .ok (h', b') ∧
      Committed k n (full ++ rest) rest free others h b h' b' := by
  induction rest generalizing fuel n h b full with
  | nil =>
    obtain rfl : n = 0 := by simpa [spaces] using hn
    exact ⟨h, b, commitLoop_zero, Committed.zero ho hs he⟩
  | cons r rs ih =>
    by_cases hn0 : n = 0
    · subst hn0
      exact ⟨h, b, commitLoop_zero, Committed.zero ho hs he⟩
    · obtain ⟨fuel, rfl⟩ : ∃ f, fuel = f + 1 := ⟨fuel - 1, by omega⟩
      have hpos := hs.spaceLen_pos r (by simp)
      have hnext : (h.block r).next = rs.head? := ho.chain.next_eq
      rw [List.head?_cons, commitLoop_succ (by omega) rfl, hnext]
      by_cases hlt : n < (h.block r).spaceLen k
      · rw [if_pos hlt, Nat.sub_self]
        have hc := blockCommitted (c := n) ho hs
        refine ⟨_, _, commitLoop_zero, hc.owns.fields rfl rfl rfl rfl,
          ⟨full, r :: rs, rfl, hc.shape_part hs hlt, ?_⟩, ?_, hc.grows, hc.frame, rfl⟩
        · rw [endOf, hc.len, if_pos (by omega)]
        · intro m
          rw [hc.data m, spaces_cons, Gather.take_cons (by omega),
            Nat.sub_eq_zero_of_le (Nat.le_of_lt hlt), Gather.take_zero, Gather.read_cons]
          simp only [Nat.min_eq_left (Nat.le_of_lt hlt), Gather.read_nil, List.append_nil]
      · rw [if_neg hlt]
        have hc := blockCommitted (c := (h.block r).spaceLen k) ho hs
        have hlist : full ++ r :: rs = full ++ [r] ++ rs := by simp
        have hleft : n - (h.block r).spaceLen k ≤ Gather.total (spaces k h rs) := by
          simp only [spaces_cons, Gather.total_cons] at hn
          omega
        obtain ⟨h₂, b₂, hloop, hcom⟩ :=
          ih (b := { b with end_ := some r }) ((hlist ▸ hc.owns).fields rfl rfl rfl rfl)
            (hc.shape_full hs rfl) (hc.endOf_full hs).symm (by rw [hc.spaces]; exact hleft)
            (by omega : n - (h.block r).spaceLen k ≤ fuel)
        refine ⟨h₂, b₂, hloop, hlist ▸ hcom.owns, hlist ▸ hcom.shape, ?_, ?_, ?_, hcom.fields⟩
        · intro m
          rw [hlist, hcom.data m, ← hlist, hc.data m, hc.spaces, spaces_cons,
            Gather.take_cons (by omega), Gather.read_cons]
          simp only [Nat.min_eq_right (by omega : (h.block r).spaceLen k ≤ n), List.append_assoc]
        · intro a
          exact Nat.le_trans (hc.grows a) (hcom.grows a)
        · exact hc.frame.trans hcom.frame

end Commit

section Peek

variable {k : BlockSize} {h : Heap} {full rest : List Addr}

/-- The loop of `Peek` stops at the first block without data. -/
theorem peekLoop_eq {fuel : Nat} {p : Ptr} {ns : List Addr} (hc : Seg h.link p ns none)
    (hfuel : ns.length ≤ fuel) :
    peekLoop h fuel p = .ok (datas h (ns.takeWhile fun a => 0 < (h.block a).len)) := by
  induction ns generalizing p fuel with
  | nil =>
    obtain rfl : p = none := hc
    cases fuel <;> simp [peekLoop]
  | cons a ns ih =>
    obtain ⟨rfl, hc⟩ := hc
    obtain ⟨fuel, rfl⟩ : ∃ f, fuel = f + 1 := ⟨fuel - 1, by simp at hfuel; omega⟩
    rw [peekLoop, List.takeWhile_cons]
    by_cases hlen : 0 < (h.block a).len
    · have hrest : peekLoop h fuel (h.block a).next = _ := ih hc (by simpa using hfuel)
      simp [hlen, hrest, bind, Except.bind, pure, Except.pure]
    · simp [hlen]

/-- The blocks behind the first one without data have no data either. -/
theorem Shape.read_live (hs : Shape k h full rest) (m : Addr → Nat → Byte) :
    Gather.read m (datas h ((full ++ rest).takeWhile fun a => 0 < (h.block a).len))
      = Gather.read m (datas h (full ++ rest)) := by
  rw [List.takeWhile_append_of_pos (by simpa using fun a ha => (hs.filled a ha).2)]
  cases rest with
  | nil => simp
  | cons r rs =>
    have hempty := read_datas_empty m hs.empty
    rw [List.tail_cons] at hempty
    have hrs : rs.takeWhile (fun a => 0 < (h.block a).len) = [] := by
      cases rs with
      | nil => rfl
      | cons x xs => simp [hs.empty x (by simp)]
    by_cases hlen : 0 < (h.block r).len
    · simp [hlen, hrs, hempty]
    · have : (h.block r).len = 0 := by omega
      simp [this, hempty, Span.read_of_len]

end Peek

/-- The heap and the buffer after the loop of `Drain` drained `n` bytes. The blocks left in front
of `rest` are `full'`. -/
structure Drained (k : BlockSize) (n : Nat) (full rest others : List Addr) (h : Heap)
    (b : BasicBuffer) (full' free' : List Addr) (h' : Heap) (b' : BasicBuffer) : Prop where
  owns : Owns h' b' (full' ++ rest) free' others
  shape : Shape k h' full' rest
  spaces : spaces k h' rest = spaces k h rest
  data : ∀ m : Addr → Nat → Byte, Gather.read m (datas h' (full' ++ rest))
    = (Gather.read m (datas h (full ++ rest))).drop n
  end_ : n < Gather.total (datas h (full ++ rest)) → endOf h' full' rest = endOf h full rest
  frame : Frame h h' b.freelist others
  fields : b' = { b with head := b'.head, blockCnt := b'.blockCnt }

section Drain

variable {k : BlockSize} {h h' : Heap} {b : BasicBuffer} {full rest xs rs free others : List Addr}
  {x r : Addr} {fuel n : Nat}

theorem Drained.zero (ho : Owns h b (full ++ rest) free others) (hs : Shape k h full rest) :
    Drained k 0 full rest others h b full free h b where
  owns := ho
  shape := hs
  spaces := rfl
  data _ := rfl
  end_ _ := rfl
  frame := Frame.refl ..
  fields := rfl

theorem endOf_congr (heq : ∀ a ∈ rest, (h'.block a).len = (h.block a).len) :
    endOf h' full rest = endOf h full rest := by
  cases rest with
  | nil => rfl
  | cons r rs => simp [endOf, heq r (by simp)]

theorem endOf_nil : endOf h [] rest = rest.head? := by
  cases rest <;> simp [endOf]

/-- Without data, no block is full. -/
theorem Shape.full_eq_nil (hs : Shape k h full rest)
    (h0 : Gather.total (datas h (full ++ rest)) = 0) : full = [] := by
  cases full with
  | nil => rfl
  | cons x xs =>
    have hpos := (hs.filled x (by simp)).2
    simp at h0
    omega

/-- The first block is not the end block while there is data behind it. -/
theorem Shape.endOf_cons (hs : Shape k h (x :: xs) rest)
    (hdata : 0 < Gather.total (datas h (xs ++ rest))) :
    endOf h xs rest = endOf h (x :: xs) rest := by
  have hlast : xs ≠ [] → (x :: xs).getLast? = xs.getLast? := List.getLast?_cons_of_ne_nil
  cases rest with
  | nil =>
    refine (hlast ?_).symm
    rintro rfl
    simp at hdata
  | cons r rs =>
    by_cases hlen : 0 < (h.block r).len
    · simp [endOf, hlen]
    · have hne : xs ≠ [] := by
        rintro rfl
        have hempty := congrArg List.length (read_datas_empty (fun _ _ => 0) hs.empty)
        simp at hempty hdata
        omega
      simp only [endOf, hlen, if_false, hlast hne]

theorem drainLoop_zero : drainLoop k fuel 0 h b = .ok (h, b) := by
  cases fuel <;> simp [drainLoop]

/-- An iteration of the loop of `Drain` that leaves its block in place. -/
theorem drainLoop_keep (hn : 0 < n) (hhead : b.head = some x) (hle : n ≤ (h.block x).len)
    (hkeep : n < (h.block x).len ∨ 0 < (h.block x).spaceLen k) :
    drainLoop k (fuel + 1) n h b = .ok (h.setBlock x { h.block x with
      offset := (h.block x).offset + n, len := (h.block x).len - n }, b) := by
  have hd : (h.block x).drain n = (0, { h.block x with
      offset := (h.block x).offset + n, len := (h.block x).len - n }) := by
    simp [Block.drain, Nat.not_lt.mpr hle]
  rw [drainLoop, if_pos hn, hhead]
  simp only [deref, bind, Except.bind, hd]
  rw [if_neg, drainLoop_zero]
  unfold Block.spaceLen at hkeep ⊢
  simp only
  omega

/-- An iteration that drains its block and prunes it. -/
theorem drainLoop_prune (hn : 0 < n) (hhead : b.head = some x) (hle : (h.block x).len ≤ n)
    (hfull : (h.block x).offset + (h.block x).len = k.capacity) :
    drainLoop k (fuel + 1) n h b = drainLoop k fuel (n - (h.block x).len)
      ((h.setBlock x { h.block x with
        offset := (h.block x).offset + (h.block x).len, len := 0 }).delete b.freelist x)
      { b with blockCnt := b.blockCnt - 1, head := h.link x } := by
  have hd : (h.block x).drain n = (n - (h.block x).len, { h.block x with
      offset := (h.block x).offset + (h.block x).len, len := 0 }) := by
    simp only [Block.drain]
    split
    · simp
    · obtain rfl : n = (h.block x).len := by omega
      simp
  rw [drainLoop, if_pos hn, hhead]
  simp only [deref, bind, Except.bind, hd]
  rw [if_pos]
  · rfl
  · simp only [Block.spaceLen, true_and]
    omega

/-- The last iteration of the loop of `Drain`, in a block `x` that keeps some data or has free
space. -/
theorem drained_keep {ys : List Addr} (ho : Owns h b (full ++ rest) free others)
    (hlist : full ++ rest = x :: ys) (hs : Shape k h full rest) (hle : n ≤ (h.block x).len)
    (hkeep : x ∈ full → n < (h.block x).len) :
    Drained k n full rest others h b full free (h.setBlock x { h.block x with
      offset := (h.block x).offset + n, len := (h.block x).len - n }) b := by
  have hx : x ∉ ys := by
    have := ho.nodup_ns
    rw [hlist] at this
    exact (List.nodup_cons.mp this).1
  have htail : ∀ a ∈ rest.tail, a ∈ ys := by
    intro a ha
    cases full with
    | nil =>
      obtain rfl : rest = x :: ys := hlist
      exact ha
    | cons y full =>
      obtain ⟨-, rfl⟩ : y = x ∧ full ++ rest = ys := by simpa using hlist
      simp [List.mem_of_mem_tail ha]
  have hys : ∀ a ∈ ys, a ≠ x := by
    rintro a ha rfl
    exact hx ha
  generalize hb : { h.block x with
    offset := (h.block x).offset + n, len := (h.block x).len - n } = blk
  have hoff : blk.offset = (h.block x).offset + n := by rw [← hb]
  have hlen : blk.len = (h.block x).len - n := by rw [← hb]
  refine ⟨ho.setBlock (by rw [← hb]), ⟨?_, ?_, ?_, ?_⟩, ?_, ?_, ?_, Frame.setBlock _ ?_, rfl⟩
  · intro a ha
    by_cases hax : a = x
    · subst hax
      have h1 := hs.filled a ha
      have h2 := hkeep ha
      rw [Heap.block_setBlock_self]
      omega
    · rw [Heap.block_setBlock_ne hax]
      exact hs.filled a ha
  · intro a ha
    by_cases hax : a = x
    · subst hax
      have := hs.space a ha
      rw [Heap.block_setBlock_self]
      omega
    · rw [Heap.block_setBlock_ne hax]
      exact hs.space a ha
  · intro a ha
    rw [Heap.block_setBlock_ne (hys a (htail a ha))]
    exact hs.empty a ha
  · intro a ha
    rw [hlist] at ha
    rw [Heap.block_setBlock_ne (hys a ha)]
    exact hs.offset a (by rw [hlist]; exact ha)
  · refine List.map_congr_left fun a _ => ?_
    by_cases hax : a = x
    · subst hax
      rw [Heap.block_setBlock_self]
      simp only [Block.spaceOff, Block.spaceLen, Span.mk.injEq, true_and]
      omega
    · rw [Heap.block_setBlock_ne hax]
  · intro m
    rw [hlist, datas_cons, datas_cons, datas_setBlock hx, Heap.block_setBlock_self,
      Gather.read_cons, Gather.read_cons, List.drop_append, Span.read_drop, Span.length_read, hoff,
      hlen]
    simp [Nat.sub_eq_zero_of_le hle]
  · intro _
    cases rest with
    | nil => rfl
    | cons r rs =>
      by_cases hrx : r = x
      · -- The drained block is the only one with data, so it is both the head and the end.
        subst hrx
        cases full with
        | nil => simp [endOf]
        | cons y full =>
          obtain ⟨-, rfl⟩ : y = r ∧ full ++ r :: rs = ys := by simpa using hlist
          exact absurd (by simp) hx
      · simp [endOf, Heap.block_setBlock_ne hrx]
  · exact ho.not_others (by rw [hlist]; simp)

theorem Shape.tail (hs : Shape k h (x :: xs) rest) : Shape k h xs rest where
  filled a ha := hs.filled a (by simp [ha])
  space := hs.space
  empty := hs.empty
  offset a ha := hs.offset a (List.mem_of_mem_tail ha)

/-- Pruning the first block: it goes to the freelist, and the other blocks are as they were. -/
theorem prune_spec {ys : List Addr} (blk : Block) (ho : Owns h b (x :: ys) free others)
    (hnext : blk.next = h.link x) :
    Owns ((h.setBlock x blk).delete b.freelist x)
        { b with blockCnt := b.blockCnt - 1, head := h.link x } ys (x :: free) others ∧
      (∀ a ∈ ys, ((h.setBlock x blk).delete b.freelist x).block a = h.block a) ∧
      Frame h ((h.setBlock x blk).delete b.freelist x) b.freelist others := by
  have hx : x ∉ ys := (List.nodup_cons.mp ho.nodup_ns).1
  obtain ⟨hown, hkept, hframe⟩ :=
    delete_spec { b with blockCnt := b.blockCnt - 1, head := h.link x }
      (ho.setBlock hnext) (by rw [Heap.link_setBlock, Function.update_self, hnext]) rfl rfl rfl
  refine ⟨hown, ?_, (Frame.setBlock _ (ho.not_others (by simp))).trans hframe⟩
  intro a ha
  rw [hkept a ha]
  refine Heap.block_setBlock_ne ?_
  rintro rfl
  exact hx ha

/-- The loop of `Drain` from the block behind a pruned block on. -/
theorem Drained.cons {h₂ : Heap} {b₂ b' : BasicBuffer} {full' free' : List Addr}
    (hs : Shape k h (x :: xs) rest) (hle : (h.block x).len ≤ n)
    (hsame : ∀ a ∈ xs ++ rest, h₂.block a = h.block a) (hframe : Frame h h₂ b.freelist others)
    (hb₂ : b₂ = { b with head := b₂.head, blockCnt := b₂.blockCnt })
    (hd : Drained k (n - (h.block x).len) xs rest others h₂ b₂ full' free' h' b') :
    Drained k n (x :: xs) rest others h b full' free' h' b' := by
  have hdatas : datas h₂ (xs ++ rest) = datas h (xs ++ rest) :=
    datas_congr fun a ha => by rw [hsame a ha]; exact ⟨rfl, rfl⟩
  refine ⟨hd.owns, hd.shape, ?_, ?_, ?_, ?_, ?_⟩
  · rw [hd.spaces]
    exact spaces_congr fun a ha => by rw [hsame a (by simp [ha])]; exact ⟨rfl, rfl⟩
  · intro m
    have hx : (Span.read m ⟨x, (h.block x).offset, (h.block x).len⟩).drop n = [] :=
      List.drop_of_length_le (by rw [Span.length_read]; exact hle)
    rw [hd.data m, hdatas, List.cons_append, datas_cons, Gather.read_cons, List.drop_append, hx,
      Span.length_read]
    rfl
  · intro hlt
    rw [List.cons_append, datas_cons, Gather.total_cons] at hlt
    simp only at hlt
    rw [hd.end_ (by rw [hdatas]; omega), ← hs.endOf_cons (by omega)]
    exact endOf_congr fun a ha => by rw [hsame a (by simp [ha])]
  · have : b₂.freelist = b.freelist := by rw [hb₂]
    exact hframe.trans (this ▸ hd.frame)
  · rw [hd.fields, hb₂]

/-- The loop of `Drain`. -/
theorem drainLoop_spec (ho : Owns h b (full ++ rest) free others) (hs : Shape k h full rest)
    (hn : n ≤ Gather.total (datas h (full ++ rest))) (hfuel : n ≤ fuel) :
    ∃ full' free' h' b', drainLoop k fuel n h b = .ok (h', b') ∧
      Drained k n full rest others h b full' free' h' b' := by
  induction full generalizing fuel n h b free with
  | nil =>
    by_cases hn0 : n = 0
    · subst hn0
      exact ⟨[], free, h, b, drainLoop_zero, Drained.zero ho hs⟩
    · obtain ⟨fuel, rfl⟩ : ∃ f, fuel = f + 1 := ⟨fuel - 1, by omega⟩
      cases rest with
      | nil =>
        simp at hn
        omega
      | cons r rs =>
        have hempty := congrArg List.length (read_datas_empty (fun _ _ => 0) hs.empty)
        have hle : n ≤ (h.block r).len := by
          simp at hempty hn
          omega
        have hspace := hs.spaceLen_pos r (by simp)
        exact ⟨[], free, _, b, drainLoop_keep (by omega) ho.head_eq hle (.inr hspace),
          drained_keep ho rfl hs hle (by simp)⟩
  | cons x xs ih =>
    by_cases hn0 : n = 0
    · subst hn0
      exact ⟨_, free, h, b, drainLoop_zero, Drained.zero ho hs⟩
    · obtain ⟨fuel, rfl⟩ : ∃ f, fuel = f + 1 := ⟨fuel - 1, by omega⟩
      obtain ⟨hfull, hpos⟩ := hs.filled x (by simp)
      by_cases hlt : n < (h.block x).len
      · exact ⟨x :: xs, free, _, b,
          drainLoop_keep (by omega) ho.head_eq (Nat.le_of_lt hlt) (.inl hlt),
          drained_keep ho rfl hs (Nat.le_of_lt hlt) fun _ => hlt⟩
      · rw [drainLoop_prune (by omega) ho.head_eq (by omega) hfull]
        obtain ⟨hown, hsame, hframe⟩ := prune_spec { h.block x with
          offset := (h.block x).offset + (h.block x).len, len := 0 } ho rfl
        generalize (h.setBlock x _).delete b.freelist x = h₂ at hown hsame hframe ⊢
        have hdatas : datas h₂ (xs ++ rest) = datas h (xs ++ rest) :=
          datas_congr fun a ha => by rw [hsame a ha]; exact ⟨rfl, rfl⟩
        rw [List.cons_append, datas_cons, Gather.total_cons] at hn
        obtain ⟨full', free', h', b', hloop, hd⟩ := ih hown
          (hs.tail.congr fun a ha => by rw [hsame a ha]; exact ⟨rfl, rfl⟩)
          (by rw [hdatas]; simp only at hn; omega)
          (by omega : n - (h.block x).len ≤ fuel)
        exact ⟨full', free', h', b', hloop, hd.cons hs (by omega) hsame hframe rfl⟩

end Drain

end Buffer
end Proxy
end TrustedCa
