import TrustedCa.Proxy.BlockAccounting

/-!
# What a reservation gives

`Reserved` is what `Reserve` and `ReserveAtLeast` do in any state of a run without an outstanding
reservation: the buffers, the committed data, the blocks that are appended, and the `Commit` that
may follow.

The number of buffers is also predicted, by `NumBuffersToReserve`, for the capacity of the vector
that `Reserve` returns. The test for free space in the end block is the wrong way round there, and
`numBuffersToReserve_iff` says when the prediction is right all the same.
-/

namespace TrustedCa
namespace Proxy
namespace Buffer

open Spec

/-- Two buffers have no byte in common. -/
def Apart (s t : SysBuf) : Prop :=
  s.base ≠ t.base ∨ s.off + s.len ≤ t.off ∨ t.off + t.len ≤ s.off

/-- What a reservation of `size` bytes does that returned the buffers `ret`. -/
structure Reserved (k : BlockSize) (size : Nat) (h : Heap) (b : BasicBuffer) (ret : List SysBuf)
    (h' : Heap) (b' : BasicBuffer) : Prop where
  spans : ∀ sp ∈ ret, 0 < sp.len ∧ sp.off + sp.len ≤ k.capacity
  apart : ret.Pairwise Apart
  kept : ∃ bytes, contents h b = .ok bytes ∧ contents h' b' = .ok bytes
  data : b'.dataSize = b.dataSize
  blocks : b'.blockCnt = b.blockCnt + blocksFor k (size - spaceSize k h b)
  commit : ∀ n, n ≤ Gather.total ret → ∃ r, Buffer.commit k h' b' n = .ok r

section Loop

variable {k : BlockSize} {h h' : Heap} {b b' : BasicBuffer} {block : Ptr} {ret : List SysBuf}
  {fuel done size : Nat}

/-- `reserved_size` is the size of the buffers so far, and stays below `size + capacity`. -/
theorem reserveAtLeastLoop_total {reserved : Nat}
    (heq : reserveAtLeastLoop k size fuel done h b block = .ok (ret, reserved, h', b')) :
    reserved = done + Gather.total ret ∧
      (done < size + k.capacity → reserved < size + k.capacity) := by
  induction fuel generalizing done h b block ret with
  | zero =>
    rw [reserveAtLeastLoop] at heq
    split at heq
    · cases heq
    · cases heq
      exact ⟨rfl, id⟩
  | succ fuel ih =>
    rw [reserveAtLeastLoop] at heq
    split at heq
    · obtain ⟨⟨a, block₁, h₁, b₁⟩, -, heq⟩ := bind_eq_ok.mp heq
      obtain ⟨⟨ret₁, reserved₁, h₂, b₂⟩, hloop, heq⟩ := bind_eq_ok.mp heq
      cases heq
      obtain ⟨htotal, hlt⟩ := ih hloop
      have hspace : (h₁.block a).spaceLen k ≤ k.capacity := by
        unfold Block.spaceLen
        omega
      rw [Gather.total_cons, ← Nat.add_assoc]
      exact ⟨htotal, fun _ => hlt (by omega)⟩
    · cases heq
      exact ⟨rfl, id⟩

theorem reserveAtLeastSize_eq (heq : reserveAtLeast k h b size = .ok (ret, h', b')) :
    reserveAtLeastSize k h b size = .ok (ret, Gather.total ret, h', b') ∧
      Gather.total ret < size + k.capacity := by
  obtain ⟨⟨ret₁, reserved, h₁, b₁⟩, hsize, heq⟩ := bind_eq_ok.mp heq
  cases heq
  obtain ⟨-, hloop⟩ := assert_ok.mp hsize
  obtain ⟨htotal, hlt⟩ := reserveAtLeastLoop_total hloop
  rw [Nat.zero_add] at htotal
  subst htotal
  exact ⟨hsize, hlt (Nat.lt_add_left _ k.capacity_pos)⟩

end Loop

section Reserved

variable {k : BlockSize} {s : State} {f : Fifo} {full rest free others : List Addr} {size : Nat}

/-- The blocks that a walk visits beyond those that are there. -/
theorem visits_sub {h : Heap} (hs : Shape k h full rest) :
    visits k h size rest - rest.length = blocksFor k (size - Gather.total (spaces k h rest)) := by
  cases rest with
  | nil => rfl
  | cons r rs =>
    have hrs : ∀ a ∈ rs, (h.block a).spaceLen k = k.capacity := hs.blank
    have hblank : Gather.total (spaces k h rs) = rs.length * k.capacity := by
      rw [total_spaces, List.map_congr_left hrs, List.map_const', List.sum_replicate_nat]
    rw [spaces_cons, Gather.total_cons, hblank, ← Nat.sub_sub, blocksFor_sub, visits,
      List.length_cons]
    simp only
    omega

/-- The walk of a reservation, and the state after it. -/
theorem Rep.reservation {h' : Heap} {b' : BasicBuffer} {ret : List SysBuf} {f' : Fifo}
    {rest' free' : List Addr} (hr : Rep k s f full rest free others) (hsize : 0 < size)
    (hw : Walk k size s.heap { s.buf with reserved := true } rest.head? (ret.map Span.base) h' b')
    (hr' : Rep k { s with heap := h', buf := b', region := some ret } f' full rest' free' others)
    (hqueue : f'.queue = f.queue) : Reserved k size s.heap s.buf ret h' b' := by
  have ho : Owns s.heap { s.buf with reserved := true } (full ++ rest) free others :=
    hr.owns.fields rfl rfl rfl rfl
  obtain ⟨n, -, -, htake⟩ := hr'.region ret rfl
  refine ⟨?_, ?_, ⟨f.queue, hr.contents_eq, ?_⟩, ?_, ?_, ?_⟩
  · intro sp hsp
    rw [htake] at hsp
    have hpos : ∀ t ∈ spaces k h' rest', 0 < t.len := by
      intro t ht
      obtain ⟨a, ha, rfl⟩ := List.mem_map.mp ht
      exact hr'.shape.spaceLen_pos a ha
    obtain ⟨t, ht, -, hoff, hlen⟩ := Gather.mem_take hsp
    obtain ⟨a, ha, rfl⟩ := List.mem_map.mp ht
    have hspace := hr'.shape.space a ha
    refine ⟨Gather.len_pos_of_take hpos hsp, ?_⟩
    simp only [Block.spaceOff, Block.spaceLen] at hoff hlen hspace
    omega
  · have hnodup := hr'.region_nodup rfl
    rw [List.Nodup, List.pairwise_map] at hnodup
    exact hnodup.imp .inl
  · rw [← hqueue]
    exact hr'.contents_eq
  · have hsize' := hr'.size
    rw [hqueue, ← hr.size] at hsize'
    exact hsize'
  · rw [hw.blockCnt ho rfl, hw.length hsize ho hr.shape, visits_sub hr.shape,
      spaceSize_eq hr.owns hr.shape hr.size_eq]
  · intro n hn
    obtain ⟨h'', b'', _, _, heq, -⟩ := hr'.commit rfl hn
    exact ⟨_, heq⟩

/-- `Reserve`, without an outstanding reservation. -/
theorem Rep.reserve_reserved (hr : Rep k s f full rest free others) (hfree : s.region = none)
    (hsize : 0 < size) :
    ∃ ret h' b', Buffer.reserve k s.heap s.buf size = .ok (ret, h', b') ∧
      Gather.total ret = size ∧ ret.length = visits k s.heap size rest ∧
      Reserved k size s.heap s.buf ret h' b' := by
  obtain ⟨ret, h', b', rest', free', heq, hlen, -, -, hr'⟩ := hr.reserve hfree hsize
  have ho : Owns s.heap { s.buf with reserved := true } (full ++ rest) free others :=
    hr.owns.fields rfl rfl rfl rfl
  have hw := hr.reserve_walk heq
  have hspans := hw.length hsize ho hr.shape
  rw [List.length_map] at hspans
  rw [Heap.length_read] at hlen
  exact ⟨ret, h', b', heq, hlen, hspans, hr.reservation hsize hw hr' rfl⟩

/-- `ReserveAtLeast`, without an outstanding reservation. -/
theorem Rep.reserveAtLeast_reserved (hr : Rep k s f full rest free others)
    (hfree : s.region = none) (hsize : 0 < size) :
    ∃ ret h' b', Buffer.reserveAtLeast k s.heap s.buf size = .ok (ret, h', b') ∧
      size ≤ Gather.total ret ∧ Gather.total ret < size + k.capacity ∧
      Reserved k size s.heap s.buf ret h' b' := by
  obtain ⟨ret, h', b', rest', free', heq, hlen, -, -, hr'⟩ := hr.reserveAtLeast hfree hsize
  have hw := hr.reserveAtLeast_walk heq
  rw [Heap.length_read] at hlen
  exact ⟨ret, h', b', heq, hlen, (reserveAtLeastSize_eq heq).2, hr.reservation hsize hw hr' rfl⟩

/-- The blocks of a buffer hold its data, its free space and what was drained from the head. -/
theorem Rep.blockCnt_le (hr : Rep k s f full rest free others) :
    s.buf.blockCnt * k.capacity ≤ k.capacity + s.buf.dataSize + spaceSize k s.heap s.buf := by
  have hhead := hr.owns.head_eq
  have hcnt := hr.owns.count
  unfold spaceSize
  cases hns : full ++ rest with
  | nil =>
    rw [hns] at hcnt
    rw [hcnt]
    simp
  | cons x xs =>
    rw [hns] at hhead
    have hx : x ∈ full ++ rest := by simp [hns]
    have hoff : (s.heap.block x).offset ≤ k.capacity := by
      rcases List.mem_append.mp hx with hx | hx
      · have := (hr.shape.filled x hx).1
        omega
      · have := hr.shape.space x hx
        omega
    rw [hhead, List.head?_cons]
    dsimp only
    omega

theorem blocksFor_mul_le (n : Nat) : blocksFor k n * k.capacity ≤ n + k.capacity - 1 :=
  Nat.div_mul_le_self ..

/-- The blocks after a reservation: none is new while there is enough free space. -/
theorem Reserved.blockCnt_le {h' : Heap} {b' : BasicBuffer} {ret : List SysBuf}
    (hresv : Reserved k size s.heap s.buf ret h' b') (hr : Rep k s f full rest free others)
    {n : Nat} (hn : s.buf.blockCnt ≤ n)
    (hroom : s.buf.dataSize + size + 2 * k.capacity ≤ (n + 1) * k.capacity) : b'.blockCnt ≤ n := by
  have hblocks := hresv.blocks
  by_cases hle : size ≤ spaceSize k s.heap s.buf
  · rw [Nat.sub_eq_zero_of_le hle, blocksFor_zero] at hblocks
    omega
  · have hc := k.capacity_pos
    have hcap := hr.blockCnt_le
    have hnew := blocksFor_mul_le (k := k) (size - spaceSize k s.heap s.buf)
    have hmul : b'.blockCnt * k.capacity < (n + 1) * k.capacity := by
      rw [hblocks, Nat.add_mul]
      omega
    exact Nat.lt_succ_iff.mp (Nat.lt_of_mul_lt_mul_right hmul)

end Reserved

/-! ## The predicted number of buffers -/

section Prediction

variable {k : BlockSize} {h : Heap} {s : State} {f : Fifo} {full rest free others : List Addr}
  {e : Addr} {p size : Nat}

/-- A block of which `p` bytes are free saves a whole block when the last block needed would hold
no more than these. -/
theorem blocksFor_eq_iff (hsize : 0 < size) (hp : 0 < p) (hcap : p ≤ k.capacity) :
    blocksFor k size = 1 + blocksFor k (size - p) ↔ (size - 1) % k.capacity < p := by
  have hc := k.capacity_pos
  have hdiv := Nat.div_add_mod' (size - 1) k.capacity
  have hmod := Nat.mod_lt (size - 1) hc
  generalize (size - 1) / k.capacity = q at hdiv
  generalize (size - 1) % k.capacity = r at hdiv hmod ⊢
  have hsucc : (q + 1 + 1) * k.capacity = q * k.capacity + k.capacity + k.capacity := by
    rw [Nat.succ_mul, Nat.succ_mul]
  have hall : blocksFor k size = q + 1 := by
    rw [blocksFor]
    exact Nat.div_eq_of_lt_le (by rw [Nat.succ_mul]; omega) (by omega)
  by_cases hr : r < p
  · have hleft : blocksFor k (size - p) = q := by
      rw [blocksFor]
      exact Nat.div_eq_of_lt_le (by omega) (by rw [Nat.succ_mul]; omega)
    rw [hall, hleft]
    exact ⟨fun _ => hr, fun _ => Nat.add_comm q 1⟩
  · have hleft : blocksFor k (size - p) = q + 1 := by
      rw [blocksFor]
      exact Nat.div_eq_of_lt_le (by rw [Nat.succ_mul]; omega) (by omega)
    rw [hall, hleft]
    exact ⟨fun h => by omega, fun h => absurd h hr⟩

/-- The end block is the first one with free space, or it is full and all blocks behind it are
blank. -/
theorem Shape.end_cases (hs : Shape k h full rest) (he : endOf h full rest = some e) :
    (∃ rs, rest = e :: rs) ∨
      (h.block e).spaceLen k = 0 ∧ ∀ m, 0 < m → visits k h m rest = blocksFor k m := by
  have hlast : full.getLast? = some e → (h.block e).spaceLen k = 0 :=
    fun hl => hs.spaceLen_full e (List.mem_of_getLast? hl)
  cases rest with
  | nil => exact .inr ⟨hlast he, fun _ _ => rfl⟩
  | cons r rs =>
    by_cases hlen : 0 < (h.block r).len
    · rw [endOf, if_pos hlen] at he
      obtain rfl := Option.some.inj he
      exact .inl ⟨rs, rfl⟩
    · rw [endOf, if_neg hlen] at he
      cases full with
      | nil =>
        obtain rfl := Option.some.inj he
        exact .inl ⟨rs, rfl⟩
      | cons x xs =>
        have hblank : (h.block r).spaceLen k = k.capacity := by
          have hoff := hs.offset r (by simp)
          unfold Block.spaceLen
          omega
        refine .inr ⟨hlast he, fun m hm => ?_⟩
        rw [visits, hblank, ← blocksFor_pos hm]

/-- When the prediction is the number of blocks that the reserving loop visits. -/
theorem Rep.numBuffers_iff (hr : Rep k s f full rest free others) (hsize : 0 < size) :
    numBuffersToReserve k s.heap s.buf size = visits k s.heap size rest ↔
      ∀ e ∈ s.buf.end_, (size - 1) % k.capacity < (s.heap.block e).spaceLen k := by
  cases he : s.buf.end_ with
  | none =>
    have hrest : rest = [] := by
      have hnone := hr.end_.symm.trans he
      cases rest with
      | nil => rfl
      | cons r rs =>
        rw [endOf] at hnone
        split at hnone
        · cases hnone
        · exact absurd (Option.or_eq_none_iff.mp hnone).2 (by simp)
    subst hrest
    simp [numBuffersToReserve, he, visits, blocksFor]
  | some e =>
    simp only [Option.mem_def, Option.some.injEq, forall_eq']
    rcases hr.shape.end_cases (hr.end_.symm.trans he) with ⟨rs, rfl⟩ | ⟨hzero, hvisits⟩
    · -- The loop starts in the end block, but the prediction does not count its free space.
      have hpos := hr.shape.spaceLen_pos e (by simp)
      have hle : (s.heap.block e).spaceLen k ≤ k.capacity := by
        unfold Block.spaceLen
        omega
      rw [← blocksFor_eq_iff hsize hpos hle]
      simp [numBuffersToReserve, he, Nat.ne_of_gt hpos, visits, blocksFor]
    · -- The end block is full and not used, but the prediction counts it.
      rw [hvisits size hsize, hzero]
      simp [numBuffersToReserve, he, hzero, hsize, blocksFor]

end Prediction

/-- The member of a run, as a buffer that holds a queue. -/
theorem GroupRun.rep {k : BlockSize} {i : Nat} {h₀ : Heap} {g : Group} {m : Member}
    (hrun : GroupRun k i h₀ g) (hm : m ∈ g.members) :
    ∃ full rest free others, Rep k (m.chan.at g.heap) m.queue full rest free others := by
  obtain ⟨free, ps, ha⟩ := hrun.accounts
  obtain ⟨xs, ys, heq⟩ := List.append_of_mem hm
  obtain ⟨us, p, vs, rfl, rfl, rfl, rfl⟩ := ha.split heq
  exact ⟨_, _, _, _, ha.focus.2⟩

section Runs

variable {k : BlockSize} {i : Nat} {h₀ : Heap} {g : Group} {m : Member} {size : Nat}

/-- In every state of a run a reservation gives what `Reserved` says, `Reserve` exactly the size
asked for and `ReserveAtLeast` less than a block more, and while it is outstanding, whatever
happens before it, a `Commit` of part of it returns. -/
theorem reservation_sizes (hrun : GroupRun k i h₀ g) (hm : m ∈ g.members) :
    (m.chan.buf.reserved = false → ∀ size, 0 < size →
      (∃ ret h' b', reserve k g.heap m.chan.buf size = .ok (ret, h', b') ∧
        Gather.total ret = size ∧ Reserved k size g.heap m.chan.buf ret h' b') ∧
      ∃ ret n h' b', reserveAtLeastSize k g.heap m.chan.buf size = .ok (ret, n, h', b') ∧
        Gather.total ret = n ∧ size ≤ n ∧ n < size + k.capacity ∧
        Reserved k size g.heap m.chan.buf ret h' b') ∧
    ∀ ret, m.chan.region = some ret → ∀ n, n ≤ Gather.total ret →
      ∃ r, commit k g.heap m.chan.buf n = .ok r := by
  obtain ⟨full, rest, free, others, hr⟩ := hrun.rep hm
  refine ⟨fun hres size hsize => ?_, fun ret hret n hn => ?_⟩
  · have hfree := hr.region_none hres
    obtain ⟨ret, h', b', heq, htot, -, hresv⟩ := hr.reserve_reserved hfree hsize
    obtain ⟨ret₁, h₁, b₁, heq₁, hle, hlt, hresv₁⟩ := hr.reserveAtLeast_reserved hfree hsize
    exact ⟨⟨ret, h', b', heq, htot, hresv⟩,
      ret₁, _, h₁, b₁, (reserveAtLeastSize_eq heq₁).1, rfl, hle, hlt, hresv₁⟩
  · obtain ⟨h', b', _, _, heq, -⟩ := hr.commit hret hn
    exact ⟨_, heq⟩

/-- A buffer that is constructed, in a memory in which nothing is allocated. -/
theorem groupRun_new : GroupRun ⟨4096, by decide⟩ 0 Heap.empty ⟨Heap.empty, [.new 0]⟩ :=
  (GroupRun.start rfl).construct

/-- After a `CopyIn` of one byte the buffer has an end block that is partly used. -/
theorem groupRun_copied :
    ∃ g m e, GroupRun ⟨4096, by decide⟩ 0 Heap.empty g ∧ m ∈ g.members ∧
      m.chan.buf.reserved = false ∧ m.chan.buf.end_ = some e ∧
      (g.heap.block e).spaceLen ⟨4096, by decide⟩ = 4071 ∧
      numBuffersToReserve ⟨4096, by decide⟩ g.heap m.chan.buf 4072 = 1 ∧
      ∃ ret h' b', reserve ⟨4096, by decide⟩ g.heap m.chan.buf 4072 = .ok (ret, h', b') ∧
        ret.length = 2 := by
  obtain ⟨answer, s, e, hcall, hfacts⟩ :
      ∃ answer s e,
        exec ⟨4096, by decide⟩ ((Member.new 0).chan.at Heap.empty) (.copyIn [7])
          = .ok (answer, s) ∧ s.buf.reserved = false ∧ s.buf.end_ = some e ∧
        (s.heap.block e).spaceLen ⟨4096, by decide⟩ = 4071 ∧
        numBuffersToReserve ⟨4096, by decide⟩ s.heap s.buf 4072 = 1 ∧
        ∃ ret h' b', reserve ⟨4096, by decide⟩ s.heap s.buf 4072 = .ok (ret, h', b') ∧
          ret.length = 2 :=
    ⟨_, _, _, rfl, rfl, rfl, rfl, rfl, _, _, _, rfl, rfl⟩
  have hlegal : (Member.new 0).queue.Legal (.copyIn [7]) := ⟨rfl, by decide⟩
  have hrun := @GroupRun.call _ _ _ _ [] [] _ _ _ _ groupRun_new hlegal hcall
  exact ⟨_, _, e, hrun, List.mem_singleton.mpr rfl, hfacts⟩

/-- Behind one byte that was copied in. -/
theorem reservation_sizes_copied :
    ∃ g m ret h' b', GroupRun ⟨4096, by decide⟩ 0 Heap.empty g ∧ m ∈ g.members ∧
      reserve ⟨4096, by decide⟩ g.heap m.chan.buf 4072 = .ok (ret, h', b') ∧
      Gather.total ret = 4072 ∧
      Reserved ⟨4096, by decide⟩ 4072 g.heap m.chan.buf ret h' b' := by
  obtain ⟨g, m, -, hrun, hm, hres, -⟩ := groupRun_copied
  obtain ⟨⟨ret, h', b', hall⟩, -⟩ := (reservation_sizes hrun hm).1 hres 4072 (by decide)
  exact ⟨g, m, ret, h', b', hrun, hm, hall⟩

/-- `NumBuffersToReserve` is the number of buffers that `Reserve` returns just when the buffer has
no end block, or the last block of the reservation would fit into the end block's free space. -/
theorem numBuffersToReserve_iff (hrun : GroupRun k i h₀ g) (hm : m ∈ g.members)
    (hres : m.chan.buf.reserved = false) (hsize : 0 < size) :
    ∃ ret h' b', reserve k g.heap m.chan.buf size = .ok (ret, h', b') ∧
      (numBuffersToReserve k g.heap m.chan.buf size = ret.length ↔
        ∀ e ∈ m.chan.buf.end_, (size - 1) % k.capacity < (g.heap.block e).spaceLen k) := by
  obtain ⟨full, rest, free, others, hr⟩ := hrun.rep hm
  obtain ⟨ret, h', b', heq, -, hlen, -⟩ := hr.reserve_reserved (hr.region_none hres) hsize
  refine ⟨ret, h', b', heq, ?_⟩
  rw [hlen]
  exact hr.numBuffers_iff hsize

/-- Behind one byte that was copied in, two buffers are predicted and returned for 5000 bytes: these
are a block and 928 bytes, which fit into the 4071 that are left in the end block. -/
theorem numBuffersToReserve_iff_copied :
    ∃ g m e ret h' b', GroupRun ⟨4096, by decide⟩ 0 Heap.empty g ∧ m ∈ g.members ∧
      m.chan.buf.end_ = some e ∧ (g.heap.block e).spaceLen ⟨4096, by decide⟩ = 4071 ∧
      reserve ⟨4096, by decide⟩ g.heap m.chan.buf 5000 = .ok (ret, h', b') ∧
      numBuffersToReserve ⟨4096, by decide⟩ g.heap m.chan.buf 5000 = ret.length := by
  obtain ⟨g, m, e, hrun, hm, hres, hend, hspace, -⟩ := groupRun_copied
  obtain ⟨ret, h', b', heq, hiff⟩ := numBuffersToReserve_iff hrun hm hres (by decide : 0 < 5000)
  refine ⟨g, m, e, ret, h', b', hrun, hm, hend, hspace, heq, hiff.mpr fun e' he' => ?_⟩
  obtain rfl := Option.some.inj (hend.symm.trans he')
  rw [hspace]
  decide

/-- Behind one byte that was copied in, one buffer is predicted and two are returned. -/
theorem numBuffersToReserve_short :
    ¬ ∀ (k : BlockSize) (i : Nat) (h₀ : Heap) (g : Group) (m : Member) (size : Nat),
      GroupRun k i h₀ g → m ∈ g.members → m.chan.buf.reserved = false → 0 < size →
      ∀ ret h' b', reserve k g.heap m.chan.buf size = .ok (ret, h', b') →
        numBuffersToReserve k g.heap m.chan.buf size = ret.length := by
  intro hall
  obtain ⟨g, m, -, hrun, hm, hres, -, -, hnum, ret, h', b', heq, hlen⟩ := groupRun_copied
  have hsame := hall _ _ _ g m 4072 hrun hm hres (by decide) ret h' b' heq
  rw [hnum, hlen] at hsame
  cases hsame

end Runs

end Buffer
end Proxy
end TrustedCa
