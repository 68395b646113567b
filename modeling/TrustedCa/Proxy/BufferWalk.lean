import TrustedCa.Proxy.BufferPair
import TrustedCa.Spec.Except

/-!
# How many blocks the operations of a buffer take and give back

A reserving loop walks over the blocks with free space and appends blocks behind them (`Walk`).
`reserveLoop_walk` and `reserveAtLeastLoop_walk` say that both loops are walks, so what follows is
proved for both at once: the number of blocks a walk visits, and how many of them are new.

`Balanced` says that an operation neither loses nor invents a block: what the buffer gains is what
the freelist loses or what is newly allocated, and the freelist counts its blocks.
-/

namespace TrustedCa
namespace Proxy
namespace Buffer

open Spec

/-- Steps of a `SpaceStepper` from `block` until `m` bytes of free space are found. -/
inductive Walk (k : BlockSize) :
    Nat → Heap → BasicBuffer → Ptr → List Addr → Heap → BasicBuffer → Prop
  | done {h : Heap} {b : BasicBuffer} {block : Ptr} : Walk k 0 h b block [] h b
  | step {m : Nat} {h h₁ h₂ : Heap} {b b₁ b₂ : BasicBuffer} {block block₁ : Ptr} {a : Addr}
      {visited : List Addr} : 0 < m → stepperNext h b block = .ok (a, block₁, h₁, b₁) →
      Walk k (m - (h₁.block a).spaceLen k) h₁ b₁ block₁ visited h₂ b₂ →
      Walk k m h b block (a :: visited) h₂ b₂

/-- The number of blocks with room for `n` bytes: `n / capacity`, rounded up. -/
def blocksFor (k : BlockSize) (n : Nat) : Nat := (n + k.capacity - 1) / k.capacity

section Walk

variable {k : BlockSize} {h h' : Heap} {b b' : BasicBuffer} {block : Ptr} {ret : List SysBuf}
  {fuel m : Nat}

theorem reserveLoop_walk (heq : reserveLoop k fuel m h b block = .ok (ret, h', b')) :
    Walk k m h b block (ret.map Span.base) h' b' := by
  induction fuel generalizing m h b block ret with
  | zero =>
    rw [reserveLoop] at heq
    split at heq
    · cases heq
    · obtain rfl : m = 0 := by omega
      cases heq
      exact .done
  | succ fuel ih =>
    rw [reserveLoop] at heq
    split at heq
    · rename_i hm
      cases hstep : stepperNext h b block with
      | error f => rw [hstep] at heq; cases heq
      | ok r =>
        obtain ⟨a, block₁, h₁, b₁⟩ := r
        simp only [hstep, bind, Except.bind, ← Nat.min_def] at heq
        cases hloop : reserveLoop k fuel (m - min ((h₁.block a).spaceLen k) m) h₁ b₁ block₁ with
        | error f => rw [hloop] at heq; cases heq
        | ok r =>
          rw [hloop] at heq
          cases heq
          have hsub : m - min ((h₁.block a).spaceLen k) m = m - (h₁.block a).spaceLen k := by omega
          rw [hsub] at hloop
          exact .step hm hstep (ih hloop)
    · obtain rfl : m = 0 := by omega
      cases heq
      exact .done

theorem reserveAtLeastLoop_walk {size done reserved : Nat}
    (heq : reserveAtLeastLoop k size fuel done h b block = .ok (ret, reserved, h', b')) :
    Walk k (size - done) h b block (ret.map Span.base) h' b' := by
  induction fuel generalizing done h b block ret with
  | zero =>
    rw [reserveAtLeastLoop] at heq
    split at heq
    · cases heq
    · cases heq
      rw [Nat.sub_eq_zero_of_le (by omega)]
      exact .done
  | succ fuel ih =>
    rw [reserveAtLeastLoop] at heq
    split at heq
    · rename_i hlt
      cases hstep : stepperNext h b block with
      | error f => rw [hstep] at heq; cases heq
      | ok r =>
        obtain ⟨a, block₁, h₁, b₁⟩ := r
        simp only [hstep, bind, Except.bind] at heq
        cases hloop : reserveAtLeastLoop k size fuel (done + (h₁.block a).spaceLen k) h₁ b₁ block₁ with
        | error f => rw [hloop] at heq; cases heq
        | ok r =>
          rw [hloop] at heq
          cases heq
          refine .step (Nat.sub_pos_of_lt hlt) hstep ?_
          rw [Nat.sub_sub]
          exact ih hloop
    · cases heq
      rw [Nat.sub_eq_zero_of_le (by omega)]
      exact .done

end Walk

section BlocksFor

variable {k : BlockSize} {m : Nat}

@[simp] theorem blocksFor_zero : blocksFor k 0 = 0 := by
  have := k.capacity_pos
  rw [blocksFor, Nat.div_eq_of_lt (by omega)]

theorem blocksFor_pos (hm : 0 < m) : blocksFor k m = 1 + blocksFor k (m - k.capacity) := by
  have hc := k.capacity_pos
  by_cases hle : m ≤ k.capacity
  · have hone : (m + k.capacity - 1) / k.capacity = 1 :=
      Nat.div_eq_of_lt_le (by omega) (by omega)
    rw [Nat.sub_eq_zero_of_le hle, blocksFor_zero, blocksFor, hone]
  · have hsplit : m + k.capacity - 1 = m - k.capacity + k.capacity - 1 + k.capacity := by omega
    rw [blocksFor, hsplit, Nat.add_div_right _ hc, blocksFor, Nat.add_comm]

theorem blocksFor_sub (n : Nat) : blocksFor k (m - n * k.capacity) = blocksFor k m - n := by
  induction n generalizing m with
  | zero => simp
  | succ n ih =>
    rw [Nat.succ_mul, Nat.add_comm, ← Nat.sub_sub, ih]
    by_cases hm : 0 < m
    · rw [blocksFor_pos hm]
      omega
    · obtain rfl : m = 0 := by omega
      simp

end BlocksFor

section Count

variable {k : BlockSize} {h h' : Heap} {b b' : BasicBuffer}
  {vis todo full rest visited free others : List Addr} {block : Ptr} {m : Nat}

/-- A walk appends the blocks that it visits behind the last one. -/
theorem Walk.blockCnt (hw : Walk k m h b block visited h' b')
    (ho : Owns h b (vis ++ todo) free others) (hblock : block = todo.head?) :
    b'.blockCnt = b.blockCnt + (visited.length - todo.length) := by
  induction hw generalizing vis todo free with
  | done => simp
  | @step m h h₁ h₂ b b₁ b₂ block block₁ a visited hm hstep hw ih =>
    cases todo with
    | nil =>
      rw [List.append_nil] at ho
      obtain ⟨_, _, _, free', heq, -, hg⟩ := stepperNext_none ho
      rw [hblock, List.head?_nil, heq] at hstep
      cases hstep
      have ho₁ : Owns h₁ b₁ (vis ++ [a] ++ []) free' others := by simpa using hg.owns
      rw [ih ho₁ rfl, hg.owns.count, ho.count]
      simp only [List.length_append, List.length_cons, List.length_nil]
      omega
    | cons x todo =>
      rw [hblock, List.head?_cons, stepperNext_some ho] at hstep
      cases hstep
      have ho₁ : Owns h b (vis ++ [a] ++ todo) free others := by simpa using ho
      rw [ih ho₁ rfl]
      simp

/-- A walk over blocks of which all are blank visits one for each `capacity` bytes. -/
theorem Walk.length_blank (hw : Walk k m h b block visited h' b')
    (ho : Owns h b (vis ++ todo) free others) (hblock : block = todo.head?)
    (hblank : ∀ a ∈ todo, (h.block a).spaceLen k = k.capacity) :
    visited.length = blocksFor k m := by
  induction hw generalizing vis todo free with
  | done => simp
  | @step m h h₁ h₂ b b₁ b₂ block block₁ a visited hm hstep hw ih =>
    cases todo with
    | nil =>
      rw [List.append_nil] at ho
      obtain ⟨_, _, _, free', heq, -, hg⟩ := stepperNext_none ho
      rw [hblock, List.head?_nil, heq] at hstep
      cases hstep
      have ho₁ : Owns h₁ b₁ (vis ++ [a] ++ []) free' others := by simpa using hg.owns
      have hspace : (h₁.block a).spaceLen k = k.capacity := by
        simp [Block.spaceLen, hg.empty a (by simp)]
      rw [List.length_cons, ih ho₁ rfl (by simp), hspace, blocksFor_pos hm, Nat.add_comm]
    | cons x todo =>
      rw [hblock, List.head?_cons, stepperNext_some ho] at hstep
      cases hstep
      have ho₁ : Owns h b (vis ++ [a] ++ todo) free others := by simpa using ho
      rw [List.length_cons, ih ho₁ rfl (fun x hx => hblank x (by simp [hx])), hblank a (by simp),
        blocksFor_pos hm, Nat.add_comm]

/-- The number of blocks that a walk from the first block with free space on visits. -/
def visits (k : BlockSize) (h : Heap) (m : Nat) : List Addr → Nat
  | [] => blocksFor k m
  | r :: _ => 1 + blocksFor k (m - (h.block r).spaceLen k)

theorem Shape.blank (hs : Shape k h full rest) : ∀ a ∈ rest.tail,
    (h.block a).spaceLen k = k.capacity := by
  intro a ha
  have hoff : (h.block a).offset = 0 := by
    refine hs.offset a ?_
    cases full with
    | nil => exact ha
    | cons x xs => exact List.mem_append_right _ (List.mem_of_mem_tail ha)
  simp [Block.spaceLen, hoff, hs.empty a ha]

theorem Walk.length (hw : Walk k m h b rest.head? visited h' b') (hm : 0 < m)
    (ho : Owns h b (full ++ rest) free others) (hs : Shape k h full rest) :
    visited.length = visits k h m rest := by
  cases rest with
  | nil => exact hw.length_blank ho rfl (by simp)
  | cons r rs =>
    cases hw with
    | done => exact absurd hm (Nat.lt_irrefl 0)
    | step _ hstep hw =>
      rw [List.head?_cons, stepperNext_some ho] at hstep
      cases hstep
      have ho₁ : Owns h b (full ++ [r] ++ rs) free others := by simpa using ho
      rw [List.length_cons, hw.length_blank ho₁ rfl hs.blank, visits, Nat.add_comm]

end Count

/-! ## Blocks in the freelist, in use and allocated -/

/-- `Freelist::Size()` is the number of blocks in the freelist `i`. -/
def Sized (h : Heap) (i : Nat) : Prop :=
  ∀ free, Seg h.link (h.freelist i).head free none → (h.freelist i).size = free.length

/-- From `h` and `b` to `h'` and `b'` no block is lost and none is invented. -/
def Balanced (h : Heap) (b : BasicBuffer) (h' : Heap) (b' : BasicBuffer) : Prop :=
  Sized h b.freelist → Sized h' b.freelist ∧
    (h'.freelist b.freelist).size + b'.blockCnt + h.fresh =
      (h.freelist b.freelist).size + b.blockCnt + h'.fresh

section Balanced

variable {h h₁ h₂ : Heap} {b b₁ b₂ : BasicBuffer} {ns full rest free others : List Addr}

theorem Sized.intro {i : Nat} (free : List Addr) (hseg : Seg h.link (h.freelist i).head free none)
    (hsize : (h.freelist i).size = free.length) : Sized h i := by
  intro free' hseg'
  rw [hseg'.unique hseg, hsize]

theorem Balanced.trans (h₁₂ : Balanced h b h₁ b₁) (h₂₃ : Balanced h₁ b₁ h₂ b₂)
    (hfl : b₁.freelist = b.freelist) : Balanced h b h₂ b₂ := by
  intro hs
  obtain ⟨hs₁, heq₁⟩ := h₁₂ hs
  rw [← hfl] at hs₁
  obtain ⟨hs₂, heq₂⟩ := h₂₃ hs₁
  rw [hfl] at hs₂ heq₂
  exact ⟨hs₂, by omega⟩

/-- A change that concerns neither links nor freelists nor the number of blocks. -/
theorem Balanced.same (hlink : h₁.link = h.link) (hfree : h₁.freelist = h.freelist)
    (hfresh : h₁.fresh = h.fresh) (hcnt : b₁.blockCnt = b.blockCnt) : Balanced h b h₁ b₁ := by
  intro hs
  refine ⟨?_, by rw [hfree, hfresh, hcnt]⟩
  unfold Sized
  rw [hlink, hfree]
  exact hs

/-- `Freelist::New` takes one block, from the freelist or newly allocated. -/
theorem new_sized (ho : Owns h b ns free others) (hs : Sized h b.freelist) :
    Sized (h.new b.freelist).2 b.freelist ∧
      ((h.new b.freelist).2.freelist b.freelist).size + 1 + h.fresh =
        (h.freelist b.freelist).size + (h.new b.freelist).2.fresh := by
  have hsize := hs free ho.freeChain
  have hchain := ho.freeChain
  unfold Heap.new
  cases hf : (h.freelist b.freelist).head with
  | none =>
    rw [hf] at hchain
    obtain rfl : free = [] := List.head?_eq_none_iff.mp hchain.eq_head?.symm
    refine ⟨Sized.intro [] hf hsize, ?_⟩
    show (h.freelist b.freelist).size + 1 + h.fresh = (h.freelist b.freelist).size + (h.fresh + 1)
    omega
  | some a =>
    rw [hf] at hchain
    cases free with
    | nil => cases hchain
    | cons a' free' =>
      obtain ⟨heq, hchain⟩ := hchain
      obtain rfl := Option.some.inj heq
      have hna : a ∉ free' := by
        have hnd := (List.nodup_append.mp ho.nodup).2.1
        exact fun hm => (List.nodup_cons.mp hnd).1 (List.mem_append_left _ hm)
      have hseg : Seg (Function.update h.link a none) (h.link a) free' none := by
        refine hchain.congr fun x hx => Function.update_of_ne ?_ _ _
        rintro rfl
        exact hna hx
      refine ⟨Sized.intro free' ?_ ?_, ?_⟩
      · rw [Heap.link_setBlock, Heap.freelist_setBlock, Heap.freelist_setFreelist_self]
        exact hseg
      · simp [hsize]
      · rw [Heap.freelist_setBlock, Heap.freelist_setFreelist_self]
        show (h.freelist b.freelist).size - 1 + 1 + h.fresh = (h.freelist b.freelist).size + h.fresh
        rw [hsize, List.length_cons]
        rfl

/-- `AppendNewBlock()`. -/
theorem appendNewBlock_balanced (ho : Owns h b ns free others)
    (heq : appendNewBlock 1 h b = .ok (h₁, b₁)) : Balanced h b h₁ b₁ := by
  intro hs
  obtain ⟨a, h', free', hnew, -, hfree, hnd, -, -⟩ := new_spec ho
  obtain ⟨hs', hsum⟩ := new_sized ho hs
  rw [hnew] at hs' hsum
  unfold appendNewBlock at heq
  cases hhead : b.head with
  | none =>
    simp only [hhead, hnew] at heq
    cases heq
    exact ⟨hs', by simp only at hsum ⊢; omega⟩
  | some c =>
    have hne : ns ≠ [] := by
      rintro rfl
      rw [ho.head_eq] at hhead
      cases hhead
    obtain ⟨t, ht⟩ : ∃ t, ns.getLast? = some t := ⟨_, List.getLast?_eq_some_getLast hne⟩
    have htail : b.tail = some t := by rw [ho.tail hne, ht]
    have htn : t ∈ ns := List.mem_of_getLast? ht
    simp only [hhead, assert, htail, ne_eq, reduceCtorEq, not_false_eq_true, if_true, appendBlocks,
      deref, hnew] at heq
    cases heq
    -- The link that changes is that of the last block in use, which is not in the freelist.
    have hseg : Seg (h'.setBlock t { h'.block t with next := some a }).link
        (h'.freelist b.freelist).head free' none := by
      rw [Heap.link_setBlock]
      refine hfree.congr fun x hx => Function.update_of_ne ?_ _ _
      rintro rfl
      exact (List.nodup_append.mp (List.nodup_cons.mp hnd).2).2.2 x htn x (by simp [hx]) rfl
    refine ⟨Sized.intro free' hseg (hs' free' hfree), ?_⟩
    show (h'.freelist b.freelist).size + (b.blockCnt + 1) + h.fresh = _ + h'.fresh
    simp only at hsum
    omega

theorem Walk.balanced {k : BlockSize} {m : Nat} {block : Ptr} {vis todo visited : List Addr}
    (hw : Walk k m h b block visited h₁ b₁) (ho : Owns h b (vis ++ todo) free others)
    (hblock : block = todo.head?) : Balanced h b h₁ b₁ ∧ b₁.freelist = b.freelist := by
  induction hw generalizing vis todo free with
  | done => exact ⟨.same rfl rfl rfl rfl, rfl⟩
  | @step m h h₁ h₂ b b₁ b₂ block block₁ a visited hm hstep hw ih =>
    cases todo with
    | nil =>
      rw [List.append_nil] at ho
      obtain ⟨_, _, _, free', heq, happ, hg⟩ := stepperNext_none ho
      rw [hblock, List.head?_nil, heq] at hstep
      cases hstep
      have ho₁ : Owns h₁ b₁ (vis ++ [a] ++ []) free' others := by simpa using hg.owns
      obtain ⟨hb, hfl⟩ := ih ho₁ rfl
      exact ⟨(appendNewBlock_balanced ho happ).trans hb hg.freelist, hfl.trans hg.freelist⟩
    | cons x todo =>
      rw [hblock, List.head?_cons, stepperNext_some ho] at hstep
      cases hstep
      have ho₁ : Owns h b (vis ++ [a] ++ todo) free others := by simpa using ho
      exact ih ho₁ rfl

/-- The loop of `Commit` stays within the blocks that are there. -/
theorem commitLoop_balanced {k : BlockSize} {fuel n : Nat}
    (ho : Owns h b (full ++ rest) free others) (hn : n ≤ Gather.total (spaces k h rest))
    (heq : commitLoop k fuel n h b rest.head? = .ok (h₁, b₁)) :
    Balanced h b h₁ b₁ ∧ b₁.freelist = b.freelist := by
  induction rest generalizing fuel n h b full with
  | nil =>
    obtain rfl : n = 0 := by simpa [spaces] using hn
    rw [commitLoop_zero] at heq
    cases heq
    exact ⟨.same rfl rfl rfl rfl, rfl⟩
  | cons r rs ih =>
    cases fuel with
    | zero =>
      rw [commitLoop] at heq
      split at heq
      · cases heq
      · cases heq
        exact ⟨.same rfl rfl rfl rfl, rfl⟩
    | succ fuel =>
      by_cases hn0 : n = 0
      · subst hn0
        rw [commitLoop_zero] at heq
        cases heq
        exact ⟨.same rfl rfl rfl rfl, rfl⟩
      · have hnext : (h.block r).next = rs.head? := ho.chain.next_eq
        rw [List.head?_cons, commitLoop_succ (by omega) rfl, hnext] at heq
        generalize hc : (if n < (h.block r).spaceLen k then n else (h.block r).spaceLen k) = c at heq
        have hr : r ∉ rs := by
          have hnd := (List.nodup_append.mp ho.nodup_ns).2.1
          exact (List.nodup_cons.mp hnd).1
        generalize hblk : { h.block r with len := (h.block r).len + c } = blk at heq
        have hnext' : blk.next = (h.block r).next := by rw [← hblk]
        have ho₁ : Owns (h.setBlock r blk) { b with end_ := some r } (full ++ [r] ++ rs) free
            others := by
          rw [List.append_assoc]
          exact (ho.setBlock hnext').fields rfl rfl rfl rfl
        obtain ⟨hb, hfl⟩ := ih ho₁ (by
          rw [spaces_setBlock hr]
          simp only [spaces_cons, Gather.total_cons] at hn
          split at hc <;> omega) heq
        have hlink : (h.setBlock r blk).link = h.link := by
          rw [Heap.link_setBlock, hnext']
          exact Function.update_eq_self ..
        have hfirst : Balanced h b (h.setBlock r blk) { b with end_ := some r } :=
          .same hlink rfl rfl rfl
        exact ⟨hfirst.trans hb rfl, hfl⟩

/-- Pruning the head block. -/
theorem prune_balanced {x : Addr} {ys : List Addr} {blk : Block}
    (ho : Owns h b (x :: ys) free others) (hnext : blk.next = h.link x) :
    Balanced h b ((h.setBlock x blk).delete b.freelist x)
      { b with blockCnt := b.blockCnt - 1, head := h.link x } := by
  intro hs
  have hxf : x ∉ free := by
    have hnd := (List.nodup_cons.mp ho.nodup).1
    exact fun hm => hnd (by simp [hm])
  have hlink : (h.setBlock x blk).link = h.link := by
    rw [Heap.link_setBlock, hnext]
    exact Function.update_eq_self ..
  have hseg := ho.freeChain.cons_front hxf
  have hsize := hs free ho.freeChain
  have hcnt := ho.count
  rw [List.length_cons] at hcnt
  refine ⟨Sized.intro (x :: free) ?_ ?_, ?_⟩
  · simpa [Heap.delete, Heap.link_setBlock, hlink] using hseg
  · simp [Heap.delete, hsize]
  · simp only [Heap.delete, Heap.freelist_setBlock, Heap.freelist_setFreelist_self]
    show _ + 1 + (b.blockCnt - 1) + h.fresh = _ + b.blockCnt + h.fresh
    omega

theorem setBlock_balanced {x : Addr} {blk : Block} (hnext : blk.next = (h.block x).next) :
    Balanced h b (h.setBlock x blk) b := by
  refine .same ?_ rfl rfl rfl
  rw [Heap.link_setBlock, hnext]
  exact Function.update_eq_self ..

/-- The loop of `Drain`. -/
theorem drainLoop_balanced {k : BlockSize} {fuel n : Nat}
    (ho : Owns h b (full ++ rest) free others) (hs : Shape k h full rest)
    (hn : n ≤ Gather.total (datas h (full ++ rest)))
    (heq : drainLoop k fuel n h b = .ok (h₁, b₁)) : Balanced h b h₁ b₁ := by
  induction full generalizing fuel n h b free with
  | nil =>
    by_cases hn0 : n = 0
    · subst hn0
      rw [drainLoop_zero] at heq
      cases heq
      exact .same rfl rfl rfl rfl
    · cases fuel with
      | zero =>
        rw [drainLoop, if_pos (by omega)] at heq
        cases heq
      | succ fuel =>
        cases rest with
        | nil =>
          simp at hn
          omega
        | cons r rs =>
          have hempty := congrArg List.length (read_datas_empty (fun _ _ => 0) hs.empty)
          have hle : n ≤ (h.block r).len := by
            simp at hempty hn
            omega
          rw [drainLoop_keep (by omega) ho.head_eq hle (.inr (hs.spaceLen_pos r (by simp)))] at heq
          cases heq
          exact setBlock_balanced rfl
  | cons x xs ih =>
    by_cases hn0 : n = 0
    · subst hn0
      rw [drainLoop_zero] at heq
      cases heq
      exact .same rfl rfl rfl rfl
    · cases fuel with
      | zero =>
        rw [drainLoop, if_pos (by omega)] at heq
        cases heq
      | succ fuel =>
        by_cases hlt : n < (h.block x).len
        · rw [drainLoop_keep (by omega) ho.head_eq (Nat.le_of_lt hlt) (.inl hlt)] at heq
          cases heq
          exact setBlock_balanced rfl
        · rw [drainLoop_prune (by omega) ho.head_eq (by omega) (hs.filled x (by simp)).1] at heq
          generalize hblk : { h.block x with
            offset := (h.block x).offset + (h.block x).len, len := 0 } = blk at heq
          have hnext : blk.next = h.link x := by rw [← hblk]; rfl
          have hfirst := prune_balanced ho hnext
          obtain ⟨hown, hsame, -⟩ := prune_spec blk ho hnext
          generalize (h.setBlock x blk).delete b.freelist x = h₂ at hown hsame hfirst heq
          have hdatas : datas h₂ (xs ++ rest) = datas h (xs ++ rest) :=
            datas_congr fun a ha => by rw [hsame a ha]; exact ⟨rfl, rfl⟩
          rw [List.cons_append, datas_cons, Gather.total_cons] at hn
          have hrest := ih hown
            (hs.tail.congr fun a ha => by rw [hsame a ha]; exact ⟨rfl, rfl⟩)
            (by rw [hdatas]; simp only at hn; omega) heq
          exact hfirst.trans hrest rfl

theorem drainDone_balanced (size : Nat) (h : Heap) (b : BasicBuffer) :
    Balanced h b (drainDone size h b).1 (drainDone size h b).2 := by
  unfold drainDone
  by_cases hzero : b.dataSize - size = 0
  · cases hhead : b.head with
    | none =>
      simp only [hzero, if_true]
      exact .same rfl rfl rfl rfl
    | some a =>
      cases hres : b.reserved with
      | true =>
        simp only [hzero, if_true]
        exact .same rfl rfl rfl rfl
      | false =>
        have hset : Balanced h b (h.setBlock a { h.block a with offset := 0 }) b :=
          setBlock_balanced rfl
        simp only [hzero, if_true, Bool.false_eq_true, if_false]
        exact hset.trans (.same rfl rfl rfl rfl) rfl
  · simp only [hzero, if_false]
    exact .same rfl rfl rfl rfl

end Balanced

/-! ## The members of a buffer after its operations -/

theorem assert_ok {p : Prop} [Decidable p] {α : Type} {x : Except Fault α} {r : α} :
    (assert p >>= fun _ => x) = .ok r ↔ p ∧ x = .ok r := by
  by_cases hp : p <;> simp [assert, hp, bind, Except.bind]

section Members

variable {k : BlockSize} {h h' : Heap} {b b' : BasicBuffer} {fuel size : Nat}

/-- The loop of `Drain` gives blocks back and takes none. -/
theorem drainLoop_members (heq : drainLoop k fuel size h b = .ok (h', b')) :
    b'.dataSize = b.dataSize ∧ b'.blockCnt ≤ b.blockCnt := by
  induction fuel generalizing size h b with
  | zero =>
    rw [drainLoop] at heq
    split at heq
    · cases heq
    · cases heq
      exact ⟨rfl, Nat.le_refl _⟩
  | succ fuel ih =>
    rw [drainLoop] at heq
    split at heq
    · obtain ⟨a, -, heq⟩ := bind_eq_ok.mp heq
      dsimp only at heq
      split at heq
      · obtain ⟨hdata, hcnt⟩ := ih heq
        exact ⟨hdata, Nat.le_trans hcnt (Nat.sub_le ..)⟩
      · exact ih heq
    · cases heq
      exact ⟨rfl, Nat.le_refl _⟩

theorem drainDone_members (size : Nat) (h : Heap) (b : BasicBuffer) :
    (drainDone size h b).2.dataSize = b.dataSize - size ∧
      (drainDone size h b).2.blockCnt = b.blockCnt := by
  unfold drainDone
  dsimp only
  split
  · split
    · split <;> exact ⟨rfl, rfl⟩
    · exact ⟨rfl, rfl⟩
  · exact ⟨rfl, rfl⟩

theorem drain_members (heq : drain k h b size = .ok (h', b')) :
    b'.dataSize = b.dataSize - size ∧ b'.blockCnt ≤ b.blockCnt := by
  obtain ⟨-, heq⟩ := assert_ok.mp heq
  obtain ⟨-, heq⟩ := assert_ok.mp heq
  obtain ⟨⟨h₁, b₁⟩, hloop, heq⟩ := bind_eq_ok.mp heq
  obtain ⟨hdata, hcnt⟩ := drainLoop_members hloop
  obtain ⟨hdata', hcnt'⟩ := drainDone_members size h₁ b₁
  rw [Except.ok.inj heq] at hdata' hcnt'
  exact ⟨by rw [← hdata]; exact hdata', hcnt' ▸ hcnt⟩

theorem peek_members {ret : List SysBuf} (heq : peek h b = .ok (ret, b')) :
    b' = { b with peeked := true } := by
  obtain ⟨-, heq⟩ := assert_ok.mp heq
  obtain ⟨_, -, heq⟩ := bind_eq_ok.mp heq
  cases heq
  rfl

theorem copyOut_members {bytes : List Byte} (heq : copyOut k h b size = .ok (bytes, h', b')) :
    b'.blockCnt ≤ b.blockCnt := by
  obtain ⟨⟨ret, b₁⟩, hpeek, heq⟩ := bind_eq_ok.mp heq
  obtain ⟨⟨h₂, b₂⟩, hdrain, heq⟩ := bind_eq_ok.mp heq
  cases heq
  have hcnt := (drain_members hdrain).2
  rw [peek_members hpeek] at hcnt
  exact hcnt

end Members

namespace Rep

variable {k : BlockSize} {s : State} {f : Fifo} {full rest free others : List Addr} {h' : Heap}
  {b' : BasicBuffer} {ret : List SysBuf} {size : Nat}

/-- `Commit` appends no block. -/
theorem commit_members {bufs : List SysBuf} (hr : Rep k s f full rest free others)
    (hbufs : s.region = some bufs) (hsize : size ≤ Gather.total bufs)
    (heq : Buffer.commit k s.heap s.buf size = .ok (h', b')) :
    b'.dataSize = s.buf.dataSize + size ∧ b'.blockCnt = s.buf.blockCnt := by
  obtain ⟨n, -, htot, rfl⟩ := hr.region bufs hbufs
  rw [Gather.total_take, Nat.min_eq_left htot] at hsize
  obtain ⟨-, heq⟩ := assert_ok.mp heq
  obtain ⟨-, heq⟩ := assert_ok.mp heq
  obtain ⟨-, heq⟩ := assert_ok.mp heq
  obtain ⟨⟨h₁, b₁⟩, hloop, heq⟩ := bind_eq_ok.mp heq
  cases heq
  rw [spaceStepper_eq hr.owns hr.shape hr.end_] at hloop
  obtain ⟨h₂, b₂, hloop', hcom⟩ := commitLoop_spec hr.owns hr.shape hr.end_
    (Nat.le_trans hsize htot) (Nat.le_refl size)
  rw [hloop] at hloop'
  cases hloop'
  rw [hcom.fields]
  exact ⟨rfl, rfl⟩

/-- `Reserve` is a walk from the first block with free space on. -/
theorem reserve_walk (hr : Rep k s f full rest free others)
    (heq : Buffer.reserve k s.heap s.buf size = .ok (ret, h', b')) :
    Walk k size s.heap { s.buf with reserved := true } rest.head? (ret.map Span.base) h' b' := by
  rw [Buffer.reserve] at heq
  obtain ⟨-, heq⟩ := assert_ok.mp heq
  have ho : Owns s.heap { s.buf with reserved := true } (full ++ rest) free others :=
    hr.owns.fields rfl rfl rfl rfl
  dsimp only at heq
  rw [spaceStepper_eq ho hr.shape hr.end_] at heq
  exact reserveLoop_walk heq

/-- `ReserveAtLeast` is one as well. -/
theorem reserveAtLeast_walk (hr : Rep k s f full rest free others)
    (heq : Buffer.reserveAtLeast k s.heap s.buf size = .ok (ret, h', b')) :
    Walk k size s.heap { s.buf with reserved := true } rest.head? (ret.map Span.base) h' b' := by
  obtain ⟨⟨ret₁, reserved, h₁, b₁⟩, hsize, heq⟩ := bind_eq_ok.mp heq
  cases heq
  rw [reserveAtLeastSize] at hsize
  obtain ⟨-, hloop⟩ := assert_ok.mp hsize
  have ho : Owns s.heap { s.buf with reserved := true } (full ++ rest) free others :=
    hr.owns.fields rfl rfl rfl rfl
  dsimp only at hloop
  rw [spaceStepper_eq ho hr.shape hr.end_] at hloop
  exact reserveAtLeastLoop_walk hloop

theorem walk_balanced {visited : List Addr} (hr : Rep k s f full rest free others)
    (hw : Walk k size s.heap { s.buf with reserved := true } rest.head? visited h' b') :
    Balanced s.heap s.buf h' b' := by
  have ho : Owns s.heap { s.buf with reserved := true } (full ++ rest) free others :=
    hr.owns.fields rfl rfl rfl rfl
  exact (hw.balanced ho rfl).1

theorem commit_balanced {bufs : List SysBuf} (hr : Rep k s f full rest free others)
    (hbufs : s.region = some bufs) (hsize : size ≤ Gather.total bufs)
    (heq : Buffer.commit k s.heap s.buf size = .ok (h', b')) : Balanced s.heap s.buf h' b' := by
  obtain ⟨n, -, htot, rfl⟩ := hr.region bufs hbufs
  rw [Gather.total_take, Nat.min_eq_left htot] at hsize
  rw [Buffer.commit] at heq
  obtain ⟨-, heq⟩ := assert_ok.mp heq
  obtain ⟨-, heq⟩ := assert_ok.mp heq
  obtain ⟨-, heq⟩ := assert_ok.mp heq
  obtain ⟨⟨h₁, b₁⟩, hloop, heq⟩ := bind_eq_ok.mp heq
  cases heq
  rw [spaceStepper_eq hr.owns hr.shape hr.end_] at hloop
  obtain ⟨hb, hfl⟩ := commitLoop_balanced hr.owns (Nat.le_trans hsize htot) hloop
  exact hb.trans (.same rfl rfl rfl rfl) hfl

theorem drain_balanced {bufs : List SysBuf} (hr : Rep k s f full rest free others)
    (hview : s.view = some bufs) (hsize : size ≤ Gather.total bufs)
    (heq : Buffer.drain k s.heap s.buf size = .ok (h', b')) : Balanced s.heap s.buf h' b' := by
  have hle : size ≤ s.buf.dataSize := by
    rw [hr.size]
    exact Nat.le_trans hsize (hr.view bufs hview).2.1
  rw [Buffer.drain] at heq
  obtain ⟨-, heq⟩ := assert_ok.mp heq
  obtain ⟨-, heq⟩ := assert_ok.mp heq
  obtain ⟨⟨h₁, b₁⟩, hloop, heq⟩ := bind_eq_ok.mp heq
  obtain ⟨_, _, _, _, hloop', hd⟩ :=
    drainLoop_spec hr.owns hr.shape (hr.size_eq ▸ hle) (Nat.le_refl size)
  have hb := drainLoop_balanced hr.owns hr.shape (hr.size_eq ▸ hle) hloop
  rw [hloop'] at hloop
  cases hloop
  have hdone := drainDone_balanced size h₁ b₁
  rw [Except.ok.inj heq] at hdone
  exact hb.trans hdone (by rw [hd.fields])

end Rep

end Buffer
end Proxy
end TrustedCa
