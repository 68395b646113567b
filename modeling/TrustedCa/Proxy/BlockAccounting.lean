import TrustedCa.Proxy.BufferWalk
import Mathlib.Data.List.Perm.Subperm

/-!
# Blocks of many buffers with one freelist

`GroupRun` are the states of any number of buffers that share a freelist: the freelist is filled,
buffers are constructed and destroyed, and their clients make legal calls, one at a time.

`Rep.exec` is one call as the other buffers see it: it leaves their blocks alone, and the blocks
that it takes and gives back add up. `Accounts` is the invariant of a run: the chains of the buffers
and of the freelist are all the blocks that were ever allocated, each of them once.
-/

namespace TrustedCa
namespace Proxy
namespace Buffer

open Spec

section Exec

variable {k : BlockSize} {s : State} {f : Fifo} {full rest free others : List Addr}

/-- Bytes written into the reserved region are in blocks of the buffer. -/
theorem Rep.scatter_untouched {bufs : List SysBuf} (pos : Nat) (bytes : List Byte)
    (hr : Rep k s f full rest free others) (hbufs : s.region = some bufs) :
    Untouched s.heap (s.heap.scatter (Gather.drop pos bufs) bytes) s.buf.freelist others := by
  refine ⟨fun _ _ => rfl, fun a ha => ?_, fun _ _ => rfl⟩
  funext i
  refine Gather.scatter_of_not_covers fun hc => ?_
  obtain ⟨n, -, -, rfl⟩ := hr.region bufs hbufs
  have hrest : a ∈ rest := by
    have := Gather.base_mem_of_covers (Gather.covers_of_take (Gather.covers_of_drop hc))
    rwa [spaces_base] at this
  exact hr.owns.not_others (List.mem_append_right _ hrest) ha

/-- What a call does beside its answer: it leaves the blocks `others` alone, and the blocks that it
takes and gives back add up. -/
structure Effect (k : BlockSize) (s s' : State) (f' : Fifo) (others : List Addr) : Prop where
  refines : Refines k s' f' others
  freelist : s'.buf.freelist = s.buf.freelist
  untouched : Untouched s.heap s'.heap s.buf.freelist others
  balanced : Balanced s.heap s.buf s'.heap s'.buf

theorem Rep.copyIn_effect {bytes : List Byte} (hr : Rep k s f full rest free others)
    (hfree : s.region = none) (hbytes : 0 < bytes.length) :
    ∃ h' b', Buffer.copyIn k s.heap s.buf bytes = .ok (h', b') ∧
      Effect k s { s with heap := h', buf := b' } { f with queue := f.queue ++ bytes } others := by
  obtain ⟨h', b', _, _, _, heq, hr'⟩ := hr.copyIn hfree hbytes
  have hrun := heq
  rw [Buffer.copyIn] at hrun
  obtain ⟨⟨ret, h₁, b₁⟩, hres, hcom⟩ := bind_eq_ok.mp hrun
  dsimp only at hcom
  obtain ⟨_, _, _, _, _, hres', hlen, hframe₁, hfl₁, hr₁⟩ := hr.reserve hfree hbytes
  have hb₁ := hr.walk_balanced (hr.reserve_walk hres)
  rw [hres] at hres'
  cases hres'
  rw [Heap.length_read] at hlen
  have hle : 0 + bytes.length ≤ Gather.total ret := by
    rw [Nat.zero_add]
    exact Nat.le_of_eq hlen.symm
  have hr₂ := hr₁.scatter 0 rfl hle
  have hun₂ := hr₁.scatter_untouched 0 bytes rfl
  rw [Gather.drop_zero] at hr₂ hun₂
  obtain ⟨_, _, _, _, hcom', hframe₃, hfl₃, -⟩ := hr₂.commit rfl (Nat.le_of_eq hlen.symm)
  have hb₃ := hr₂.commit_balanced rfl (Nat.le_of_eq hlen.symm) hcom
  dsimp only at hcom' hframe₃ hfl₃ hun₂
  rw [hcom] at hcom'
  cases hcom'
  have hb₂ : Balanced h₁ b₁ (h₁.scatter ret bytes) b₁ := .same rfl rfl rfl rfl
  rw [hfl₁] at hun₂ hframe₃
  exact ⟨h', b', heq, ⟨_, _, _, hr'⟩, hfl₃.trans hfl₁,
    hframe₁.untouched.trans (hun₂.trans hframe₃.untouched), hb₁.trans (hb₂.trans hb₃ rfl) hfl₁⟩

theorem Rep.copyOut_effect (size : Nat) (hr : Rep k s f full rest free others)
    (hnone : s.view = none) :
    ∃ h' b', Buffer.copyOut k s.heap s.buf size = .ok (f.queue.take size, h', b') ∧
      Effect k s { s with heap := h', buf := b' } { f with queue := f.queue.drop size } others := by
  obtain ⟨h', b', _, _, heq, hframe, hfl, hr'⟩ := hr.copyOut size hnone
  refine ⟨h', b', heq, ⟨_, _, _, hr'⟩, hfl, hframe.untouched, ?_⟩
  rw [Buffer.copyOut] at heq
  obtain ⟨⟨ret, b₁⟩, hpeek, heq⟩ := bind_eq_ok.mp heq
  obtain ⟨⟨h₂, b₂⟩, hdrain, heq⟩ := bind_eq_ok.mp heq
  obtain ⟨_, _, hpeek', hread, hfl₁, hr₁⟩ := hr.peek hnone
  rw [hpeek] at hpeek'
  cases hpeek'
  have hcopied : copyOutLoop s.heap size ret 0 = f.queue.take size := by
    rw [copyOutLoop_eq (Nat.zero_le size), hread, Nat.sub_zero]
  have hle : (f.queue.take size).length ≤ Gather.total ret := by
    rw [← Heap.length_read s.heap, hread, List.length_take]
    exact Nat.min_le_right ..
  dsimp only at hdrain heq
  rw [hcopied] at hdrain heq
  have hb := hr₁.drain_balanced rfl hle hdrain
  cases heq
  rw [Buffer.peek] at hpeek
  obtain ⟨-, hpeek⟩ := assert_ok.mp hpeek
  obtain ⟨_, -, hpeek⟩ := bind_eq_ok.mp hpeek
  cases hpeek
  exact hb

/-- One legal call, and what it does to the memory. -/
theorem Rep.exec {c : Call} (hr : Rep k s f full rest free others) (hc : f.Legal c) :
    ∃ answer s', Buffer.exec k s c = .ok (answer, s') ∧ Effect k s s' (f.apply answer c) others := by
  cases c with
  | reserve size =>
    obtain ⟨ret, h', b', _, _, heq, -, hframe, hfl, hr'⟩ := hr.reserve (hr.region_of_unreserved hc.1) hc.2
    exact ⟨_, _, by rw [Buffer.exec, heq]; rfl, ⟨_, _, _, hr'⟩, hfl, hframe.untouched,
      hr.walk_balanced (hr.reserve_walk heq)⟩
  | reserveAtLeast size =>
    obtain ⟨ret, h', b', _, _, heq, -, hframe, hfl, hr'⟩ := hr.reserveAtLeast (hr.region_of_unreserved hc.1) hc.2
    exact ⟨_, _, by rw [Buffer.exec, heq]; rfl, ⟨_, _, _, hr'⟩, hfl, hframe.untouched,
      hr.walk_balanced (hr.reserveAtLeast_walk heq)⟩
  | write pos bytes =>
    obtain ⟨answer, s', heq, -, hr'⟩ := Refines.exec ⟨full, rest, free, hr⟩ hc
    obtain ⟨_, hb, -⟩ := hc
    obtain ⟨bufs, hbufs, -⟩ := hr.region_of_resv hb
    refine ⟨answer, s', heq, ?_⟩
    cases heq
    refine ⟨hr', rfl, ?_, .same rfl rfl rfl rfl⟩
    rw [hbufs]
    exact hr.scatter_untouched pos bytes hbufs
  | commit size =>
    obtain ⟨answer, s', heq, -, hr'⟩ := Refines.exec ⟨full, rest, free, hr⟩ hc
    obtain ⟨_, hb, hlen⟩ := hc
    obtain ⟨bufs, hbufs, rfl⟩ := hr.region_of_resv hb
    rw [Heap.length_read] at hlen
    obtain ⟨h', b', _, _, heq', hframe, hfl, -⟩ := hr.commit hbufs hlen
    have hbal := hr.commit_balanced hbufs hlen heq'
    refine ⟨answer, s', heq, ?_⟩
    rw [Buffer.exec, heq'] at heq
    cases heq
    exact ⟨hr', hfl, hframe.untouched, hbal⟩
  | peek =>
    obtain ⟨ret, b', heq, -, hfl, hr'⟩ := hr.peek (hr.view_of_unseen hc)
    refine ⟨_, _, by rw [Buffer.exec, heq]; rfl, ⟨_, _, _, hr'⟩, hfl, Untouched.refl .., ?_⟩
    rw [Buffer.peek] at heq
    obtain ⟨-, heq⟩ := assert_ok.mp heq
    obtain ⟨_, -, heq⟩ := bind_eq_ok.mp heq
    cases heq
    exact .same rfl rfl rfl rfl
  | drain size =>
    obtain ⟨_, hn, hlen⟩ := hc
    obtain ⟨bufs, hbufs, rfl⟩ := hr.view_of_seen hn
    obtain ⟨h', b', _, _, heq, hframe, hfl, hr'⟩ := hr.drain hbufs hlen
    exact ⟨_, _, by rw [Buffer.exec, heq]; rfl, ⟨_, _, _, hr'⟩, hfl, hframe.untouched,
      hr.drain_balanced hbufs hlen heq⟩
  | copyIn bytes =>
    obtain ⟨h', b', heq, heff⟩ := hr.copyIn_effect (hr.region_of_unreserved hc.1) hc.2
    exact ⟨_, _, by rw [Buffer.exec, heq]; rfl, heff⟩
  | copyOut size =>
    obtain ⟨h', b', heq, heff⟩ := hr.copyOut_effect size (hr.view_of_unseen hc)
    exact ⟨_, _, by rw [Buffer.exec, heq]; rfl, heff⟩

end Exec

/-! ## The freelist's other operations -/

section Freelist

variable {h : Heap} {b : BasicBuffer} {ns free others : List Addr}

/-- The loop of `DeleteChain` finds the last block and counts all of them. -/
theorem chainTail_eq {fuel count : Nat} {a : Addr} {xs : List Addr}
    (hseg : Seg h.link (some a) (a :: xs) none) (hfuel : xs.length ≤ fuel) :
    h.chainTail fuel a count = .ok ((a :: xs).getLast (by simp), count + xs.length) := by
  induction xs generalizing fuel count a with
  | nil =>
    have hnext : (h.block a).next = none := hseg.2
    cases fuel <;> simp [Heap.chainTail, hnext]
  | cons x xs ih =>
    obtain ⟨-, hseg⟩ := hseg
    have hnext : (h.block a).next = some x := hseg.1
    obtain ⟨fuel, rfl⟩ : ∃ n, fuel = n + 1 := ⟨fuel - 1, by simp at hfuel; omega⟩
    rw [Heap.chainTail.eq_def]
    simp only [hnext]
    rw [ih ⟨rfl, hseg.2⟩ (by simpa using hfuel)]
    simp [Nat.add_assoc, Nat.add_comm 1]

theorem Owns.length_le (ho : Owns h b ns free others) : ns.length ≤ h.fresh := by
  have hsub : ns ⊆ List.range h.fresh := fun a ha => List.mem_range.mpr (ho.bound a (by simp [ha]))
  simpa using (ho.nodup_ns.subperm hsub).length_le

/-- `~BasicBuffer`: all blocks of the buffer go to the front of the freelist. -/
theorem destroy_spec (ho : Owns h b ns free others) (hs : Sized h b.freelist) :
    ∃ h', destroy h b = .ok h' ∧ Seg h'.link (h'.freelist b.freelist).head (ns ++ free) none ∧
      (h'.freelist b.freelist).size = (ns ++ free).length ∧ h'.fresh = h.fresh ∧
      Untouched h h' b.freelist others := by
  have hsize := hs free ho.freeChain
  rw [destroy, ho.head_eq]
  cases ns with
  | nil =>
    exact ⟨h, rfl, ho.freeChain, hsize, rfl, Untouched.refl ..⟩
  | cons a xs =>
    have hseg : Seg h.link (some a) (a :: xs) none := by
      have := ho.chain
      rwa [ho.head_eq] at this
    obtain ⟨ys, t, hys⟩ : ∃ ys t, a :: xs = ys ++ [t] :=
      ⟨_, _, (List.dropLast_append_getLast (List.cons_ne_nil a xs)).symm⟩
    have hlen := ho.length_le
    rw [List.length_cons] at hlen
    have hlast : (a :: xs).getLast (by simp) = t := by simp [hys]
    have hnd := ho.nodup
    rw [hys] at hnd
    have htys : t ∉ ys := by
      intro hm
      exact (List.nodup_append.mp (List.nodup_append.mp hnd).1).2.2 t hm t (by simp) rfl
    have htrest : ∀ x ∈ free ++ others, x ≠ t := by
      rintro x hx rfl
      exact (List.nodup_append.mp hnd).2.2 x (by simp) x hx rfl
    have htfree : t ∉ free := fun hm => htrest t (by simp [hm]) rfl
    simp only [List.head?_cons, Heap.deleteChain, chainTail_eq hseg (Nat.le_of_lt hlen), hlast, bind,
      Except.bind, pure, Except.pure]
    refine ⟨_, rfl, ?_, ?_, rfl, ?_, fun _ _ => rfl, ?_⟩
    · rw [Heap.link_setFreelist, Heap.link_setBlock, Heap.freelist_setFreelist_self]
      rw [hys] at hseg ⊢
      exact hseg.link_last ho.freeChain htys htfree
    · rw [Heap.freelist_setFreelist_self, hsize]
      simp only [List.length_append, List.length_cons]
      omega
    · intro x hx
      exact Heap.block_setBlock_ne (htrest x (by simp [hx]))
    · intro j hj
      simp [Heap.setFreelist, hj]

/-- One iteration of `FillN`. -/
theorem fill_spec {i : Nat} (hfree : Seg h.link (h.freelist i).head free none)
    (hbound : ∀ a ∈ free, a < h.fresh) :
    ∃ h', h.alloc.2.delete i h.alloc.1 = h' ∧
      Seg h'.link (h'.freelist i).head (h.fresh :: free) none ∧
      (h'.freelist i).size = (h.freelist i).size + 1 ∧ h'.fresh = h.fresh + 1 ∧
      (∀ a, a < h.fresh → h'.block a = h.block a) ∧ h'.buf = h.buf := by
  have hblock : ∀ a, a < h.fresh → (h.alloc.2.delete i h.alloc.1).block a = h.block a := by
    intro a ha
    have hne : a ≠ h.fresh := Nat.ne_of_lt ha
    simp [Heap.alloc, Heap.delete, Heap.setBlock, Heap.setFreelist, hne]
  have hlink : ∀ a ∈ free, h.alloc.2.link a = h.link a := by
    intro a ha
    have hne : a ≠ h.fresh := Nat.ne_of_lt (hbound a ha)
    simp [Heap.alloc, Heap.link, Heap.setBlock, hne]
  have hnew : h.fresh ∉ free := fun hm => Nat.lt_irrefl _ (hbound _ hm)
  have hseg := (hfree.congr hlink).cons_front hnew
  refine ⟨_, rfl, ?_, ?_, rfl, hblock, rfl⟩
  · simpa [Heap.delete, Heap.link_setBlock, Heap.alloc] using hseg
  · simp [Heap.delete, Heap.alloc]

end Freelist

/-! ## Runs of many buffers -/

/-- A buffer, what its client has of it, and the queue that it holds. -/
structure Member where
  chan : Chan
  queue : Fifo := {}

/-- The memory and the buffers in it. -/
structure Group where
  heap : Heap
  members : List Member := []

def State.chan (s : State) : Chan := ⟨s.buf, s.region, s.view⟩

/-- A constructed buffer with freelist `i`. -/
def Member.new (i : Nat) : Member := ⟨⟨{ freelist := i }, none, none⟩, {}⟩

/-- The states of buffers that share freelist `i`, from a new freelist in the memory `h₀` on. -/
inductive GroupRun (k : BlockSize) (i : Nat) (h₀ : Heap) : Group → Prop
  | start : h₀.freelist i = {} → GroupRun k i h₀ ⟨h₀, []⟩
  | fillN {g : Group} (n : Nat) : GroupRun k i h₀ g →
    GroupRun k i h₀ { g with heap := g.heap.fillN i n }
  | construct {g : Group} : GroupRun k i h₀ g →
    GroupRun k i h₀ { g with members := g.members ++ [.new i] }
  | call {h : Heap} {xs ys : List Member} {m : Member} {c : Call} {answer : List Byte}
    {s' : State} : GroupRun k i h₀ ⟨h, xs ++ m :: ys⟩ → m.queue.Legal c →
    exec k (m.chan.at h) c = .ok (answer, s') →
    GroupRun k i h₀ ⟨s'.heap, xs ++ ⟨s'.chan, m.queue.apply answer c⟩ :: ys⟩
  | destroy {h h' : Heap} {xs ys : List Member} {m : Member} :
    GroupRun k i h₀ ⟨h, xs ++ m :: ys⟩ → destroy h m.chan.buf = .ok h' →
    GroupRun k i h₀ ⟨h', xs ++ ys⟩

/-- A buffer and its blocks. -/
structure Placed where
  member : Member
  full : List Addr
  rest : List Addr

def Placed.blocks (p : Placed) : List Addr := p.full ++ p.rest

/-- The blocks of all buffers. -/
def chains (ps : List Placed) : List Addr := ps.flatMap Placed.blocks

@[simp] theorem chains_nil : chains [] = [] := rfl

@[simp] theorem chains_cons (p : Placed) (ps : List Placed) :
    chains (p :: ps) = p.blocks ++ chains ps := rfl

@[simp] theorem chains_append (ps qs : List Placed) : chains (ps ++ qs) = chains ps ++ chains qs :=
  List.flatMap_append

/-- The invariant of a run. The addresses below `h₀.fresh` are not of this freelist. -/
structure Accounts (k : BlockSize) (i : Nat) (h₀ : Heap) (g : Group) (free : List Addr)
    (ps : List Placed) : Prop where
  members : g.members = ps.map Placed.member
  rep : ∀ p ∈ ps, p.member.chan.buf.freelist = i ∧
    Rep k (p.member.chan.at g.heap) p.member.queue p.full p.rest free []
  chain : Seg g.heap.link (g.heap.freelist i).head free none
  size : (g.heap.freelist i).size = free.length
  nodup : (free ++ (chains ps ++ List.range h₀.fresh)).Nodup
  bound : ∀ a ∈ free ++ (chains ps ++ List.range h₀.fresh), a < g.heap.fresh
  count : free.length + (chains ps).length + h₀.fresh = g.heap.fresh

section Accounts

variable {k : BlockSize} {i : Nat} {h₀ h' : Heap} {g : Group} {free free' lower : List Addr}
  {us vs old new ps : List Placed} {p : Placed}

/-- The blocks that a buffer does not touch may be others. -/
theorem Rep.others {s : State} {f : Fifo} {full rest others others' : List Addr}
    (hr : Rep k s f full rest free others) (hnodup : (full ++ rest ++ (free ++ others')).Nodup)
    (hbound : ∀ a ∈ full ++ rest ++ (free ++ others'), a < s.heap.fresh) :
    Rep k s f full rest free others' :=
  hr.frame (fun _ _ => rfl) (fun _ _ => rfl) hr.owns.freeChain hnodup hbound

theorem Rep.alone {s : State} {f : Fifo} {full rest others : List Addr}
    (hr : Rep k s f full rest free others) : Rep k s f full rest free [] := by
  have hsub : (full ++ rest ++ (free ++ [])).Sublist (full ++ rest ++ (free ++ others)) := by simp
  exact hr.others (hsub.nodup hr.owns.nodup) fun a ha => hr.owns.bound a (hsub.subset ha)

/-- One buffer's blocks and the freelist's before all others. -/
theorem perm_member : (free ++ (chains (us ++ p :: vs) ++ lower)).Perm
    (p.full ++ p.rest ++ (free ++ (chains (us ++ vs) ++ lower))) := by
  refine List.perm_iff_count.mpr fun a => ?_
  simp only [chains_append, chains_cons, Placed.blocks, List.count_append]
  omega

/-- Some buffers are replaced by others, with the memory of the rest as it was. -/
theorem Accounts.replace (ha : Accounts k i h₀ g free (us ++ old ++ vs))
    (hblock : ∀ a ∈ chains (us ++ vs), h'.block a = g.heap.block a)
    (hbuf : ∀ a ∈ chains (us ++ vs), h'.buf a = g.heap.buf a)
    (hnew : ∀ p ∈ new, p.member.chan.buf.freelist = i ∧
      Rep k (p.member.chan.at h') p.member.queue p.full p.rest free' [])
    (hchain : Seg h'.link (h'.freelist i).head free' none)
    (hsize : (h'.freelist i).size = free'.length)
    (hnodup : (free' ++ (chains (us ++ new ++ vs) ++ List.range h₀.fresh)).Nodup)
    (hbound : ∀ a ∈ free' ++ (chains (us ++ new ++ vs) ++ List.range h₀.fresh), a < h'.fresh)
    (hcount : free'.length + (chains (us ++ new ++ vs)).length + h₀.fresh = h'.fresh) :
    Accounts k i h₀ ⟨h', (us ++ new ++ vs).map Placed.member⟩ free' (us ++ new ++ vs) := by
  refine ⟨rfl, ?_, hchain, hsize, hnodup, hbound, hcount⟩
  intro p hp
  by_cases hpn : p ∈ new
  · exact hnew p hpn
  · have hpk : p ∈ us ++ vs := by
      simp only [List.mem_append] at hp ⊢
      tauto
    obtain ⟨hfl, hr⟩ := ha.rep p (by
      simp only [List.mem_append] at hpk ⊢
      tauto)
    have hmem : ∀ a ∈ p.full ++ p.rest, a ∈ chains (us ++ vs) :=
      fun a hm => List.mem_flatMap.mpr ⟨p, hpk, hm⟩
    have hsub : (p.full ++ p.rest ++ (free' ++ [])).Nodup ∧
        ∀ a ∈ p.full ++ p.rest ++ (free' ++ []), a < h'.fresh := by
      obtain ⟨ws, zs, heq⟩ := List.append_of_mem hp
      rw [heq] at hnodup hbound
      have hsub : (p.full ++ p.rest ++ (free' ++ [])).Sublist
          (p.full ++ p.rest ++ (free' ++ (chains (ws ++ zs) ++ List.range h₀.fresh))) := by simp
      exact ⟨hsub.nodup (perm_member.nodup_iff.mp hnodup),
        fun a hm => hbound a (perm_member.mem_iff.mpr (hsub.subset hm))⟩
    have hfree : Seg h'.link (h'.freelist (p.member.chan.at g.heap).buf.freelist).head free' none := by
      have heq : (p.member.chan.at g.heap).buf.freelist = i := hfl
      rw [heq]
      exact hchain
    exact ⟨hfl, hr.frame (fun a hm => hblock a (hmem a hm)) (fun a hm => hbuf a (hmem a hm)) hfree
      hsub.1 hsub.2⟩

/-- One of the buffers, with the blocks of all others as blocks that it does not touch. -/
theorem Accounts.focus (ha : Accounts k i h₀ g free (us ++ p :: vs)) :
    p.member.chan.buf.freelist = i ∧ Rep k (p.member.chan.at g.heap) p.member.queue p.full p.rest
      free (chains (us ++ vs) ++ List.range h₀.fresh) := by
  obtain ⟨hfl, hr⟩ := ha.rep p (by simp)
  exact ⟨hfl, hr.others (perm_member.nodup_iff.mp ha.nodup)
    fun a hm => ha.bound a (perm_member.mem_iff.mpr hm)⟩

theorem Accounts.sized (ha : Accounts k i h₀ g free ps) : Sized g.heap i :=
  Sized.intro free ha.chain ha.size

theorem accounts_start (hnew : h₀.freelist i = {}) : Accounts k i h₀ ⟨h₀, []⟩ [] [] := by
  refine ⟨rfl, by simp, by rw [hnew]; rfl, by rw [hnew]; rfl, ?_, ?_, by simp⟩
  · simpa using List.nodup_range
  · simp

/-- A buffer that is constructed has no blocks. -/
theorem Accounts.construct (ha : Accounts k i h₀ g free ps) :
    Accounts k i h₀ { g with members := g.members ++ [.new i] } free
      (ps ++ [⟨.new i, [], []⟩]) := by
  have hrep : Rep k ((Member.new i).chan.at g.heap) {} [] [] free [] := by
    refine rep_new ha.chain ?_ fun a hm => ha.bound a (by simp at hm; simp [hm])
    rw [List.append_nil]
    exact (List.nodup_append.mp ha.nodup).1
  have ha' : Accounts k i h₀ g free (ps ++ [] ++ []) := by simpa using ha
  have hadded : Accounts k i h₀
      ⟨g.heap, (ps ++ [(⟨.new i, [], []⟩ : Placed)] ++ []).map Placed.member⟩ free
      (ps ++ [⟨.new i, [], []⟩] ++ []) := by
    refine ha'.replace (fun _ _ => rfl) (fun _ _ => rfl) ?_ ha.chain ha.size ?_ ?_ ?_
    · intro p hp
      obtain rfl := List.mem_singleton.mp hp
      exact ⟨rfl, hrep⟩
    · simpa [Placed.blocks] using ha.nodup
    · simpa [Placed.blocks] using ha.bound
    · simpa [Placed.blocks] using ha.count
  simpa [ha.members] using hadded

/-- One block more in the freelist. -/
theorem Accounts.fill (ha : Accounts k i h₀ g free ps) :
    Accounts k i h₀ { g with heap := g.heap.alloc.2.delete i g.heap.alloc.1 }
      (g.heap.fresh :: free) ps := by
  obtain ⟨h', heq, hchain, hsize, hfresh, hblock, hbuf⟩ :=
    fill_spec ha.chain fun a hm => ha.bound a (by simp [hm])
  have hlow : ∀ a ∈ chains ps, a < g.heap.fresh := fun a hm => ha.bound a (by simp [hm])
  have ha' : Accounts k i h₀ g free (ps ++ [] ++ []) := by simpa using ha
  have hmem : g.members = (ps ++ [] ++ []).map Placed.member := by simp [ha.members]
  have hps : ps = ps ++ [] ++ [] := by simp
  rw [heq, hmem]
  conv => rhs; rw [hps]
  refine ha'.replace ?_ (fun _ _ => by rw [hbuf]) (by simp) hchain (by rw [hsize, ha.size]; rfl) ?_ ?_ ?_
  · intro a hm
    exact hblock a (hlow a (by simpa using hm))
  · have hnot : g.heap.fresh ∉ free ++ (chains ps ++ List.range h₀.fresh) :=
      fun hm => Nat.lt_irrefl _ (ha.bound _ hm)
    simpa using List.nodup_cons.mpr ⟨hnot, ha.nodup⟩
  · intro a hm
    rw [hfresh]
    rcases List.mem_cons.mp hm with rfl | hm
    · exact Nat.lt_succ_self _
    · exact Nat.lt_succ_of_lt (ha.bound a (by simpa using hm))
  · have := ha.count
    rw [hfresh]
    simp only [List.length_cons, List.append_nil]
    omega

theorem Accounts.fillN (n : Nat) (ha : Accounts k i h₀ g free ps) :
    ∃ free', Accounts k i h₀ { g with heap := g.heap.fillN i n } free' ps := by
  induction n generalizing g free with
  | zero => exact ⟨free, ha⟩
  | succ n ih => exact ih ha.fill

/-- A legal call of one buffer's client. -/
theorem Accounts.call {c : Call} (ha : Accounts k i h₀ g free (us ++ p :: vs))
    (hc : p.member.queue.Legal c) :
    ∃ answer s' free' p', exec k (p.member.chan.at g.heap) c = .ok (answer, s') ∧
      p'.member = ⟨s'.chan, p.member.queue.apply answer c⟩ ∧
      Accounts k i h₀ ⟨s'.heap, (us ++ p' :: vs).map Placed.member⟩ free' (us ++ p' :: vs) := by
  obtain ⟨hfl, hr⟩ := ha.focus
  obtain ⟨answer, s', heq, ⟨full', rest', free', hr'⟩, hfl', hun, hbal⟩ := hr.exec hc
  have hfree : (p.member.chan.at g.heap).buf.freelist = i := hfl
  have hfree' : s'.buf.freelist = i := hfl'.trans hfree
  rw [hfree] at hun
  refine ⟨answer, s', free', ⟨⟨s'.chan, p.member.queue.apply answer c⟩, full', rest'⟩, heq, rfl, ?_⟩
  have hchain : Seg s'.heap.link (s'.heap.freelist i).head free' none := by
    have := hr'.owns.freeChain
    rwa [hfree'] at this
  obtain ⟨hsized, hsum⟩ := hbal (by rw [hfree]; exact ha.sized)
  rw [hfree] at hsized hsum
  have hsize := hsized free' hchain
  have hcount := ha.count
  have hcnt := hr.owns.count
  have hcnt' := hr'.owns.count
  have hheap : (p.member.chan.at g.heap).heap = g.heap := rfl
  rw [hheap, ha.size, hsize, hcnt, hcnt'] at hsum
  have hlist : us ++ ⟨⟨s'.chan, p.member.queue.apply answer c⟩, full', rest'⟩ :: vs
      = us ++ [⟨⟨s'.chan, p.member.queue.apply answer c⟩, full', rest'⟩] ++ vs := by simp
  have ha' : Accounts k i h₀ g free (us ++ [p] ++ vs) := by simpa using ha
  rw [hlist]
  refine ha'.replace (fun a hm => hun.block a (List.mem_append_left _ hm))
    (fun a hm => hun.buf a (List.mem_append_left _ hm)) ?_ hchain hsize ?_ ?_ ?_
  · intro q hq
    obtain rfl := List.mem_singleton.mp hq
    exact ⟨hfree', hr'.alone⟩
  · rw [← hlist]
    exact perm_member.nodup_iff.mpr hr'.owns.nodup
  · rw [← hlist]
    exact fun a hm => hr'.owns.bound a (perm_member.mem_iff.mp hm)
  · simp only [chains_append, chains_cons, chains_nil, Placed.blocks, List.append_nil,
      List.length_append] at hcount hsum ⊢
    omega

/-- The destruction of one buffer. -/
theorem Accounts.destroy (ha : Accounts k i h₀ g free (us ++ p :: vs)) :
    ∃ h', Buffer.destroy g.heap p.member.chan.buf = .ok h' ∧
      Accounts k i h₀ ⟨h', (us ++ vs).map Placed.member⟩ (p.blocks ++ free) (us ++ vs) := by
  obtain ⟨hfl, hr⟩ := ha.focus
  have hfree : (p.member.chan.at g.heap).buf.freelist = i := hfl
  obtain ⟨h', heq, hchain, hsize, hfresh, hun⟩ := destroy_spec hr.owns (by
    rw [hfree]
    exact ha.sized)
  rw [hfree] at hchain hsize hun
  have hlist : us ++ vs = us ++ [] ++ vs := by simp
  have ha' : Accounts k i h₀ g free (us ++ [p] ++ vs) := by simpa using ha
  have hperm : (p.blocks ++ free ++ (chains (us ++ [] ++ vs) ++ List.range h₀.fresh)).Perm
      (free ++ (chains (us ++ p :: vs) ++ List.range h₀.fresh)) := by
    refine List.perm_iff_count.mpr fun a => ?_
    simp only [chains_append, chains_cons, chains_nil, List.count_append, List.count_nil]
    omega
  have hcount := ha.count
  refine ⟨h', heq, ?_⟩
  rw [hlist]
  refine ha'.replace (fun a hm => hun.block a (List.mem_append_left _ hm))
    (fun a hm => hun.buf a (List.mem_append_left _ hm)) (by simp) hchain hsize ?_ ?_ ?_
  · exact hperm.nodup_iff.mpr ha.nodup
  · intro a hm
    rw [hfresh]
    exact ha.bound a (hperm.mem_iff.mp hm)
  · have hheap : (p.member.chan.at g.heap).heap = g.heap := rfl
    rw [hfresh, hheap]
    simp only [chains_append, chains_cons, chains_nil, List.length_append, List.length_nil]
      at hcount ⊢
    omega

/-- Where a member of a run is among the placed buffers. -/
theorem Accounts.split {xs ys : List Member} {m : Member} (ha : Accounts k i h₀ g free ps)
    (hg : g.members = xs ++ m :: ys) :
    ∃ us p vs, ps = us ++ p :: vs ∧ us.map Placed.member = xs ∧ p.member = m ∧
      vs.map Placed.member = ys := by
  obtain ⟨us, ws, rfl, hus, hws⟩ := List.map_eq_append_iff.mp (ha.members.symm.trans hg)
  obtain ⟨p, vs, rfl, hp, hvs⟩ := List.map_eq_cons_iff.mp hws
  exact ⟨us, p, vs, rfl, hus, hp, hvs⟩

theorem GroupRun.accounts (hrun : GroupRun k i h₀ g) : ∃ free ps, Accounts k i h₀ g free ps := by
  induction hrun with
  | start hnew => exact ⟨[], [], accounts_start hnew⟩
  | fillN n _ ih =>
    obtain ⟨free, ps, ha⟩ := ih
    obtain ⟨free', ha'⟩ := ha.fillN n
    exact ⟨free', ps, ha'⟩
  | construct _ ih =>
    obtain ⟨free, ps, ha⟩ := ih
    exact ⟨free, _, ha.construct⟩
  | call _ hc heq ih =>
    obtain ⟨free, ps, ha⟩ := ih
    obtain ⟨us, p, vs, rfl, rfl, rfl, rfl⟩ := ha.split rfl
    obtain ⟨answer', s'', free', p', heq', hp', ha'⟩ := ha.call hc
    rw [heq] at heq'
    cases heq'
    refine ⟨free', us ++ p' :: vs, ?_⟩
    rw [← hp']
    simpa using ha'
  | destroy _ heq ih =>
    obtain ⟨free, ps, ha⟩ := ih
    obtain ⟨us, p, vs, rfl, rfl, rfl, rfl⟩ := ha.split rfl
    obtain ⟨h', heq', ha'⟩ := ha.destroy
    rw [heq] at heq'
    cases heq'
    refine ⟨p.blocks ++ free, us ++ vs, ?_⟩
    simpa using ha'

end Accounts

/-! ## The books of a run -/

/-- The members and counters of a buffer whose blocks are `ns`. -/
structure Accounted (k : BlockSize) (h : Heap) (b : BasicBuffer) (ns : List Addr) : Prop where
  chain : Seg h.link b.head ns none
  count : b.blockCnt = ns.length
  data : b.dataSize = (ns.map fun a => (h.block a).len).sum
  space : ∃ es, es <:+ ns ∧ Seg h.link b.end_ es none ∧
    spaceSize k h b = (es.map fun a => (h.block a).spaceLen k).sum
  tail : b.head ≠ none → b.tail = ns.getLast?

section Accounted

variable {k : BlockSize} {s : State} {f : Fifo} {full rest free others : List Addr}

theorem total_spaces {h : Heap} {ns : List Addr} :
    Gather.total (spaces k h ns) = (ns.map fun a => (h.block a).spaceLen k).sum := by
  simp [Gather.total, spaces, Function.comp_def]

/-- The blocks from `end_` on have all the free space. -/
theorem Rep.accounted (hr : Rep k s f full rest free others) :
    Accounted k s.heap s.buf (full ++ rest) := by
  refine ⟨hr.owns.chain, hr.owns.count, ?_, ?_, ?_⟩
  · rw [hr.size_eq]
    simp [Gather.total, datas, Function.comp_def]
  · rw [spaceSize_eq hr.owns hr.shape hr.size_eq, hr.end_, total_spaces]
    have hchain := hr.owns.chain
    -- `end_` is the first block with free space, or the full block before it.
    have hfirst : ∀ r rs, rest = r :: rs → Seg s.heap.link (some r) (r :: rs) none := by
      rintro r rs rfl
      exact hchain.suffix
    have hlast : ∀ t, full.getLast? = some t →
        ∃ es, es <:+ full ++ rest ∧ Seg s.heap.link (some t) es none ∧
          (rest.map fun a => (s.heap.block a).spaceLen k).sum =
            (es.map fun a => (s.heap.block a).spaceLen k).sum := by
      intro t ht
      obtain ⟨xs, rfl⟩ := List.getLast?_eq_some_iff.mp ht
      rw [List.append_assoc, List.singleton_append] at hchain ⊢
      refine ⟨t :: rest, List.suffix_append .., hchain.suffix, ?_⟩
      rw [List.map_cons, List.sum_cons, hr.shape.spaceLen_full t (by simp), Nat.zero_add]
    cases hrest : rest with
    | nil =>
      cases hl : full.getLast? with
      | none => exact ⟨[], List.nil_suffix, by simp only [endOf, hl]; rfl, rfl⟩
      | some t =>
        obtain ⟨es, hsuf, hseg, hsum⟩ := hlast t hl
        exact ⟨es, hrest ▸ hsuf, by simp only [endOf, hl]; exact hseg, hrest ▸ hsum⟩
    | cons r rs =>
      by_cases hlen : 0 < (s.heap.block r).len
      · exact ⟨r :: rs, List.suffix_append .., by
          simp only [endOf, if_pos hlen]; exact hfirst r rs hrest, rfl⟩
      · cases hl : full.getLast? with
        | none =>
          exact ⟨r :: rs, List.suffix_append .., by
            simp only [endOf, if_neg hlen, hl, Option.none_or]; exact hfirst r rs hrest, rfl⟩
        | some t =>
          obtain ⟨es, hsuf, hseg, hsum⟩ := hlast t hl
          exact ⟨es, hrest ▸ hsuf, by
            simp only [endOf, if_neg hlen, hl, Option.some_or]; exact hseg, hrest ▸ hsum⟩
  · intro hne
    refine hr.owns.tail ?_
    rintro hnil
    rw [hr.owns.head_eq, hnil] at hne
    exact hne rfl

end Accounted

/-- In every run of buffers that share a freelist, the chains of the freelist and of the buffers
are the blocks that were ever allocated, each of them once, and all counters and pointers agree
with the chains. No legal call and no destruction faults. -/
theorem blocks_accounted {k : BlockSize} {i : Nat} {h₀ : Heap} {g : Group}
    (hrun : GroupRun k i h₀ g) :
    (∃ free chains, Seg g.heap.link (g.heap.freelist i).head free none ∧
      (g.heap.freelist i).size = free.length ∧
      List.Forall₂ (fun m ns => Accounted k g.heap m.chan.buf ns) g.members chains ∧
      (free ++ chains.flatten).Perm (List.range' h₀.fresh (g.heap.fresh - h₀.fresh))) ∧
    ∀ m ∈ g.members, (∀ c, m.queue.Legal c → ∃ r, exec k (m.chan.at g.heap) c = .ok r) ∧
      ∃ h', destroy g.heap m.chan.buf = .ok h' := by
  obtain ⟨free, ps, ha⟩ := hrun.accounts
  refine ⟨⟨free, ps.map Placed.blocks, ha.chain, ha.size, ?_, ?_⟩, ?_⟩
  · rw [ha.members, List.forall₂_map_left_iff, List.forall₂_map_right_iff, List.forall₂_same]
    intro p hp
    exact (ha.rep p hp).2.accounted
  · have hsub : free ++ (chains ps ++ List.range h₀.fresh) ⊆ List.range g.heap.fresh :=
      fun a hm => List.mem_range.mpr (ha.bound a hm)
    have hcount := ha.count
    have hall : (free ++ (chains ps ++ List.range h₀.fresh)).Perm (List.range g.heap.fresh) := by
      refine (ha.nodup.subperm hsub).perm_of_length_le ?_
      simp only [List.length_append, List.length_range]
      omega
    have hrange : List.range g.heap.fresh =
        List.range h₀.fresh ++ List.range' h₀.fresh (g.heap.fresh - h₀.fresh) := by
      have hle : h₀.fresh ≤ g.heap.fresh := hcount ▸ Nat.le_add_left ..
      have hlen : h₀.fresh + (g.heap.fresh - h₀.fresh) = g.heap.fresh := Nat.add_sub_cancel' hle
      have happ := @List.range'_append_1 0 h₀.fresh (g.heap.fresh - h₀.fresh)
      rw [Nat.zero_add, hlen] at happ
      rw [List.range_eq_range', List.range_eq_range', happ]
    rw [← List.append_assoc, hrange] at hall
    exact (List.perm_append_right_iff _).mp (hall.trans List.perm_append_comm)
  · intro m hm
    obtain ⟨xs, ys, heq⟩ := List.append_of_mem hm
    obtain ⟨us, p, vs, rfl, rfl, rfl, rfl⟩ := ha.split heq
    refine ⟨fun c hc => ?_, ?_⟩
    · obtain ⟨answer, s', _, _, hexec, -⟩ := ha.call hc
      exact ⟨_, hexec⟩
    · obtain ⟨h', hdes, -⟩ := ha.destroy
      exact ⟨h', hdes⟩

/-- Blocks of eight bytes, one of them filled in: a buffer copies nine bytes in and is destroyed, and
then all blocks are in the freelist. -/
theorem blocks_accounted_destroyed :
    ∃ h, GroupRun ⟨32, by decide⟩ 0 Heap.empty ⟨h, []⟩ ∧ (h.freelist 0).size = h.fresh := by
  have hnew : GroupRun ⟨32, by decide⟩ 0 Heap.empty ⟨Heap.empty.fillN 0 1, [.new 0]⟩ :=
    ((GroupRun.start rfl).fillN 1).construct
  have hlegal : (Member.new 0).queue.Legal (.copyIn [1, 2, 3, 4, 5, 6, 7, 8, 9]) := ⟨rfl, by decide⟩
  obtain ⟨⟨answer, s⟩, hcall⟩ := ((blocks_accounted hnew).2 (.new 0) (by simp)).1 _ hlegal
  have hfull := @GroupRun.call _ _ _ _ [] [] _ _ _ _ hnew hlegal hcall
  obtain ⟨h, hdestroy⟩ := ((blocks_accounted hfull).2 _ (List.mem_singleton.mpr rfl)).2
  have hdone := @GroupRun.destroy _ _ _ _ _ [] [] _ hfull hdestroy
  obtain ⟨⟨free, chains, -, hsize, hchains, hperm⟩, -⟩ := blocks_accounted hdone
  cases hchains
  refine ⟨h, hdone, ?_⟩
  have hlen := hperm.length_eq
  rw [List.flatten_nil, List.append_nil, List.length_range'] at hlen
  rw [hsize, hlen]
  rfl

end Buffer
end Proxy
end TrustedCa
