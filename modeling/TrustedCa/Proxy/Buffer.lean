import TrustedCa.Proxy.Protocol
import TrustedCa.Spec.Gather

/-!
# The block buffer (`proxy/src/buffer.h`, `proxy/src/freelist.h`)

`BasicBuffer<BlockSize>` is a singly linked list of blocks with a head, an end and a tail pointer.
A block has a header (`Block`: next, offset, len) and `capacity` bytes after it (`Heap.buf`).

* Memory is a `Heap`: blocks are distinct regions, and `Alloc` gives one that was never used. The
  bytes of a new block are whatever the memory held, for `new (ptr) Block()` sets the header only.
* A `Freelist` is a stack of blocks, linked through the same `next` field. Buffers hold a shared
  pointer to one: `BasicBuffer.freelist` is the number of the freelist in the heap.
* Each operation takes the heap and the buffer and returns them. It fails when the code would
  dereference null, when an `assert` does not hold, or when a loop runs longer than its bound.
* A `SysBuf` is a `Span`: a block, a position in its bytes and a length. The size given to
  `std::vector::reserve` (`numBuffersToReserve`) has no effect on the result.
-/

namespace TrustedCa
namespace Proxy
namespace Buffer

open Spec (Span)

/-- The address of a block. -/
abbrev Addr := Nat

/-- `Block*`. -/
abbrev Ptr := Option Addr

abbrev SysBuf := Span Addr

inductive Fault where
  | nullDeref | assertFailed | outOfFuel
  deriving DecidableEq

/-- `*p`. -/
def deref : Ptr → Except Fault Addr
  | some a => .ok a
  | none => .error .nullDeref

def assert (p : Prop) [Decidable p] : Except Fault Unit :=
  if p then .ok () else .error .assertFailed

/-- `sizeof(Block)`: a pointer and two `size_t`. -/
def sizeofBlock : Nat := 24

/-- The template parameter, with its `static_assert`. -/
structure BlockSize where
  bytes : Nat
  fits : sizeofBlock < bytes

/-- `Block::capacity`. -/
def BlockSize.capacity (k : BlockSize) : Nat := k.bytes - sizeofBlock

theorem BlockSize.capacity_pos (k : BlockSize) : 0 < k.capacity := by
  have := k.fits
  unfold capacity
  omega

/-- The header of a block, as `Block()` sets it. -/
structure Block where
  next : Ptr := none
  offset : Nat := 0
  len : Nat := 0
  deriving DecidableEq

namespace Block

variable (k : BlockSize) (b : Block)

/-- The position after the data: `SpaceHead()` is `&buf[offset + len]`. -/
def spaceOff : Nat := b.offset + b.len

def spaceLen : Nat := k.capacity - b.offset - b.len

/-- `Block::Commit`: the bytes that remain to commit, and the block. -/
def commit (size : Nat) : Nat × Block :=
  let spaceLen := b.spaceLen k
  let toCommit := if size < spaceLen then size else spaceLen
  (size - toCommit, { b with len := b.len + toCommit })

/-- `Block::Drain`: the bytes that remain to drain, and the block. -/
def drain (size : Nat) : Nat × Block :=
  let toDrain := if b.len < size then b.len else size
  (size - toDrain, { b with offset := b.offset + toDrain, len := b.len - toDrain })

end Block

/-- The members `head_` and `size_` of a `Freelist`. -/
structure Freelist where
  head : Ptr := none
  size : Nat := 0
  deriving DecidableEq

/-- The memory: the headers and bytes of all blocks, the first address that was never allocated,
and the freelists. -/
structure Heap where
  block : Addr → Block
  buf : Addr → Nat → Byte
  fresh : Addr
  freelist : Nat → Freelist

namespace Heap

variable (h : Heap)

def setBlock (a : Addr) (b : Block) : Heap := { h with block := Function.update h.block a b }

def setFreelist (i : Nat) (l : Freelist) : Heap :=
  { h with freelist := Function.update h.freelist i l }

/-- `Block::Alloc`. -/
def alloc : Addr × Heap := (h.fresh, { h with fresh := h.fresh + 1 }.setBlock h.fresh {})

/-- `Freelist::New`. -/
def new (i : Nat) : Addr × Heap :=
  match (h.freelist i).head with
  | none => h.alloc
  | some a =>
    (a, (h.setFreelist i ⟨(h.block a).next, (h.freelist i).size - 1⟩).setBlock a {})

/-- `Freelist::Delete`. -/
def delete (i : Nat) (a : Addr) : Heap :=
  (h.setBlock a { h.block a with next := (h.freelist i).head }).setFreelist i
    ⟨some a, (h.freelist i).size + 1⟩

/-- The loop of `DeleteChain`: the last block from `tail` on, and the number of blocks counted up
to it. -/
def chainTail : Nat → Addr → Nat → Except Fault (Addr × Nat)
  | fuel, tail, count =>
    match (h.block tail).next with
    | none => .ok (tail, count)
    | some next =>
      match fuel with
      | 0 => .error .outOfFuel
      | fuel + 1 => chainTail fuel next (count + 1)

/-- `Freelist::DeleteChain`. A chain has at most as many blocks as were ever allocated. -/
def deleteChain (i : Nat) (head : Ptr) : Except Fault Heap :=
  match head with
  | none => .ok h
  | some a => do
    let (tail, count) ← h.chainTail h.fresh a 1
    return (h.setBlock tail { h.block tail with next := (h.freelist i).head }).setFreelist i
      ⟨some a, (h.freelist i).size + count⟩

/-- `Freelist::FillN`. -/
def fillN (i : Nat) : Nat → Heap → Heap
  | 0, h => h
  | n + 1, h =>
    let (a, h) := h.alloc
    fillN i n (h.delete i a)

/-- The bytes of `buffers`, in order. -/
def read (buffers : List SysBuf) : List Byte := Spec.Gather.read h.buf buffers

/-- Bytes written into `buffers` in order (the `memcpy` loop of `CopyIn`, a scattered read). -/
def scatter (buffers : List SysBuf) (bytes : List Byte) : Heap :=
  { h with buf := Spec.Gather.scatter h.buf buffers bytes }

end Heap

/-- The members of a `BasicBuffer` as its constructor sets them. -/
structure BasicBuffer where
  head : Ptr := none
  end_ : Ptr := none
  tail : Ptr := none
  freelist : Nat
  blockCnt : Nat := 0
  dataSize : Nat := 0
  reserved : Bool := false
  peeked : Bool := false
  deriving DecidableEq

section Operations

variable (k : BlockSize)

/-- `space_size()`. -/
def spaceSize (h : Heap) (b : BasicBuffer) : Nat :=
  match b.head with
  | none => 0
  | some a => b.blockCnt * k.capacity - b.dataSize - (h.block a).offset

/-- The loop of `AppendNewBlock`. -/
def appendBlocks : Nat → Heap → BasicBuffer → Except Fault (Heap × BasicBuffer)
  | 0, h, b => .ok (h, b)
  | count + 1, h, b => do
    let (a, h) := h.new b.freelist
    let t ← deref b.tail
    let h := h.setBlock t { h.block t with next := some a }
    appendBlocks count h { b with tail := (h.block t).next, blockCnt := b.blockCnt + 1 }

/-- `AppendNewBlock`. Its result, the end block, is not used. -/
def appendNewBlock (count : Nat) (h : Heap) (b : BasicBuffer) :
    Except Fault (Heap × BasicBuffer) :=
  match b.head with
  | none => do
    let (a, h) := h.new b.freelist
    let b := { b with head := some a, tail := some a, end_ := some a, blockCnt := b.blockCnt + 1 }
    assert (b.tail ≠ none)
    appendBlocks (count - 1) h b
  | some _ => do
    assert (b.tail ≠ none)
    appendBlocks count h b

/-- The constructor of `SpaceStepper`: its `block_`. -/
def spaceStepper (h : Heap) (b : BasicBuffer) : Ptr :=
  match b.end_ with
  | none => none
  | some e => if (h.block e).spaceLen k = 0 then (h.block e).next else some e

/-- `SpaceStepper::NumBuffersToReserve`. -/
def numBuffersToReserve (h : Heap) (b : BasicBuffer) (bufferSize : Nat) : Nat :=
  let (numBlocks, bufferSize) :=
    match b.end_ with
    | none => (0, bufferSize)
    | some e =>
      let spaceLen := (h.block e).spaceLen k
      if spaceLen = 0 then
        (1, bufferSize - if spaceLen < bufferSize then spaceLen else bufferSize)
      else
        (0, bufferSize)
  numBlocks + (bufferSize + k.capacity - 1) / k.capacity

/-- `SpaceStepper::Next`: the block, and the stepper's `block_` after it. -/
def stepperNext (h : Heap) (b : BasicBuffer) (block : Ptr) :
    Except Fault (Addr × Ptr × Heap × BasicBuffer) :=
  match block with
  | none => do
    let (h, b) ← appendNewBlock 1 h b
    let a ← deref b.tail
    return (a, (h.block a).next, h, b)
  | some a => return (a, (h.block a).next, h, b)

/-- The loop of `Reserve`. Each iteration takes at least one byte, so `size` bounds them. -/
def reserveLoop : Nat → Nat → Heap → BasicBuffer → Ptr →
    Except Fault (List SysBuf × Heap × BasicBuffer)
  | fuel, remaining, h, b, block =>
    if 0 < remaining then
      match fuel with
      | 0 => .error .outOfFuel
      | fuel + 1 => do
        let (a, block, h, b) ← stepperNext h b block
        let space := (h.block a).spaceLen k
        let spaceLen := if space ≤ remaining then space else remaining
        let buf : SysBuf := ⟨a, (h.block a).spaceOff, spaceLen⟩
        let (ret, h, b) ← reserveLoop fuel (remaining - spaceLen) h b block
        return (buf :: ret, h, b)
    else
      .ok ([], h, b)

/-- `Reserve`. -/
def reserve (h : Heap) (b : BasicBuffer) (size : Nat) :
    Except Fault (List SysBuf × Heap × BasicBuffer) := do
  assert (b.reserved = false)
  let b := { b with reserved := true }
  reserveLoop k size size h b (spaceStepper k h b)

/-- The loop of `ReserveAtLeast`, with `reserved_size` at its end. -/
def reserveAtLeastLoop (size : Nat) : Nat → Nat → Heap → BasicBuffer → Ptr →
    Except Fault (List SysBuf × Nat × Heap × BasicBuffer)
  | fuel, reservedSize, h, b, block =>
    if reservedSize < size then
      match fuel with
      | 0 => .error .outOfFuel
      | fuel + 1 => do
        let (a, block, h, b) ← stepperNext h b block
        let spaceLen := (h.block a).spaceLen k
        let buf : SysBuf := ⟨a, (h.block a).spaceOff, spaceLen⟩
        let (ret, reservedSize, h, b) ←
          reserveAtLeastLoop size fuel (reservedSize + spaceLen) h b block
        return (buf :: ret, reservedSize, h, b)
    else
      .ok ([], reservedSize, h, b)

/-- `ReserveAtLeast(size_t&)`: the buffers, and what `size` is set to. -/
def reserveAtLeastSize (h : Heap) (b : BasicBuffer) (size : Nat) :
    Except Fault (List SysBuf × Nat × Heap × BasicBuffer) := do
  assert (b.reserved = false)
  let b := { b with reserved := true }
  reserveAtLeastLoop k size size 0 h b (spaceStepper k h b)

/-- `ReserveAtLeast(const size_t&)`. -/
def reserveAtLeast (h : Heap) (b : BasicBuffer) (size : Nat) :
    Except Fault (List SysBuf × Heap × BasicBuffer) := do
  let (ret, _, h, b) ← reserveAtLeastSize k h b size
  return (ret, h, b)

/-- The loop of `Commit`. -/
def commitLoop : Nat → Nat → Heap → BasicBuffer → Ptr → Except Fault (Heap × BasicBuffer)
  | fuel, remaining, h, b, block =>
    if 0 < remaining then
      match fuel with
      | 0 => .error .outOfFuel
      | fuel + 1 => do
        let (a, block, h, b) ← stepperNext h b block
        let (remaining, blk) := (h.block a).commit k remaining
        commitLoop fuel remaining (h.setBlock a blk) { b with end_ := some a } block
    else
      .ok (h, b)

/-- `Commit`. -/
def commit (h : Heap) (b : BasicBuffer) (size : Nat) : Except Fault (Heap × BasicBuffer) := do
  assert (b.reserved = true)
  assert (b.head ≠ none)
  assert (size ≤ spaceSize k h b)
  let (h, b) ← commitLoop k size size h b (spaceStepper k h b)
  return (h, { b with dataSize := b.dataSize + size, reserved := false })

/-- The loop of `Peek`, bounded by the number of blocks. -/
def peekLoop (h : Heap) : Nat → Ptr → Except Fault (List SysBuf)
  | _, none => .ok []
  | fuel, some a =>
    if 0 < (h.block a).len then
      match fuel with
      | 0 => .error .outOfFuel
      | fuel + 1 => do
        let ret ← peekLoop h fuel (h.block a).next
        return ⟨a, (h.block a).offset, (h.block a).len⟩ :: ret
    else
      .ok []

/-- `Peek`. -/
def peek (h : Heap) (b : BasicBuffer) : Except Fault (List SysBuf × BasicBuffer) := do
  assert (b.peeked = false)
  let ret ← peekLoop h b.blockCnt b.head
  return (ret, { b with peeked := true })

/-- The loop of `Drain`. Each iteration drains at least one byte. -/
def drainLoop : Nat → Nat → Heap → BasicBuffer → Except Fault (Heap × BasicBuffer)
  | fuel, remaining, h, b =>
    if 0 < remaining then
      match fuel with
      | 0 => .error .outOfFuel
      | fuel + 1 => do
        let a ← deref b.head
        let (remaining, blk) := (h.block a).drain remaining
        let h := h.setBlock a blk
        -- If we have exhausted current block, prune it.
        if blk.len = 0 ∧ blk.spaceLen k = 0 then
          drainLoop fuel remaining (h.delete b.freelist a)
            { b with blockCnt := b.blockCnt - 1, head := blk.next }
        else
          drainLoop fuel remaining h b
    else
      .ok (h, b)

/-- The end of `Drain`, after its loop. -/
def drainDone (size : Nat) (h : Heap) (b : BasicBuffer) : Heap × BasicBuffer :=
  let b := { b with dataSize := b.dataSize - size, peeked := false }
  if b.dataSize = 0 then
    let b := { b with end_ := b.head }
    match b.head with
    | some a => if b.reserved then (h, b) else (h.setBlock a { h.block a with offset := 0 }, b)
    | none => (h, b)
  else
    (h, b)

/-- `Drain`. -/
def drain (h : Heap) (b : BasicBuffer) (size : Nat) : Except Fault (Heap × BasicBuffer) := do
  assert (b.peeked = true)
  assert (size ≤ b.dataSize)
  let (h, b) ← drainLoop k size size h b
  return drainDone size h b

/-- `CopyIn`. -/
def copyIn (h : Heap) (b : BasicBuffer) (bytes : List Byte) :
    Except Fault (Heap × BasicBuffer) := do
  let (buffers, h, b) ← reserve k h b bytes.length
  commit k (h.scatter buffers bytes) b bytes.length

/-- The loop of `CopyOut`: the bytes copied. -/
def copyOutLoop (h : Heap) (size : Nat) : List SysBuf → Nat → List Byte
  | [], _ => []
  | buf :: buffers, sizeCopied =>
    if 0 < size then
      let remaining := size - sizeCopied
      let toCopy := if buf.len < remaining then buf.len else remaining
      (h.read [buf]).take toCopy ++ copyOutLoop h size buffers (sizeCopied + toCopy)
    else
      []

/-- `CopyOut`: the bytes copied (their number is the return value; when `to` is null they are
discarded), the heap and the buffer. -/
def copyOut (h : Heap) (b : BasicBuffer) (size : Nat) :
    Except Fault (List Byte × Heap × BasicBuffer) := do
  let (buffers, b) ← peek h b
  let copied := copyOutLoop h size buffers 0
  let (h, b) ← drain k h b copied.length
  return (copied, h, b)

/-- `~BasicBuffer`: the memory after it. -/
def destroy (h : Heap) (b : BasicBuffer) : Except Fault Heap := h.deleteChain b.freelist b.head

end Operations

end Buffer
end Proxy
end TrustedCa
