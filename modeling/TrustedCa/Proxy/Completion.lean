import TrustedCa.Proxy.HalfClose
import TrustedCa.Proxy.Session

/-!
# A session comes to its end

A read of the kernel brings bytes or an error, and a write takes bytes or fails (`Event.Brings`).
Then every event of a session is progress: `ProxyBridge.work` counts two for each byte that was read
or written and for each end that was closed, and one for each operation that the kernel has served.
`session_completes` bounds a run by the bytes of the two peers, and says what has become of them
when nothing can happen any more. The `async_wait` for an error of the client while a `BIND` request
waits for its connection changes no member, and is left out.
-/

namespace TrustedCa
namespace Proxy
namespace Bridge

open Buffer (BasicBuffer Fault Heap)
open Spec

/-! ## Progress of a direction -/

/-- One for an operation that the kernel has served. -/
def served (b : Bool) : Nat := if b then 1 else 0

/-- Two for an end that is closed. -/
def closed (open' : Bool) : Nat := if open' then 0 else 2

/-- How far a direction is. -/
def Pipe.work (p : Pipe) (readable writable : Bool) : Nat :=
  2 * (p.received.length + p.sent.length) + served (p.readOp.any fun op => op.got.isSome) +
    served (p.writeOp.any fun op => op.taken.isSome) + closed readable + closed writable

/-- The operations that were served have brought or taken something, and a write is outstanding on a
writable sink only. -/
structure Fruitful (p : Pipe) (writable : Bool) : Prop where
  got : ∀ op ∈ p.readOp, ∀ x ∈ op.got, x.1 ≠ [] ∨ x.2.failed = true
  taken : ∀ op ∈ p.writeOp, ∀ x ∈ op.taken, x.1 ≠ [] ∨ x.2.failed = true
  writable : p.writeOp.isSome = true → writable = true

section Pipe

variable {p p' q : Pipe} {readable writable writable' : Bool} {bytes : List Byte} {ec : ErrorCode}
  {b : BasicBuffer} {h h' : Heap}

theorem fruitful_idle (hread : p.readOp = none) (hwrite : p.writeOp = none) :
    Fruitful p writable := by
  refine ⟨?_, ?_, ?_⟩ <;> simp [hread, hwrite]

/-- A read that `ForwardTraffic` starts. -/
theorem ReadStarted.work (hs : ReadStarted p p' readable writable)
    (hidle : p.reading = false → p.readOp = none) (hf : Fruitful p writable') :
    (∀ r w, p'.work r w = p.work r w) ∧ Fruitful p' writable' ∧ p'.writing = p.writing ∧
      p'.writeOp = p.writeOp := by
  unfold ReadStarted at hs
  split at hs
  · next hcond =>
    simp only [Bool.and_eq_true, Bool.not_eq_true'] at hcond
    obtain ⟨b, bufs, -, rfl⟩ := hs
    have hread : p.readOp = none := hidle hcond.1.1.1
    refine ⟨fun r w => ?_, ⟨?_, hf.taken, hf.writable⟩, rfl, rfl⟩
    · simp [Pipe.work, hread]
    · simp
  · rw [hs]
    exact ⟨fun _ _ => rfl, hf, rfl, rfl⟩

/-- A write that `ForwardTraffic` starts. -/
theorem WriteStarted.work (hs : WriteStarted p p' writable)
    (hidle : p.writing = false → p.writeOp = none) (hf : Fruitful p writable) :
    (∀ r w, p'.work r w = p.work r w) ∧ Fruitful p' writable ∧ p'.reading = p.reading ∧
      p'.readOp = p.readOp := by
  unfold WriteStarted at hs
  split at hs
  · next hcond =>
    simp only [Bool.and_eq_true, Bool.not_eq_true'] at hcond
    obtain ⟨b, bufs, -, rfl⟩ := hs
    have hwrite : p.writeOp = none := hidle hcond.1.1
    refine ⟨fun r w => ?_, ⟨hf.got, ?_, fun _ => hcond.1.2⟩, rfl, rfl⟩
    · simp [Pipe.work, hwrite]
    · simp
  · rw [hs]
    exact ⟨fun _ _ => rfl, hf, rfl, rfl⟩

/-- The kernel serves a read. -/
theorem Pipe.recv_work (heq : p.recv h bytes ec = some (h', p')) (hf : Fruitful p writable)
    (hbrings : bytes ≠ [] ∨ ec.failed = true) :
    (∀ r w, p'.work r w = p.work r w + 1) ∧ Fruitful p' writable := by
  obtain ⟨handler, buffers, hop, -, -, rfl⟩ := Pipe.recv_eq_some heq
  refine ⟨fun r w => ?_, ⟨?_, hf.taken, hf.writable⟩⟩
  · simp only [Pipe.work, hop, Option.any_some, Option.isSome_some, Option.isSome_none, served,
      if_true, Bool.false_eq_true, if_false]
    omega
  · intro op hop' x hx
    cases hop'
    cases hx
    exact hbrings

/-- The kernel serves a write. -/
theorem Pipe.send_work {n : Nat} (heq : p.send h n ec = some p') (hf : Fruitful p writable)
    (hbrings : 0 < n ∨ ec.failed = true) :
    (∀ r w, p'.work r w = p.work r w + 1) ∧ Fruitful p' writable := by
  obtain ⟨buffers, hop, hlen, rfl⟩ := Pipe.send_eq_some heq
  refine ⟨fun r w => ?_, ⟨hf.got, ?_, fun _ => hf.writable (by rw [hop]; rfl)⟩⟩
  · simp only [Pipe.work, hop, Option.any_some, Option.isSome_some, Option.isSome_none, served,
      if_true, Bool.false_eq_true, if_false]
    omega
  · intro op hop' x hx
    cases hop'
    cases hx
    refine hbrings.imp_left fun hpos hnil => ?_
    have hzero := congrArg List.length hnil
    rw [List.length_take, Buffer.Heap.length_read, List.length_nil] at hzero
    omega

/-- The handler of a read, before `ForwardTraffic`. -/
theorem Pipe.commitRead_work {op : ReadOp} (heq : p.commitRead h bytes = .ok (h', p'))
    (hop : p.readOp = some op) (hgot : op.got = some (bytes, ec)) (hf : Fruitful p writable)
    (w : Bool) :
    p'.readOp = none ∧ p'.writeOp = p.writeOp ∧ p'.writing = p.writing ∧
      (∀ flag, p.work true w + 1 ≤ { p' with reading := flag }.work (!ec.failed) w) ∧
      ∀ flag, Fruitful { p' with reading := flag } writable := by
  obtain ⟨⟨h₁, b⟩, -, hp⟩ := bind_eq_ok.mp heq
  cases hp
  have hbrings := hf.got op hop _ hgot
  refine ⟨rfl, rfl, rfl, fun flag => ?_, fun flag => ⟨nofun, hf.taken, hf.writable⟩⟩
  simp only [Pipe.work, hop, Option.any_some, hgot, Option.isSome_some, served, if_true,
    Option.any_none, Bool.false_eq_true, if_false, List.length_append, closed]
  rcases hbrings with hne | hfail
  · have hpos : 0 < bytes.length := List.length_pos_iff.mpr hne
    cases ec.failed <;> simp <;> omega
  · rw [hfail]
    simp
    omega

/-- The handler of a write, before `ForwardTraffic`. -/
theorem Pipe.drainWritten_work {op : WriteOp} (heq : p.drainWritten h bytes = .ok (h', p'))
    (hop : p.writeOp = some op) (htaken : op.taken = some (bytes, ec)) (hf : Fruitful p writable)
    (r more : Bool) :
    p'.writeOp = none ∧ p'.writing = false ∧ p'.readOp = p.readOp ∧ p'.reading = p.reading ∧
      p.work r writable + 1 ≤ p'.work r (writable && !ec.failed && more) ∧
      Fruitful p' (writable && !ec.failed && more) := by
  obtain ⟨⟨h₁, b⟩, -, hp⟩ := bind_eq_ok.mp heq
  cases hp
  have hbrings := hf.taken op hop _ htaken
  obtain rfl : writable = true := hf.writable (by rw [hop]; rfl)
  refine ⟨rfl, rfl, rfl, rfl, ?_, ⟨hf.got, nofun, nofun⟩⟩
  simp only [Pipe.work, hop, Option.any_some, htaken, Option.isSome_some, served, if_true,
    Option.any_none, Bool.false_eq_true, if_false, List.length_append, closed, Bool.true_and]
  rcases hbrings with hne | hfail
  · have hpos : 0 < bytes.length := List.length_pos_iff.mpr hne
    split <;> omega
  · rw [hfail]
    simp
    omega

end Pipe

/-! ## Progress of a session -/

/-- The kernel serves a read with bytes or an error, and a write with some bytes taken or an
error. -/
def Event.Brings : Event → Prop
  | .clientRecv bytes ec | .destRecv bytes ec => bytes ≠ [] ∨ ec.failed = true
  | .clientSend n ec | .destSend n ec => 0 < n ∨ ec.failed = true
  | .clientRead | .clientWrite | .destRead | .destWrite | .connect _ | .accept _ => True

/-- How far the handshake is: it reads, it has read all it will, its connection has completed. -/
def ProxyBridge.stage (s : ProxyBridge) : Nat :=
  if 0 < s.connected + s.accepted then 3 else if s.upstream.readOp.isSome then 0 else 2

/-- How far a session is. -/
def ProxyBridge.work (s : ProxyBridge) : Nat :=
  s.upstream.work s.clientReadable s.destWritable +
    s.downstream.work s.destReadable s.clientWritable + s.stage

/-- Both directions are fruitful. -/
structure FruitfulBoth (s : ProxyBridge) : Prop where
  up : Fruitful s.upstream s.destWritable
  down : Fruitful s.downstream s.clientWritable

/-- The states of a session in which every operation brings something, with the number of events
before. -/
inductive Busy (env : Env) : Nat → ProxyBridge → Prop
  | start {h : Heap} {i j : Nat} {s : ProxyBridge} : h.Fresh i j →
    performSocks5Handshake (.new h i j) = .ok s → Busy env 0 s
  | step {n : Nat} {s s' : ProxyBridge} {e : Event} : Busy env n s → e.Brings →
    step s env e = some (.ok s') → Busy env (n + 1) s'

theorem Busy.session {env : Env} {n : Nat} {s : ProxyBridge} (hb : Busy env n s) :
    Session env s := by
  induction hb with
  | start hf heq => exact .start hf heq
  | step _ _ hs ih => exact ih.step hs

section Steps

variable {s s' : ProxyBridge} {env : Env} {cmd : Byte} {a : Sockaddr} {e : Event}

/-- The flags of a direction say what is outstanding. -/
def Flagged (p : Pipe) : Prop :=
  (p.reading = false → p.readOp = none) ∧ (p.writing = false → p.writeOp = none)

theorem Flow.flagged {p : Pipe} {readable writable : Bool} {ended broken : Prop}
    (hf : Flow p readable writable ended broken) : Flagged p := by
  have hnone {α : Type} {o : Option α} {flag : Bool} (h : flag = o.isSome)
      (hfalse : flag = false) : o = none := by
    rw [hfalse] at h
    exact Option.not_isSome_iff_eq_none.mp (by simp [← h])
  exact ⟨hnone hf.reading, hnone hf.writing⟩

/-- `ForwardTraffic` is no progress by itself. -/
theorem forwardTraffic_work (hforward : Forwarding s) (heq : forwardTraffic s = .ok s')
    (hup : Flagged s.upstream) (hdown : Flagged s.downstream) (hf : FruitfulBoth s) :
    s'.upstream.work s'.clientReadable s'.destWritable =
        s.upstream.work s.clientReadable s.destWritable ∧
      s'.downstream.work s'.destReadable s'.clientWritable =
        s.downstream.work s.destReadable s.clientWritable ∧ FruitfulBoth s' := by
  obtain ⟨s₁, heq₁, -, h', up₁, up, down₁, down, rfl, hur, huw, hdw, hdr⟩ :=
    forwardTraffic_rearmed hforward
  rw [heq] at heq₁
  cases heq₁
  obtain ⟨hwork₁, hf₁, hwriting, hwriteOp⟩ := hur.work hup.1 hf.up
  obtain ⟨hwork₂, hf₂, -, -⟩ := huw.work (by rw [hwriting, hwriteOp]; exact hup.2) hf₁
  obtain ⟨hwork₃, hf₃, hreading, hreadOp⟩ := hdw.work hdown.2 hf.down
  obtain ⟨hwork₄, hf₄, -, -⟩ := hdr.work (by rw [hreading, hreadOp]; exact hdown.1) hf₃
  exact ⟨(hwork₂ _ _).trans (hwork₁ _ _), (hwork₄ _ _).trans (hwork₃ _ _), hf₂, hf₄⟩

theorem stage_of_completed (h : s.connected + s.accepted = 1) : s.stage = 3 := by
  rw [ProxyBridge.stage, h]
  rfl

/-- The connection is there once and for all. -/
theorem Relayed.stage (hr : Relayed env cmd a s) : s.stage = 3 := stage_of_completed hr.once

/-- An end that is not closed. -/
theorem Flow.readable_of_reading {p : Pipe} {readable writable : Bool} {ended broken : Prop}
    {op : ReadOp} (hf : Flow p readable writable ended broken) (hop : p.readOp = some op) :
    readable = true := by
  cases readable with
  | true => rfl
  | false =>
    have hnone := hf.unread rfl
    rw [hop] at hnone
    cases hnone

/-- One event of the forwarding is progress. -/
theorem Relayed.work (hrel : Relayed env cmd a s) (hf : FruitfulBoth s) (hbrings : e.Brings)
    (hs : Bridge.step s env e = some (.ok s')) : s.work + 1 ≤ s'.work ∧ FruitfulBoth s' := by
  have hstage : s.stage = 3 := hrel.stage
  have hstage' : s'.stage = 3 := (hrel.step hs).stage
  have hdone : ∀ {ec n m}, ¬ Completes s e ec n m := by
    have hc := hrel.connected
    have ha := hrel.accepted
    intro ec n m hcompletes
    cases hcompletes with
    | connect hlt => omega
    | accept hlt => omega
  have hup := hrel.up.flagged
  have hdown := hrel.down.flagged
  have hflow := hrel.forwarding
  rw [ProxyBridge.work, ProxyBridge.work, hstage, hstage']
  cases happens_of_step hs with
  | clientRecv heq hr =>
    cases hr
    obtain ⟨hwork, hf'⟩ := Pipe.recv_work heq hf.up hbrings
    refine ⟨?_, hf', hf.down⟩
    dsimp only
    rw [hwork]
    omega
  | destRecv heq hr =>
    cases hr
    obtain ⟨hwork, hf'⟩ := Pipe.recv_work heq hf.down hbrings
    refine ⟨?_, hf.up, hf'⟩
    dsimp only
    rw [hwork]
    omega
  | clientSend heq hr =>
    cases hr
    obtain ⟨hwork, hf'⟩ := Pipe.send_work heq hf.down hbrings
    refine ⟨?_, hf.up, hf'⟩
    dsimp only
    rw [hwork]
    omega
  | destSend heq hr =>
    cases hr
    obtain ⟨hwork, hf'⟩ := Pipe.send_work heq hf.up hbrings
    refine ⟨?_, hf', hf.down⟩
    dsimp only
    rw [hwork]
    omega
  | handshakeRead hop hr =>
    obtain ⟨f, g, -, hn⟩ := hflow
    cases hn.1 _ hop
  | clientRead hop hh =>
    obtain ⟨h', p', heq, hforward⟩ := hflow.clientCommitted hop rfl
    obtain ⟨hread, hwriteOp, hwriting, hwork, hf'⟩ :=
      Pipe.commitRead_work heq hop rfl hf.up s.destWritable
    rw [clientReadHandler, heq] at hh
    obtain ⟨hwork₁, hwork₂, hboth⟩ := forwardTraffic_work (hforward _ _) hh
      ⟨fun _ => hread, by rw [hwriting, hwriteOp]; exact hup.2⟩ hdown ⟨hf' false, hf.down⟩
    refine ⟨?_, hboth⟩
    have hmore := hwork false
    dsimp only at hwork₁ hwork₂
    rw [hwork₁, hwork₂, hrel.up.readable_of_reading hop, Bool.true_and]
    omega
  | destRead hop hh =>
    obtain ⟨h', p', heq, hforward⟩ := hflow.destCommitted hop rfl
    obtain ⟨hread, hwriteOp, hwriting, hwork, hf'⟩ :=
      Pipe.commitRead_work heq hop rfl hf.down s.clientWritable
    rw [destReadHandler, heq] at hh
    obtain ⟨hwork₁, hwork₂, hboth⟩ := forwardTraffic_work (hforward _ _) hh hup
      ⟨fun _ => hread, by rw [hwriting, hwriteOp]; exact hdown.2⟩ ⟨hf.up, hf' false⟩
    refine ⟨?_, hboth⟩
    have hmore := hwork false
    dsimp only at hwork₁ hwork₂
    rw [hwork₁, hwork₂, hrel.down.readable_of_reading hop, Bool.true_and]
    omega
  | clientWrite hop hh =>
    obtain ⟨h', p', heq, hforward⟩ := hflow.clientDrained hop rfl
    obtain ⟨hwrite, hwriting, hreadOp, hreading, hwork, hf'⟩ :=
      Pipe.drainWritten_work heq hop rfl hf.down s.destReadable
        (s.destReadable || p'.buff.dataSize ≠ 0)
    rw [clientWriteHandler, heq] at hh
    obtain ⟨hwork₁, hwork₂, hboth⟩ := forwardTraffic_work (hforward _ _) hh hup
      ⟨by rw [hreading, hreadOp]; exact hdown.1, fun _ => hwrite⟩ ⟨hf.up, hf'⟩
    refine ⟨?_, hboth⟩
    rw [hwork₁, hwork₂]
    dsimp only
    omega
  | destWrite hop hh =>
    obtain ⟨h', p', heq, hforward⟩ := hflow.destDrained hop rfl
    obtain ⟨hwrite, hwriting, hreadOp, hreading, hwork, hf'⟩ :=
      Pipe.drainWritten_work heq hop rfl hf.up s.clientReadable
        (s.clientReadable || p'.buff.dataSize ≠ 0)
    rw [destWriteHandler, heq] at hh
    obtain ⟨hwork₁, hwork₂, hboth⟩ := forwardTraffic_work (hforward _ _) hh
      ⟨by rw [hreading, hreadOp]; exact hup.1, fun _ => hwrite⟩ hdown ⟨hf', hf.down⟩
    refine ⟨?_, hboth⟩
    rw [hwork₁, hwork₂]
    dsimp only
    omega
  | failed hcompletes hfail hr => exact absurd hcompletes hdone
  | established hcompletes hfail hr => exact absurd hcompletes hdone

/-- A handler of the handshake leaves no read that has been served. -/
theorem performSocks5Handshake_unserved (heq : performSocks5Handshake s = .ok s') :
    ∀ op ∈ s'.upstream.readOp, op.got = none := by
  obtain ⟨⟨h, p⟩, hstart, hs'⟩ := bind_eq_ok.mp heq
  obtain ⟨⟨bufs, h₁, b⟩, -, hp⟩ := bind_eq_ok.mp hstart
  cases hp
  cases hs'
  intro op hop
  cases hop
  rfl

theorem socks5HandshakeHandler_unserved {bytes : List Byte} {ec : ErrorCode}
    (heq : socks5HandshakeHandler s env bytes ec = .ok s') :
    ∀ op ∈ s'.upstream.readOp, op.got = none := by
  obtain ⟨⟨h, p⟩, hcommit, heq⟩ := bind_eq_ok.mp heq
  obtain ⟨⟨h₁, b⟩, -, hp⟩ := bind_eq_ok.mp hcommit
  cases hp
  dsimp only at heq
  split at heq
  · cases heq
    exact nofun
  · obtain ⟨result, -, heq⟩ := bind_eq_ok.mp heq
    cases result with
    | none => cases heq
    | some r =>
      dsimp only at heq
      split at heq
      · exact performSocks5Handshake_unserved heq
      · cases heq
        exact nofun

/-- A session before the forwarding: what it has read, and whether its read has been served. -/
theorem work_of_handshaking (hh : Handshaking s) (hu : Untouched s) :
    s.work = 2 * s.upstream.received.length +
      served (s.upstream.readOp.any fun op => op.got.isSome) + s.stage := by
  simp only [ProxyBridge.work, Pipe.work, hh.clientReadable, hh.clientWritable, hh.destReadable,
    hh.destWritable, hh.upWrite, hh.downRead, hh.downWrite, hu.sent, hu.downReceived, hu.downSent,
    closed, served, if_true, Option.any_none, List.length_nil, Bool.false_eq_true, if_false]
  omega

theorem fruitful_of_handshaking (hh : Handshaking s)
    (hgot : ∀ op ∈ s.upstream.readOp, ∀ x ∈ op.got, x.1 ≠ [] ∨ x.2.failed = true) :
    FruitfulBoth s :=
  ⟨⟨hgot, by simp [hh.upWrite], fun _ => hh.destWritable⟩,
    fruitful_idle hh.downRead hh.downWrite⟩

/-- One event before the request is there is progress. -/
theorem Hearing.work (hh : Hearing env s) (hi : Inv s) (hf : FruitfulBoth s) (hbrings : e.Brings)
    (hs : Bridge.step s env e = some (.ok s')) : s.work + 1 ≤ s'.work ∧ FruitfulBoth s' := by
  cases hh.toHandshaking.early hs with
  | @clientRecv bytes ec h' p' heq hr =>
    subst hr
    obtain ⟨hwork, hf'⟩ := Pipe.recv_work heq hf.up hbrings
    obtain ⟨handler, buffers, hop, -, -, rfl⟩ := Pipe.recv_eq_some heq
    refine ⟨?_, hf', hf.down⟩
    simp only [ProxyBridge.work, ProxyBridge.stage, hwork, hop, Option.isSome_some]
    omega
  | @handshakeRead bufs bytes ec hop hr =>
    rcases hi with ⟨f, g, -, hno⟩ | ⟨f, g, hc, hread⟩
    · cases hno.1 _ hop
    obtain ⟨s₁, heq, -, hp⟩ := socks5HandshakeHandler_spec hc hread hop rfl
    rw [heq] at hr
    cases hr
    have hh' : Handshaking s' := hh.toHandshaking.socks5HandshakeHandler heq
    have hu' : Untouched s' := socks5HandshakeHandler_untouched hh.toUntouched heq
    have hunserved := socks5HandshakeHandler_unserved heq
    refine ⟨?_, fruitful_of_handshaking hh' fun op hop x hx => ?_⟩
    · have hserved : (s'.upstream.readOp.any fun op => op.got.isSome) = false := by
        cases hop' : s'.upstream.readOp with
        | none => rfl
        | some op =>
          rw [Option.any_some, hunserved op hop']
          rfl
      have hstage : s.stage = 0 := by
        rw [ProxyBridge.stage, hh.completed.1, hh.completed.2, hop]
        rfl
      rw [work_of_handshaking hh.toHandshaking hh.toUntouched, work_of_handshaking hh' hu', hserved,
        hstage, hop, hp.received, List.length_append]
      simp only [Option.any_some, Option.isSome_some, served, if_true, Bool.false_eq_true, if_false]
      have hbytes : bytes ≠ [] ∨ ec.failed = true := hf.up.got _ hop _ rfl
      rcases hbytes with hne | hfail
      · have hpos : 0 < bytes.length := List.length_pos_iff.mpr hne
        omega
      · have hstage' : s'.stage = 2 := by
          rw [ProxyBridge.stage, hp.completed.1, hp.completed.2, hh.completed.1, hh.completed.2,
            (hp.cut hfail).2]
          rfl
        omega
    · rw [hunserved op hop] at hx
      cases hx
  | failed hcompletes hr => exact absurd hcompletes hh.not_completes
  | established hcompletes hr => exact absurd hcompletes hh.not_completes

/-- One event after the request is progress. -/
theorem Awaiting.work (hw : Awaiting env cmd a s) (hi : Inv s) (hf : FruitfulBoth s)
    (hs : Bridge.step s env e = some (.ok s')) : s.work + 1 ≤ s'.work ∧ FruitfulBoth s' := by
  have hstage {ec : ErrorCode} {n m : Nat} (hcompletes : Completes s e ec n m) : s.stage = 2 := by
    obtain ⟨-, -, -, hone⟩ := hw.completed hcompletes
    have hzero : s.connected + s.accepted = 0 := by
      cases hcompletes with
      | connect hlt => omega
      | accept hlt => omega
    rw [ProxyBridge.stage, hzero, hw.readOp]
    rfl
  cases hw.toHandshaking.early hs with
  | clientRecv heq hr =>
    rw [Pipe.recv, hw.readOp] at heq
    cases heq
  | handshakeRead hop hr =>
    rw [hw.readOp] at hop
    cases hop
  | @failed _ ec n m hcompletes hr =>
    obtain ⟨-, -, -, hone⟩ := hw.completed hcompletes
    subst hr
    refine ⟨?_, hf.up, hf.down⟩
    rw [ProxyBridge.work, ProxyBridge.work, hstage hcompletes, stage_of_completed hone]
  | @established _ ec n m hcompletes hr =>
    obtain ⟨-, -, -, hone⟩ := hw.completed hcompletes
    unfold Bridge.established at hr
    dsimp only at hr
    split at hr
    · next hsucceeds =>
      have hforward := (hi.completed n m).succeeded hsucceeds
      have hflagged : Flagged s.upstream ∧ Flagged s.downstream :=
        ⟨⟨fun _ => hw.readOp, fun _ => hw.upWrite⟩, ⟨fun _ => hw.downRead, fun _ => hw.downWrite⟩⟩
      obtain ⟨hwork₁, hwork₂, hboth⟩ :=
        forwardTraffic_work hforward hr hflagged.1 hflagged.2 ⟨hf.up, hf.down⟩
      have hstage' : s'.stage = 3 := by
        obtain ⟨h', up, down, rfl⟩ := forwardTraffic_framed hr
        exact stage_of_completed hone
      refine ⟨?_, hboth⟩
      dsimp only at hwork₁ hwork₂
      rw [ProxyBridge.work, ProxyBridge.work, hwork₁, hwork₂, hstage hcompletes, hstage']
    · cases hr
      refine ⟨?_, hf.up, hf.down⟩
      rw [ProxyBridge.work, ProxyBridge.work, hstage hcompletes, stage_of_completed hone]

end Steps

/-! ## Runs -/

section Runs

variable {s : ProxyBridge} {env : Env} {n : Nat}

/-- Every event so far was progress. -/
theorem Busy.work (hb : Busy env n s) : n ≤ s.work ∧ FruitfulBoth s := by
  induction hb with
  | start hf heq =>
    refine ⟨Nat.zero_le _, fruitful_of_handshaking
      ((handshaking_new _ _ _).performSocks5Handshake heq) fun op hop x hx => ?_⟩
    rw [performSocks5Handshake_unserved heq op hop] at hx
    cases hx
  | step hb hbrings hs ih =>
    have hinv := hb.session.reachable.inv
    obtain ⟨hle, hf⟩ := ih
    cases hb.session.phase with
    | hearing hh =>
      obtain ⟨hmore, hf'⟩ := hh.work hinv hf hbrings hs
      exact ⟨by omega, hf'⟩
    | awaiting hw =>
      obtain ⟨hmore, hf'⟩ := hw.work hinv hf hs
      exact ⟨by omega, hf'⟩
    | relayed hr =>
      obtain ⟨hmore, hf'⟩ := hr.work hf hbrings hs
      exact ⟨by omega, hf'⟩

/-- There is no more progress than the bytes that were read allow. -/
theorem Session.work_le (hs : Session env s) :
    s.work ≤ 4 * (s.upstream.received.length + s.downstream.received.length) + 15 := by
  obtain ⟨⟨content, -, hup⟩, ⟨content', -, hdown⟩, -⟩ := streams_preserved hs.reachable
  have hpipe (p : Pipe) (r w : Bool) (hsent : p.sent.length ≤ p.received.length) :
      p.work r w ≤ 4 * p.received.length + 6 := by
    have hserved : ∀ b, served b ≤ 1 := by decide
    have hclosed : ∀ b, closed b ≤ 2 := by decide
    have h₁ := hserved (p.readOp.any fun op => op.got.isSome)
    have h₂ := hserved (p.writeOp.any fun op => op.taken.isSome)
    have h₃ := hclosed r
    have h₄ := hclosed w
    unfold Pipe.work
    omega
  have hlen := congrArg List.length hup
  have hlen' := congrArg List.length hdown
  simp only [List.length_append] at hlen hlen'
  have hwork := hpipe s.upstream s.clientReadable s.destWritable (by omega)
  have hwork' := hpipe s.downstream s.destReadable s.clientWritable (by omega)
  have hstage : s.stage ≤ 3 := by
    unfold ProxyBridge.stage
    split
    · exact Nat.le_refl 3
    · split <;> omega
  unfold ProxyBridge.work
  omega

/-- No read or write is outstanding, and no connection is to come. -/
structure Quiescent (s : ProxyBridge) : Prop where
  upRead : s.upstream.readOp = none
  upWrite : s.upstream.writeOp = none
  downRead : s.downstream.readOp = none
  downWrite : s.downstream.writeOp = none
  connects : connects s.socks5State ≤ s.connected
  accepts : accepts s.socks5State ≤ s.accepted

/-- An outstanding operation can always be served, and its handler then runs. -/
theorem quiescent_of_stuck (h : ∀ e, e.Brings → step s env e = none) : Quiescent s := by
  refine ⟨?_, ?_, ?_, ?_, ?_, ?_⟩
  · cases hop : s.upstream.readOp with
    | none => rfl
    | some op =>
      obtain ⟨handler, buffers, got⟩ := op
      cases got with
      | none =>
        have hstuck := h (.clientRecv [] .eof) (.inr rfl)
        simp [Bridge.step, Pipe.recv, hop] at hstuck
      | some x =>
        have hstuck := h .clientRead trivial
        cases handler <;> simp [Bridge.step, hop] at hstuck
  · cases hop : s.upstream.writeOp with
    | none => rfl
    | some op =>
      obtain ⟨buffers, taken⟩ := op
      cases taken with
      | none =>
        have hstuck := h (.destSend 0 .other) (.inr rfl)
        simp [Bridge.step, Pipe.send, hop] at hstuck
      | some x =>
        have hstuck := h .destWrite trivial
        simp [Bridge.step, hop] at hstuck
  · cases hop : s.downstream.readOp with
    | none => rfl
    | some op =>
      obtain ⟨handler, buffers, got⟩ := op
      cases got with
      | none =>
        have hstuck := h (.destRecv [] .eof) (.inr rfl)
        simp [Bridge.step, Pipe.recv, hop] at hstuck
      | some x =>
        have hstuck := h .destRead trivial
        simp [Bridge.step, hop] at hstuck
  · cases hop : s.downstream.writeOp with
    | none => rfl
    | some op =>
      obtain ⟨buffers, taken⟩ := op
      cases taken with
      | none =>
        have hstuck := h (.clientSend 0 .other) (.inr rfl)
        simp [Bridge.step, Pipe.send, hop] at hstuck
      | some x =>
        have hstuck := h .clientWrite trivial
        simp [Bridge.step, hop] at hstuck
  · have hstuck := h (.connect .success) trivial
    simpa [Bridge.step] using hstuck
  · have hstuck := h (.accept .success) trivial
    simpa [Bridge.step] using hstuck

theorem Quiescent.stuck (hq : Quiescent s) (e : Event) : step s env e = none := by
  have hconnects := hq.connects
  have haccepts := hq.accepts
  cases e with
  | clientRecv bytes ec => simp [Bridge.step, Pipe.recv, hq.upRead]
  | clientSend n ec => simp [Bridge.step, Pipe.send, hq.downWrite]
  | destRecv bytes ec => simp [Bridge.step, Pipe.recv, hq.downRead]
  | destSend n ec => simp [Bridge.step, Pipe.send, hq.upWrite]
  | clientRead => simp [Bridge.step, hq.upRead]
  | clientWrite => simp [Bridge.step, hq.downWrite]
  | destRead => simp [Bridge.step, hq.downRead]
  | destWrite => simp [Bridge.step, hq.upWrite]
  | connect ec =>
    rw [Bridge.step, if_neg (Nat.not_lt.mpr hconnects)]
  | accept ec =>
    rw [Bridge.step, if_neg (Nat.not_lt.mpr haccepts)]

/-- What has become of the bytes from the client when nothing is outstanding. -/
theorem Relayed.quiet {cmd : Byte} {a : Sockaddr} (hr : Relayed env cmd a s) (hq : Quiescent s) :
    ((s.clientReadable = false ∧ s.upstream.received = s.consumed ++ s.upstream.sent ∧
        .destSend ∈ s.shutdowns) ∨
      (s.destWritable = false ∧ .clientReceive ∈ s.shutdowns)) ∧
    ((s.destReadable = false ∧ s.downstream.received = s.downstream.sent ∧
        .clientSend ∈ s.shutdowns) ∨
      (s.clientWritable = false ∧ .destReceive ∈ s.shutdowns)) := by
  obtain ⟨f, g, hc, -⟩ := hr.forwarding
  refine ⟨?_, ?_⟩
  · refine (hr.up.quiet hr.upArmed hq.upRead hq.upWrite).imp_left ?_
    rintro ⟨hreadable, -, hended⟩
    exact ⟨hreadable, (hr.up.ended hended hc.pair hc.up).2.2.2, hended⟩
  · refine (hr.down.quiet hr.downArmed hq.downRead hq.downWrite).imp_left ?_
    rintro ⟨hreadable, -, hended⟩
    exact ⟨hreadable, (hr.down.ended hended hc.pair.symm hc.down).2.2.2, hended⟩

/-- A session comes to its end. The number of its events, each of which brings something, is
bounded by the bytes that the two peers have sent, and nothing can happen any more just when no read
or write is outstanding and no connection is to come. Then the bridge has forwarded nothing and the
handshake did not succeed, or each direction is over: its source has ended, every byte of it has been
written, and its sink was shut down, or a write to its sink has failed, and its source was shut
down. -/
theorem session_completes (hb : Busy env n s) :
    n ≤ 4 * (s.upstream.received.length + s.downstream.received.length) + 15 ∧
    ((∀ e, e.Brings → step s env e = none) ↔ Quiescent s) ∧
    (Quiescent s →
      (Unforwarded s ∧ s.socks5State.state ≠ .kSuccess) ∨
      ((s.clientReadable = false ∧ s.upstream.received = s.consumed ++ s.upstream.sent ∧
          .destSend ∈ s.shutdowns) ∨
        (s.destWritable = false ∧ .clientReceive ∈ s.shutdowns)) ∧
      ((s.destReadable = false ∧ s.downstream.received = s.downstream.sent ∧
          .clientSend ∈ s.shutdowns) ∨
        (s.clientWritable = false ∧ .destReceive ∈ s.shutdowns))) := by
  refine ⟨hb.work.1.trans hb.session.work_le, ⟨quiescent_of_stuck, fun hq e _ => hq.stuck e⟩,
    fun hq => ?_⟩
  cases hb.session.phase with
  | hearing hh =>
    exact .inl ⟨⟨hh.toUntouched, hh.handler, hh.upWrite, hh.downRead, hh.downWrite⟩,
      hh.unasked.state⟩
  | awaiting hw =>
    exact .inl ⟨⟨hw.toUntouched, hw.handler, hw.upWrite, hw.downRead, hw.downWrite⟩, hw.state⟩
  | relayed hr => exact .inr (hr.quiet hq)

instance (e : Event) : Decidable e.Brings := by
  cases e <;> unfold Event.Brings <;> infer_instance

theorem Busy.runEvents {s' : ProxyBridge} {es : List Event} (hb : Busy env n s)
    (hbrings : ∀ e ∈ es, e.Brings) (hrun : Bridge.runEvents env s es = some s') :
    Busy env (n + es.length) s' := by
  induction es generalizing n s with
  | nil =>
    cases hrun
    exact hb
  | cons e es ih =>
    rw [Bridge.runEvents] at hrun
    split at hrun
    · next heq =>
      have hb' := ih (.step hb (hbrings e List.mem_cons_self) heq)
        (fun e' he' => hbrings e' (List.mem_cons_of_mem e he')) hrun
      rwa [List.length_cons, Nat.add_comm es.length 1, ← Nat.add_assoc]
    · cases hrun

/-- Both peers close after the traffic; the destination has sent nothing. -/
theorem session_completes_bothClose :
    ∃ n s, Busy .open n s ∧ s.upstream.sent = [21, 22] ∧
      s.upstream.received = s.consumed ++ s.upstream.sent ∧ .destSend ∈ s.shutdowns := by
  obtain ⟨s₀, s, h₀, hrun, hq, hsent, hwritten⟩ := exists_run .open
    (performSocks5Handshake (.new .empty 0 0))
    [.clientRecv [5, 1, 0, 5, 1] .success, .clientRead,
      .clientRecv [0, 1, 127, 0, 0, 1, 0, 80, 21, 22] .success, .clientRead, .connect .success,
      .clientRecv [] .eof, .clientRead, .destSend 2 .success, .destWrite, .destRecv [] .eof,
      .destRead]
    (fun s => (s.upstream.readOp.isNone ∧ s.upstream.writeOp.isNone ∧
        s.downstream.readOp.isNone ∧ s.downstream.writeOp.isNone ∧
        connects s.socks5State ≤ s.connected ∧ accepts s.socks5State ≤ s.accepted) ∧
      s.upstream.sent = [21, 22] ∧ .clientReceive ∉ s.shutdowns) (by decide +kernel)
  simp only [Option.isNone_iff_eq_none] at hq
  obtain ⟨h₁, h₂, h₃, h₄, h₅, h₆⟩ := hq
  have hb : Busy .open (0 + _) s := (Busy.start fresh_empty h₀).runEvents (by decide) hrun
  refine ⟨_, s, hb, hsent, ?_⟩
  rcases (session_completes hb).2.2 ⟨h₁, h₂, h₃, h₄, h₅, h₆⟩ with ⟨hno, -⟩ |
    ⟨⟨-, hreceived, hshut⟩ | ⟨-, hshut⟩, -⟩
  · rw [hno.1.sent] at hsent
    cases hsent
  · exact ⟨hreceived, hshut⟩
  · exact absurd hshut hwritten

end Runs

end Bridge
end Proxy
end TrustedCa
