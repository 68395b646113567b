import TrustedCa.Proxy.BridgeFlow

/-!
# What the bridge guarantees: buffer discipline, half-closes and progress

* `buffer_discipline`: no assertion of a buffer fails in any run, and while the bridge forwards its
  flags are those of the buffers.
* `half_close_safe`: a peer is shut down for sending when all bytes of the other one have been
  written to it, and nothing is written to it afterwards.
* `no_stall`: a direction without an outstanding operation has either come to its end or failed.
-/

namespace TrustedCa
namespace Proxy
namespace Bridge

open Buffer (BasicBuffer Chan Fault Fifo Heap Pair)

section Discipline

variable {s s' : ProxyBridge} {env : Env}

theorem Forwarded.reachable (hr : Forwarded env s) : Reachable env s := by
  induction hr with
  | start hf heq => exact .forward hf heq
  | first hr hs _ => exact hr.step hs
  | step _ hs ih => exact ih.step hs

theorem Reachable.core (hr : Reachable env s) : ∃ f g, Core s f g := by
  rcases hr.inv with ⟨f, g, hc, -⟩ | ⟨f, g, hc, -⟩
  · exact ⟨f, g, hc⟩
  · exact ⟨f, g, hc⟩

/-- The flags of a buffer say which operations are outstanding on it. -/
theorem buffer_flags {h : Heap} {p : Pipe} {d : Chan} {f g : Fifo}
    (hp : Pair blockSize h p.chan d f g) :
    p.buff.reserved = p.readOp.isSome ∧ p.buff.peeked = p.writeOp.isSome := by
  obtain ⟨_, _, _, _, _, _, hrep, -⟩ := hp
  refine ⟨hrep.reserved.trans ?_, hrep.peeked.trans ?_⟩
  · exact Option.isSome_map
  · exact Option.isSome_map

/-- The discipline of the buffers: a bridge starts and every handler runs without a failed assertion,
a buffer has a `Reserve` outstanding just when a read is and a `Peek` just when a write is, and while
the bridge forwards, `reading_client_`, `writing_dest_`, `reading_dest_` and `writing_client_` are
the flags of the two buffers. -/
theorem buffer_discipline (env : Env) :
    (∀ h i j, h.Fresh i j →
      (∃ s, performSocks5Handshake (.new h i j) = .ok s) ∧
      ∃ s, forwardTraffic (.new h i j) = .ok s) ∧
    (∀ s, Reachable env s →
      (∀ e r, step s env e = some r → ∃ s', r = .ok s') ∧
      s.upstream.buff.reserved = s.upstream.readOp.isSome ∧
      s.upstream.buff.peeked = s.upstream.writeOp.isSome ∧
      s.downstream.buff.reserved = s.downstream.readOp.isSome ∧
      s.downstream.buff.peeked = s.downstream.writeOp.isSome) ∧
    ∀ s, Forwarded env s →
      s.upstream.reading = s.upstream.buff.reserved ∧
      s.upstream.writing = s.upstream.buff.peeked ∧
      s.downstream.reading = s.downstream.buff.reserved ∧
      s.downstream.writing = s.downstream.buff.peeked := by
  refine ⟨fun h i j hf => ⟨?_, ?_⟩, fun s hr => ⟨?_, ?_⟩, fun s hr => ?_⟩
  · obtain ⟨s, heq, -⟩ := performSocks5Handshake_new hf
    exact ⟨s, heq⟩
  · obtain ⟨s, heq, -⟩ := forwardTraffic_new hf
    exact ⟨s, heq⟩
  · intro e r hs
    obtain ⟨s', heq, -⟩ := step_spec hr.inv hs
    exact ⟨s', heq⟩
  · obtain ⟨f, g, hc⟩ := hr.core
    obtain ⟨hup₁, hup₂⟩ := buffer_flags hc.pair
    obtain ⟨hdown₁, hdown₂⟩ := buffer_flags hc.pair.symm
    exact ⟨hup₁, hup₂, hdown₁, hdown₂⟩
  · obtain ⟨f, g, hc⟩ := hr.reachable.core
    obtain ⟨hup₁, hup₂⟩ := buffer_flags hc.pair
    obtain ⟨hdown₁, hdown₂⟩ := buffer_flags hc.pair.symm
    have hflow := hr.flowing
    exact ⟨hflow.up.reading.trans hup₁.symm, hflow.up.writing.trans hup₂.symm,
      hflow.down.reading.trans hdown₁.symm, hflow.down.writing.trans hdown₂.symm⟩

theorem Forwarded.runEvents {es : List Event} (hr : Forwarded env s)
    (hrun : Bridge.runEvents env s es = some s') : Forwarded env s' := by
  induction es generalizing s with
  | nil =>
    cases hrun
    exact hr
  | cons e es ih =>
    rw [Bridge.runEvents] at hrun
    split at hrun
    · next heq => exact ih (hr.step heq) hrun
    · cases hrun

/-- A run between two open sockets, from a memory without blocks. -/
theorem exists_forwarded (es : List Event) (P : ProxyBridge → Prop) [DecidablePred P]
    (hrun : ((forwardTraffic (.new .empty 0 0)).toOption.bind fun s =>
      Bridge.runEvents .open s es).any (fun s => P s)) : ∃ s, Forwarded .open s ∧ P s := by
  obtain ⟨s₀, s, hstart, hrun₀, hP⟩ := exists_run .open _ es P hrun
  exact ⟨s, (Forwarded.start fresh_empty hstart).runEvents hrun₀, hP⟩

/-- Two bytes are read and being written, while the next read is outstanding. -/
theorem buffer_discipline_writing :
    ∃ s, Forwarded .open s ∧ s.upstream.reading = true ∧ s.upstream.writing = true ∧
      s.upstream.reading = s.upstream.buff.reserved ∧
      s.upstream.writing = s.upstream.buff.peeked ∧
      s.downstream.reading = s.downstream.buff.reserved ∧
      s.downstream.writing = s.downstream.buff.peeked := by
  obtain ⟨s, hr, hreading, hwriting⟩ := exists_forwarded
    [.clientRecv [1, 2] .success, .clientRead]
    (fun s => s.upstream.reading = true ∧ s.upstream.writing = true) (by decide +kernel)
  exact ⟨s, hr, hreading, hwriting, (buffer_discipline .open).2.2 s hr⟩

end Discipline

/-! ## Half-closes -/

section HalfClose

variable {s s' : ProxyBridge} {env : Env}

/-- What a run of events keeps while the bridge forwards. -/
theorem Flowing.runEvents {es : List Event} (hflow : Flowing s)
    (hrun : Bridge.runEvents env s es = some s') : Flowing s' ∧ Onward s s' := by
  induction es generalizing s with
  | nil =>
    cases hrun
    exact ⟨hflow, .refl _⟩
  | cons e es ih =>
    rw [Bridge.runEvents] at hrun
    split at hrun
    · next hs =>
      obtain ⟨s₁, heq, hflow₁, honward⟩ := hflow.step hs
      cases heq
      obtain ⟨hflow', honward'⟩ := ih hflow₁ hrun
      exact ⟨hflow', honward.trans honward'⟩
    · cases hrun

/-- A shut-down sink has got all bytes, and nothing is being written to it. -/
theorem Flow.ended {p : Pipe} {readable writable : Bool} {ended broken : Prop} {h : Heap} {d : Chan}
    {f g : Fifo} {pre : List Byte} (hf : Flow p readable writable ended broken) (hended : ended)
    (hp : Pair blockSize h p.chan d f g) (hi : PipeInv p pre f) :
    readable = false ∧ p.readOp = none ∧ p.writeOp = none ∧ p.received = pre ++ p.sent := by
  obtain ⟨hreadable, hempty⟩ := hf.flushed.mp hended
  have hsize : p.buff.dataSize = f.queue.length := hp.size
  have hqueue : f.queue = [] := by
    rw [hempty] at hsize
    exact List.eq_nil_of_length_eq_zero hsize.symm
  refine ⟨hreadable, hf.unread hreadable, ?_, ?_⟩
  · by_contra hne
    have hpos := hf.nonempty (Option.isSome_iff_ne_none.mpr hne)
    rw [hempty] at hpos
    exact absurd hpos (Nat.lt_irrefl 0)
  · rw [hi.stream, hqueue, List.append_nil]

/-- Half-closes are safe. Once a peer has been shut down for sending, the other one is no longer
read, all the bytes ever read from that one and not consumed by the handshake have been written, and
however the run goes on, no write to the peer is outstanding again and the handshake sends the client
nothing more. -/
theorem half_close_safe (hr : Reachable env s) :
    (.destSend ∈ s.shutdowns →
      s.clientReadable = false ∧ s.upstream.readOp = none ∧
      s.upstream.received = s.consumed ++ s.upstream.sent ∧
      ∀ es s', runEvents env s es = some s' → s'.upstream.writeOp = none) ∧
    (.clientSend ∈ s.shutdowns →
      s.destReadable = false ∧ s.downstream.readOp = none ∧
      s.downstream.received = s.downstream.sent ∧
      ∀ es s', runEvents env s es = some s' →
        s'.downstream.writeOp = none ∧ s'.socks5State.calls = s.socks5State.calls) := by
  rcases hr.phase with hflow | hh
  · obtain ⟨f, g, hc, -⟩ := hflow.forwarding
    refine ⟨fun hended => ?_, fun hended => ?_⟩
    · obtain ⟨hreadable, hread, -, hreceived⟩ := hflow.up.ended hended hc.pair hc.up
      refine ⟨hreadable, hread, hreceived, fun es s' hrun => ?_⟩
      obtain ⟨hflow', honward⟩ := hflow.runEvents hrun
      obtain ⟨f', g', hc', -⟩ := hflow'.forwarding
      exact (hflow'.up.ended (honward.shutdowns.subset hended) hc'.pair hc'.up).2.2.1
    · obtain ⟨hreadable, hread, -, hreceived⟩ := hflow.down.ended hended hc.pair.symm hc.down
      refine ⟨hreadable, hread, hreceived, fun es s' hrun => ?_⟩
      obtain ⟨hflow', honward⟩ := hflow.runEvents hrun
      obtain ⟨f', g', hc', -⟩ := hflow'.forwarding
      have hended' := hflow'.down.ended (honward.shutdowns.subset hended) hc'.pair.symm hc'.down
      exact ⟨hended'.2.2.1, honward.calls⟩
  · rw [hh.shutdowns]
    exact ⟨nofun, nofun⟩

/-- The client sends a byte and closes; the byte is written after the end of file was read. -/
theorem half_close_safe_lastByte :
    ∃ s, Reachable .open s ∧ .destSend ∈ s.shutdowns ∧ s.upstream.sent = [7] ∧
      s.upstream.received = s.consumed ++ s.upstream.sent := by
  obtain ⟨s, hr, hended, hsent⟩ := exists_forwarded
    [.clientRecv [7] .success, .clientRead, .clientRecv [] .eof, .clientRead, .destSend 1 .success,
      .destWrite]
    (fun s => .destSend ∈ s.shutdowns ∧ s.upstream.sent = [7]) (by decide +kernel)
  exact ⟨s, hr.reachable, hended, hsent, ((half_close_safe hr.reachable).1 hended).2.2.1⟩

end HalfClose

/-! ## Progress -/

section Progress

variable {s : ProxyBridge} {env : Env}

/-- A direction on which nothing is outstanding. -/
theorem Flow.quiet {p : Pipe} {readable writable : Bool} {ended broken : Prop}
    (hf : Flow p readable writable ended broken) (ha : Armed p readable writable)
    (hread : p.readOp = none) (hwrite : p.writeOp = none) :
    (readable = false ∧ p.buff.dataSize = 0 ∧ ended) ∨ (writable = false ∧ broken) := by
  have hended : ended → readable = false ∧ p.buff.dataSize = 0 ∧ ended := fun h =>
    ⟨(hf.flushed.mp h).1, (hf.flushed.mp h).2, h⟩
  cases hwritable : writable with
  | false =>
    rcases hf.cut hwritable with hbroken | h
    · exact .inr ⟨rfl, hbroken⟩
    · exact .inl (hended h)
  | true =>
    refine .inl (hended (hf.flushed.mpr ⟨?_, ?_⟩))
    · by_contra hne
      have := ha.read (Bool.eq_true_of_not_eq_false hne) hwritable
      simp [hread, hwrite] at this
    · by_contra hne
      have := ha.write (Nat.pos_of_ne_zero hne) hwritable
      simp [hwrite] at this

/-- Nothing stalls. After `ForwardTraffic` has run, a write is outstanding on every direction with
data and a writable sink, and a read or a write on every direction with a readable source and a
writable sink. So a direction without outstanding operations has its source ended, its buffer empty
and its sink shut down, or its sink is not writable because a write has failed. -/
theorem no_stall (hr : Forwarded env s) :
    (0 < s.upstream.buff.dataSize → s.destWritable = true → s.upstream.writeOp.isSome = true) ∧
    (s.clientReadable = true → s.destWritable = true →
      s.upstream.readOp.isSome = true ∨ s.upstream.writeOp.isSome = true) ∧
    (0 < s.downstream.buff.dataSize → s.clientWritable = true →
      s.downstream.writeOp.isSome = true) ∧
    (s.destReadable = true → s.clientWritable = true →
      s.downstream.readOp.isSome = true ∨ s.downstream.writeOp.isSome = true) ∧
    (s.upstream.readOp = none → s.upstream.writeOp = none →
      (s.clientReadable = false ∧ s.upstream.buff.dataSize = 0 ∧ .destSend ∈ s.shutdowns) ∨
      (s.destWritable = false ∧ .clientReceive ∈ s.shutdowns)) ∧
    (s.downstream.readOp = none → s.downstream.writeOp = none →
      (s.destReadable = false ∧ s.downstream.buff.dataSize = 0 ∧ .clientSend ∈ s.shutdowns) ∨
      (s.clientWritable = false ∧ .destReceive ∈ s.shutdowns)) := by
  have hflow := hr.flowing
  exact ⟨hflow.upArmed.write, hflow.upArmed.read, hflow.downArmed.write, hflow.downArmed.read,
    hflow.up.quiet hflow.upArmed, hflow.down.quiet hflow.downArmed⟩

/-- The client's byte cannot be written; the destination closes. -/
theorem no_stall_broken :
    ∃ s, Forwarded .open s ∧ s.upstream.readOp = none ∧ s.downstream.readOp = none ∧
      ((s.clientReadable = false ∧ s.upstream.buff.dataSize = 0 ∧ .destSend ∈ s.shutdowns) ∨
        (s.destWritable = false ∧ .clientReceive ∈ s.shutdowns)) ∧
      ((s.destReadable = false ∧ s.downstream.buff.dataSize = 0 ∧ .clientSend ∈ s.shutdowns) ∨
        (s.clientWritable = false ∧ .destReceive ∈ s.shutdowns)) := by
  obtain ⟨s, hr, ⟨hup, hup'⟩, hdown, hdown'⟩ := exists_forwarded
    [.clientRecv [7] .success, .clientRead, .destSend 0 .other, .destWrite, .clientRecv [] .eof,
      .clientRead, .destRecv [] .eof, .destRead]
    (fun s => (s.upstream.readOp.isNone = true ∧ s.upstream.writeOp.isNone = true) ∧
      s.downstream.readOp.isNone = true ∧ s.downstream.writeOp.isNone = true) (by decide +kernel)
  simp only [Option.isNone_iff_eq_none] at hup hup' hdown hdown'
  obtain ⟨-, -, -, -, hquiet, hquiet'⟩ := no_stall hr
  exact ⟨s, hr, hup, hdown, hquiet hup hup', hquiet' hdown hdown'⟩

end Progress

end Bridge
end Proxy
end TrustedCa
