import TrustedCa.Proxy.BridgeStreams
import TrustedCa.Proxy.Reservation

/-!
# The size that a handshake waits for

Every case of `Proceed` writes out how many bytes it copies, and `required_size_` says in advance
how many it needs. `Reached` are the states of a `Socks5State` after any calls of `Proceed` and
`ConnectionSucceed`: in all of them the two agree, so no `CopyOut` is short, and a transition takes
`required_size_` bytes off the buffer or none.

`recorded` is a buffer that keeps a record of its `CopyOut`s, with the size asked for and the number
of bytes copied.
-/

namespace TrustedCa
namespace Proxy
namespace Socks5

open Bridge (Fed bufferSource)
open Buffer (Fault GroupRun Group Heap Member SysBuf)
open Spec

/-- A buffer with a record of its `CopyOut`s. -/
def recorded {m : Type → Type} [Monad m] {β : Type} (S : Source m β) :
    Source m (β × List (Nat × Nat)) where
  dataSize st := S.dataSize st.1
  copyOut st n := do
    let (bytes, b) ← S.copyOut st.1 n
    return (bytes, b, st.2 ++ [(n, bytes.length)])

/-- A run without its record. -/
def forget {β : Type} (r : Bool × Run (β × List (Nat × Nat))) : Bool × Run β :=
  (r.1, ⟨r.2.ctl, r.2.buffer.1⟩)

/-- The states after any calls, on any buffers and with any callbacks. -/
inductive Reached : Ctl → Prop
  | start : Reached {}
  | proceed {c c' : Ctl} {st st' : Fed} {more : Bool} (cb : Callbacks) : Reached c →
    proceed bufferSource cb ⟨c, st⟩ = .ok (more, ⟨c', st'⟩) → Reached c'
  | connectionSucceed {c : Ctl} (cb : Callbacks) : Reached c → Reached (connectionSucceed cb c).2

section Recorded

variable {ε β : Type} {S : Source (Except ε) β} {R : β → List Byte → Prop} {cb : Callbacks} {c : Ctl}
  {b : β} {q : List Byte}

/-- The record changes nothing. -/
theorem proceed_recorded (log : List (Nat × Nat)) :
    proceed S cb ⟨c, b⟩ = forget <$> proceed (recorded S) cb ⟨c, b, log⟩ := by
  unfold proceed
  by_cases hlt : S.dataSize b < c.requiredSize
  · simp only [insufficientBuffer, recorded, hlt, decide_true, if_true]
    rfl
  · simp only [insufficientBuffer, recorded, hlt, decide_false, Bool.false_eq_true, if_false]
    cases c.state <;> simp only [map_bind, bind_assoc, pure_bind, map_pure] <;> rfl

/-- A transition leaves a well-formed state, whatever its `CopyOut`s answer. -/
theorem proceed_wf {c' : Ctl} {b' : β} {more : Bool} (hw : c.Wf)
    (heq : proceed S cb ⟨c, b⟩ = .ok (more, ⟨c', b'⟩)) : c'.Wf := by
  unfold proceed at heq
  split at heq
  · cases heq
    exact hw
  · cases hs : c.state <;> simp only [hs] at heq
    case kGreetingHeader =>
      obtain ⟨⟨x, b₁⟩, -, heq⟩ := bind_eq_ok.mp heq
      cases heq
      exact (moved_onGreetingHeader hs).1
    case kGreetingMethods =>
      obtain ⟨⟨x, b₁⟩, -, heq⟩ := bind_eq_ok.mp heq
      cases heq
      exact (moved_onGreetingMethods hs).1
    case kRequestHeader =>
      obtain ⟨⟨x, b₁⟩, -, heq⟩ := bind_eq_ok.mp heq
      cases heq
      exact (moved_onRequestHeader hs).1
    case kRequestAddrV4 | kRequestAddrV6 =>
      obtain ⟨⟨x, b₁⟩, -, heq⟩ := bind_eq_ok.mp heq
      obtain ⟨⟨y, b₂⟩, -, heq⟩ := bind_eq_ok.mp heq
      cases heq
      exact (moved_onRequestAddr (by simp [hs, HandshakeState.rank]) _).1
    case kRequestBind =>
      obtain ⟨⟨x, b₁⟩, -, heq⟩ := bind_eq_ok.mp heq
      obtain ⟨⟨y, b₂⟩, -, heq⟩ := bind_eq_ok.mp heq
      cases heq
      exact (moved_onRequestBind (c := c) _).1
    case kResponse =>
      cases heq
      exact (moved_onResponse hs).1
    case kFail =>
      cases heq
      trivial
    all_goals
      cases heq
      exact hw

theorem Reached.wf (hc : Reached c) : c.Wf := by
  induction hc with
  | start => rfl
  | proceed cb _ heq ih => exact proceed_wf ih heq
  | connectionSucceed cb _ _ => exact connectionSucceed_wf cb _

/-- A transition that is decided by one `CopyOut` of bytes that are there. -/
theorem Simulates.recorded_one (hS : Simulates S R) (hR : R b q) {n : Nat} (hn : n ≤ q.length)
    (d : List Byte → Bool × Ctl) :
    ∃ b', (do let (x, buffer) ← (recorded S).copyOut (b, []) n; return decided (d x) buffer)
        = Except.ok (decided (d (q.take n)) (b', [(n, n)])) ∧ R b' (q.drop n) := by
  obtain ⟨b', heq, hR'⟩ := hS.copyOut n hR
  refine ⟨b', ?_, hR'⟩
  simp only [recorded, heq, bind, Except.bind, pure, Except.pure, List.length_take,
    Nat.min_eq_left hn, List.nil_append]

/-- A transition that is decided by two `CopyOut`s of bytes that are there. -/
theorem Simulates.recorded_two (hS : Simulates S R) (hR : R b q) {n k : Nat}
    (hn : n + k ≤ q.length) (d : List Byte → List Byte → Bool × Ctl) :
    ∃ b', (do
        let (x, buffer) ← (recorded S).copyOut (b, []) n
        let (y, buffer) ← (recorded S).copyOut buffer k
        return decided (d x y) buffer)
        = Except.ok (decided (d (q.take n) ((q.drop n).take k)) (b', [(n, n), (k, k)])) ∧
      R b' (q.drop (n + k)) := by
  obtain ⟨b₁, heq₁, hR₁⟩ := hS.copyOut n hR
  obtain ⟨b', heq, hR'⟩ := hS.copyOut k hR₁
  rw [List.drop_drop] at hR'
  have hfirst : min n q.length = n := Nat.min_eq_left (by omega)
  have hsecond : min k (q.length - n) = k := Nat.min_eq_left (by omega)
  refine ⟨b', ?_, hR'⟩
  simp only [recorded, heq₁, heq, bind, Except.bind, pure, Except.pure, List.length_take,
    List.length_drop, hfirst, hsecond, List.nil_append, List.cons_append]

/-- A transition that passes the size check: no `CopyOut` is short. -/
theorem Simulates.proceed_recorded (cb : Callbacks) (hS : Simulates S R) (hR : R b q) (hw : c.Wf)
    (hs : c.requiredSize ≤ q.length) :
    ∃ more c' b' log, Socks5.proceed (recorded S) cb ⟨c, b, []⟩ = .ok (more, ⟨c', b', log⟩) ∧
      (∀ x ∈ log, x.2 = x.1) ∧ R b' (q.drop c.need) := by
  have hsize : ¬ (recorded S).dataSize (b, []) < c.requiredSize := by
    show ¬ S.dataSize b < c.requiredSize
    rw [hS.dataSize hR]
    omega
  unfold Socks5.proceed
  simp only [insufficientBuffer, hsize, decide_false, Bool.false_eq_true, if_false]
  have hone : ∀ n : Nat, ∀ x ∈ [(n, n)], x.2 = x.1 := by simp
  have htwo : ∀ n k : Nat, ∀ x ∈ [(n, n), (k, k)], x.2 = x.1 := by simp
  unfold Ctl.Wf at hw
  cases hst : c.state <;> simp only [hst] at hw <;> simp only [Ctl.need, hst]
  case kGreetingHeader =>
    obtain ⟨b', heq, hR'⟩ := hS.recorded_one hR (by omega : 2 ≤ q.length) (onGreetingHeader c)
    exact ⟨_, _, b', _, heq, hone 2, hw ▸ hR'⟩
  case kGreetingMethods =>
    obtain ⟨b', heq, hR'⟩ := hS.recorded_one hR hs (onGreetingMethods cb c)
    exact ⟨_, _, b', _, heq, hone _, hR'⟩
  case kRequestHeader =>
    obtain ⟨b', heq, hR'⟩ := hS.recorded_one hR (by omega : 4 ≤ q.length) (onRequestHeader c)
    exact ⟨_, _, b', _, heq, hone 4, hw ▸ hR'⟩
  case kRequestAddrV4 =>
    obtain ⟨b', heq, hR'⟩ := hS.recorded_two hR (by omega : 4 + 2 ≤ q.length)
      fun a p => onRequestAddr cb c (.inet (arrayOf 4 a) (arrayOf 2 p))
    exact ⟨_, _, b', _, heq, htwo 4 2, hw ▸ hR'⟩
  case kRequestAddrV6 =>
    obtain ⟨b', heq, hR'⟩ := hS.recorded_two hR (by omega : 16 + 2 ≤ q.length)
      fun a p => onRequestAddr cb c (.inet6 (arrayOf 16 a) (arrayOf 2 p))
    exact ⟨_, _, b', _, heq, htwo 16 2, hw ▸ hR'⟩
  case kRequestBind =>
    have hsum : c.requiredSize - 2 + 2 = c.requiredSize := by omega
    obtain ⟨b', heq, hR'⟩ := hS.recorded_two hR (by omega : c.requiredSize - 2 + 2 ≤ q.length)
      fun _ p => onRequestBind cb c (ntohs (arrayOf 2 p))
    exact ⟨_, _, b', _, heq, htwo _ 2, hsum ▸ hR'⟩
  all_goals exact ⟨_, _, b, [], rfl, by simp, hR⟩

end Recorded

/-- The buffer holds the queue `q`. What was copied out of it and `q` are the stream. -/
def Holds (stream : List Byte) (st : Fed) (q : List Byte) : Prop :=
  st.consumed ++ q = stream ∧ ∃ region f full rest free others, f.queue = q ∧
    Buffer.Rep Bridge.blockSize ⟨st.heap, st.buff, region, none⟩ f full rest free others

theorem bufferSource_holds (stream : List Byte) : Simulates bufferSource (Holds stream) where
  dataSize hR := by
    obtain ⟨-, region, f, full, rest, free, others, rfl, hr⟩ := hR
    exact hr.size
  copyOut {st q} n hR := by
    obtain ⟨hstream, region, f, full, rest, free, others, rfl, hr⟩ := hR
    obtain ⟨h', b', full', free', heq, -, -, hr'⟩ := Bridge.bufferSource_copyOut n hr
    refine ⟨_, heq, ?_, region, _, full', rest, free', others, rfl, hr'⟩
    rw [List.append_assoc, List.take_append_drop]
    exact hstream

/-- What one `Proceed` does in the state `c` with the buffer `b`, of which it takes `n` bytes. -/
def Takes (cb : Callbacks) (c : Ctl) (h : Heap) (b : Buffer.BasicBuffer) (n : Nat) : Prop :=
  ∃ more c' st log, proceed bufferSource cb ⟨c, h, b, []⟩ = .ok (more, ⟨c', st⟩) ∧
    proceed (recorded bufferSource) cb ⟨c, ⟨h, b, []⟩, []⟩ = .ok (more, ⟨c', st, log⟩) ∧
    (∀ x ∈ log, x.2 = x.1) ∧ st.consumed.length = n ∧
    ∃ content, Buffer.contents h b = .ok (st.consumed ++ content) ∧
      Buffer.contents st.heap st.buff = .ok content

section Required

variable {c : Ctl} {i : Nat} {h₀ : Heap} {g : Group} {m : Member} {cb : Callbacks}

/-- A buffer of a run, as `Proceed` gets it. -/
theorem holds_of_run (hrun : GroupRun Bridge.blockSize i h₀ g) (hm : m ∈ g.members)
    (hpeeked : m.chan.buf.peeked = false) :
    Holds m.queue.queue ⟨g.heap, m.chan.buf, []⟩ m.queue.queue := by
  obtain ⟨full, rest, free, others, hr⟩ := hrun.rep hm
  have hview : m.chan.view = none := hr.view_none hpeeked
  have hat : m.chan.at g.heap = ⟨g.heap, m.chan.buf, m.chan.region, none⟩ := by
    rw [Buffer.Chan.at, hview]
  rw [hat] at hr
  exact ⟨rfl, m.chan.region, m.queue, full, rest, free, others, rfl, hr⟩

/-- What a buffer that holds a queue shows. -/
theorem Holds.contents_eq {stream q : List Byte} {st : Fed} (hR : Holds stream st q) :
    Buffer.contents st.heap st.buff = .ok q := by
  obtain ⟨-, region, f, full, rest, free, others, rfl, hr⟩ := hR
  exact hr.contents_eq

/-- In every state that a handshake reaches, the required size is the one of its state; and a
`Proceed` with any callbacks on any buffer that is not peeked takes the required size off it if it
is there and the state reads bytes, else nothing, without a short `CopyOut`. -/
theorem requiredSize_invariant (hc : Reached c) :
    c.Wf ∧ (c.state = .kRequestBind → 2 ≤ c.requiredSize) ∧
    ∀ (cb : Callbacks) (i : Nat) (h₀ : Heap) (g : Group) (m : Member),
      GroupRun Bridge.blockSize i h₀ g → m ∈ g.members → m.chan.buf.peeked = false →
      Takes cb c g.heap m.chan.buf
        (if m.chan.buf.dataSize < c.requiredSize then 0 else c.need) := by
  have hw := hc.wf
  refine ⟨hw, ?_, ?_⟩
  · intro hs
    simp only [Ctl.Wf, hs] at hw
    omega
  · intro cb i h₀ g m hrun hm hpeeked
    have hR := holds_of_run hrun hm hpeeked
    have hsize : m.chan.buf.dataSize = m.queue.queue.length :=
      (bufferSource_holds m.queue.queue).dataSize hR
    split
    · next hlt =>
      have hshort : insufficientBuffer bufferSource ⟨c, g.heap, m.chan.buf, []⟩ = true :=
        decide_eq_true hlt
      have hshort' : insufficientBuffer (recorded bufferSource)
          ⟨c, ⟨g.heap, m.chan.buf, []⟩, []⟩ = true := decide_eq_true hlt
      refine ⟨false, c, ⟨g.heap, m.chan.buf, []⟩, [], ?_, ?_, by simp, rfl, m.queue.queue,
        hR.contents_eq, hR.contents_eq⟩
      · rw [proceed, if_pos hshort]
        rfl
      · rw [proceed, if_pos hshort']
        rfl
    · next hge =>
      have hle : c.requiredSize ≤ m.queue.queue.length := by omega
      obtain ⟨more, c', st, log, heq, hlog, hR'⟩ :=
        (bufferSource_holds m.queue.queue).proceed_recorded cb hR hw hle
      have hstream := hR'.1
      have hlen := congrArg List.length hstream
      rw [List.length_append, List.length_drop] at hlen
      have hneed := c.need_le
      refine ⟨more, c', st, log, ?_, heq, hlog, by omega, _, ?_, hR'.contents_eq⟩
      · rw [Socks5.proceed_recorded [], heq]
        rfl
      · rw [hstream]
        exact hR.contents_eq

/-- The loop of the bridge goes through such states only. -/
theorem Reached.proceedLoop {c' : Ctl} {st st' : Fed} {n : Nat} (hc : Reached c)
    (heq : proceedLoop bufferSource cb n ⟨c, st⟩ = .ok (some ⟨c', st'⟩)) : Reached c' := by
  induction n generalizing c st with
  | zero => cases heq
  | succ n ih =>
    rw [Socks5.proceedLoop] at heq
    split at heq
    · cases heq
      exact hc
    · obtain ⟨⟨more, c₁, st₁⟩, hproceed, heq⟩ := bind_eq_ok.mp heq
      have hc₁ := hc.proceed cb hproceed
      cases more with
      | true => exact ih hc₁ heq
      | false =>
        cases heq
        exact hc₁

/-- The state after the greeting and the header of a BIND request with an IPv4 address. -/
theorem reached_requestBind : ∃ c, Reached c ∧ c.state = .kRequestBind ∧ c.requiredSize = 6 := by
  have hrun : ((Buffer.copyIn Bridge.blockSize Heap.empty { freelist := 0 }
      [5, 1, 0, 5, 2, 0, 1]).toOption.bind fun st =>
        (Socks5.proceedLoop bufferSource Bridge.Env.open.callbacks 4
          ⟨{}, st.1, st.2, []⟩).toOption.bind id).any
      fun r => r.ctl.state = .kRequestBind ∧ r.ctl.requiredSize = 6 := by
    decide +kernel
  obtain ⟨⟨c, st⟩, hr, hfacts⟩ := (Option.any_eq_true _ _).mp hrun
  obtain ⟨⟨h, b⟩, -, hr⟩ := Option.bind_eq_some_iff.mp hr
  obtain ⟨_, hloop, rfl⟩ := Option.bind_eq_some_iff.mp hr
  exact ⟨c, Reached.start.proceedLoop (toOption_eq_some.mp hloop), of_decide_eq_true hfacts⟩

/-- The `Proceed` of a BIND request takes the address and the port off the buffer, and leaves the
byte behind them. -/
theorem requiredSize_invariant_requestBind :
    ∃ c g m, Reached c ∧ c.state = .kRequestBind ∧ GroupRun Bridge.blockSize 0 Heap.empty g ∧
      m ∈ g.members ∧ m.chan.buf.dataSize = 7 ∧
      Takes Bridge.Env.open.callbacks c g.heap m.chan.buf 6 := by
  obtain ⟨c, hc, hstate, hrequired⟩ := reached_requestBind
  have hnew : GroupRun Bridge.blockSize 0 Heap.empty ⟨Heap.empty, [.new 0]⟩ :=
    (GroupRun.start rfl).construct
  obtain ⟨answer, s, hcall, hsize, hpeeked⟩ :
      ∃ answer s, Buffer.exec Bridge.blockSize ((Member.new 0).chan.at Heap.empty)
        (.copyIn [0, 0, 0, 0, 0, 80, 21]) = .ok (answer, s) ∧ s.buf.dataSize = 7 ∧
        s.buf.peeked = false :=
    ⟨_, _, rfl, rfl, rfl⟩
  have hlegal : (Member.new 0).queue.Legal (.copyIn [0, 0, 0, 0, 0, 80, 21]) := ⟨rfl, by decide⟩
  have hrun := @GroupRun.call _ _ _ _ [] [] _ _ _ _ hnew hlegal hcall
  refine ⟨c, _, _, hc, hstate, hrun, List.mem_singleton.mpr rfl, hsize, ?_⟩
  have htakes := (requiredSize_invariant hc).2.2 Bridge.Env.open.callbacks _ _ _ _ hrun
    (List.mem_singleton.mpr rfl) hpeeked
  have hlarge : ¬ s.chan.buf.dataSize < c.requiredSize := by
    show ¬ s.buf.dataSize < c.requiredSize
    omega
  rw [if_neg hlarge] at htakes
  rwa [Ctl.need, hstate, hrequired] at htakes

end Required

end Socks5
end Proxy
end TrustedCa
