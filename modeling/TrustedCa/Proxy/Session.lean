import TrustedCa.Proxy.FailedHandshake

/-!
# A session of the bridge

A session is a run of a bridge that `PerformSocks5Handshake` has started, with any reads, writes,
connections and errors, in any order.

* `asked env cmd a`: the handshake once it has read a whole request. `finish_heard`: a loop over the
  bytes of a client ends there, or it has dialled nothing.
* `Phase`: the handshake still listens (`Hearing`), the request is read and its connection is not
  there (`Awaiting`), or the bridge forwards (`Relayed`).
* `forwards_requested`: nothing is dialled but what a whole request asks for, and nothing is
  forwarded but what comes after it, once its connection is there.
-/

namespace TrustedCa
namespace Proxy
namespace Bridge

open Buffer (Fault Heap SysBuf)
open Socks5 (Call Ctl Greets Greeting HandshakeState Request)
open Spec

/-- The states of a bridge that was started with `PerformSocks5Handshake`. -/
inductive Session (env : Env) : ProxyBridge → Prop
  | start {h : Heap} {i j : Nat} {s : ProxyBridge} : h.Fresh i j →
    performSocks5Handshake (.new h i j) = .ok s → Session env s
  | step {s s' : ProxyBridge} {e : Event} : Session env s → step s env e = some (.ok s') →
    Session env s'

theorem Session.reachable {env : Env} {s : ProxyBridge} (hs : Session env s) : Reachable env s := by
  induction hs with
  | start hf heq => exact .handshake hf heq
  | step _ hs ih => exact ih.step hs

/-! ## The request -/

/-- The handshake waits for a connection. -/
def Waits (c : Ctl) : Prop := c.state = .kWaitConnect ∨ c.state = .kWaitAccept

/-- The handshake has called nothing but the response to the greeting, and it waits for no
connection and has none. -/
structure Unasked (c : Ctl) : Prop where
  calls : c.calls = [] ∨ ∃ ret, c.calls = [.response Socks5.kGreetingResp ret]
  waits : ¬ Waits c
  state : c.state ≠ .kSuccess

theorem Unasked.dials {c : Ctl} (hu : Unasked c) : c.dials = [] := by
  obtain h | ⟨ret, h⟩ := hu.calls <;> rw [Ctl.dials, h] <;> rfl

/-- The handshake after a whole request. -/
def asked (env : Env) (cmd : Byte) (a : Sockaddr) : Ctl :=
  if cmd = 0x01 then (Socks5.onRequestAddr env.callbacks Socks5.afterGreeting a).2
  else (Socks5.onRequestBind env.callbacks Socks5.afterGreeting a.port).2

/-- The call is what the request with command `cmd` for `a` asks for. -/
def Dials (cmd : Byte) (a : Sockaddr) : Call → Prop
  | .connect b _ => cmd = 0x01 ∧ b = a
  | .bind port _ => cmd = 0x02 ∧ port = a.port
  | .response .. | .destAddress .. => False

section Request

variable {env : Env} {cmd : Byte} {a : Sockaddr} {c d : Ctl}

/-- The last step of a request depends on the calls before it only, and ends the loop. -/
theorem onRequestAddr_eq (hc : c.calls = d.calls) (a : Sockaddr) :
    Socks5.onRequestAddr env.callbacks c a =
      (false, (Socks5.onRequestAddr env.callbacks d a).2) := by
  simp [Socks5.onRequestAddr, Env.callbacks, Ctl.goTo, Ctl.log, hc]

theorem onRequestBind_eq (hc : c.calls = d.calls) (port : UInt16) :
    Socks5.onRequestBind env.callbacks c port =
      (false, (Socks5.onRequestBind env.callbacks d port).2) := by
  obtain ⟨s, n, calls⟩ := c
  obtain ⟨s', n', calls'⟩ := d
  cases hc
  unfold Socks5.onRequestBind
  dsimp only [Ctl.goTo, Ctl.log, Socks5.callResponse]
  split
  · rfl
  · split
    · rfl
    · rfl

theorem asked_spec (env : Env) (a : Sockaddr) (hcmd : cmd = 0x01 ∨ cmd = 0x02) :
    (∃ k, Dials cmd a k ∧ (asked env cmd a).dials = [k]) ∧ (asked env cmd a).requiredSize = 0 ∧
      (Waits (asked env cmd a) ∨ (asked env cmd a).state = .kFail) := by
  rcases hcmd with rfl | rfl
  · exact ⟨⟨.connect a .kStatusInProgress, ⟨rfl, rfl⟩, rfl⟩, rfl, .inl (.inl rfl)⟩
  · obtain ⟨⟨ret, hdials⟩, -⟩ :=
      Socks5.onRequestBind_spec env.callbacks Socks5.afterGreeting a.port
    refine ⟨⟨.bind a.port ret, ⟨rfl, rfl⟩, hdials⟩, ?_⟩
    rw [asked, if_neg (by decide)]
    unfold Socks5.onRequestBind
    dsimp only
    split
    · exact ⟨rfl, .inr rfl⟩
    · split
      · exact ⟨rfl, .inr rfl⟩
      · exact ⟨rfl, .inl (.inr rfl)⟩

/-- A loop over the bytes of a client. -/
theorem finish_heard (env : Env) (w : List Byte) :
    Unasked (Socks5.finish env.callbacks ⟨{}, w⟩).ctl ∨
      ∃ cmd a p rest, (cmd = 0x01 ∨ cmd = 0x02) ∧ Request cmd p a ∧ w = p ++ rest ∧
        Socks5.finish env.callbacks ⟨{}, w⟩ = ⟨asked env cmd a, rest⟩ := by
  -- Behind a greeting, the response to it decides.
  have greeted {g rest : List Byte} (hg : Greeting g) (hw : w = g ++ rest) :
      Unasked (Socks5.finish env.callbacks ⟨{}, w⟩).ctl ∨
        Socks5.finish env.callbacks ⟨{}, w⟩ =
          Socks5.finish env.callbacks ⟨Socks5.afterGreeting, rest⟩ := by
    subst hw
    by_cases hr : Greets env.callbacks
    · exact .inr (Socks5.finish_greeting hr hg rest)
    · have hno : ¬ env.callbacks.response [] Socks5.kGreetingResp = .kStatusOK := hr
      obtain ⟨n, ms, hm, hn, h0, rfl⟩ := hg
      have hn0 : n ≠ 0 := fun h => by
        subst h
        simp at hn
      refine .inl ?_
      rw [List.cons_append, List.cons_append, Socks5.finish_header hn0,
        Socks5.finish_methods hn0 hm, if_pos h0, if_neg hno]
      exact ⟨.inr ⟨_, rfl⟩, by simp [Waits, Socks5.afterMethods, Ctl.fail],
        HandshakeState.noConfusion⟩
  obtain ⟨v, hv⟩ := Socks5.scan_total w
  cases hv with
  | short h =>
    rw [Socks5.finish_insufficient HandshakeState.noConfusion h]
    exact .inl ⟨.inl rfl, by simp [Waits], HandshakeState.noConfusion⟩
  | badGreeting h =>
    rw [Socks5.finish_badGreeting h]
    exact .inl ⟨.inl rfl, by simp [Waits], HandshakeState.noConfusion⟩
  | shortMethods hn h =>
    rw [Socks5.finish_header hn, Socks5.finish_insufficient HandshakeState.noConfusion h]
    exact .inl ⟨.inl rfl, by simp [Waits, Socks5.afterHeader], HandshakeState.noConfusion⟩
  | badMethods hn hm h =>
    rw [Socks5.finish_header hn, Socks5.finish_methods hn hm, if_neg h]
    exact .inl ⟨.inl rfl, by simp [Waits, Ctl.fail], HandshakeState.noConfusion⟩
  | shortHeader hg h =>
    refine (greeted hg rfl).elim .inl fun heq => .inl ?_
    rw [heq, Socks5.finish_insufficient HandshakeState.noConfusion h]
    exact ⟨.inr ⟨_, rfl⟩, by simp [Waits, Socks5.afterGreeting], HandshakeState.noConfusion⟩
  | badRequest hg h =>
    refine (greeted hg rfl).elim .inl fun heq => .inl ?_
    rw [heq, Socks5.finish_badRequest h]
    exact ⟨.inr ⟨_, rfl⟩, by simp [Waits], HandshakeState.noConfusion⟩
  | shortAddr hg hc h =>
    refine (greeted hg rfl).elim .inl fun heq => .inl ?_
    obtain ⟨s, n, hrank, hshort⟩ := Socks5.finish_shortAddr hc h
    rw [heq, hshort]
    refine ⟨.inr ⟨_, rfl⟩, fun hwait => ?_, fun hs => ?_⟩
    · rcases hwait with hs | hs <;> cases hs <;> cases hrank
    · cases hs
      cases hrank
  | @accept g f rest cmd a hg hc hf =>
    refine (greeted hg rfl).imp_right fun heq => ?_
    refine ⟨cmd, a, g ++ [0x05, cmd, 0x00] ++ f, rest, hc, ⟨g, f, hg, hf, rfl⟩, by simp, ?_⟩
    rw [heq]
    rcases hc with rfl | rfl
    · obtain ⟨c, hcalls, hfin⟩ := Socks5.finish_addrField env.callbacks hf rest
      rw [hfin, onRequestAddr_eq hcalls]
      rfl
    · obtain ⟨c, hcalls, hfin⟩ := Socks5.finish_portField env.callbacks hf rest
      rw [hfin, onRequestBind_eq hcalls]
      rfl

end Request

/-! ## What the events leave alone -/

/-- Nothing has changed but the buffers and what was started on them. -/
def Framed (s s' : ProxyBridge) : Prop :=
  ∃ h up down, s' = { s with heap := h, upstream := up, downstream := down }

section Framed

variable {s s' : ProxyBridge} {env : Env} {bytes : List Byte} {ec : ErrorCode}

theorem Framed.trans {s₁ s₂ s₃ : ProxyBridge} (h₁₂ : Framed s₁ s₂) (h₂₃ : Framed s₂ s₃) :
    Framed s₁ s₃ := by
  obtain ⟨h, up, down, rfl⟩ := h₁₂
  obtain ⟨h', up', down', rfl⟩ := h₂₃
  exact ⟨h', up', down', rfl⟩

/-- A block of `ForwardTraffic`. -/
theorem started_framed {α : Type} {c : Bool} {start : Except Fault α}
    {k : α → Except Fault ProxyBridge} (hk : ∀ x s', k x = .ok s' → Framed s s')
    (h : (if c then start >>= k else pure s) = .ok s') : Framed s s' := by
  split at h
  · obtain ⟨x, -, h⟩ := bind_eq_ok.mp h
    exact hk x s' h
  · cases h
    exact ⟨_, _, _, rfl⟩

theorem forwardTraffic_framed (h : forwardTraffic s = .ok s') : Framed s s' := by
  obtain ⟨s₁, h₁, h⟩ := bind_eq_ok.mp h
  obtain ⟨s₂, h₂, h⟩ := bind_eq_ok.mp h
  obtain ⟨s₃, h₃, h₄⟩ := bind_eq_ok.mp h
  have hf₁ : Framed s s₁ := started_framed (fun x s' h => by cases h; exact ⟨_, _, _, rfl⟩) h₁
  have hf₂ : Framed s₁ s₂ := started_framed (fun x s' h => by cases h; exact ⟨_, _, _, rfl⟩) h₂
  have hf₃ : Framed s₂ s₃ := started_framed (fun x s' h => by cases h; exact ⟨_, _, _, rfl⟩) h₃
  have hf₄ : Framed s₃ s' := started_framed (fun x s' h => by cases h; exact ⟨_, _, _, rfl⟩) h₄
  exact ((hf₁.trans hf₂).trans hf₃).trans hf₄

/-- An event of the forwarding, when no connection is to come. -/
theorem Flowing.consumed {e : Event} (hflow : Flowing s)
    (hs : Bridge.step s env e = some (.ok s')) (hc : s.connected = connects s.socks5State)
    (ha : s.accepted = accepts s.socks5State) : s'.consumed = s.consumed := by
  have hdone : ∀ {ec n m}, ¬ Completes s e ec n m := by
    intro ec n m hcompletes
    cases hcompletes with
    | connect hlt => omega
    | accept hlt => omega
  cases happens_of_step hs with
  | clientRecv heq hr => cases hr; rfl
  | destRecv heq hr => cases hr; rfl
  | clientSend heq hr => cases hr; rfl
  | destSend heq hr => cases hr; rfl
  | handshakeRead hop hr =>
    obtain ⟨f, g, -, hn⟩ := hflow.forwarding
    cases hn.1 _ hop
  | clientRead hop hr | destRead hop hr | clientWrite hop hr | destWrite hop hr =>
    obtain ⟨⟨h', p⟩, -, h⟩ := bind_eq_ok.mp hr
    obtain ⟨h'', up, down, rfl⟩ := forwardTraffic_framed h
    rfl
  | failed hcompletes hfail hr => exact absurd hcompletes hdone
  | established hcompletes hfail hr => exact absurd hcompletes hdone

/-- Nothing has gone past the handshake. -/
structure Untouched (s : ProxyBridge) : Prop where
  sent : s.upstream.sent = []
  downReceived : s.downstream.received = []
  downSent : s.downstream.sent = []

theorem performSocks5Handshake_untouched (hu : Untouched s)
    (heq : performSocks5Handshake s = .ok s') : Untouched s' := by
  obtain ⟨⟨h, p⟩, hstart, hs'⟩ := bind_eq_ok.mp heq
  obtain ⟨⟨bufs, h₁, b⟩, -, hp⟩ := bind_eq_ok.mp hstart
  cases hp
  cases hs'
  exact ⟨hu.sent, hu.downReceived, hu.downSent⟩

theorem socks5HandshakeHandler_untouched (hu : Untouched s)
    (heq : socks5HandshakeHandler s env bytes ec = .ok s') : Untouched s' := by
  obtain ⟨⟨h, p⟩, hcommit, heq⟩ := bind_eq_ok.mp heq
  obtain ⟨⟨h₁, b⟩, -, hp⟩ := bind_eq_ok.mp hcommit
  cases hp
  dsimp only at heq
  split at heq
  · cases heq
    exact ⟨hu.sent, hu.downReceived, hu.downSent⟩
  · obtain ⟨result, -, heq⟩ := bind_eq_ok.mp heq
    cases result with
    | none => cases heq
    | some r =>
      dsimp only at heq
      split at heq
      · refine performSocks5Handshake_untouched ?_ heq
        exact ⟨hu.sent, hu.downReceived, hu.downSent⟩
      · cases heq
        exact ⟨hu.sent, hu.downReceived, hu.downSent⟩

end Framed

/-! ## Phases -/

/-- An event before the forwarding: the client's bytes, or a connection. -/
inductive Early (s s' : ProxyBridge) (env : Env) : Event → Prop
  | clientRecv {bytes : List Byte} {ec : ErrorCode} {h' : Heap} {p' : Pipe} :
    s.upstream.recv s.heap bytes ec = some (h', p') → s' = { s with heap := h', upstream := p' } →
    Early s s' env (.clientRecv bytes ec)
  | handshakeRead {bufs : List SysBuf} {bytes : List Byte} {ec : ErrorCode} :
    s.upstream.readOp = some ⟨.socks5Handshake, bufs, some (bytes, ec)⟩ →
    socks5HandshakeHandler s env bytes ec = .ok s' → Early s s' env .clientRead
  | failed {e : Event} {ec : ErrorCode} {n m : Nat} : Completes s e ec n m →
    s' = { s with connected := n, accepted := m } → Early s s' env e
  | established {e : Event} {ec : ErrorCode} {n m : Nat} : Completes s e ec n m →
    established { s with connected := n, accepted := m } env = .ok s' → Early s s' env e

theorem Handshaking.early {s s' : ProxyBridge} {env : Env} {e : Event} (hh : Handshaking s)
    (hs : Bridge.step s env e = some (.ok s')) : Early s s' env e := by
  cases happens_of_step hs with
  | clientRecv heq hr => exact .clientRecv heq (Except.ok.inj hr)
  | destRecv heq hr =>
    rw [Pipe.recv, hh.downRead] at heq
    cases heq
  | clientSend heq hr =>
    rw [Pipe.send, hh.downWrite] at heq
    cases heq
  | destSend heq hr =>
    rw [Pipe.send, hh.upWrite] at heq
    cases heq
  | handshakeRead hop hr => exact .handshakeRead hop hr
  | clientRead hop hr => cases hh.handler _ hop
  | destRead hop hr =>
    rw [hh.downRead] at hop
    cases hop
  | clientWrite hop hr =>
    rw [hh.downWrite] at hop
    cases hop
  | destWrite hop hr =>
    rw [hh.upWrite] at hop
    cases hop
  | failed hcompletes hfail hr => exact .failed hcompletes (Except.ok.inj hr)
  | established hcompletes hfail hr => exact .established hcompletes hr

/-- The request is not read. While a read is outstanding, the handshake has failed or has been fed
all bytes that were received. -/
structure Hearing (env : Env) (s : ProxyBridge) : Prop extends Handshaking s, Untouched s where
  unasked : Unasked s.socks5State
  completed : s.connected = 0 ∧ s.accepted = 0
  fed : s.upstream.readOp.isSome = true → s.socks5State.state = .kFail ∨
    ∃ q, s.upstream.received = s.consumed ++ q ∧
      Socks5.finish env.callbacks ⟨{}, s.upstream.received⟩ = ⟨s.socks5State, q⟩

/-- The request is read, and it is all that was read. -/
structure Consumed (cmd : Byte) (a : Sockaddr) (s : ProxyBridge) : Prop where
  command : cmd = 0x01 ∨ cmd = 0x02
  request : Request cmd s.consumed a

/-- The handshake waits for the connection that the request asks for, or it has failed since. -/
structure Awaiting (env : Env) (cmd : Byte) (a : Sockaddr) (s : ProxyBridge) : Prop extends
    Handshaking s, Untouched s, Consumed cmd a s where
  calls : s.socks5State.calls = (asked env cmd a).calls
  ctl : s.socks5State = asked env cmd a ∨ s.socks5State.state = .kFail
  readOp : s.upstream.readOp = none
  connected : s.connected ≤ connects s.socks5State
  accepted : s.accepted ≤ accepts s.socks5State

/-- The one connection is there, `ConnectionSucceed` has been called, and the bridge forwards. -/
structure Relayed (env : Env) (cmd : Byte) (a : Sockaddr) (s : ProxyBridge) : Prop extends
    Flowing s, Consumed cmd a s where
  waits : Waits (asked env cmd a)
  ctl : s.socks5State = (Socks5.connectionSucceed env.callbacks (asked env cmd a)).2
  connected : s.connected = connects s.socks5State
  accepted : s.accepted = accepts s.socks5State
  once : s.connected + s.accepted = 1

/-- How far a session is. -/
inductive Phase (env : Env) (s : ProxyBridge) : Prop
  | hearing : Hearing env s → Phase env s
  | awaiting {cmd : Byte} {a : Sockaddr} : Awaiting env cmd a s → Phase env s
  | relayed {cmd : Byte} {a : Sockaddr} : Relayed env cmd a s → Phase env s

section Steps

variable {s s' : ProxyBridge} {env : Env} {cmd : Byte} {a : Sockaddr}

/-- Before the request nothing can complete. -/
theorem Hearing.not_completes {e : Event} {ec : ErrorCode} {n m : Nat} (hh : Hearing env s) :
    ¬ Completes s e ec n m := by
  have hle := connects_add_accepts_le s.socks5State
  rw [hh.unasked.dials, List.length_nil] at hle
  intro hcompletes
  cases hcompletes with
  | connect hlt => omega
  | accept hlt => omega

/-- A failed handshake that reads on fails again. -/
theorem finish_failed {c : Ctl} (hw : c.Wf) (hc : c.state = .kFail) (q : List Byte) :
    (Socks5.finish env.callbacks ⟨c, q⟩).ctl.state = .kFail ∧
      (Socks5.finish env.callbacks ⟨c, q⟩).ctl.calls = c.calls := by
  have hsame : Socks5.Same ⟨c, q⟩ (Socks5.finish env.callbacks ⟨c, q⟩) :=
    Socks5.finish_idle (r := ⟨c, q⟩) hw (.inr (.inr (.inr hc)))
  exact ⟨hsame.state.symm.trans hc, hsame.calls.symm⟩

/-- The handler of a handshake read: the request is not there yet, or it is. -/
theorem Hearing.handshakeRead {bufs : List SysBuf} {bytes : List Byte} {ec : ErrorCode}
    (hh : Hearing env s) (hi : Inv s)
    (hop : s.upstream.readOp = some ⟨.socks5Handshake, bufs, some (bytes, ec)⟩)
    (hr : socks5HandshakeHandler s env bytes ec = .ok s') : Phase env s' := by
  rcases hi with ⟨f, g, -, hno⟩ | ⟨f, g, hc, hread⟩
  · cases hno.1 _ hop
  obtain ⟨s₁, heq, -, hp⟩ := socks5HandshakeHandler_spec hc hread hop rfl
  rw [heq] at hr
  cases hr
  have hh' : Handshaking s' := hh.toHandshaking.socks5HandshakeHandler heq
  have hu' : Untouched s' := socks5HandshakeHandler_untouched hh.toUntouched heq
  have hzero : s'.connected = 0 ∧ s'.accepted = 0 := by
    rw [hp.completed.1, hp.completed.2]
    exact hh.completed
  cases ec with
  | eof | other =>
    obtain ⟨hctl, hnone⟩ := hp.cut rfl
    refine .hearing ⟨hh', hu', ?_, hzero, fun hsome => ?_⟩
    · rw [hctl]
      exact hh.unasked
    · rw [hnone] at hsome
      cases hsome
  | success =>
    have hstream : s.upstream.received = s.consumed ++ f.queue := by
      simpa only [hh.sent, List.nil_append] using hc.up.stream
    obtain ⟨q', hq', hfinish, hread'⟩ := hp.looped rfl f.queue hstream
    -- A handshake that has failed before fails again.
    have failed (hfail : s.socks5State.state = .kFail) : Phase env s' := by
      obtain ⟨hstate, hcalls⟩ := finish_failed hc.wf hfail (f.queue ++ bytes)
      rw [hfinish] at hstate hcalls
      have hunasked : Unasked s'.socks5State := by
        refine ⟨?_, fun hwaits => ?_, fun h => HandshakeState.noConfusion (hstate.symm.trans h)⟩
        · rw [hcalls]
          exact hh.unasked.calls
        · rcases hwaits with h | h <;> exact HandshakeState.noConfusion (hstate.symm.trans h)
      exact .hearing ⟨hh', hu', hunasked, hzero, fun _ => .inl hstate⟩
    rcases hh.fed (by rw [hop]; rfl) with hfail | ⟨q, hq, hfed⟩
    · exact failed hfail
    obtain rfl : f.queue = q := List.append_cancel_left (hstream.symm.trans hq)
    rcases Socks5.finish_append_cases env.callbacks (r := ⟨{}, s.upstream.received⟩) rfl bytes with
      happend | ⟨hfail, -⟩
    · have hall : Socks5.finish env.callbacks ⟨{}, s'.upstream.received⟩ =
          ⟨s'.socks5State, q'⟩ := by
        rw [hfed] at happend
        rw [hp.received, ← hfinish]
        exact happend
      rcases finish_heard env s'.upstream.received with hunasked |
        ⟨cmd, a, p, rest, hcmd, hreq, hw, hasked⟩
      · rw [hall] at hunasked
        exact .hearing ⟨hh', hu', hunasked, hzero, fun _ => .inr ⟨q', hq', hall⟩⟩
      · rw [hall] at hasked
        obtain ⟨hctl, rfl⟩ := Socks5.Run.mk.inj hasked
        have hconsumed : s'.consumed = p := List.append_cancel_right (hq'.symm.trans hw)
        refine .awaiting ⟨hh', hu', ⟨hcmd, hconsumed ▸ hreq⟩, by rw [hctl], .inl hctl, ?_,
          by omega, by omega⟩
        refine Option.not_isSome_iff_eq_none.mp fun hsome => ?_
        have hlt := hread'.mp hsome
        rw [hctl, (asked_spec env a hcmd).2.1] at hlt
        exact Nat.not_lt_zero _ hlt
    · rw [hfed] at hfail
      exact failed hfail

/-- One event before the request is there. -/
theorem Hearing.step {e : Event} (hh : Hearing env s) (hi : Inv s)
    (hs : Bridge.step s env e = some (.ok s')) : Phase env s' := by
  cases hh.toHandshaking.early hs with
  | clientRecv heq hr =>
    subst hr
    have hh' := hh.toHandshaking.recv heq
    obtain ⟨handler, buffers, hop, -, -, rfl⟩ := Pipe.recv_eq_some heq
    exact .hearing ⟨hh', ⟨hh.sent, hh.downReceived, hh.downSent⟩, hh.unasked, hh.completed,
      fun _ => hh.fed (by rw [hop]; rfl)⟩
  | handshakeRead hop hr => exact hh.handshakeRead hi hop hr
  | failed hcompletes hr => exact absurd hcompletes hh.not_completes
  | established hcompletes hr => exact absurd hcompletes hh.not_completes

theorem Awaiting.state (hw : Awaiting env cmd a s) : s.socks5State.state ≠ .kSuccess := by
  rcases hw.ctl with hctl | hfail
  · rw [hctl]
    rcases (asked_spec env a hw.command).2.2 with (h | h) | h <;> rw [h] <;>
      exact HandshakeState.noConfusion
  · rw [hfail]
    exact HandshakeState.noConfusion

/-- A connect or an accept completes. -/
theorem Awaiting.completed {e : Event} {ec : ErrorCode} {n m : Nat} (hw : Awaiting env cmd a s)
    (hcompletes : Completes s e ec n m) :
    Awaiting env cmd a { s with connected := n, accepted := m } ∧
      n = connects s.socks5State ∧ m = accepts s.socks5State ∧ n + m = 1 := by
  obtain ⟨k, -, hk⟩ := (asked_spec env a hw.command).1
  have hle := connects_add_accepts_le s.socks5State
  rw [show s.socks5State.dials = [k] by rw [Ctl.dials, hw.calls]; exact hk, List.length_singleton]
    at hle
  have hc := hw.connected
  have ha := hw.accepted
  cases hcompletes with
  | connect hlt =>
    exact ⟨⟨hw.toHandshaking.update hw.handler, ⟨hw.sent, hw.downReceived, hw.downSent⟩,
      ⟨hw.command, hw.request⟩, hw.calls, hw.ctl, hw.readOp, hlt, hw.accepted⟩, by omega, by omega,
      by omega⟩
  | accept hlt =>
    exact ⟨⟨hw.toHandshaking.update hw.handler, ⟨hw.sent, hw.downReceived, hw.downSent⟩,
      ⟨hw.command, hw.request⟩, hw.calls, hw.ctl, hw.readOp, hw.connected, hlt⟩, by omega, by omega,
      by omega⟩

/-- The connection is there: the forwarding starts, unless the handshake has failed. -/
theorem Awaiting.established (hw : Awaiting env cmd a s) (hi : Inv s)
    (hc : s.connected = connects s.socks5State) (ha : s.accepted = accepts s.socks5State)
    (hone : s.connected + s.accepted = 1) (heq : Bridge.established s env = .ok s') :
    Phase env s' := by
  by_cases hwaits : Waits s.socks5State
  · have hctl : s.socks5State = asked env cmd a := by
      refine hw.ctl.resolve_right fun hfail => ?_
      rcases hwaits with h | h <;> rw [hfail] at h <;> cases h
    have hflow : Flowing s' := by
      refine (hw.toHandshaking.established hi heq).resolve_right fun h => ?_
      rw [Socks5.connectionSucceed_waiting hwaits] at h
      cases h.2
    unfold Bridge.established at heq
    rw [Socks5.connectionSucceed_waiting hwaits] at heq
    obtain ⟨h', up, down, rfl⟩ := forwardTraffic_framed heq
    obtain ⟨hcr, har⟩ := connects_reply env s.socks5State (s.socks5State.state = .kWaitAccept)
    refine .relayed (a := a) ⟨hflow, ⟨hw.command, hw.request⟩, hctl ▸ hwaits, ?_,
      hc.trans hcr.symm, ha.trans har.symm, hone⟩
    rw [← hctl, Socks5.connectionSucceed_waiting hwaits]
  · unfold Bridge.established at heq
    rw [Socks5.connectionSucceed_other hwaits] at heq
    cases heq
    exact .awaiting ⟨hw.toHandshaking.update hw.handler, ⟨hw.sent, hw.downReceived, hw.downSent⟩,
      ⟨hw.command, hw.request⟩, hw.calls, .inr rfl, hw.readOp, hw.connected, hw.accepted⟩

/-- One event after the request. -/
theorem Awaiting.step {e : Event} (hw : Awaiting env cmd a s) (hi : Inv s)
    (hs : Bridge.step s env e = some (.ok s')) : Phase env s' := by
  cases hw.toHandshaking.early hs with
  | clientRecv heq hr =>
    rw [Pipe.recv, hw.readOp] at heq
    cases heq
  | handshakeRead hop hr =>
    rw [hw.readOp] at hop
    cases hop
  | failed hcompletes hr =>
    subst hr
    exact .awaiting (hw.completed hcompletes).1
  | established hcompletes hr =>
    obtain ⟨hw', hn, hm, hone⟩ := hw.completed hcompletes
    exact hw'.established (hi.completed _ _) hn hm hone hr

/-- One event of the forwarding. -/
theorem Relayed.step {e : Event} (hr : Relayed env cmd a s)
    (hs : Bridge.step s env e = some (.ok s')) : Relayed env cmd a s' := by
  obtain ⟨s₁, heq, hflow, -⟩ := hr.toFlowing.step hs
  cases heq
  have hkept := hr.toFlowing.kept hs hr.connected hr.accepted
  have hconsumed := hr.toFlowing.consumed hs hr.connected hr.accepted
  simp only [ProxyBridge.negotiation, Prod.mk.injEq] at hkept
  obtain ⟨hctl, hconnected, haccepted⟩ := hkept
  refine ⟨hflow, ⟨hr.command, hconsumed ▸ hr.request⟩, hr.waits, hctl.trans hr.ctl, ?_, ?_, ?_⟩
  · rw [hctl, hconnected]
    exact hr.connected
  · rw [hctl, haccepted]
    exact hr.accepted
  · rw [hconnected, haccepted]
    exact hr.once

/-- Every session is in a phase. -/
theorem Session.phase (hs : Session env s) : Phase env s := by
  induction hs with
  | @start h i j s hf heq =>
    have hh := (handshaking_new h i j).performSocks5Handshake heq
    have hu := performSocks5Handshake_untouched ⟨rfl, rfl, rfl⟩ heq
    obtain ⟨s₁, heq₁, -, h', b, op, rfl⟩ := performSocks5Handshake_new hf
    rw [heq] at heq₁
    cases heq₁
    have hunasked : Unasked (ProxyBridge.new h i j).socks5State :=
      ⟨.inl rfl, by simp [Waits, ProxyBridge.new], HandshakeState.noConfusion⟩
    refine .hearing ⟨hh, hu, hunasked, ⟨rfl, rfl⟩, fun _ => .inr ⟨[], rfl, ?_⟩⟩
    exact Socks5.finish_insufficient HandshakeState.noConfusion Nat.zero_lt_two
  | step hs hstep ih =>
    cases ih with
    | hearing hh => exact hh.step hs.reachable.inv hstep
    | awaiting hw => exact hw.step hs.reachable.inv hstep
    | relayed hr => exact .relayed (hr.step hstep)

end Steps

section Sessions

variable {s : ProxyBridge} {env : Env}

/-- The connect and bind calls of a session. -/
theorem Phase.dials (hp : Phase env s) :
    s.socks5State.dials = [] ∨ ∃ cmd a k, Consumed cmd a s ∧ Dials cmd a k ∧
      s.socks5State.dials = [k] := by
  cases hp with
  | hearing hh => exact .inl hh.unasked.dials
  | @awaiting cmd a hw =>
    obtain ⟨k, hk, hdials⟩ := (asked_spec env a hw.command).1
    refine .inr ⟨cmd, a, k, hw.toConsumed, hk, ?_⟩
    rw [Ctl.dials, hw.calls]
    exact hdials
  | @relayed cmd a hr =>
    obtain ⟨k, hk, hdials⟩ := (asked_spec env a hr.command).1
    refine .inr ⟨cmd, a, k, hr.toConsumed, hk, ?_⟩
    rw [hr.ctl, Socks5.connectionSucceed_waiting hr.waits]
    refine Eq.trans ?_ hdials
    exact (Socks5.dials_callResponse _ _).trans (Socks5.dials_createResp _ _)

/-- No byte has been forwarded in either direction, and no operation of the forwarding is
outstanding. -/
def Unforwarded (s : ProxyBridge) : Prop :=
  Untouched s ∧ (∀ op ∈ s.upstream.readOp, op.handler = .socks5Handshake) ∧
    s.upstream.writeOp = none ∧ s.downstream.readOp = none ∧ s.downstream.writeOp = none

/-- In every state of a session, whatever the sockets do. The bridge has dialled nothing, or exactly
what one whole request of the client asks for, and then it has taken exactly that request off the
client's stream. It has forwarded nothing, or the one connection that the request asks for is there,
`ConnectionSucceed` has been called, whether or not the client got its answer, and what has been sent
to the destination is the start of what follows the request. -/
theorem forwards_requested (hs : Session env s) :
    (s.socks5State.dials = [] ∨ ∃ cmd a k, Request cmd s.consumed a ∧ Dials cmd a k ∧
      s.socks5State.dials = [k]) ∧
    ((Unforwarded s ∧ s.socks5State.state ≠ .kSuccess) ∨
      ∃ cmd a, (cmd = 0x01 ∨ cmd = 0x02) ∧ Request cmd s.consumed a ∧ Waits (asked env cmd a) ∧
      s.connected + s.accepted = 1 ∧
      s.socks5State = (Socks5.connectionSucceed env.callbacks (asked env cmd a)).2 ∧
      ∃ content, Buffer.contents s.heap s.upstream.buff = .ok content ∧
        s.upstream.received = s.consumed ++ (s.upstream.sent ++ content)) := by
  refine ⟨hs.phase.dials.imp_right ?_, ?_⟩
  · rintro ⟨cmd, a, k, hconsumed, hk, hdials⟩
    exact ⟨cmd, a, k, hconsumed.request, hk, hdials⟩
  · cases hs.phase with
    | hearing hh =>
      exact .inl ⟨⟨hh.toUntouched, hh.handler, hh.upWrite, hh.downRead, hh.downWrite⟩,
        hh.unasked.state⟩
    | awaiting hw =>
      exact .inl ⟨⟨hw.toUntouched, hw.handler, hw.upWrite, hw.downRead, hw.downWrite⟩, hw.state⟩
    | @relayed cmd a hr =>
      exact .inr ⟨cmd, a, hr.command, hr.request, hr.waits, hr.once, hr.ctl,
        (streams_preserved hs.reachable).1⟩

end Sessions

theorem Session.runEvents {s s' : ProxyBridge} {env : Env} {es : List Event} (hs : Session env s)
    (hrun : Bridge.runEvents env s es = some s') : Session env s' := by
  induction es generalizing s with
  | nil =>
    cases hrun
    exact hs
  | cons e es ih =>
    rw [Bridge.runEvents] at hrun
    split at hrun
    · next heq => exact ih (hs.step heq) hrun
    · cases hrun

/-- A session that goes as it should. -/
theorem exists_session (env : Env) (es : List Event) (P : ProxyBridge → Prop) [DecidablePred P]
    (hrun : ((performSocks5Handshake (.new .empty 0 0)).toOption.bind fun s =>
      Bridge.runEvents env s es).any fun s => P s) : ∃ s, Session env s ∧ P s := by
  obtain ⟨s₀, s, hstart, hrun₀, hP⟩ := exists_run env _ es P hrun
  exact ⟨s, (Session.start fresh_empty hstart).runEvents hrun₀, hP⟩

/-- Two bytes of traffic have been written to the destination. -/
theorem forwards_requested_handshakeAndTraffic :
    ∃ s, Session .open s ∧ s.upstream.sent = [21, 22] ∧
      ∃ cmd a, Request cmd s.consumed a ∧ Waits (asked .open cmd a) := by
  obtain ⟨s, hsession, hsent⟩ := exists_session .open handshakeAndTraffic
    (fun s => s.upstream.sent = [21, 22]) (by decide +kernel)
  refine ⟨s, hsession, hsent, ?_⟩
  obtain ⟨⟨hno, -⟩, -⟩ | ⟨cmd, a, -, hreq, hwaits, -⟩ := (forwards_requested hsession).2
  · rw [hno.sent] at hsent
    cases hsent
  · exact ⟨cmd, a, hreq, hwaits⟩

end Bridge
end Proxy
end TrustedCa
