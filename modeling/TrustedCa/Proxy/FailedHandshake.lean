import TrustedCa.Proxy.BridgeFlow
import TrustedCa.Proxy.Socks5Language

/-!
# The end of a failed handshake

Whether `Socks5HandshakeHandler` schedules another read is decided by `InsufficientBuffer`, that is
by `required_size_` and the bytes left over, and not by the state. A failure in the greeting header,
in the method list or in the request header leaves `required_size_` at the size of that field group.
So the read is scheduled again in `kFail` unless at least as many bytes as the group has follow it.
The later failures set `required_size_` to 0 before.

* `Rejected b w g rest`: the handshake fails at the field group `g` of the stream `w`, with `rest`
  behind it. `lacks_iff` says that these are the streams that leave a failed handshake short of
  bytes.
* `Orderly` is the invariant of a bridge whose handshake reads are all `Roomy`.
* `failed_handshake_ends`: in a run, a failed handshake leaves no read or write outstanding if and
  only if all handshake reads of the run are `Roomy`. The `async_accept` and the `async_wait` of a
  `BIND` request are not meant.
-/

namespace TrustedCa
namespace Proxy
namespace Socks5

variable {cb : Callbacks}

/-- The handshake fails at the field group `g` of a stream, and `rest` is behind it. `greets` says
whether the response to the greeting can be written. -/
inductive Rejected (greets : Prop) : (w g rest : List Byte) → Prop
  | greeting {v n : Byte} {rest : List Byte} (h : v ≠ 0x05 ∨ n = 0) :
      Rejected greets (v :: n :: rest) [v, n] rest
  | methods {n : Byte} {ms rest : List Byte} (hn : n ≠ 0) (hm : ms.length = n.toNat)
      (h : 0x00 ∉ ms ∨ ¬ greets) : Rejected greets (0x05 :: n :: (ms ++ rest)) ms rest
  | request {g rest : List Byte} {v cmd rsv atyp : Byte} (hg : Greeting g) (hr : greets)
      (h : BadHeader v cmd rsv atyp) :
      Rejected greets (g ++ v :: cmd :: rsv :: atyp :: rest) [v, cmd, rsv, atyp] rest

/-- The response to the greeting is written. -/
def Greets (cb : Callbacks) : Prop := cb.response [] kGreetingResp = .kStatusOK

/-- A stream at which the handshake fails leaves the required size at the size of the group. -/
theorem finish_rejected {w g rest : List Byte} (h : Rejected (Greets cb) w g rest) :
    (finish cb ⟨{}, w⟩).ctl.state = .kFail ∧ (finish cb ⟨{}, w⟩).ctl.requiredSize = g.length ∧
      (finish cb ⟨{}, w⟩).buffer = rest := by
  cases h with
  | greeting h =>
    rw [finish_badGreeting h]
    exact ⟨rfl, rfl, rfl⟩
  | methods hn hm h =>
    rw [finish_header hn, finish_methods hn hm]
    by_cases h0 : 0x00 ∈ g
    · have hr : ¬ cb.response [] kGreetingResp = .kStatusOK := h.resolve_left (not_not.mpr h0)
      rw [if_pos h0, if_neg hr]
      exact ⟨rfl, hm.symm, rfl⟩
    · rw [if_neg h0]
      exact ⟨rfl, hm.symm, rfl⟩
  | request hg hr h =>
    rw [finish_greeting hr hg, finish_badRequest h]
    exact ⟨rfl, rfl, rfl⟩

/-- Past the request header, a handshake that has failed lacks no byte. -/
def Ctl.Spent (c : Ctl) : Prop := c.state.rank ≤ 3 ∧ (c.state = .kFail → c.requiredSize = 0)

theorem spent_goTo {c : Ctl} {s : HandshakeState} {n : Nat} (hr : s.rank ≤ 3)
    (hf : s = .kFail → n = 0) : (c.goTo s n).Spent := ⟨hr, hf⟩

theorem spent_onRequestAddr (c : Ctl) (addr : Sockaddr) : (onRequestAddr cb c addr).2.Spent := by
  unfold onRequestAddr
  split
  · exact spent_goTo (by decide) nofun
  · dsimp only
    split
    · exact spent_goTo (by decide) nofun
    · exact spent_goTo (by decide) nofun
    · exact spent_goTo (by decide) fun _ => rfl

theorem spent_onRequestBind (c : Ctl) (port : UInt16) : (onRequestBind cb c port).2.Spent := by
  unfold onRequestBind
  dsimp only
  split
  · exact ⟨Nat.zero_le _, fun _ => rfl⟩
  · split
    · exact ⟨Nat.zero_le _, fun _ => rfl⟩
    · exact spent_goTo (by decide) nofun

theorem requiredSize_createResp (c : Ctl) (isBind : Bool) :
    (createResp cb c isBind).2.requiredSize = c.requiredSize := by
  unfold createResp
  split
  · rfl
  · dsimp only
    split <;> rfl

theorem spent_onResponse {c : Ctl} (h0 : c.requiredSize = 0) : (onResponse cb c).2.Spent := by
  unfold onResponse
  dsimp only
  split
  · exact ⟨Nat.zero_le _, nofun⟩
  · exact ⟨Nat.zero_le _, fun _ => (requiredSize_createResp c false).trans h0⟩

theorem spent_onGroup {c : Ctl} (g : List Byte) (hw : c.Wf) (hr : c.state.rank ≤ 3) :
    (c.onGroup cb g).2.Spent := by
  have hstay : c.state ≠ .kFail → c.Spent := fun hne => ⟨hr, fun h => absurd h hne⟩
  cases hs : c.state <;> simp only [Ctl.onGroup, hs]
  case kGreetingHeader | kGreetingMethods | kRequestHeader =>
    rw [hs] at hr
    exact absurd hr (by decide)
  case kRequestAddrV4 | kRequestAddrV6 => exact spent_onRequestAddr c _
  case kRequestBind => exact spent_onRequestBind c _
  case kResponse => exact spent_onResponse (by simpa only [Ctl.Wf, hs] using hw)
  case kWaitConnect | kWaitAccept | kSuccess => exact hstay (by simp [hs])
  case kFail => exact ⟨Nat.zero_le _, fun _ => rfl⟩

/-- A request with a supported header. -/
theorem finish_accepted {f : List Byte} {cmd : Byte} {a : Sockaddr}
    (hc : cmd = 0x01 ∨ cmd = 0x02) (hf : AddrField f a) (rest : List Byte) :
    (finish cb ⟨afterGreeting, 0x05 :: cmd :: 0x00 :: (f ++ rest)⟩).ctl.Spent := by
  have spent {d : Bool × Ctl} (hd : d.2.Spent) (hw : d.2.Wf) :
      (if d.1 then finish cb ⟨d.2, rest⟩ else ⟨d.2, rest⟩).ctl.Spent := by
    split
    · exact finish_induct (fun c g hw h => spent_onGroup g hw h.1) hw hd
    · exact hd
  rcases hc with rfl | rfl
  · obtain ⟨c, -, h⟩ := finish_addrField cb hf rest
    rw [h]
    exact spent (spent_onRequestAddr c a) (onRequestAddr_wf cb c a)
  · obtain ⟨c, -, h⟩ := finish_portField cb hf rest
    rw [h]
    exact spent (spent_onRequestBind c a.port) (moved_onRequestBind a.port).1

/-- A failed handshake lacks bytes exactly if it has failed at a field group that is longer than
what follows it. -/
theorem lacks_iff (cb : Callbacks) (w : List Byte) :
    ((finish cb ⟨{}, w⟩).ctl.state = .kFail ∧
        (finish cb ⟨{}, w⟩).buffer.length < (finish cb ⟨{}, w⟩).ctl.requiredSize) ↔
      ∃ g rest, Rejected (Greets cb) w g rest ∧ rest.length < g.length := by
  constructor
  · rintro ⟨hfail, hlack⟩
    have rejected {g rest : List Byte} (h : Rejected (Greets cb) w g rest) :
        ∃ g rest, Rejected (Greets cb) w g rest ∧ rest.length < g.length := by
      obtain ⟨-, hsize, hrest⟩ := finish_rejected h
      rw [hsize, hrest] at hlack
      exact ⟨g, rest, h, hlack⟩
    -- Behind a greeting, the response to it decides.
    have greeted {g : List Byte} (hg : Greeting g) {rest : List Byte} (hw : w = g ++ rest)
        (hnext : Greets cb → ∃ g rest, Rejected (Greets cb) w g rest ∧ rest.length < g.length) :
        ∃ g rest, Rejected (Greets cb) w g rest ∧ rest.length < g.length := by
      by_cases hr : Greets cb
      · exact hnext hr
      · obtain ⟨n, ms, hm, hn, -, rfl⟩ := hg
        subst hw
        exact rejected (.methods (fun h => by subst h; simp at hn) hm (.inr hr))
    obtain ⟨v, hv⟩ := scan_total w
    cases hv with
    | short h =>
      rw [finish_insufficient HandshakeState.noConfusion h] at hfail
      cases hfail
    | badGreeting h => exact rejected (.greeting h)
    | shortMethods hn h =>
      rw [finish_header hn, finish_insufficient HandshakeState.noConfusion h] at hfail
      cases hfail
    | badMethods hn hm h => exact rejected (.methods hn hm (.inl h))
    | shortHeader hg h =>
      refine greeted hg rfl fun hr => ?_
      rw [finish_greeting hr hg, finish_insufficient HandshakeState.noConfusion h] at hfail
      cases hfail
    | badRequest hg h => exact greeted hg rfl fun hr => rejected (.request hg hr h)
    | shortAddr hg hc h =>
      refine greeted hg rfl fun hr => ?_
      obtain ⟨s, n, hrank, heq⟩ := finish_shortAddr hc h
      rw [finish_greeting hr hg, heq] at hfail
      cases hfail
      cases hrank
    | accept hg hc hf =>
      refine greeted hg rfl fun hr => ?_
      rw [finish_greeting hr hg] at hfail hlack
      rw [(finish_accepted hc hf _).2 hfail] at hlack
      cases hlack
  · rintro ⟨g, rest, h, hlt⟩
    obtain ⟨hfail, hsize, hrest⟩ := finish_rejected h
    rw [hsize, hrest]
    exact ⟨hfail, hlt⟩

end Socks5

namespace Bridge

open Buffer (Fault Heap)
open Socks5 (Call Ctl Greets HandshakeState Rejected)
open Spec

/-! ## The state machine of a bridge -/

/-- The handshake of a bridge has at most one connect or bind call, after the request is read. Its
connects are always in progress, so it is never in `kResponse`. -/
structure Unanswered (c : Ctl) : Prop where
  state : c.state ≠ .kResponse ∧ c.state ≠ .kSuccess
  undialed : 3 ≤ c.state.rank → c.dials = []
  once : c.dials.length ≤ 1

theorem unanswered_of_undialed {c : Ctl} (hs : c.state ≠ .kResponse ∧ c.state ≠ .kSuccess)
    (hd : c.dials = []) : Unanswered c := ⟨hs, fun _ => hd, by simp [hd]⟩

theorem unanswered_of_idle {c : Ctl}
    (hs : c.state = .kWaitConnect ∨ c.state = .kWaitAccept ∨ c.state = .kFail)
    (hd : c.dials.length ≤ 1) : Unanswered c := by
  rcases hs with hs | hs | hs <;> exact ⟨by simp [hs], by simp [hs, HandshakeState.rank], hd⟩

section Unanswered

variable {c : Ctl} {g : List Byte} (env : Env)

theorem unanswered_onGreetingHeader (hd : c.dials = []) :
    Unanswered (Socks5.onGreetingHeader c g).2 := by
  unfold Socks5.onGreetingHeader
  split
  · exact unanswered_of_undialed ⟨nofun, nofun⟩ hd
  · exact unanswered_of_undialed ⟨nofun, nofun⟩ hd

theorem unanswered_onGreetingMethods (hd : c.dials = []) :
    Unanswered (Socks5.onGreetingMethods env.callbacks c g).2 := by
  unfold Socks5.onGreetingMethods
  dsimp only
  split
  · split
    · exact unanswered_of_undialed ⟨nofun, nofun⟩ (by simp [hd])
    · exact unanswered_of_undialed ⟨nofun, nofun⟩ (by simp [hd])
  · exact unanswered_of_undialed ⟨nofun, nofun⟩ hd

theorem unanswered_onRequestHeader (hd : c.dials = []) :
    Unanswered (Socks5.onRequestHeader c g).2 := by
  unfold Socks5.onRequestHeader
  dsimp only
  repeat' split
  all_goals exact unanswered_of_undialed ⟨nofun, nofun⟩ hd

theorem unanswered_onRequestAddr (hd : c.dials = []) (addr : Sockaddr) :
    Unanswered (Socks5.onRequestAddr env.callbacks c addr).2 := by
  have hlog : (c.log (.connect addr .kStatusInProgress)).dials.length ≤ 1 := by
    rw [Socks5.dials_log, hd]
    exact Nat.le_refl 1
  exact unanswered_of_idle (.inl rfl) hlog

theorem unanswered_onRequestBind (hd : c.dials = []) (port : UInt16) :
    Unanswered (Socks5.onRequestBind env.callbacks c port).2 := by
  obtain ⟨⟨ret, hdials⟩, -⟩ := Socks5.onRequestBind_spec env.callbacks c port
  have honce : (Socks5.onRequestBind env.callbacks c port).2.dials.length ≤ 1 := by
    rw [hdials, hd]
    exact Nat.le_refl 1
  unfold Socks5.onRequestBind at honce ⊢
  dsimp only at honce ⊢
  split at honce
  · next h =>
    rw [if_pos h]
    exact unanswered_of_idle (.inr (.inr rfl)) honce
  · next h =>
    rw [if_neg h]
    split at honce
    · next h' =>
      rw [if_pos h']
      exact unanswered_of_idle (.inr (.inr rfl)) honce
    · next h' =>
      rw [if_neg h']
      exact unanswered_of_idle (.inr (.inl rfl)) honce

theorem unanswered_onGroup (g : List Byte) (hu : Unanswered c) :
    Unanswered (c.onGroup env.callbacks g).2 := by
  have hd : 3 ≤ c.state.rank → c.dials = [] := hu.undialed
  cases hs : c.state <;> rw [hs] at hd <;> simp only [Ctl.onGroup, hs]
  case kGreetingHeader => exact unanswered_onGreetingHeader (hd (by decide))
  case kGreetingMethods => exact unanswered_onGreetingMethods env (hd (by decide))
  case kRequestHeader => exact unanswered_onRequestHeader (hd (by decide))
  case kRequestAddrV4 | kRequestAddrV6 => exact unanswered_onRequestAddr env (hd (by decide)) _
  case kRequestBind => exact unanswered_onRequestBind env (hd (by decide)) _
  case kResponse => exact absurd hs hu.state.1
  case kSuccess => exact absurd hs hu.state.2
  case kFail => exact unanswered_of_idle (.inr (.inr rfl)) hu.once
  case kWaitConnect | kWaitAccept => exact hu

end Unanswered

/-- The connects and accepts are among the connect and bind calls. -/
theorem connects_add_accepts_le (c : Ctl) : connects c + accepts c ≤ c.dials.length := by
  unfold connects accepts Ctl.dials
  rw [← List.countP_eq_length_filter]
  induction c.calls with
  | nil => exact Nat.le_refl 0
  | cons k l ih =>
    rw [List.countP_cons, List.countP_cons, List.countP_cons]
    rcases k with _ | _ | _ | ⟨port, ret⟩
    case bind => cases ret <;> simp [Call.isDial] <;> omega
    all_goals
      simp [Call.isDial]
      omega

/-! ## What the forwarding leaves alone -/

/-- The handshake and its completed connects and accepts. -/
def ProxyBridge.negotiation (s : ProxyBridge) : Ctl × Nat × Nat :=
  (s.socks5State, s.connected, s.accepted)

section Kept

variable {s s' : ProxyBridge} {env : Env} {bytes : List Byte} {ec : ErrorCode}

/-- A block of `ForwardTraffic` starts an operation or does nothing. -/
theorem started_kept {α : Type} {c : Bool} {start : Except Fault α} {k : α → Except Fault ProxyBridge}
    (hk : ∀ x s', k x = .ok s' → s'.negotiation = s.negotiation)
    (h : (if c then start >>= k else pure s) = .ok s') : s'.negotiation = s.negotiation := by
  split at h
  · obtain ⟨x, -, h⟩ := bind_eq_ok.mp h
    exact hk x s' h
  · cases h
    rfl

theorem forwardTraffic_kept (h : forwardTraffic s = .ok s') : s'.negotiation = s.negotiation := by
  obtain ⟨s₁, h₁, h⟩ := bind_eq_ok.mp h
  obtain ⟨s₂, h₂, h⟩ := bind_eq_ok.mp h
  obtain ⟨s₃, h₃, h₄⟩ := bind_eq_ok.mp h
  have hk₁ : s₁.negotiation = s.negotiation := started_kept (fun x s' h => by cases h; rfl) h₁
  have hk₂ : s₂.negotiation = s₁.negotiation := started_kept (fun x s' h => by cases h; rfl) h₂
  have hk₃ : s₃.negotiation = s₂.negotiation := started_kept (fun x s' h => by cases h; rfl) h₃
  have hk₄ : s'.negotiation = s₃.negotiation := started_kept (fun x s' h => by cases h; rfl) h₄
  rw [hk₄, hk₃, hk₂, hk₁]

/-- An event of the forwarding. -/
theorem Flowing.kept {e : Event} (hflow : Flowing s) (hs : Bridge.step s env e = some (.ok s'))
    (hc : s.connected = connects s.socks5State) (ha : s.accepted = accepts s.socks5State) :
    s'.negotiation = s.negotiation := by
  have hdone : ∀ {ec n m}, ¬ Completes s e ec n m := by
    intro ec n m hcompletes
    cases hcompletes with
    | connect hlt => omega
    | accept hlt => omega
  cases happens_of_step hs with
  | clientRecv heq hr => cases hr; rfl
  | destRecv heq hr => cases hr; rfl
  | clientSend heq hr => cases hr; rfl
  | destSend heq hr => cases hr; rfl
  | handshakeRead hop hr =>
    obtain ⟨f, g, -, hn⟩ := hflow.forwarding
    cases hn.1 _ hop
  | clientRead hop hr | destRead hop hr | clientWrite hop hr | destWrite hop hr =>
    obtain ⟨⟨h', p⟩, -, h⟩ := bind_eq_ok.mp hr
    have hkept := forwardTraffic_kept h
    exact hkept
  | failed hcompletes hfail hr => exact absurd hcompletes hdone
  | established hcompletes hfail hr => exact absurd hcompletes hdone

end Kept

/-! ## The invariant -/

/-- Everything that was received has been fed to the state machine, which has not failed and lacks
bytes. -/
def Listening (env : Env) (s : ProxyBridge) : Prop :=
  ∃ q, s.upstream.received = s.consumed ++ q ∧
    Socks5.finish env.callbacks ⟨{}, s.upstream.received⟩ = ⟨s.socks5State, q⟩ ∧
    s.socks5State.state ≠ .kFail ∧ q.length < s.socks5State.requiredSize

/-- The bridge has not forwarded yet, and it reads only while the handshake goes on. -/
structure Negotiating (env : Env) (s : ProxyBridge) : Prop extends Handshaking s where
  unanswered : Unanswered s.socks5State
  connected : s.connected ≤ connects s.socks5State
  accepted : s.accepted ≤ accepts s.socks5State
  listening : s.upstream.readOp.isSome = true → Listening env s

/-- The bridge forwards, and no connection is still to come. -/
structure Relaying (s : ProxyBridge) : Prop extends Flowing s where
  state : s.socks5State.state ≠ .kFail
  connected : s.connected = connects s.socks5State
  accepted : s.accepted = accepts s.socks5State

/-- The invariant. -/
def Orderly (env : Env) (s : ProxyBridge) : Prop := Relaying s ∨ Negotiating env s

/-- A failed handshake leaves no read or write outstanding. -/
def Quiet (s : ProxyBridge) : Prop :=
  s.socks5State.state = .kFail →
    s.upstream.readOp = none ∧ s.upstream.writeOp = none ∧
      s.downstream.readOp = none ∧ s.downstream.writeOp = none

/-- The event is not a handshake read after which the stream has a field group at which the
handshake fails and fewer bytes behind the group than the group has. -/
def Roomy (env : Env) (s : ProxyBridge) : Event → Prop
  | .clientRead => ∀ buffers bytes,
    s.upstream.readOp = some ⟨.socks5Handshake, buffers, some (bytes, .success)⟩ →
      ∀ g rest, Rejected (Greets env.callbacks) (s.upstream.received ++ bytes) g rest →
        g.length ≤ rest.length
  | _ => True

section Steps

variable {s s' : ProxyBridge} {env : Env}

theorem Orderly.quiet (ho : Orderly env s) : Quiet s := by
  intro hfail
  rcases ho with hr | hn
  · exact absurd hfail hr.state
  · refine ⟨Option.not_isSome_iff_eq_none.mp fun hsome => ?_, hn.upWrite, hn.downRead, hn.downWrite⟩
    obtain ⟨q, -, -, hne, -⟩ := hn.listening hsome
    exact hne hfail

/-- While a read is outstanding nothing has been dialled. -/
theorem Listening.undialed (hl : Listening env s) (hu : Unanswered s.socks5State)
    (hw : s.socks5State.Wf) : s.socks5State.dials = [] := by
  obtain ⟨q, -, -, hne, hlt⟩ := hl
  refine hu.undialed ?_
  cases hs : s.socks5State.state
  case kWaitConnect | kWaitAccept =>
    simp only [Ctl.Wf, hs] at hw
    omega
  case kResponse => exact absurd hs hu.state.1
  case kSuccess => exact absurd hs hu.state.2
  case kFail => exact absurd hs hne
  all_goals decide

theorem Inv.wf (hi : Inv s) : s.socks5State.Wf := by
  rcases hi with ⟨f, g, hc, -⟩ | ⟨f, g, hc, -⟩
  · exact hc.wf
  · exact hc.wf

/-- No read is outstanding once the handshake has dialled. -/
theorem Negotiating.readOp_none (hn : Negotiating env s) (hi : Inv s)
    (hd : 0 < connects s.socks5State + accepts s.socks5State) : s.upstream.readOp = none := by
  refine Option.not_isSome_iff_eq_none.mp fun hsome => ?_
  have hle := connects_add_accepts_le s.socks5State
  rw [(hn.listening hsome).undialed hn.unanswered hi.wf, List.length_nil] at hle
  omega

theorem Relaying.step {e : Event} (hr : Relaying s) (hs : Bridge.step s env e = some (.ok s')) :
    Orderly env s' ∧ Roomy env s e := by
  obtain ⟨s₁, heq, hflow, -⟩ := hr.toFlowing.step hs
  cases heq
  have hkept := hr.toFlowing.kept hs hr.connected hr.accepted
  simp only [ProxyBridge.negotiation, Prod.mk.injEq] at hkept
  obtain ⟨hctl, hconnected, haccepted⟩ := hkept
  refine ⟨.inl ⟨hflow, ?_, ?_, ?_⟩, ?_⟩
  · rw [hctl]
    exact hr.state
  · rw [hctl, hconnected]
    exact hr.connected
  · rw [hctl, haccepted]
    exact hr.accepted
  · cases e with
    | clientRead =>
      intro buffers bytes hop
      obtain ⟨f, g, -, hno⟩ := hr.forwarding
      cases hno.1 _ hop
    | _ => trivial

/-- The loop over the bytes of a read ends as a loop over all bytes would. -/
theorem Listening.proceeded {bytes : List Byte} (hl : Listening env s)
    (hp : Proceeded env s bytes .success s') (hu : Unanswered s.socks5State)
    (hw : s.socks5State.Wf) :
    ∃ q, s'.upstream.received = s'.consumed ++ q ∧
      Socks5.finish env.callbacks ⟨{}, s'.upstream.received⟩ = ⟨s'.socks5State, q⟩ ∧
      (s'.upstream.readOp.isSome = true ↔ q.length < s'.socks5State.requiredSize) ∧
      Unanswered s'.socks5State := by
  obtain ⟨q, hq, hfinish, hne, -⟩ := hl
  obtain ⟨q', hq', hfinish', hread⟩ := hp.looped rfl q hq
  refine ⟨q', hq', ?_, hread, ?_⟩
  · rcases Socks5.finish_append_cases env.callbacks (r := ⟨{}, s.upstream.received⟩) rfl bytes
      with h | ⟨h, -⟩
    · rw [hfinish] at h
      rw [hp.received, ← hfinish']
      exact h
    · rw [hfinish] at h
      exact absurd h hne
  · have hall := Socks5.finish_induct (fun c g _ h => unanswered_onGroup env g h)
      (r := ⟨s.socks5State, q ++ bytes⟩) hw hu
    rwa [hfinish'] at hall

/-- The handler of a handshake read. -/
theorem Negotiating.handshakeRead {buffers : List Buffer.SysBuf} {bytes : List Byte} {ec : ErrorCode}
    (hn : Negotiating env s) (hi : Inv s)
    (hop : s.upstream.readOp = some ⟨.socks5Handshake, buffers, some (bytes, ec)⟩)
    (hr : Bridge.socks5HandshakeHandler s env bytes ec = .ok s') :
    (Roomy env s .clientRead → Orderly env s') ∧ (¬ Roomy env s .clientRead → ¬ Quiet s') := by
  rcases hi with ⟨f, g, -, hno⟩ | ⟨f, g, hc, hh⟩
  · cases hno.1 _ hop
  obtain ⟨s₁, heq, -, hp⟩ := socks5HandshakeHandler_spec hc hh hop rfl
  rw [heq] at hr
  cases hr
  have hh' : Handshaking s' := hn.toHandshaking.socks5HandshakeHandler heq
  have hlisten := hn.listening (by rw [hop]; rfl)
  have hle := connects_add_accepts_le s.socks5State
  rw [hlisten.undialed hn.unanswered hc.wf, List.length_nil] at hle
  have hconnected : s'.connected = 0 := by
    have := hn.connected
    have := hp.completed.1
    omega
  have haccepted : s'.accepted = 0 := by
    have := hn.accepted
    have := hp.completed.2
    omega
  cases ec with
  | eof | other =>
    obtain ⟨hctl, hread⟩ := hp.cut rfl
    refine ⟨fun _ => .inr ⟨hh', hctl ▸ hn.unanswered, by omega, by omega, ?_⟩,
      fun hno => absurd ?_ hno⟩
    · rw [hread]
      intro hsome
      cases hsome
    · intro buffers' bytes' hop'
      rw [hop] at hop'
      cases hop'
  | success =>
    obtain ⟨q, hq, hfinish, hread, hu⟩ := hlisten.proceeded hp hn.unanswered hc.wf
    have hlacks := Socks5.lacks_iff env.callbacks s'.upstream.received
    rw [hfinish, hp.received] at hlacks
    refine ⟨fun hroomy => .inr ⟨hh', hu, by omega, by omega, fun hsome => ?_⟩, fun hno => ?_⟩
    · refine ⟨q, hq, hfinish, fun hfailed => ?_, hread.mp hsome⟩
      obtain ⟨g', rest, hrej, hlt⟩ := hlacks.mp ⟨hfailed, hread.mp hsome⟩
      have := hroomy buffers bytes hop g' rest hrej
      omega
    · intro hquiet
      refine hno fun buffers' bytes' hop' g' rest hrej => ?_
      rw [hop] at hop'
      cases hop'
      by_contra hlt
      obtain ⟨hfailed, hlack⟩ := hlacks.mpr ⟨g', rest, hrej, by omega⟩
      have hsome := hread.mpr hlack
      rw [(hquiet hfailed).1] at hsome
      cases hsome

theorem connects_reply (env : Env) (c : Ctl) (isBind : Bool) :
    connects (Socks5.reply env.callbacks c isBind).2 = connects c ∧
      accepts (Socks5.reply env.callbacks c isBind).2 = accepts c := by
  unfold Socks5.reply Socks5.callResponse Socks5.createResp
  simp only [Env.callbacks]
  split <;> simp [connects, accepts, Ctl.log, List.countP_append]

/-- The one connection that the handshake has asked for is there. -/
theorem Negotiating.established (hn : Negotiating env s) (hi : Inv s)
    (hread : s.upstream.readOp = none)
    (hall : connects s.socks5State + accepts s.socks5State ≤ s.connected + s.accepted)
    (heq : Bridge.established s env = .ok s') : Orderly env s' := by
  have hc := hn.connected
  have ha := hn.accepted
  by_cases hwait : s.socks5State.state = .kWaitConnect ∨ s.socks5State.state = .kWaitAccept
  · have hflow : Flowing s' := by
      refine (hn.toHandshaking.established hi heq).resolve_right fun h => ?_
      rw [Socks5.connectionSucceed_waiting hwait] at h
      cases h.2
    unfold Bridge.established at heq
    rw [Socks5.connectionSucceed_waiting hwait] at heq
    have hkept := forwardTraffic_kept heq
    simp only [ProxyBridge.negotiation, Prod.mk.injEq] at hkept
    obtain ⟨hctl, hconnected, haccepted⟩ := hkept
    obtain ⟨hcr, har⟩ := connects_reply env s.socks5State (s.socks5State.state = .kWaitAccept)
    refine .inl ⟨hflow, ?_, ?_, ?_⟩
    · rw [hctl]
      exact nofun
    · rw [hctl, hconnected]
      refine Eq.trans ?_ hcr.symm
      omega
    · rw [hctl, haccepted]
      refine Eq.trans ?_ har.symm
      omega
  · unfold Bridge.established at heq
    rw [Socks5.connectionSucceed_other hwait] at heq
    cases heq
    refine .inr ⟨hn.toHandshaking.update hn.handler,
      unanswered_of_idle (.inr (.inr rfl)) hn.unanswered.once, hc, ha, ?_⟩
    intro hsome
    rw [show s.upstream.readOp = none from hread] at hsome
    cases hsome

/-- A connect or an accept completes. -/
theorem Negotiating.completed {e : Event} {ec : ErrorCode} {n m : Nat} (hn : Negotiating env s)
    (hcompletes : Completes s e ec n m) :
    Negotiating env { s with connected := n, accepted := m } ∧ 0 < n + m ∧ Roomy env s e := by
  cases hcompletes with
  | connect hlt =>
    exact ⟨⟨hn.toHandshaking.update hn.handler, hn.unanswered, hlt, hn.accepted, hn.listening⟩,
      by omega, trivial⟩
  | accept hlt =>
    exact ⟨⟨hn.toHandshaking.update hn.handler, hn.unanswered, hn.connected, hlt, hn.listening⟩,
      by omega, trivial⟩

/-- One event before the forwarding. -/
theorem Negotiating.step {e : Event} (hn : Negotiating env s) (hi : Inv s)
    (hs : Bridge.step s env e = some (.ok s')) :
    (Roomy env s e → Orderly env s') ∧ (¬ Roomy env s e → ¬ Quiet s') := by
  cases happens_of_step hs with
  | clientRecv heq hr =>
    cases hr
    have hh' := hn.toHandshaking.recv heq
    obtain ⟨handler, buffers, hop, -, -, rfl⟩ := Pipe.recv_eq_some heq
    exact ⟨fun _ => .inr ⟨hh', hn.unanswered, hn.connected, hn.accepted,
      fun _ => hn.listening (by rw [hop]; rfl)⟩, fun h => absurd trivial h⟩
  | destRecv heq hr =>
    rw [Pipe.recv, hn.downRead] at heq
    cases heq
  | clientSend heq hr =>
    rw [Pipe.send, hn.downWrite] at heq
    cases heq
  | destSend heq hr =>
    rw [Pipe.send, hn.upWrite] at heq
    cases heq
  | handshakeRead hop hr => exact hn.handshakeRead hi hop hr
  | clientRead hop hr => cases hn.handler _ hop
  | destRead hop hr =>
    rw [hn.downRead] at hop
    cases hop
  | clientWrite hop hr =>
    rw [hn.downWrite] at hop
    cases hop
  | destWrite hop hr =>
    rw [hn.upWrite] at hop
    cases hop
  | failed hcompletes hfail hr =>
    obtain ⟨hn', -, hroomy⟩ := hn.completed hcompletes
    cases hr
    exact ⟨fun _ => .inr hn', fun h => absurd hroomy h⟩
  | established hcompletes hfail hr =>
    obtain ⟨hn', hpos, hroomy⟩ := hn.completed hcompletes
    have hconnected := hn'.connected
    have haccepted := hn'.accepted
    have hle := connects_add_accepts_le s.socks5State
    have honce := hn.unanswered.once
    dsimp only at hconnected haccepted
    refine ⟨fun _ => ?_, fun h => absurd hroomy h⟩
    refine hn'.established (hi.completed _ _) (hn.readOp_none hi (by omega)) ?_ hr
    dsimp only
    omega

/-- One event. -/
theorem Orderly.step {e : Event} (ho : Orderly env s) (hi : Inv s)
    (hs : Bridge.step s env e = some (.ok s')) :
    (Roomy env s e → Orderly env s') ∧ (¬ Roomy env s e → ¬ Quiet s') := by
  rcases ho with hr | hn
  · obtain ⟨ho', hroomy⟩ := hr.step hs
    exact ⟨fun _ => ho', fun h => absurd hroomy h⟩
  · exact hn.step hi hs

end Steps

/-! ## Runs -/

/-- The states of a run with the events that happened in them, the last one first, and the state in
which the run ends. -/
inductive Run (env : Env) : List (ProxyBridge × Event) → ProxyBridge → Prop
  | handshake {h : Heap} {i j : Nat} {s : ProxyBridge} : h.Fresh i j →
    performSocks5Handshake (.new h i j) = .ok s → Run env [] s
  | forward {h : Heap} {i j : Nat} {s : ProxyBridge} : h.Fresh i j →
    forwardTraffic (.new h i j) = .ok s → Run env [] s
  | step {steps : List (ProxyBridge × Event)} {s s' : ProxyBridge} {e : Event} : Run env steps s →
    Bridge.step s env e = some (.ok s') → Run env ((s, e) :: steps) s'

section Runs

variable {s : ProxyBridge} {env : Env} {steps : List (ProxyBridge × Event)}

theorem Run.reachable (hr : Run env steps s) : Reachable env s := by
  induction hr with
  | handshake hf heq => exact .handshake hf heq
  | forward hf heq => exact .forward hf heq
  | step _ hs ih => exact ih.step hs

theorem orderly_handshake (env : Env) {h : Heap} {i j : Nat} (hf : h.Fresh i j)
    (heq : performSocks5Handshake (.new h i j) = .ok s) : Orderly env s := by
  have hh := (handshaking_new h i j).performSocks5Handshake heq
  obtain ⟨s₁, heq₁, -, h', b, op, rfl⟩ := performSocks5Handshake_new hf
  rw [heq] at heq₁
  cases heq₁
  refine .inr ⟨hh, unanswered_of_undialed ⟨nofun, nofun⟩ rfl, Nat.le_refl 0, Nat.le_refl 0, ?_⟩
  intro _
  exact ⟨[], rfl, Socks5.finish_insufficient nofun Nat.zero_lt_two, nofun, Nat.zero_lt_two⟩

theorem orderly_forward (env : Env) {h : Heap} {i j : Nat} (hf : h.Fresh i j)
    (heq : forwardTraffic (.new h i j) = .ok s) : Orderly env s := by
  obtain ⟨s₁, heq₁, hflow⟩ := forwardTraffic_new_flowing hf
  rw [heq] at heq₁
  cases heq₁
  have hkept := forwardTraffic_kept heq
  simp only [ProxyBridge.negotiation, Prod.mk.injEq] at hkept
  obtain ⟨hctl, hconnected, haccepted⟩ := hkept
  refine .inl ⟨hflow, ?_, ?_, ?_⟩
  · rw [hctl]
    exact nofun
  · rw [hctl, hconnected]
    rfl
  · rw [hctl, haccepted]
    rfl

/-- The invariant holds in a run whose handshake reads are all roomy. -/
theorem Run.orderly (hr : Run env steps s) (h : ∀ p ∈ steps, Roomy env p.1 p.2) : Orderly env s := by
  induction hr with
  | handshake hf heq => exact orderly_handshake env hf heq
  | forward hf heq => exact orderly_forward env hf heq
  | step hr hs ih =>
    obtain ⟨hroomy, hroomies⟩ := List.forall_mem_cons.mp h
    exact ((ih hroomies).step hr.reachable.inv hs).1 hroomy

/-- A failed handshake ends: in every state of a run, `kFail` leaves no read or write outstanding,
if and only if after every handshake read of the run the field group at which the handshake fails,
if there is one, has at least as many bytes behind it as it has itself. -/
theorem failed_handshake_ends (hr : Run env steps s) :
    (Quiet s ∧ ∀ p ∈ steps, Quiet p.1) ↔ ∀ p ∈ steps, Roomy env p.1 p.2 := by
  induction hr with
  | handshake hf heq =>
    exact ⟨fun _ => List.forall_mem_nil _,
      fun _ => ⟨(orderly_handshake env hf heq).quiet, List.forall_mem_nil _⟩⟩
  | forward hf heq =>
    exact ⟨fun _ => List.forall_mem_nil _,
      fun _ => ⟨(orderly_forward env hf heq).quiet, List.forall_mem_nil _⟩⟩
  | @step steps s s' e hr hs ih =>
    rw [List.forall_mem_cons, List.forall_mem_cons]
    constructor
    · rintro ⟨hquiet', hquiet⟩
      have hroomies := ih.mp hquiet
      refine ⟨?_, hroomies⟩
      by_contra hno
      exact ((hr.orderly hroomies).step hr.reachable.inv hs).2 hno hquiet'
    · rintro ⟨hroomy, hroomies⟩
      have ho' := ((hr.orderly hroomies).step hr.reachable.inv hs).1 hroomy
      exact ⟨ho'.quiet, ih.mpr hroomies⟩

end Runs

theorem runEvents_singleton {env : Env} {s s' : ProxyBridge} {e : Event}
    (h : runEvents env s [e] = some s') : Bridge.step s env e = some (.ok s') := by
  unfold runEvents at h
  split at h
  · next heq =>
    cases h
    exact heq
  · cases h

/-- A client that speaks SOCKS4 and sends two more bytes: the handshake fails, and it is quiet. -/
theorem failed_handshake_ends_roomy :
    ∃ steps s, Run .open steps s ∧ s.socks5State.state = .kFail ∧ Quiet s := by
  obtain ⟨s₀, s₁, h₀, h₁, hgot, hreceived, h₂⟩ := exists_run .open
    (performSocks5Handshake (.new .empty 0 0)) [.clientRecv [4, 1, 0, 0] .success]
    (fun s => (∀ op ∈ s.upstream.readOp, op.got = some ([4, 1, 0, 0], .success)) ∧
      s.upstream.received = [] ∧ (runEvents .open s [.clientRead]).any
        fun s' => s'.socks5State.state = .kFail) (by decide +kernel)
  obtain ⟨s₂, h₂, hfail⟩ := (Option.any_eq_true _ _).mp h₂
  have hr := ((Run.handshake fresh_empty h₀).step (runEvents_singleton h₁)).step
    (runEvents_singleton h₂)
  refine ⟨_, s₂, hr, of_decide_eq_true hfail, ((failed_handshake_ends hr).mpr ?_).1⟩
  refine List.forall_mem_cons.mpr ⟨?_, List.forall_mem_cons.mpr ⟨trivial, List.forall_mem_nil _⟩⟩
  -- The version byte is wrong, so no group but the greeting header can be rejected.
  have hheader : ∀ w g rest, Rejected (Greets Env.open.callbacks) w g rest → w = [4, 1, 0, 0] →
      g.length ≤ rest.length := by
    intro w g rest hrej hw
    cases hrej with
    | greeting h =>
      cases hw
      exact Nat.le_refl 2
    | methods hn hm h => cases hw
    | request hg hgreets h =>
      obtain ⟨n, ms, -, -, -, rfl⟩ := hg
      cases hw
  intro buffers bytes hop g rest hrej
  cases hgot _ hop
  exact hheader _ g rest hrej (by rw [hreceived]; rfl)

/-- A client that speaks SOCKS4 and sends nothing more: another read is scheduled. -/
theorem failed_handshake_reads_on : ¬ ∀ env s, Reachable env s → Quiet s := by
  intro hall
  obtain ⟨s₀, s, h₀, hs, hfail, hread⟩ := exists_run .open (performSocks5Handshake (.new .empty 0 0))
    [.clientRecv [4, 1] .success, .clientRead]
    (fun s => s.socks5State.state = .kFail ∧ s.upstream.readOp.isSome = true) (by decide +kernel)
  have hquiet := hall .open s ((Reachable.handshake fresh_empty h₀).runEvents hs) hfail
  rw [hquiet.1] at hread
  cases hread

end Bridge
end Proxy
end TrustedCa
