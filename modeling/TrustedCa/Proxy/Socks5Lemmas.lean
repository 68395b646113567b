import TrustedCa.Proxy.Socks5

/-!
# One transition and one loop of the handshake, over a byte queue

`step` and `loop` are `proceed` and `proceedLoop` at `listSource`.

* `Ctl.Wf`: the required size that each state waits for.
* `step_eq`: a transition that has its bytes takes one field group (`Ctl.need` bytes) off the
  queue, and its outcome (`onGroup`) depends on these bytes only. The facts about a transition
  below (`step_append`, `step_wf`, `step_true`) are facts about `onGroup`.
* `loop_total`: the loop ends. A transition that returns true makes `HandshakeState.rank` smaller.
-/

namespace TrustedCa
namespace Proxy
namespace Socks5

/-- A handshake fed from a byte queue. -/
abbrev QRun := Run (List Byte)

variable {cb : Callbacks}

/-- `Proceed` on a byte queue. -/
def step (cb : Callbacks) (r : QRun) : Bool × QRun := Id.run (proceed listSource cb r)

/-- The handshake loop on a byte queue. -/
def loop (cb : Callbacks) (n : Nat) (r : QRun) : Option QRun := Id.run (proceedLoop listSource cb n r)

/-- Bytes that arrive in the buffer. -/
def Run.append (r : QRun) (x : List Byte) : QRun := { r with buffer := r.buffer ++ x }

@[simp] theorem append_ctl (r : QRun) (x : List Byte) : (r.append x).ctl = r.ctl := rfl

@[simp] theorem append_buffer (r : QRun) (x : List Byte) : (r.append x).buffer = r.buffer ++ x := rfl

theorem append_append (r : QRun) (x y : List Byte) : (r.append x).append y = r.append (x ++ y) := by
  simp [Run.append]

@[simp] theorem append_nil (r : QRun) : r.append [] = r := by simp [Run.append]

namespace Ctl

/-- The number of bytes that each state waits for. -/
def Wf (c : Ctl) : Prop :=
  match c.state with
  | .kGreetingHeader => c.requiredSize = 2
  | .kGreetingMethods => 1 ≤ c.requiredSize ∧ c.requiredSize ≤ 255
  | .kRequestHeader => c.requiredSize = 4
  | .kRequestAddrV4 => c.requiredSize = 6
  | .kRequestAddrV6 => c.requiredSize = 18
  | .kRequestBind => c.requiredSize = 6 ∨ c.requiredSize = 18
  | .kWaitConnect | .kWaitAccept | .kResponse => c.requiredSize = 0
  | .kSuccess | .kFail => True

/-- The number of bytes that a transition takes off the buffer. -/
def need (c : Ctl) : Nat :=
  match c.state with
  | .kGreetingHeader | .kGreetingMethods | .kRequestHeader | .kRequestAddrV4 | .kRequestAddrV6
  | .kRequestBind => c.requiredSize
  | .kWaitConnect | .kWaitAccept | .kResponse | .kSuccess | .kFail => 0

theorem need_le (c : Ctl) : c.need ≤ c.requiredSize := by
  unfold need; split <;> simp

/-- The outcome of a transition on the field group `g` of its state. -/
def onGroup (cb : Callbacks) (c : Ctl) (g : List Byte) : Bool × Ctl :=
  match c.state with
  | .kGreetingHeader => onGreetingHeader c g
  | .kGreetingMethods => onGreetingMethods cb c g
  | .kRequestHeader => onRequestHeader c g
  | .kRequestAddrV4 => onRequestAddr cb c (.inet (arrayOf 4 (g.take 4)) (arrayOf 2 (g.drop 4)))
  | .kRequestAddrV6 => onRequestAddr cb c (.inet6 (arrayOf 16 (g.take 16)) (arrayOf 2 (g.drop 16)))
  | .kRequestBind => onRequestBind cb c (ntohs (arrayOf 2 (g.drop (c.requiredSize - 2))))
  | .kResponse => onResponse cb c
  | .kWaitConnect | .kWaitAccept | .kSuccess => (false, c)
  | .kFail => (false, c.goTo .kFail 0)

end Ctl

/-! ## One transition -/

theorem step_insufficient {r : QRun} (h : r.buffer.length < r.ctl.requiredSize) :
    step cb r = (false, r) := by
  simp [step, proceed, insufficientBuffer, listSource, h]

/-- A transition that has its bytes takes one field group. -/
theorem step_eq {r : QRun} (hw : r.ctl.Wf) (hs : r.ctl.requiredSize ≤ r.buffer.length) :
    step cb r = decided (r.ctl.onGroup cb (r.buffer.take r.ctl.need)) (r.buffer.drop r.ctl.need) := by
  obtain ⟨⟨s, n, calls⟩, q⟩ := r
  simp only at hs
  have hlt : ¬ q.length < n := by omega
  unfold step proceed
  simp only [insufficientBuffer, listSource, hlt, decide_false, Bool.false_eq_true, ↓reduceIte]
  cases s <;> simp only [Ctl.Wf] at hw <;>
    simp only [Id.run, bind, pure, Ctl.need, Ctl.onGroup, List.drop_drop, List.drop_zero]
  case kGreetingHeader => rw [hw]
  case kRequestHeader => rw [hw]
  case kRequestAddrV4 => rw [hw, List.take_take, List.drop_take]; rfl
  case kRequestAddrV6 => rw [hw, List.take_take, List.drop_take]; rfl
  case kRequestBind =>
    have h2 : n - 2 + 2 = n := by omega
    have h3 : n - (n - 2) = 2 := by omega
    rw [List.drop_take, h2, h3]
  all_goals rfl

theorem step_append {r : QRun} (hw : r.ctl.Wf) (hs : r.ctl.requiredSize ≤ r.buffer.length)
    (x : List Byte) : step cb (r.append x) = ((step cb r).1, (step cb r).2.append x) := by
  have hn := Nat.le_trans r.ctl.need_le hs
  have hs' : (r.append x).ctl.requiredSize ≤ (r.append x).buffer.length := by
    simp only [append_ctl, append_buffer, List.length_append]; omega
  rw [step_eq hw hs, step_eq (append_ctl r x ▸ hw) hs']
  simp only [append_ctl, append_buffer, List.take_append_of_le_length hn,
    List.drop_append_of_le_length hn]
  rfl

section Decisions

variable {c : Ctl} {g : List Byte}

/-- A state in which `Proceed` reads nothing and calls nothing. -/
def Ctl.Idle (c : Ctl) : Prop :=
  c.state = .kWaitConnect ∨ c.state = .kWaitAccept ∨ c.state = .kSuccess ∨ c.state = .kFail

theorem onGroup_idle (h : c.Idle) (g : List Byte) :
    c.onGroup cb g = (false, if c.state = .kFail then c.goTo .kFail 0 else c) := by
  rcases h with h | h | h | h <;> simp [Ctl.onGroup, h]

/-- The distance of a state to the end of the handshake. -/
def HandshakeState.rank : HandshakeState → Nat
  | .kGreetingHeader => 6
  | .kGreetingMethods => 5
  | .kRequestHeader => 4
  | .kRequestAddrV4 | .kRequestAddrV6 | .kRequestBind => 3
  | .kResponse => 2
  | .kWaitConnect | .kWaitAccept => 1
  | .kSuccess | .kFail => 0

/-- What a transition leaves behind: it moved on to a well-formed state nearer to the end, or it
stopped in an idle one. -/
def Moved (c : Ctl) (d : Bool × Ctl) : Prop :=
  d.2.Wf ∧ (d.1 = true → d.2.state.rank < c.state.rank) ∧ (d.1 = false → d.2.Idle)

theorem moved_fail (d : Ctl) : Moved c (afterSwitch d.fail) :=
  ⟨trivial, fun h => by simp [afterSwitch, Ctl.fail] at h, fun _ => .inr (.inr (.inr rfl))⟩

theorem moved_goTo {d : Ctl} {s : HandshakeState} {n : Nat} (hw : (d.goTo s n).Wf)
    (hr : s.rank < c.state.rank) (hf : s ≠ .kFail) : Moved c (afterSwitch (d.goTo s n)) :=
  ⟨hw, fun _ => hr, fun h => by simp [afterSwitch, Ctl.goTo, hf] at h⟩

theorem moved_onGreetingHeader (h : c.state = .kGreetingHeader) :
    Moved c (onGreetingHeader c g) := by
  unfold onGreetingHeader
  split
  · exact moved_fail c
  · rename_i hg
    simp only [not_or] at hg
    have hpos : (g.getD 1 0).toNat ≠ 0 := fun h0 => hg.2 (UInt8.toNat_inj.mp h0)
    have hlt := (g.getD 1 0).toNat_lt
    exact moved_goTo ⟨Nat.one_le_iff_ne_zero.mpr hpos, by simp only [Ctl.goTo]; omega⟩
      (by simp [h, HandshakeState.rank]) (by decide)

theorem moved_onGreetingMethods (h : c.state = .kGreetingMethods) :
    Moved c (onGreetingMethods cb c g) := by
  unfold onGreetingMethods
  dsimp only
  split
  · split
    · exact moved_goTo rfl (by simp [h, HandshakeState.rank]) (by decide)
    · exact moved_fail _
  · exact moved_fail c

theorem moved_onRequestHeader (h : c.state = .kRequestHeader) :
    Moved c (onRequestHeader c g) := by
  unfold onRequestHeader
  dsimp only
  repeat' split
  all_goals first
    | exact moved_fail c
    | apply moved_goTo
      · simp [Ctl.Wf, Ctl.goTo]
      · simp [h, HandshakeState.rank]
      · decide

theorem moved_onRequestAddr (h : 3 = c.state.rank) (addr : Sockaddr) :
    Moved c (onRequestAddr cb c addr) := by
  unfold onRequestAddr
  split
  · exact moved_goTo rfl (by rw [← h]; decide) (by decide)
  · simp only
    split
    · exact moved_goTo rfl (by rw [← h]; decide) (by decide)
    · exact ⟨rfl, fun h => by simp at h, fun _ => .inl rfl⟩
    · exact ⟨trivial, fun h => by simp [afterSwitch, Ctl.goTo] at h, fun _ => .inr (.inr (.inr rfl))⟩

theorem moved_onRequestBind (port : UInt16) : Moved c (onRequestBind cb c port) := by
  unfold onRequestBind
  dsimp only
  split
  · exact moved_fail _
  · split
    · exact moved_fail _
    · exact ⟨rfl, fun h => by simp at h, fun _ => .inr (.inl rfl)⟩

theorem moved_onResponse (h : c.state = .kResponse) : Moved c (onResponse cb c) := by
  unfold onResponse
  dsimp only
  split
  · exact moved_goTo trivial (by simp [h, HandshakeState.rank]) (by decide)
  · exact moved_fail _

theorem moved_onGroup (hw : c.Wf) (g : List Byte) : Moved c (c.onGroup cb g) := by
  cases hs : c.state <;> simp only [Ctl.onGroup, hs]
  case kGreetingHeader => exact moved_onGreetingHeader hs
  case kGreetingMethods => exact moved_onGreetingMethods hs
  case kRequestHeader => exact moved_onRequestHeader hs
  case kRequestAddrV4 | kRequestAddrV6 =>
    exact moved_onRequestAddr (by simp [hs, HandshakeState.rank]) _
  case kRequestBind => exact moved_onRequestBind _
  case kResponse => exact moved_onResponse hs
  case kFail => exact ⟨trivial, fun h => by simp at h, fun _ => .inr (.inr (.inr rfl))⟩
  all_goals exact ⟨hw, fun h => by simp at h, fun _ => by simp [Ctl.Idle, hs]⟩

end Decisions

theorem step_wf {r : QRun} (hw : r.ctl.Wf) : (step cb r).2.ctl.Wf := by
  by_cases hs : r.ctl.requiredSize ≤ r.buffer.length
  · rw [step_eq hw hs]; exact (moved_onGroup hw _).1
  · rw [step_insufficient (by omega)]; exact hw

/-- A transition that returns true had its bytes, and it is nearer to the end. -/
theorem step_true {r : QRun} (hw : r.ctl.Wf) (h : (step cb r).1 = true) :
    r.ctl.requiredSize ≤ r.buffer.length ∧
      (step cb r).2.ctl.state.rank < r.ctl.state.rank := by
  by_cases hs : r.ctl.requiredSize ≤ r.buffer.length
  · rw [step_eq hw hs] at h ⊢
    exact ⟨hs, (moved_onGroup hw _).2.1 h⟩
  · rw [step_insufficient (by omega)] at h; cases h

/-- A transition that returns false lacked bytes, or it ends in an idle state. -/
theorem step_false {r : QRun} (hw : r.ctl.Wf) (h : (step cb r).1 = false) :
    (r.buffer.length < r.ctl.requiredSize ∧ step cb r = (false, r)) ∨
      (r.ctl.requiredSize ≤ r.buffer.length ∧ (step cb r).2.ctl.Idle) := by
  by_cases hs : r.ctl.requiredSize ≤ r.buffer.length
  · rw [step_eq hw hs] at h ⊢
    exact .inr ⟨hs, (moved_onGroup hw _).2.2 h⟩
  · exact .inl ⟨by omega, step_insufficient (by omega)⟩

/-! ## The loop -/

theorem loop_succ (n : Nat) (r : QRun) :
    loop cb (n + 1) r = if r.ctl.state = .kSuccess then some r
      else if (step cb r).1 then loop cb n (step cb r).2 else some (step cb r).2 := by
  unfold loop step
  rw [proceedLoop]
  split
  · rfl
  · simp only [Id.run, bind, pure]
    rfl

/-- The loop ends within `rank + 1` iterations, with the same result for every larger bound. -/
theorem loop_total (cb : Callbacks) {r : QRun} (hw : r.ctl.Wf) :
    ∃ r', r'.ctl.Wf ∧ ∀ n, r.ctl.state.rank < n → loop cb n r = some r' := by
  induction hk : r.ctl.state.rank using Nat.strongRecOn generalizing r with
  | _ k ih =>
    by_cases hs : r.ctl.state = .kSuccess
    · refine ⟨r, hw, fun n hn => ?_⟩
      obtain ⟨n, rfl⟩ := Nat.exists_eq_add_of_lt hn
      rw [loop_succ, if_pos hs]
    · cases h1 : (step cb r).1 with
      | true =>
        have hlt := (step_true hw h1).2
        rw [hk] at hlt
        obtain ⟨r', hw', hr'⟩ := ih _ hlt (step_wf hw) rfl
        refine ⟨r', hw', fun n hn => ?_⟩
        obtain ⟨n, rfl⟩ := Nat.exists_eq_add_of_lt hn
        rw [loop_succ]
        simp only [hs, h1, ↓reduceIte]
        exact hr' _ (by omega)
      | false =>
        refine ⟨(step cb r).2, step_wf hw, fun n hn => ?_⟩
        obtain ⟨n, rfl⟩ := Nat.exists_eq_add_of_lt hn
        rw [loop_succ]
        simp [hs, h1]

theorem HandshakeState.rank_le (s : HandshakeState) : s.rank < 7 := by cases s <;> decide

/-- The run that the loop ends in. -/
def finish (cb : Callbacks) (r : QRun) : QRun := (loop cb 7 r).getD r

theorem loop_eq_finish {r : QRun} (hw : r.ctl.Wf) {n : Nat} (hn : r.ctl.state.rank < n) :
    loop cb n r = some (finish cb r) := by
  obtain ⟨r', -, h⟩ := loop_total cb hw
  rw [finish, h n hn, h 7 (HandshakeState.rank_le _), Option.getD_some]

theorem finish_wf {r : QRun} (hw : r.ctl.Wf) : (finish cb r).ctl.Wf := by
  obtain ⟨r', hw', h⟩ := loop_total cb hw
  rw [finish, h 7 (HandshakeState.rank_le _), Option.getD_some]
  exact hw'

theorem finish_success {r : QRun} (h : r.ctl.state = .kSuccess) : finish cb r = r := by
  rw [finish, loop_succ, if_pos h, Option.getD_some]

theorem finish_of_true {r : QRun} (hw : r.ctl.Wf) (hs : r.ctl.state ≠ .kSuccess)
    (h : (step cb r).1 = true) : finish cb r = finish cb (step cb r).2 := by
  have h1 : loop cb _ r = _ := loop_eq_finish hw (Nat.lt_succ_self _)
  rw [loop_succ, if_neg hs, if_pos h, loop_eq_finish (step_wf hw) (step_true hw h).2] at h1
  exact (Option.some.inj h1).symm

theorem finish_of_false {r : QRun} (hs : r.ctl.state ≠ .kSuccess) (h : (step cb r).1 = false) :
    finish cb r = (step cb r).2 := by
  rw [finish, loop_succ, if_neg hs]
  simp [h]

/-- What the outcome of every field group keeps, the loop keeps. -/
theorem finish_induct {P : Ctl → Prop} (hstep : ∀ c g, c.Wf → P c → P (c.onGroup cb g).2) {r : QRun}
    (hw : r.ctl.Wf) (h : P r.ctl) : P (finish cb r).ctl := by
  have hnext : ∀ r : QRun, r.ctl.Wf → P r.ctl → P (step cb r).2.ctl := by
    intro r hw h
    by_cases hs : r.ctl.requiredSize ≤ r.buffer.length
    · rw [step_eq hw hs]
      exact hstep _ _ hw h
    · rw [step_insufficient (by omega)]
      exact h
  induction hk : r.ctl.state.rank using Nat.strongRecOn generalizing r with
  | _ k ih =>
    by_cases hs : r.ctl.state = .kSuccess
    · rw [finish_success hs]; exact h
    cases h1 : (step cb r).1 with
    | true =>
      rw [finish_of_true hw hs h1]
      exact ih _ (hk ▸ (step_true hw h1).2) (step_wf hw) (hnext r hw h) rfl
    | false =>
      rw [finish_of_false hs h1]
      exact hnext r hw h

end Socks5
end Proxy
end TrustedCa
