import TrustedCa.Proxy.ClientSessionPool
import TrustedCa.Spec.Except
import TrustedCa.Spec.Slots

/-!
# The invariant of the socket vendor's pool

Until the pool is stopped, every slot has one outstanding operation (`Inv`). A handler takes the
operation off its slot, which is then the handler's alone (`Idle`), and puts one on it again.

* `OpOk`: an operation is on the socket that is in its slot, and the bytes of a read are at the front
  of the slot's buffer.
* `Base`: the sockets are distinct and never used again. A descriptor that was sent or closed is in
  no slot.
* `Handled`: what a handler of slot `i` does. It leaves every other slot as it is (`Frame`).
-/

namespace TrustedCa
namespace Proxy
namespace SessionPool

open Spec (bind_eq_ok)
open Spec.Slots (OneEach AllBut)

/-- The socket of an operation on a slot. -/
def Pending.sock : Pending → Option Nat
  | .connect sock | .read sock _ => some sock
  | .wait => none

/-- The socket that an action gives away. -/
def Action.retired : Action → Option Nat
  | .descriptor sock _ _ | .close sock => some sock
  | .bindResponse _ | .listenResponse | .request _ _ => none

/-- The descriptor and the message that an action sends. -/
def Action.sent : Action → Option (Nat × MicroBuffer)
  | .descriptor sock data _ => some (sock, data)
  | .bindResponse _ | .listenResponse | .request _ _ | .close _ => none

/-- The descriptor messages so far. -/
def ClientSessionPool.descriptors (s : ClientSessionPool) : List (Nat × MicroBuffer) :=
  s.log.filterMap Action.sent

/-- An operation fits the slot that it is on. -/
structure OpOk (s : ClientSessionPool) (op : Op) : Prop where
  slot : op.index < s.pool.length
  sock : ∀ x ∈ op.pending.sock, s.pool[op.index]? = some x
  bytes : ∀ x r, op.pending = .read x r → ∀ buf ∈ s.buffers[op.index]?, r.bytes <+: buf.val

structure Base (s : ClientSessionPool) : Prop where
  slots : 2 ≤ s.pool.length
  size : s.pool.length ≤ s.poolSize
  buffers : s.buffers.length = s.poolSize
  ops : ∀ op ∈ s.ops, OpOk s op
  single : (s.ops.map Op.index).Nodup
  nodup : s.pool.Nodup
  fresh : ∀ x ∈ s.pool, x < s.sockets
  gone : ∀ a ∈ s.log, ∀ x ∈ a.retired, x < s.sockets ∧ x ∉ s.pool
  once : (s.descriptors.map Prod.fst).Nodup

/-- Every slot has its operation. -/
structure Inv (s : ClientSessionPool) : Prop extends Base s where
  each : s.stop = false → OneEach Op.index s.ops s.pool.length

/-- A handler of slot `i` runs. -/
structure Idle (s : ClientSessionPool) (i : Nat) : Prop extends Base s where
  lt : i < s.pool.length
  others : s.stop = false → AllBut Op.index s.ops s.pool.length i

/-- Slot `j` is as it was. -/
structure Frame (j : Nat) (s s' : ClientSessionPool) : Prop where
  pool : j < s.pool.length → s'.pool[j]? = s.pool[j]?
  buffer : s'.buffers[j]? = s.buffers[j]?
  ops : ∀ op ∈ s.ops, op.index = j → op ∈ s'.ops
  log : ∃ acts, s'.log = s.log ++ acts ∧ ∀ a ∈ acts, ∀ x ∈ a.retired, s.pool[j]? ≠ some x

/-- A handler of slot `i` has run. -/
structure Handled (i : Nat) (s s' : ClientSessionPool) : Prop where
  inv : Inv s'
  frame : ∀ j, j ≠ i → Frame j s s'
  log : s.log <+: s'.log

section Slots

variable {s s' : ClientSessionPool} {i j k : Nat} {op : Op} {sock : Nat}

/-- A change that others do not see. -/
theorem Frame.of_log_eq (hlog : s'.log = s.log) (hpool : j < s.pool.length → s'.pool[j]? = s.pool[j]?)
    (hbuffer : s'.buffers[j]? = s.buffers[j]?)
    (hops : ∀ op ∈ s.ops, op.index = j → op ∈ s'.ops) : Frame j s s' :=
  ⟨hpool, hbuffer, hops, [], by rw [hlog, List.append_nil], fun _ ha => absurd ha List.not_mem_nil⟩

theorem Frame.refl (j : Nat) (s : ClientSessionPool) : Frame j s s :=
  .of_log_eq rfl (fun _ => rfl) rfl fun _ h _ => h

theorem Frame.halt (j : Nat) (s : ClientSessionPool) : Frame j s s.halt :=
  .of_log_eq rfl (fun _ => rfl) rfl fun _ h _ => h

theorem sock_eq_ok (h : s.pool[i]? = some sock) : s.sock i = .ok sock := by
  rw [ClientSessionPool.sock, h]

theorem buffer_eq_ok {buf : MicroBuffer} (h : s.buffers[i]? = some buf) : s.buffer i = .ok buf := by
  rw [ClientSessionPool.buffer, h]

theorem pool_of_sock_eq_ok (h : s.sock i = .ok sock) : s.pool[i]? = some sock := by
  unfold ClientSessionPool.sock at h
  split at h
  · next hsock => cases h; exact hsock
  · cases h

theorem lt_of_buffer_eq_ok {buf : MicroBuffer} (h : s.buffer i = .ok buf) :
    i < s.buffers.length := by
  unfold ClientSessionPool.buffer at h
  split at h
  · next hbuf => exact (List.getElem?_eq_some_iff.mp hbuf).1
  · cases h

theorem exists_sock (hi : i < s.pool.length) : ∃ sock, s.pool[i]? = some sock :=
  ⟨_, List.getElem?_eq_getElem hi⟩

theorem Base.exists_buffer (hb : Base s) (hi : i < s.pool.length) :
    ∃ buf, s.buffers[i]? = some buf := by
  have hlt : i < s.buffers.length := by
    rw [hb.buffers]
    exact Nat.lt_of_lt_of_le hi hb.size
  exact ⟨_, List.getElem?_eq_getElem hlt⟩

/-- Different slots have different sockets. -/
theorem Base.sock_ne (hb : Base s) (hne : j ≠ i) (hi : i < s.pool.length)
    (hsock : s.pool[i]? = some sock) : s.pool[j]? ≠ some sock := by
  intro hj
  exact hne ((List.getElem?_inj hi hb.nodup).mp (hsock.trans hj.symm)).symm

/-- The descriptor of a socket in the pool has not been sent. -/
theorem Base.unsent (hb : Base s) (hmem : sock ∈ s.pool) : sock ∉ s.descriptors.map Prod.fst := by
  intro hin
  obtain ⟨⟨x, data⟩, hx, rfl⟩ := List.mem_map.mp hin
  obtain ⟨a, ha, hsent⟩ := List.mem_filterMap.mp hx
  cases a with
  | descriptor _ _ _ =>
    cases hsent
    exact (hb.gone _ ha x rfl).2 hmem
  | bindResponse _ | listenResponse | request _ _ | close _ => cases hsent

theorem Inv.done (hs : Inv s) (hk : s.ops[k]? = some op) : Idle (s.done k) op.index := by
  have hsub : ∀ x ∈ s.ops.eraseIdx k, x ∈ s.ops := fun x hx => List.mem_of_mem_eraseIdx hx
  refine ⟨⟨hs.slots, hs.size, hs.buffers, ?_, ?_, hs.nodup, hs.fresh, hs.gone, hs.once⟩, ?_, ?_⟩
  · intro x hx
    exact ⟨(hs.ops x (hsub x hx)).slot, (hs.ops x (hsub x hx)).sock, (hs.ops x (hsub x hx)).bytes⟩
  · exact hs.single.sublist ((List.eraseIdx_sublist s.ops k).map Op.index)
  · exact (hs.ops op (List.mem_of_getElem? hk)).slot
  · intro hstop
    exact (hs.each hstop).eraseIdx hk

/-- What a handler does is done to the pool without its operation. -/
theorem Frame.done (hne : op.index ≠ j) (hk : s.ops[k]? = some op) (hf : Frame j (s.done k) s') :
    Frame j s s' := by
  refine ⟨hf.pool, hf.buffer, fun x hx hj => hf.ops x ?_ hj, hf.log⟩
  obtain ⟨hlt, rfl⟩ := List.getElem?_eq_some_iff.mp hk
  have hmem : x ∈ s.ops[k] :: s.ops.eraseIdx k :=
    (List.getElem_cons_eraseIdx_perm hlt).mem_iff.mpr hx
  rcases List.mem_cons.mp hmem with rfl | hmem
  · exact absurd hj hne
  · exact hmem

/-! ## Handlers -/

/-- After `Stop` a handler returns at once. -/
theorem Idle.stopped (hi : Idle s i) (hstop : s.stop = true) : Handled i s s := by
  refine ⟨⟨hi.toBase, ?_⟩, fun j _ => .refl j s, List.prefix_rfl⟩
  rw [hstop]
  nofun

/-- `Stop`. -/
theorem Base.halt (hb : Base s) : Inv s.halt :=
  ⟨⟨hb.slots, hb.size, hb.buffers, fun op hop =>
    ⟨(hb.ops op hop).slot, (hb.ops op hop).sock, (hb.ops op hop).bytes⟩, hb.single, hb.nodup,
    hb.fresh, hb.gone, hb.once⟩, nofun⟩

/-- A slot starts again with a new socket. -/
def ClientSessionPool.restarted (s : ClientSessionPool) (i sock : Nat) : ClientSessionPool :=
  { s with
    pool := s.pool.set i s.sockets
    sockets := s.sockets + 1
    log := s.log ++ [.close sock]
    ops := s.ops ++ [⟨i, .connect s.sockets⟩] }

theorem initiateSocket_eq (hsock : s.pool[i]? = some sock) :
    initiateSocket s i = .ok (s.restarted i sock) := by
  have hlt : i < s.pool.length := (List.getElem?_eq_some_iff.mp hsock).1
  have hnew : (s.pool.set i s.sockets)[i]? = some s.sockets := List.getElem?_set_self hlt
  simp [initiateSocket, ClientSessionPool.sock, hsock, ClientSessionPool.act, hnew, bind,
    Except.bind, ClientSessionPool.restarted, ClientSessionPool.begin]
  rfl

/-- A value is not in a list without duplicates after it was replaced. -/
theorem notMem_set {l : List Nat} {x y : Nat} (hl : l.Nodup) (hx : l[i]? = some x) (hne : x ≠ y) :
    x ∉ l.set i y := by
  have hlt : i < l.length := (List.getElem?_eq_some_iff.mp hx).1
  intro hmem
  obtain ⟨j, hj⟩ := List.getElem?_of_mem hmem
  by_cases hij : i = j
  · subst hij
    rw [List.getElem?_set_self hlt] at hj
    exact hne (Option.some.inj hj).symm
  · rw [List.getElem?_set_ne hij] at hj
    exact hij ((List.getElem?_inj hlt hl).mp (hx.trans hj.symm))

/-- `InitiateSocket`, after the errors were counted or the descriptor was sent. -/
theorem Idle.restarted (hi : Idle s i) (hstop : s.stop = false) (hsock : s.pool[i]? = some sock)
    (acts : List Action) (n : Nat) (hacts : acts = [] ∨ ∃ data m, acts = [.descriptor sock data m]) :
    Handled i s ({ s with log := s.log ++ acts, numberOfErrors := n }.restarted i sock) := by
  have hothers := hi.others hstop
  have hmem : sock ∈ s.pool := List.mem_of_getElem? hsock
  have hold : sock < s.sockets := hi.fresh sock hmem
  have hnew : s.sockets ∉ s.pool := fun h => Nat.lt_irrefl _ (hi.fresh _ h)
  have hretired : ∀ a ∈ acts ++ [.close sock], ∀ x ∈ a.retired, x = sock := by
    intro a ha x hx
    rcases hacts with rfl | ⟨data, m, rfl⟩ <;> simp at ha
    · subst ha
      simpa [Action.retired, eq_comm] using hx
    · rcases ha with rfl | rfl <;> simpa [Action.retired, eq_comm] using hx
  have heach : OneEach Op.index (s.ops ++ [⟨i, .connect s.sockets⟩]) s.pool.length :=
    hothers.snoc rfl
  refine ⟨⟨⟨?_, ?_, hi.buffers, ?_, heach.nodup, ?_, ?_, ?_, ?_⟩, ?_⟩, ?_, ?_⟩
  · simpa [ClientSessionPool.restarted] using hi.slots
  · simpa [ClientSessionPool.restarted] using hi.size
  · intro op hop
    rcases List.mem_append.mp hop with hop | hop
    · have hne : op.index ≠ i := hothers.slot_ne hop
      obtain ⟨hslot, hs, hb⟩ := hi.ops op hop
      refine ⟨by simpa [ClientSessionPool.restarted] using hslot, fun x hx => ?_, hb⟩
      exact (List.getElem?_set_ne (Ne.symm hne)).trans (hs x hx)
    · rw [List.mem_singleton] at hop
      subst hop
      refine ⟨by simpa [ClientSessionPool.restarted] using hi.lt, fun x hx => ?_, nofun⟩
      cases hx
      exact List.getElem?_set_self hi.lt
  · exact hi.nodup.set hnew
  · intro x hx
    rcases List.mem_or_eq_of_mem_set hx with hx | rfl
    · exact Nat.lt_succ_of_lt (hi.fresh x hx)
    · exact Nat.lt_succ_self _
  · intro a ha x hx
    have ha' : a ∈ s.log ∨ a ∈ acts ++ [.close sock] := by
      simpa [ClientSessionPool.restarted, or_assoc] using ha
    rcases ha' with ha' | ha'
    · obtain ⟨hlt, hnot⟩ := hi.gone a ha' x hx
      refine ⟨Nat.lt_succ_of_lt hlt, fun hmem' => ?_⟩
      rcases List.mem_or_eq_of_mem_set hmem' with hin | rfl
      · exact hnot hin
      · exact Nat.lt_irrefl _ hlt
    · rw [hretired a ha' x hx]
      exact ⟨Nat.lt_succ_of_lt hold, notMem_set hi.nodup hsock (Nat.ne_of_lt hold)⟩
  · rcases hacts with rfl | ⟨data, m, rfl⟩
    · simpa [ClientSessionPool.descriptors, ClientSessionPool.restarted, List.filterMap_cons,
        Action.sent] using hi.once
    · have hsent := List.nodup_append.mpr ⟨hi.once, List.nodup_singleton sock, by
        intro x hx y hy hxy
        rw [List.mem_singleton] at hy
        exact hi.unsent hmem (hy ▸ hxy ▸ hx)⟩
      simpa [ClientSessionPool.descriptors, ClientSessionPool.restarted, List.filterMap_cons,
        Action.sent] using hsent
  · intro _
    simpa [ClientSessionPool.restarted] using heach
  · intro j hj
    refine ⟨fun _ => List.getElem?_set_ne (Ne.symm hj), rfl, fun op hop _ =>
      List.mem_append_left _ hop, acts ++ [.close sock], ?_, ?_⟩
    · simp [ClientSessionPool.restarted]
    · intro a ha x hx
      rw [hretired a ha x hx]
      exact hi.sock_ne hj hi.lt hsock
  · exact ⟨acts ++ [.close sock], by simp [ClientSessionPool.restarted]⟩

/-- A slot goes on with its next operation. Nothing is given away, and at most its own buffer is
written. -/
theorem Idle.begun (hi : Idle s i) (hstop : s.stop = false) (pending : Pending)
    (hsock : ∀ x ∈ pending.sock, s.pool[i]? = some x)
    (hread : ∀ x r, pending = .read x r → r.bytes = []) (acts : List Action)
    (hacts : ∀ a ∈ acts, a.retired = none ∧ a.sent = none) (bufs : List MicroBuffer)
    (hlen : bufs.length = s.buffers.length) (hbufs : ∀ j, j ≠ i → bufs[j]? = s.buffers[j]?) :
    Handled i s ({ s with log := s.log ++ acts, buffers := bufs }.begin i pending) := by
  have hothers := hi.others hstop
  have heach : OneEach Op.index (s.ops ++ [⟨i, pending⟩]) s.pool.length := hothers.snoc rfl
  refine ⟨⟨⟨hi.slots, hi.size, hlen.trans hi.buffers, ?_, heach.nodup, hi.nodup, hi.fresh, ?_, ?_⟩,
    fun _ => heach⟩, ?_, List.prefix_append ..⟩
  · intro op hop
    rcases List.mem_append.mp hop with hop | hop
    · obtain ⟨hslot, hs, hb⟩ := hi.ops op hop
      refine ⟨hslot, hs, ?_⟩
      show ∀ x r, op.pending = .read x r → ∀ buf ∈ bufs[op.index]?, r.bytes <+: buf.val
      rw [hbufs op.index (hothers.slot_ne hop)]
      exact hb
    · rw [List.mem_singleton] at hop
      subst hop
      refine ⟨hi.lt, hsock, fun x r hr buf _ => ?_⟩
      rw [hread x r hr]
      exact List.nil_prefix
  · intro a ha x hx
    rcases List.mem_append.mp ha with ha | ha
    · exact hi.gone a ha x hx
    · rw [(hacts a ha).1] at hx
      cases hx
  · have hnone : acts.filterMap Action.sent = [] :=
      List.filterMap_eq_nil_iff.mpr fun a ha => (hacts a ha).2
    simpa [ClientSessionPool.descriptors, ClientSessionPool.begin, hnone] using hi.once
  · intro j hj
    refine ⟨fun _ => rfl, hbufs j hj, fun op hop _ => List.mem_append_left _ hop, acts, rfl, ?_⟩
    intro a ha x hx
    rw [(hacts a ha).1] at hx
    cases hx

/-- A new slot at the end of the pool. -/
def ClientSessionPool.grown (s : ClientSessionPool) : ClientSessionPool :=
  s.emplaceBack.begin s.pool.length (.connect s.sockets)

theorem Inv.grown (hs : Inv s) (hstop : s.stop = false) (hlt : s.pool.length < s.poolSize) :
    Inv s.grown := by
  have heach : OneEach Op.index (s.ops ++ [⟨s.pool.length, .connect s.sockets⟩])
      (s.pool.length + 1) := (hs.each hstop).grow rfl
  have hlen : s.grown.pool.length = s.pool.length + 1 := List.length_append
  refine ⟨⟨?_, ?_, hs.buffers, ?_, heach.nodup, ?_, ?_, ?_, hs.once⟩, ?_⟩
  · rw [hlen]
    exact Nat.le_succ_of_le hs.slots
  · rw [hlen]
    exact hlt
  · intro op hop
    rcases List.mem_append.mp hop with hop | hop
    · obtain ⟨hslot, hsock, hb⟩ := hs.ops op hop
      refine ⟨by omega, fun x hx => ?_, hb⟩
      exact (List.getElem?_append_left hslot).trans (hsock x hx)
    · rw [List.mem_singleton] at hop
      subst hop
      refine ⟨by simp only [hlen]; omega, fun x hx => ?_, nofun⟩
      cases hx
      exact List.getElem?_concat_length
  · refine List.nodup_append.mpr ⟨hs.nodup, List.nodup_singleton _, ?_⟩
    intro x hx y hy hxy
    rw [List.mem_singleton] at hy
    have := hs.fresh x hx
    omega
  · intro x hx
    rcases List.mem_append.mp hx with hx | hx
    · exact Nat.lt_succ_of_lt (hs.fresh x hx)
    · rw [List.mem_singleton] at hx
      rw [hx]
      exact Nat.lt_succ_self _
  · intro a ha x hx
    obtain ⟨hlt, hnot⟩ := hs.gone a ha x hx
    refine ⟨Nat.lt_succ_of_lt hlt, fun hmem => ?_⟩
    rcases List.mem_append.mp hmem with hin | hin
    · exact hnot hin
    · rw [List.mem_singleton] at hin
      exact absurd hin (Nat.ne_of_lt hlt)
  · intro _
    rw [hlen]
    exact heach

theorem Frame.grown (j : Nat) (s : ClientSessionPool) : Frame j s s.grown :=
  .of_log_eq rfl (fun hj => List.getElem?_append_left hj) rfl fun _ hop _ =>
    List.mem_append_left _ hop

theorem Frame.trans {s₁ s₂ s₃ : ClientSessionPool} (h₁₂ : Frame j s₁ s₂) (h₂₃ : Frame j s₂ s₃)
    (hlen : s₁.pool.length ≤ s₂.pool.length) : Frame j s₁ s₃ := by
  obtain ⟨acts, hlog, hacts⟩ := h₁₂.log
  obtain ⟨acts', hlog', hacts'⟩ := h₂₃.log
  refine ⟨fun hj => ?_, h₂₃.buffer.trans h₁₂.buffer, fun op hop hj => ?_, acts ++ acts', ?_, ?_⟩
  · exact (h₂₃.pool (Nat.lt_of_lt_of_le hj hlen)).trans (h₁₂.pool hj)
  · exact h₂₃.ops op (h₁₂.ops op hop hj) hj
  · rw [hlog', hlog, List.append_assoc]
  · intro a ha x hx
    rcases List.mem_append.mp ha with ha | ha
    · exact hacts a ha x hx
    · intro hsome
      have hj : j < s₁.pool.length := (List.getElem?_eq_some_iff.mp hsome).1
      exact hacts' a ha x hx ((h₁₂.pool hj).trans hsome)

end Slots

section Handlers

variable {s s' : ClientSessionPool} {i k : Nat}

/-- An error on a slot. -/
theorem Idle.failed (hi : Idle s i) (hstop : s.stop = false) :
    ∃ s', initiateSocket s.fail i = .ok s' ∧ Handled i s s' ∧ s'.pool.length = s.pool.length := by
  obtain ⟨sock, hsock⟩ := exists_sock hi.lt
  have hh := hi.restarted hstop hsock [] (s.numberOfErrors + 1) (.inl rfl)
  rw [List.append_nil] at hh
  exact ⟨_, initiateSocket_eq hsock, hh, List.length_set⟩

/-- A slot whose connect has succeeded writes its request and waits for the first response. -/
theorem handleConnect_ok {sock : Nat} {buf : MicroBuffer} (hstop : s.stop = false)
    (hsock : s.pool[i]? = some sock) (hbuf : s.buffers[i]? = some buf) :
    handleConnect s i false true = .ok ((s.act (.request sock s.proxyBindRequest)).begin i
      (.read sock { resp := .first, whole := true })) := by
  rw [handleConnect, sock_eq_ok hsock]
  simp only [bind, Except.bind, hstop, Bool.false_eq_true, if_false, Bool.not_true]
  rw [buffer_eq_ok (s := s.act _) hbuf]
  rfl

theorem handleConnect_spec (hi : Idle s i) (failed written : Bool) :
    ∃ s', handleConnect s i failed written = .ok s' ∧ Handled i s s' ∧
      s'.pool.length = s.pool.length := by
  obtain ⟨sock, hsock⟩ := exists_sock hi.lt
  obtain ⟨buf, hbuf⟩ := hi.exists_buffer hi.lt
  by_cases hstop : s.stop = true
  · refine ⟨s, ?_, hi.stopped hstop, rfl⟩
    rw [handleConnect, sock_eq_ok hsock]
    simp only [bind, Except.bind, hstop, if_true]
    rfl
  · have hrun : s.stop = false := Bool.eq_false_of_not_eq_true hstop
    by_cases hok : failed = false ∧ written = true
    · obtain ⟨rfl, rfl⟩ := hok
      refine ⟨_, handleConnect_ok hrun hsock hbuf, hi.begun hrun _ ?_ ?_
        [.request sock s.proxyBindRequest] ?_ s.buffers rfl fun _ _ => rfl, rfl⟩
      · intro x hx
        cases hx
        exact hsock
      · intro x r hr
        cases hr
        rfl
      · intro a ha
        rw [List.mem_singleton] at ha
        subst ha
        exact ⟨rfl, rfl⟩
    · obtain ⟨s', heq, hh, hlen⟩ := hi.failed hrun
      refine ⟨s', ?_, hh, hlen⟩
      rw [handleConnect, sock_eq_ok hsock]
      simp only [bind, Except.bind, hrun, Bool.false_eq_true, if_false]
      cases failed with
      | true => exact heq
      | false =>
        cases written with
        | true => exact absurd ⟨rfl, rfl⟩ hok
        | false => exact heq

/-- The first response is the one event that adds a slot. -/
theorem handle1stResp_spec (hi : Idle s i) (failed : Bool) :
    ∃ s', handle1stResp s i failed = .ok s' ∧ Handled i s s' ∧
      (s'.pool.length = s.pool.length ∨ s'.pool.length = s.pool.length + 1 ∧
        ∃ sock, ⟨s.pool.length, .connect sock⟩ ∈ s'.ops) := by
  obtain ⟨sock, hsock⟩ := exists_sock hi.lt
  obtain ⟨buf, hbuf⟩ := hi.exists_buffer hi.lt
  rw [handle1stResp, sock_eq_ok hsock, buffer_eq_ok hbuf]
  have hfailed : s.stop = false → ∃ s', initiateSocket s.fail i = .ok s' ∧ Handled i s s' ∧
      (s'.pool.length = s.pool.length ∨ s'.pool.length = s.pool.length + 1 ∧
        ∃ sock, ⟨s.pool.length, .connect sock⟩ ∈ s'.ops) := by
    intro hstop
    obtain ⟨s', heq, hh, hlen⟩ := hi.failed hstop
    exact ⟨s', heq, hh, .inl hlen⟩
  cases hstop : s.stop with
  | true => exact ⟨s, rfl, hi.stopped hstop, .inl rfl⟩
  | false =>
    cases failed with
    | true => exact hfailed hstop
    | false =>
      simp only [bind, Except.bind, Bool.false_eq_true, if_false]
      split
      · exact hfailed hstop
      · have hh : Handled i s (s.begin i (.read sock { resp := .second, whole := true })) := by
          have hh := hi.begun hstop (.read sock { resp := .second, whole := true }) ?_ ?_ [] nofun
            s.buffers rfl fun _ _ => rfl
          · rwa [List.append_nil] at hh
          · intro x hx
            cases hx
            exact hsock
          · intro x r hr
            cases hr
            rfl
        split
        · next hgrow =>
          have hi1 : i + 1 = s.pool.length := by
            have := hi.lt
            have := hgrow.1
            simp only [ClientSessionPool.begin] at this
            omega
          have hnext : (s.begin i (.read sock { resp := .second, whole := true })).emplaceBack.sock
              s.pool.length = .ok s.sockets := sock_eq_ok List.getElem?_concat_length
          refine ⟨(s.begin i (.read sock { resp := .second, whole := true })).grown, ?_, ?_, ?_⟩
          · rw [hi1, hnext]
            rfl
          · exact ⟨hh.inv.grown hstop hgrow.2, fun j hj =>
              (hh.frame j hj).trans (.grown j _) (Nat.le_refl _), hh.log⟩
          · exact .inr ⟨List.length_append, s.sockets,
              List.mem_append_right _ (List.mem_singleton_self _)⟩
        · exact ⟨_, rfl, hh, .inl rfl⟩

theorem handle2ndResp_spec (hi : Idle s i) (bytesRead : Nat) (failed : Bool) (padding : Bytes 2) :
    ∃ s', handle2ndResp s i bytesRead failed padding = .ok s' ∧ Handled i s s' ∧
      s'.pool.length = s.pool.length := by
  obtain ⟨buf, hbuf⟩ := hi.exists_buffer hi.lt
  rw [handle2ndResp, buffer_eq_ok hbuf]
  cases hstop : s.stop with
  | true => exact ⟨s, rfl, hi.stopped hstop, rfl⟩
  | false =>
    simp only [bind, Except.bind, Bool.false_eq_true, if_false]
    split
    · exact hi.failed hstop
    · refine ⟨_, rfl, ?_, rfl⟩
      have hh := hi.begun hstop .wait nofun nofun [] nofun
        (s.buffers.set i ((newConnResp buf).toBytes padding)) List.length_set
        fun j hj => List.getElem?_set_ne (Ne.symm hj)
      rwa [List.append_nil, hstop] at hh

theorem handleSendFd_spec (hi : Idle s i) (failed : Bool) (bytesSent : Int) :
    ∃ s', handleSendFd s i failed bytesSent = .ok s' ∧ Handled i s s' ∧
      s'.pool.length = s.pool.length := by
  obtain ⟨sock, hsock⟩ := exists_sock hi.lt
  obtain ⟨buf, hbuf⟩ := hi.exists_buffer hi.lt
  rw [handleSendFd, sock_eq_ok hsock, buffer_eq_ok hbuf]
  cases hstop : s.stop with
  | true => exact ⟨s, rfl, hi.stopped hstop, rfl⟩
  | false =>
    cases failed with
    | true => exact hi.failed hstop
    | false =>
      simp only [bind, Except.bind, Bool.false_eq_true, if_false]
      split
      · exact ⟨s.halt, rfl, ⟨hi.toBase.halt, fun j _ => .halt j s, List.prefix_rfl⟩, rfl⟩
      · exact ⟨_, initiateSocket_eq hsock, hi.restarted hstop hsock [.descriptor sock buf bytesSent]
          s.numberOfErrors (.inr ⟨buf, bytesSent, rfl⟩), List.length_set⟩

end Handlers

end SessionPool
end Proxy
end TrustedCa
