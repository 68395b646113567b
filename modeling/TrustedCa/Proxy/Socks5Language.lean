import TrustedCa.Proxy.Socks5Chunks

/-!
# The byte streams that the handshake accepts

`Request cmd p a` is the grammar of RFC 1928 as far as the proxy supports it: a greeting that offers
"no authentication", then a request with command `cmd` and an IPv4 or IPv6 address. `Scan s v` reads
a stream by that grammar, up to the end of the request or to the end of the first field group that
deviates. `finish_scan` says what the state machine does in each case, and `accepted_language` puts
it in terms of the grammar alone.
-/

namespace TrustedCa
namespace Proxy

/-- The port in host byte order. -/
def Sockaddr.port : Sockaddr → UInt16
  | .inet _ port | .inet6 _ port => ntohs port
  | .other _ => 0

namespace Socks5

variable {cb : Callbacks}

/-! ## The grammar -/

/-- `05 n m1 .. mn` with `n ≥ 1` methods, one of them "no authentication". -/
def Greeting (g : List Byte) : Prop :=
  ∃ (n : Byte) (ms : List Byte), ms.length = n.toNat ∧ 1 ≤ n.toNat ∧ 0x00 ∈ ms ∧
    g = 0x05 :: n :: ms

/-- ATYP, address and port. -/
inductive AddrField : List Byte → Sockaddr → Prop
  | v4 (ip : Bytes 4) (port : Bytes 2) : AddrField (0x01 :: (ip.val ++ port.val)) (.inet ip port)
  | v6 (ip : Bytes 16) (port : Bytes 2) : AddrField (0x04 :: (ip.val ++ port.val)) (.inet6 ip port)

/-- A greeting and a request with command `cmd` for the address `a`. -/
def Request (cmd : Byte) (p : List Byte) (a : Sockaddr) : Prop :=
  ∃ g f, Greeting g ∧ AddrField f a ∧ p = g ++ [0x05, cmd, 0x00] ++ f

/-- The end of the field group (greeting header, method list or request header) that holds the
first deviation of a stream from the grammar. -/
def deviationEnd : List Byte → Nat
  | v :: n :: rest =>
    if v ≠ 0x05 ∨ n = 0 then 2
    else if n.toNat ≤ rest.length ∧ 0x00 ∉ rest.take n.toNat then 2 + n.toNat
    else 2 + n.toNat + 4
  | _ => 2

/-- The calls that reach out to the network: connect and bind. -/
def Call.isDial : Call → Bool
  | .connect _ _ | .bind _ _ => true
  | .response _ _ | .destAddress _ _ => false

/-! ## Reading a stream by the grammar -/

inductive Verdict where
  | incomplete
  | reject (k : Nat)
  | accept (cmd : Byte) (a : Sockaddr) (k : Nat)

/-- A request header that the proxy does not support. -/
def BadHeader (v cmd rsv atyp : Byte) : Prop :=
  v ≠ 0x05 ∨ rsv ≠ 0x00 ∨ (cmd ≠ 0x01 ∧ cmd ≠ 0x02) ∨ (atyp ≠ 0x01 ∧ atyp ≠ 0x04)

/-- The stream, read field group by field group. -/
inductive Scan : List Byte → Verdict → Prop
  | short {s : List Byte} (h : s.length < 2) : Scan s .incomplete
  | badGreeting {v n : Byte} {rest : List Byte} (h : v ≠ 0x05 ∨ n = 0) :
      Scan (v :: n :: rest) (.reject 2)
  | shortMethods {n : Byte} {rest : List Byte} (hn : n ≠ 0) (h : rest.length < n.toNat) :
      Scan (0x05 :: n :: rest) .incomplete
  | badMethods {n : Byte} {ms rest : List Byte} (hn : n ≠ 0) (hm : ms.length = n.toNat)
      (h : 0x00 ∉ ms) : Scan (0x05 :: n :: (ms ++ rest)) (.reject (2 + n.toNat))
  | shortHeader {g rest : List Byte} (hg : Greeting g) (h : rest.length < 4) :
      Scan (g ++ rest) .incomplete
  | badRequest {g rest : List Byte} {v cmd rsv atyp : Byte} (hg : Greeting g)
      (h : BadHeader v cmd rsv atyp) :
      Scan (g ++ v :: cmd :: rsv :: atyp :: rest) (.reject (g.length + 4))
  | shortAddr {g rest : List Byte} {cmd atyp : Byte} (hg : Greeting g)
      (hc : cmd = 0x01 ∨ cmd = 0x02)
      (h : (atyp = 0x01 ∧ rest.length < 6) ∨ (atyp = 0x04 ∧ rest.length < 18)) :
      Scan (g ++ 0x05 :: cmd :: 0x00 :: atyp :: rest) .incomplete
  | accept {g f rest : List Byte} {cmd : Byte} {a : Sockaddr} (hg : Greeting g)
      (hc : cmd = 0x01 ∨ cmd = 0x02) (hf : AddrField f a) :
      Scan (g ++ 0x05 :: cmd :: 0x00 :: (f ++ rest)) (.accept cmd a (g.length + 3 + f.length))

theorem toNat_ne_zero {n : Byte} (h : n ≠ 0) : 1 ≤ n.toNat :=
  Nat.one_le_iff_ne_zero.mpr fun h0 => h (UInt8.toNat_inj.mp h0)

/-- Enough bytes are an address of `k` bytes, a port and the bytes behind them. -/
theorem exists_addr_port {k : Nat} {rest : List Byte} (h : k + 2 ≤ rest.length) :
    ∃ (ip : Bytes k) (port : Bytes 2) (tail : List Byte), rest = ip.val ++ port.val ++ tail := by
  refine ⟨⟨rest.take k, by simp; omega⟩, ⟨(rest.drop k).take 2, by simp; omega⟩,
    (rest.drop k).drop 2, ?_⟩
  simp only [List.append_assoc, List.take_append_drop]

/-- The address behind ATYP `atyp`, or too few bytes for it. -/
theorem scan_addr {g rest : List Byte} {cmd atyp : Byte} (hg : Greeting g)
    (hc : cmd = 0x01 ∨ cmd = 0x02) (ha : atyp = 0x01 ∨ atyp = 0x04) :
    ∃ v, Scan (g ++ 0x05 :: cmd :: 0x00 :: atyp :: rest) v := by
  rcases ha with rfl | rfl
  · by_cases hl : rest.length < 6
    · exact ⟨_, .shortAddr hg hc (.inl ⟨rfl, hl⟩)⟩
    · obtain ⟨ip, port, tail, rfl⟩ := exists_addr_port (Nat.le_of_not_lt hl)
      exact ⟨_, .accept hg hc (.v4 ip port)⟩
  · by_cases hl : rest.length < 18
    · exact ⟨_, .shortAddr hg hc (.inr ⟨rfl, hl⟩)⟩
    · obtain ⟨ip, port, tail, rfl⟩ := exists_addr_port (Nat.le_of_not_lt hl)
      exact ⟨_, .accept hg hc (.v6 ip port)⟩

theorem scan_request {g : List Byte} (hg : Greeting g) (rest : List Byte) :
    ∃ v, Scan (g ++ rest) v := by
  match rest with
  | [] | [_] | [_, _] | [_, _, _] => exact ⟨_, .shortHeader hg (by simp)⟩
  | v :: cmd :: rsv :: atyp :: rest =>
    by_cases hb : BadHeader v cmd rsv atyp
    · exact ⟨_, .badRequest hg hb⟩
    · simp only [BadHeader, not_or, not_and_or, Decidable.not_not] at hb
      obtain ⟨rfl, rfl, hc, ha⟩ := hb
      exact scan_addr hg hc ha

/-- Every stream can be read. -/
theorem scan_total (s : List Byte) : ∃ v, Scan s v := by
  match s with
  | [] | [_] => exact ⟨_, .short (by simp)⟩
  | v :: n :: rest =>
    by_cases hb : v ≠ 0x05 ∨ n = 0
    · exact ⟨_, .badGreeting hb⟩
    · simp only [not_or, Decidable.not_not] at hb
      obtain ⟨rfl, hn⟩ := hb
      by_cases hl : rest.length < n.toNat
      · exact ⟨_, .shortMethods hn hl⟩
      · have hm : (rest.take n.toNat).length = n.toNat := by simp; omega
        rw [← List.take_append_drop n.toNat rest]
        by_cases h0 : 0x00 ∈ rest.take n.toNat
        · exact scan_request ⟨n, _, hm, toNat_ne_zero hn, h0, rfl⟩ _
        · exact ⟨_, .badMethods hn hm h0⟩

/-! ## The state machine on a scanned stream -/

/-- One field group of the loop. -/
theorem finish_group (cb : Callbacks) {c : Ctl} (g rest : List Byte) (hw : c.Wf)
    (hs : c.state ≠ .kSuccess) (hn : c.need = g.length) (hr : c.requiredSize ≤ (g ++ rest).length) :
    finish cb ⟨c, g ++ rest⟩ =
      if (c.onGroup cb g).1 then finish cb ⟨(c.onGroup cb g).2, rest⟩
      else ⟨(c.onGroup cb g).2, rest⟩ := by
  have h : step cb ⟨c, g ++ rest⟩ = decided (c.onGroup cb g) rest := by
    rw [step_eq (r := ⟨c, g ++ rest⟩) hw hr, hn]
    simp
  split
  · rename_i ht
    rw [finish_of_true (r := ⟨c, g ++ rest⟩) hw hs (by rw [h]; exact ht), h]; rfl
  · rename_i ht
    rw [finish_of_false (r := ⟨c, g ++ rest⟩) hs (by rw [h]; simpa [decided] using ht), h]; rfl

theorem finish_insufficient {r : QRun} (hs : r.ctl.state ≠ .kSuccess)
    (h : r.buffer.length < r.ctl.requiredSize) : finish cb r = r := by
  rw [finish_of_false hs (by rw [step_insufficient h]), step_insufficient h]

/-- The state machine after a greeting header. -/
def afterHeader (n : Byte) : Ctl := { state := .kGreetingMethods, requiredSize := n.toNat }

/-- The state machine after a greeting. -/
def afterGreeting : Ctl :=
  { state := .kRequestHeader, requiredSize := 4, calls := [.response kGreetingResp .kStatusOK] }

theorem finish_badGreeting {v n : Byte} (h : v ≠ 0x05 ∨ n = 0) (rest : List Byte) :
    finish cb ⟨{}, v :: n :: rest⟩ = ⟨{ state := .kFail }, rest⟩ := by
  have hg := finish_group cb (c := {}) [v, n] rest rfl (by decide) rfl (by simp)
  simpa [Ctl.onGroup, onGreetingHeader, h, afterSwitch, Ctl.fail] using hg

theorem finish_header {n : Byte} (hn : n ≠ 0) (rest : List Byte) :
    finish cb ⟨{}, 0x05 :: n :: rest⟩ = finish cb ⟨afterHeader n, rest⟩ := by
  have hg := finish_group cb (c := {}) [0x05, n] rest rfl (by decide) rfl (by simp)
  simpa [Ctl.onGroup, onGreetingHeader, hn, afterSwitch, Ctl.goTo, afterHeader] using hg

theorem afterHeader_wf {n : Byte} (hn : n ≠ 0) : (afterHeader n).Wf :=
  ⟨toNat_ne_zero hn, Nat.le_of_lt_succ n.toNat_lt⟩

/-- The state machine after a method list to which the response is not written. -/
def afterMethods (cb : Callbacks) (n : Byte) : Ctl :=
  ((afterHeader n).log (.response kGreetingResp (cb.response [] kGreetingResp))).fail

theorem finish_methods {n : Byte} {ms : List Byte} (hn : n ≠ 0) (hm : ms.length = n.toNat)
    (rest : List Byte) :
    finish cb ⟨afterHeader n, ms ++ rest⟩ =
      if 0x00 ∈ ms then
        if cb.response [] kGreetingResp = .kStatusOK then finish cb ⟨afterGreeting, rest⟩
        else ⟨afterMethods cb n, rest⟩
      else ⟨(afterHeader n).fail, rest⟩ := by
  rw [finish_group cb ms rest (afterHeader_wf hn) (by simp [afterHeader])
    (by simp [afterHeader, Ctl.need, hm]) (by simp [afterHeader, hm])]
  by_cases h0 : 0x00 ∈ ms
  · by_cases hr : cb.response [] kGreetingResp = .kStatusOK
    · simp [Ctl.onGroup, afterHeader, onGreetingMethods, h0, callResponse, hr, afterSwitch, Ctl.goTo,
        Ctl.log, afterGreeting]
    · simp [Ctl.onGroup, afterHeader, onGreetingMethods, h0, callResponse, hr, afterSwitch, Ctl.fail,
        Ctl.log, afterMethods]
  · simp [Ctl.onGroup, afterHeader, onGreetingMethods, h0, afterSwitch, Ctl.fail]

theorem finish_greeting (hr : cb.response [] kGreetingResp = .kStatusOK) {g : List Byte}
    (hg : Greeting g) (rest : List Byte) :
    finish cb ⟨{}, g ++ rest⟩ = finish cb ⟨afterGreeting, rest⟩ := by
  obtain ⟨n, ms, hm, hn, h0, rfl⟩ := hg
  have hn0 : n ≠ 0 := fun h => by subst h; simp at hn
  rw [List.cons_append, List.cons_append, finish_header hn0, finish_methods hn0 hm, if_pos h0,
    if_pos hr]

theorem finish_badRequest {v cmd rsv atyp : Byte} (h : BadHeader v cmd rsv atyp)
    (rest : List Byte) :
    finish cb ⟨afterGreeting, v :: cmd :: rsv :: atyp :: rest⟩ =
      ⟨{ afterGreeting with state := .kFail }, rest⟩ := by
  have hg := finish_group cb (c := afterGreeting) [v, cmd, rsv, atyp] rest rfl (by decide) rfl
    (by simp [afterGreeting])
  have hd : afterGreeting.onGroup cb [v, cmd, rsv, atyp] = (false, afterGreeting.fail) := by
    have hf : afterSwitch afterGreeting.fail = (false, afterGreeting.fail) := rfl
    simp only [Ctl.onGroup, afterGreeting, onRequestHeader]
    simp only [List.getD_cons_zero, List.getD_cons_succ]
    rw [← afterGreeting]
    unfold BadHeader at h
    grind
  rw [hd] at hg
  simpa [Ctl.fail] using hg

/-- The state machine after the header of a request. -/
def afterRequest (s : HandshakeState) (n : Nat) : Ctl := afterGreeting.goTo s n

/-- The state that each supported command and ATYP leads to, and its required size. -/
def requestTable : List (Byte × Byte × HandshakeState × Nat) :=
  [(0x01, 0x01, .kRequestAddrV4, 6), (0x01, 0x04, .kRequestAddrV6, 18),
    (0x02, 0x01, .kRequestBind, 6), (0x02, 0x04, .kRequestBind, 18)]

theorem finish_request {cmd atyp : Byte} {s : HandshakeState} {n : Nat}
    (h : (cmd, atyp, s, n) ∈ requestTable) (rest : List Byte) :
    finish cb ⟨afterGreeting, 0x05 :: cmd :: 0x00 :: atyp :: rest⟩ =
      finish cb ⟨afterRequest s n, rest⟩ := by
  have hg := finish_group cb (c := afterGreeting) [0x05, cmd, 0x00, atyp] rest rfl (by decide) rfl
    (by simp [afterGreeting])
  simp only [requestTable, List.mem_cons, Prod.mk.injEq, List.not_mem_nil, or_false] at h
  rcases h with ⟨rfl, rfl, rfl, rfl⟩ | ⟨rfl, rfl, rfl, rfl⟩ | ⟨rfl, rfl, rfl, rfl⟩ |
    ⟨rfl, rfl, rfl, rfl⟩
  all_goals exact hg


/-- The connect and bind calls of a run. -/
def Ctl.dials (c : Ctl) : List Call := c.calls.filter Call.isDial

@[simp] theorem dials_log (c : Ctl) (k : Call) :
    (c.log k).dials = c.dials ++ if k.isDial then [k] else [] := by
  simp [Ctl.dials, Ctl.log, List.filter_cons]

@[simp] theorem dials_goTo (c : Ctl) (s : HandshakeState) (n : Nat) :
    (c.goTo s n).dials = c.dials := rfl

@[simp] theorem dials_fail (c : Ctl) : c.fail.dials = c.dials := rfl

@[simp] theorem dials_afterSwitch (c : Ctl) : (afterSwitch c).2.dials = c.dials := rfl

@[simp] theorem dials_callResponse (c : Ctl) (data : List Byte) :
    (callResponse cb c data).2.dials = c.dials := by
  simp [callResponse, Call.isDial]

@[simp] theorem dials_createResp (c : Ctl) (b : Bool) : (createResp cb c b).2.dials = c.dials := by
  unfold createResp
  split
  · rfl
  · dsimp only
    split <;> simp [Call.isDial]

theorem dials_onResponse (c : Ctl) : (onResponse cb c).2.dials = c.dials := by
  unfold onResponse
  dsimp only
  split <;> simp

/-- Once the request is read, the loop takes no byte and dials no more. -/
theorem finish_afterDial {c : Ctl} (hw : c.Wf) (hs : c.state = .kResponse ∨ c.Idle)
    (rest : List Byte) :
    (finish cb ⟨c, rest⟩).buffer = rest ∧ (finish cb ⟨c, rest⟩).ctl.dials = c.dials := by
  have idle {d : Ctl} (hd : d.Wf) (hi : d.Idle) :
      (finish cb ⟨d, rest⟩).buffer = rest ∧ (finish cb ⟨d, rest⟩).ctl.dials = d.dials := by
    have h : Same ⟨d, rest⟩ (finish cb ⟨d, rest⟩) := finish_idle hd hi
    exact ⟨h.buffer.symm, by rw [Ctl.dials, ← h.calls]; rfl⟩
  rcases hs with hs | hi
  · have h0 : c.requiredSize = 0 := by simpa [Ctl.Wf, hs] using hw
    have hg := finish_group cb [] rest hw (by simp [hs]) (by simp [Ctl.need, hs]) (by omega)
    have hd : c.onGroup cb [] = onResponse cb c := by simp [Ctl.onGroup, hs]
    have hw' : (onResponse cb c).2.Wf := (moved_onResponse hs).1
    have hc : (onResponse cb c).2.dials = c.dials := dials_onResponse c
    rw [hd, List.nil_append] at hg
    rw [hg, ← hc]
    split
    · -- The only way on is `kSuccess`.
      have hi : (onResponse cb c).2.Idle := by
        unfold onResponse
        dsimp only
        split
        · exact .inr (.inr (.inl rfl))
        · exact .inr (.inr (.inr rfl))
      exact idle hw' hi
    · exact ⟨rfl, rfl⟩
  · exact idle hw hi

theorem onRequestAddr_wf (cb : Callbacks) (c : Ctl) (a : Sockaddr) :
    (onRequestAddr cb c a).2.Wf := by
  unfold onRequestAddr
  split
  · exact rfl
  · dsimp only
    split
    · exact rfl
    · exact rfl
    · trivial

theorem onRequestAddr_spec {f : List Call → Sockaddr → CallbackStatus} (hc : cb.connect = some f)
    (c : Ctl) (a : Sockaddr) :
    (∃ ret, (onRequestAddr cb c a).2.dials = c.dials ++ [.connect a ret]) ∧
      ((onRequestAddr cb c a).2.state = .kResponse ∨ (onRequestAddr cb c a).2.Idle) ∧
      (onRequestAddr cb c a).2.Wf := by
  refine ⟨⟨f c.calls a, ?_⟩, ?_, onRequestAddr_wf cb c a⟩ <;> unfold onRequestAddr <;> simp only [hc]
  · split <;> simp [Call.isDial]
  · split
    · exact .inl rfl
    · exact .inr (.inl rfl)
    · exact .inr (.inr (.inr (.inr rfl)))

theorem onRequestBind_spec (cb : Callbacks) (c : Ctl) (port : UInt16) :
    (∃ ret, (onRequestBind cb c port).2.dials = c.dials ++ [.bind port ret]) ∧
      (onRequestBind cb c port).2.Idle := by
  refine ⟨⟨(cb.bind (c.goTo c.state 0).calls port).1, ?_⟩, ?_⟩
  · unfold onRequestBind
    dsimp only
    split
    · simp [Call.isDial]
    · split <;> simp [Call.isDial]
  · unfold onRequestBind
    dsimp only
    split
    · exact .inr (.inr (.inr rfl))
    · split
      · exact .inr (.inr (.inr rfl))
      · exact .inr (.inl rfl)

/-- What the state machine has done on a stream with the verdict `v`. -/
def Verdict.Meets (r : QRun) (s : List Byte) : Verdict → Prop
  | .incomplete => r.ctl.dials = [] ∧ ¬ r.ctl.Idle
  | .reject k => r.ctl.state = .kFail ∧ r.buffer = s.drop k ∧ r.ctl.dials = []
  | .accept cmd a k => r.buffer = s.drop k ∧
      (cmd = 0x01 → ∃ ret, r.ctl.dials = [.connect a ret]) ∧
      (cmd = 0x02 → ∃ ret, r.ctl.dials = [.bind a.port ret])

/-- The address fields of a field group. -/
theorem arrayOf_take {k : Nat} (ip : Bytes k) (port : Bytes 2) :
    arrayOf k ((ip.val ++ port.val).take k) = ip := by
  rw [List.take_append_of_le_length (Nat.le_of_eq ip.property.symm),
    List.take_of_length_le (Nat.le_of_eq ip.property), arrayOf_toList]

theorem arrayOf_drop {k : Nat} (ip : Bytes k) (port : Bytes 2) :
    arrayOf 2 ((ip.val ++ port.val).drop k) = port := by
  rw [List.drop_append_of_le_length (Nat.le_of_eq ip.property.symm),
    List.drop_eq_nil_of_le (Nat.le_of_eq ip.property), List.nil_append, arrayOf_toList]

theorem addrPort_length {k : Nat} (ip : Bytes k) (port : Bytes 2) :
    (ip.val ++ port.val).length = k + 2 := by
  rw [List.length_append, ip.property, port.property]

/-- The header of a request and its last field group `g`. -/
theorem finish_field {cmd atyp : Byte} {s : HandshakeState} {n : Nat}
    (h : (cmd, atyp, s, n) ∈ requestTable) {g : List Byte} (hg : g.length = n) (rest : List Byte) :
    finish cb ⟨afterGreeting, 0x05 :: cmd :: 0x00 :: atyp :: (g ++ rest)⟩ =
      if ((afterRequest s n).onGroup cb g).1
      then finish cb ⟨((afterRequest s n).onGroup cb g).2, rest⟩
      else ⟨((afterRequest s n).onGroup cb g).2, rest⟩ := by
  have hw : (afterRequest s n).Wf ∧ s ≠ .kSuccess ∧ (afterRequest s n).need = n := by
    simp only [requestTable, List.mem_cons, Prod.mk.injEq, List.not_mem_nil, or_false] at h
    rcases h with ⟨-, -, rfl, rfl⟩ | ⟨-, -, rfl, rfl⟩ | ⟨-, -, rfl, rfl⟩ | ⟨-, -, rfl, rfl⟩
    all_goals simp [afterRequest, Ctl.Wf, Ctl.goTo, Ctl.need]
  rw [finish_request h, finish_group cb g rest hw.1 hw.2.1 (hw.2.2.trans hg.symm)
    (by simp [afterRequest, Ctl.goTo, hg])]

/-- The last field group of a CONNECT request holds the address. -/
theorem finish_addrField (cb : Callbacks) {fld : List Byte} {a : Sockaddr} (hf : AddrField fld a)
    (rest : List Byte) :
    ∃ c, c.calls = afterGreeting.calls ∧
      finish cb ⟨afterGreeting, 0x05 :: 0x01 :: 0x00 :: (fld ++ rest)⟩ =
        if (onRequestAddr cb c a).1 then finish cb ⟨(onRequestAddr cb c a).2, rest⟩
        else ⟨(onRequestAddr cb c a).2, rest⟩ := by
  cases hf with
  | v4 ip port =>
    have hin : (0x01, 0x01, .kRequestAddrV4, 6) ∈ requestTable := by decide
    have hd : (afterRequest .kRequestAddrV4 6).onGroup cb (ip.val ++ port.val) =
        onRequestAddr cb (afterRequest .kRequestAddrV4 6) (.inet ip port) := by
      simp only [Ctl.onGroup, afterRequest, Ctl.goTo, arrayOf_take, arrayOf_drop]
    exact ⟨afterRequest .kRequestAddrV4 6, rfl, by
      rw [List.cons_append, finish_field hin (addrPort_length ip port), hd]⟩
  | v6 ip port =>
    have hin : (0x01, 0x04, .kRequestAddrV6, 18) ∈ requestTable := by decide
    have hd : (afterRequest .kRequestAddrV6 18).onGroup cb (ip.val ++ port.val) =
        onRequestAddr cb (afterRequest .kRequestAddrV6 18) (.inet6 ip port) := by
      simp only [Ctl.onGroup, afterRequest, Ctl.goTo, arrayOf_take, arrayOf_drop]
    exact ⟨afterRequest .kRequestAddrV6 18, rfl, by
      rw [List.cons_append, finish_field hin (addrPort_length ip port), hd]⟩

/-- The last field group of a BIND request holds the port, behind an address that is skipped. -/
theorem finish_portField (cb : Callbacks) {fld : List Byte} {a : Sockaddr} (hf : AddrField fld a)
    (rest : List Byte) :
    ∃ c, c.calls = afterGreeting.calls ∧
      finish cb ⟨afterGreeting, 0x05 :: 0x02 :: 0x00 :: (fld ++ rest)⟩ =
        if (onRequestBind cb c a.port).1 then finish cb ⟨(onRequestBind cb c a.port).2, rest⟩
        else ⟨(onRequestBind cb c a.port).2, rest⟩ := by
  cases hf with
  | v4 ip port =>
    have hin : (0x02, 0x01, .kRequestBind, 6) ∈ requestTable := by decide
    have hd : (afterRequest .kRequestBind 6).onGroup cb (ip.val ++ port.val) =
        onRequestBind cb (afterRequest .kRequestBind 6) (ntohs port) := by
      simp only [Ctl.onGroup, afterRequest, Ctl.goTo, arrayOf_drop]
    exact ⟨afterRequest .kRequestBind 6, rfl, by
      rw [List.cons_append, finish_field hin (addrPort_length ip port), hd]; rfl⟩
  | v6 ip port =>
    have hin : (0x02, 0x04, .kRequestBind, 18) ∈ requestTable := by decide
    have hd : (afterRequest .kRequestBind 18).onGroup cb (ip.val ++ port.val) =
        onRequestBind cb (afterRequest .kRequestBind 18) (ntohs port) := by
      simp only [Ctl.onGroup, afterRequest, Ctl.goTo, arrayOf_drop]
    exact ⟨afterRequest .kRequestBind 18, rfl, by
      rw [List.cons_append, finish_field hin (addrPort_length ip port), hd]; rfl⟩

/-- What is left of a request after the decision `d` on its last field group. -/
theorem finish_decided {d : Bool × Ctl} (hw : d.2.Wf) (hd : d.2.state = .kResponse ∨ d.2.Idle)
    (rest : List Byte) {r : QRun}
    (hr : r = if d.1 then finish cb ⟨d.2, rest⟩ else ⟨d.2, rest⟩) :
    r.buffer = rest ∧ r.ctl.dials = d.2.dials := by
  subst hr
  split
  · exact finish_afterDial hw hd rest
  · exact ⟨rfl, rfl⟩

theorem finish_connect {f : List Call → Sockaddr → CallbackStatus} (hc : cb.connect = some f)
    {fld : List Byte} {a : Sockaddr} (hf : AddrField fld a) (rest : List Byte) :
    (finish cb ⟨afterGreeting, 0x05 :: 0x01 :: 0x00 :: (fld ++ rest)⟩).buffer = rest ∧
      ∃ ret, (finish cb ⟨afterGreeting, 0x05 :: 0x01 :: 0x00 :: (fld ++ rest)⟩).ctl.dials =
        [.connect a ret] := by
  obtain ⟨c, hcalls, hfin⟩ := finish_addrField cb hf rest
  obtain ⟨⟨ret, hdl⟩, hst, hw⟩ := onRequestAddr_spec hc c a
  obtain ⟨hb, hk⟩ := finish_decided hw hst rest hfin
  refine ⟨hb, ret, ?_⟩
  rw [hk, hdl, Ctl.dials, hcalls]; rfl

theorem finish_bind {fld : List Byte} {a : Sockaddr} (hf : AddrField fld a) (rest : List Byte) :
    (finish cb ⟨afterGreeting, 0x05 :: 0x02 :: 0x00 :: (fld ++ rest)⟩).buffer = rest ∧
      ∃ ret, (finish cb ⟨afterGreeting, 0x05 :: 0x02 :: 0x00 :: (fld ++ rest)⟩).ctl.dials =
        [.bind a.port ret] := by
  obtain ⟨c, hcalls, hfin⟩ := finish_portField cb hf rest
  obtain ⟨⟨ret, hdl⟩, hst⟩ := onRequestBind_spec cb c a.port
  obtain ⟨hb, hk⟩ := finish_decided (moved_onRequestBind a.port).1 (.inr hst) rest hfin
  refine ⟨hb, ret, ?_⟩
  rw [hk, hdl, Ctl.dials, hcalls]; rfl

/-- Each supported header leads to a state that waits for the whole address. -/
theorem finish_shortAddr {cmd atyp : Byte} {rest : List Byte} (hc : cmd = 0x01 ∨ cmd = 0x02)
    (h : (atyp = 0x01 ∧ rest.length < 6) ∨ (atyp = 0x04 ∧ rest.length < 18)) :
    ∃ (s : HandshakeState) (n : Nat), s.rank = 3 ∧
      finish cb ⟨afterGreeting, 0x05 :: cmd :: 0x00 :: atyp :: rest⟩ = ⟨afterRequest s n, rest⟩ := by
  have wait {s : HandshakeState} {n : Nat} (ht : (cmd, atyp, s, n) ∈ requestTable)
      (hl : rest.length < n) (hs : s ≠ .kSuccess) :
      finish cb ⟨afterGreeting, 0x05 :: cmd :: 0x00 :: atyp :: rest⟩ = ⟨afterRequest s n, rest⟩ := by
    rw [finish_request ht, finish_insufficient hs hl]
  rcases hc with rfl | rfl <;> rcases h with ⟨rfl, h⟩ | ⟨rfl, h⟩
  · exact ⟨.kRequestAddrV4, 6, rfl, wait (by decide) h (by decide)⟩
  · exact ⟨.kRequestAddrV6, 18, rfl, wait (by decide) h (by decide)⟩
  · exact ⟨.kRequestBind, 6, rfl, wait (by decide) h (by decide)⟩
  · exact ⟨.kRequestBind, 18, rfl, wait (by decide) h (by decide)⟩

/-- What the state machine does on a stream, for a response callback that returns OK. -/
theorem finish_scan {f : List Call → Sockaddr → CallbackStatus} (hc : cb.connect = some f)
    (hr : ∀ h d, cb.response h d = .kStatusOK) {s : List Byte} {v : Verdict} (h : Scan s v) :
    v.Meets (finish cb ⟨{}, s⟩) s := by
  cases h with
  | short h =>
    rw [finish_insufficient HandshakeState.noConfusion h]
    exact ⟨rfl, by simp [Ctl.Idle]⟩
  | badGreeting h => rw [finish_badGreeting h]; exact ⟨rfl, rfl, rfl⟩
  | shortMethods hn h =>
    rw [finish_header hn, finish_insufficient HandshakeState.noConfusion h]
    exact ⟨rfl, by simp [Ctl.Idle, afterHeader]⟩
  | badMethods hn hm h =>
    rw [finish_header hn, finish_methods hn hm, if_neg h]
    exact ⟨rfl, by simp [Nat.add_comm 2, ← hm], rfl⟩
  | shortHeader hg h =>
    rw [finish_greeting (hr _ _) hg, finish_insufficient HandshakeState.noConfusion h]
    exact ⟨rfl, by simp [Ctl.Idle, afterGreeting]⟩
  | badRequest hg h => rw [finish_greeting (hr _ _) hg, finish_badRequest h]; exact ⟨rfl, by simp, rfl⟩
  | shortAddr hg hcmd h =>
    rw [finish_greeting (hr _ _) hg]
    obtain ⟨s, n, hrank, heq⟩ := finish_shortAddr hcmd h
    rw [heq]
    refine ⟨rfl, fun hi => ?_⟩
    rcases hi with hs | hs | hs | hs <;> cases hs <;> cases hrank
  | @accept g fld rest cmd a hg hcmd hf =>
    have hdrop : (g ++ 0x05 :: cmd :: 0x00 :: (fld ++ rest)).drop (g.length + 3 + fld.length) =
        rest := by
      rw [Nat.add_assoc, ← List.drop_drop, Nat.add_comm 3]; simp
    simp only [Verdict.Meets, hdrop, finish_greeting (hr _ _) hg]
    rcases hcmd with rfl | rfl
    · obtain ⟨hb, hk⟩ := finish_connect hc hf rest
      exact ⟨hb, fun _ => hk, fun h => absurd h (by decide)⟩
    · obtain ⟨hb, hk⟩ := finish_bind hf rest
      exact ⟨hb, fun h => absurd h (by decide), fun _ => hk⟩

/-! ## The accepted language -/

/-- A CONNECT or BIND request is a prefix of some extension of the stream. -/
def Extendable (s : List Byte) : Prop :=
  ∃ (t p : List Byte) (cmd : Byte) (a : Sockaddr), (cmd = 0x01 ∨ cmd = 0x02) ∧ Request cmd p a ∧
    p <+: s ++ t

/-- A request and the bytes behind it. -/
theorem Request.scan {cmd : Byte} {p : List Byte} {a : Sockaddr} (hc : cmd = 0x01 ∨ cmd = 0x02)
    (h : Request cmd p a) (rest : List Byte) : Scan (p ++ rest) (.accept cmd a p.length) := by
  obtain ⟨g, f, hg, hf, rfl⟩ := h
  have hs := @Scan.accept g f rest cmd a hg hc hf
  simpa [Nat.add_assoc, Nat.add_comm 3] using hs

theorem Scan.request {s : List Byte} {cmd : Byte} {a : Sockaddr} {k : Nat}
    (h : Scan s (.accept cmd a k)) :
    (cmd = 0x01 ∨ cmd = 0x02) ∧ ∃ p, p <+: s ∧ Request cmd p a := by
  cases h with
  | @accept g f rest _ _ hg hc hf =>
    exact ⟨hc, g ++ [0x05, cmd, 0x00] ++ f, ⟨rest, by simp⟩, g, f, hg, hf, rfl⟩

theorem deviationEnd_greeting {g : List Byte} (hg : Greeting g) (rest : List Byte) :
    deviationEnd (g ++ rest) = g.length + 4 := by
  obtain ⟨n, ms, hm, hn, h0, rfl⟩ := hg
  have hn0 : n ≠ 0 := fun h => by subst h; simp at hn
  simp only [List.cons_append, deviationEnd, ← hm, List.take_left]
  simp [hn0, h0]
  omega

theorem Scan.deviationEnd_reject {s : List Byte} {k : Nat} (h : Scan s (.reject k)) :
    k = deviationEnd s := by
  cases h with
  | badGreeting h => simp [deviationEnd, h]
  | badMethods hn hm h =>
    simp [deviationEnd, hn, ← hm, h]
  | badRequest hg h => rw [deviationEnd_greeting hg]

/-- An address that is cut off can be completed. -/
theorem extendable_addr {g rest : List Byte} {cmd atyp : Byte} (hg : Greeting g)
    (hc : cmd = 0x01 ∨ cmd = 0x02) (ha : atyp = 0x01 ∨ atyp = 0x04) :
    Extendable (g ++ 0x05 :: cmd :: 0x00 :: atyp :: rest) := by
  have hl : 16 + 2 ≤ (rest ++ List.replicate 18 0).length := by simp
  have hl' : 4 + 2 ≤ (rest ++ List.replicate 18 0).length := by omega
  rcases ha with rfl | rfl
  · obtain ⟨ip, port, tail, ht⟩ := exists_addr_port hl'
    refine ⟨List.replicate 18 0, _, cmd, _, hc, ⟨g, _, hg, .v4 ip port, rfl⟩, tail, ?_⟩
    simpa using ht.symm
  · obtain ⟨ip, port, tail, ht⟩ := exists_addr_port hl
    refine ⟨List.replicate 18 0, _, cmd, _, hc, ⟨g, _, hg, .v6 ip port, rfl⟩, tail, ?_⟩
    simpa using ht.symm

theorem Scan.incomplete_cases {s : List Byte} (h : Scan s .incomplete) :
    s.length < deviationEnd s ∨ Extendable s := by
  cases h with
  | short h =>
    match s with
    | [] | [_] => exact .inl (by simp [deviationEnd])
  | @shortMethods n rest hn h =>
    have hle : ¬ n.toNat ≤ rest.length := by omega
    simp [deviationEnd, hn, hle]; omega
  | shortHeader hg h => rw [deviationEnd_greeting hg]; simp; omega
  | shortAddr hg hc h => exact .inr (extendable_addr hg hc (h.imp And.left And.left))

/-- What can happen to a handshake from outside: bytes arrive, or `Proceed` is called. -/
inductive Event where
  | bytes (x : List Byte)
  | proceed

def Event.arrived : Event → List Byte
  | .bytes x => x
  | .proceed => []

def Run.on (cb : Callbacks) (r : QRun) : Event → QRun
  | .bytes x => r.append x
  | .proceed => (step cb r).2

/-- `kFail` is final: the state stays, nothing is called, and no byte is consumed. -/
theorem on_fail (cb : Callbacks) {r : QRun} (h : r.ctl.state = .kFail) (e : Event) :
    (r.on cb e).ctl.state = .kFail ∧ (r.on cb e).ctl.calls = r.ctl.calls ∧
      (r.on cb e).buffer = r.buffer ++ e.arrived := by
  cases e with
  | bytes x => exact ⟨h, rfl, rfl⟩
  | proceed =>
    simp only [Run.on, Event.arrived, List.append_nil]
    by_cases hn : r.ctl.requiredSize ≤ r.buffer.length
    · rw [step_eq (by simp [Ctl.Wf, h]) hn, onGroup_idle (.inr (.inr (.inr h))), if_pos h]
      simp [decided, Ctl.goTo, Ctl.need, h]
    · rw [step_insufficient (by omega)]
      exact ⟨h, rfl, rfl⟩

theorem foldl_on_fail {r : QRun} (h : r.ctl.state = .kFail) (es : List Event) :
    (es.foldl (Run.on cb) r).ctl.state = .kFail ∧
      (es.foldl (Run.on cb) r).ctl.calls = r.ctl.calls ∧
      (es.foldl (Run.on cb) r).buffer = r.buffer ++ (es.map Event.arrived).flatten := by
  induction es generalizing r with
  | nil => exact ⟨h, rfl, by simp⟩
  | cons e es ih =>
    obtain ⟨h1, h2, h3⟩ := on_fail cb h e
    obtain ⟨i1, i2, i3⟩ := ih h1
    exact ⟨i1, i2.trans h2, by rw [List.foldl_cons, i3, h3]; simp⟩

/-- What `Ctl.dials` says about the calls. -/
theorem mem_dials {c : Ctl} {k : Call} (hk : k.isDial = true) : k ∈ c.calls ↔ k ∈ c.dials := by
  simp [Ctl.dials, hk]

/-- **Accepted language.** For every stream, however it is cut into chunks, and a response callback
that returns OK: connect is called iff the stream starts with a CONNECT request, and bind iff it
starts with a BIND request; there is one such call, with the address (or port) of the request, and
the loop has consumed exactly the request. A stream that no extension makes a request ends in
`kFail` once the field group with the first deviation is there, and stays there. -/
theorem accepted_language (cb : Callbacks) (f : List Call → Sockaddr → CallbackStatus)
    (hc : cb.connect = some f) (hr : ∀ h d, cb.response h d = .kStatusOK)
    (chunks : List (List Byte)) :
    ∃ r : QRun, (∀ n, 7 ≤ n → feed cb n chunks start = some r) ∧
      ((∃ a ret, Call.connect a ret ∈ r.ctl.calls) ↔
        ∃ p a, p <+: chunks.flatten ∧ Request 0x01 p a) ∧
      ((∃ port ret, Call.bind port ret ∈ r.ctl.calls) ↔
        ∃ p a, p <+: chunks.flatten ∧ Request 0x02 p a) ∧
      (∀ p a, p <+: chunks.flatten → Request 0x01 p a →
        (∃ ret, r.ctl.calls.filter Call.isDial = [.connect a ret]) ∧
          r.buffer = chunks.flatten.drop p.length) ∧
      (∀ p a, p <+: chunks.flatten → Request 0x02 p a →
        (∃ ret, r.ctl.calls.filter Call.isDial = [.bind a.port ret]) ∧
          r.buffer = chunks.flatten.drop p.length) ∧
      (¬ Extendable chunks.flatten → deviationEnd chunks.flatten ≤ chunks.flatten.length →
        r.ctl.state = .kFail ∧ r.buffer = chunks.flatten.drop (deviationEnd chunks.flatten) ∧
        ∀ es : List Event,
          (es.foldl (Run.on cb) r).ctl.state = .kFail ∧
          (es.foldl (Run.on cb) r).ctl.calls = r.ctl.calls ∧
          (es.foldl (Run.on cb) r).buffer = r.buffer ++ (es.map Event.arrived).flatten) := by
  obtain ⟨r, -, hfeed, hsame⟩ := feed_start cb chunks
  generalize chunks.flatten = s at hsame ⊢
  have meets {v : Verdict} (h : Scan s v) : v.Meets r s := by
    have hm := finish_scan hc hr h
    have hst : start.append s = ⟨{}, s⟩ := rfl
    rw [hst] at hsame
    cases v <;>
      simpa only [Verdict.Meets, Ctl.dials, Ctl.Idle, hsame.state, hsame.calls, hsame.buffer] using hm
  have accepted {cmd : Byte} {p : List Byte} {a : Sockaddr} (hcmd : cmd = 0x01 ∨ cmd = 0x02)
      (hp : p <+: s) (h : Request cmd p a) : (Verdict.accept cmd a p.length).Meets r s := by
    obtain ⟨t, rfl⟩ := hp
    exact meets (h.scan hcmd t)
  obtain ⟨v, hv⟩ := scan_total s
  have hm := meets hv
  -- A connect or bind call stems from a request of that command.
  have dialed {k : Call} (hk : k.isDial = true) (hin : k ∈ r.ctl.calls) :
      (∃ a ret p, k = .connect a ret ∧ p <+: s ∧ Request 0x01 p a) ∨
        (∃ port ret p a, k = .bind port ret ∧ p <+: s ∧ Request 0x02 p a) := by
    rw [mem_dials hk] at hin
    cases v with
    | incomplete => rw [hm.1] at hin; cases hin
    | reject k => rw [hm.2.2] at hin; cases hin
    | accept cmd a k =>
      obtain ⟨hcmd, p, hp, hq⟩ := hv.request
      rcases hcmd with rfl | rfl
      · obtain ⟨ret, hd⟩ := hm.2.1 rfl
        rw [hd, List.mem_singleton] at hin
        exact .inl ⟨a, ret, p, hin, hp, hq⟩
      · obtain ⟨ret, hd⟩ := hm.2.2 rfl
        rw [hd, List.mem_singleton] at hin
        exact .inr ⟨a.port, ret, p, a, hin, hp, hq⟩
  have connected {p : List Byte} {a : Sockaddr} (hp : p <+: s) (h : Request 0x01 p a) :
      (∃ ret, r.ctl.dials = [.connect a ret]) ∧ r.buffer = s.drop p.length :=
    ⟨(accepted (.inl rfl) hp h).2.1 rfl, (accepted (.inl rfl) hp h).1⟩
  have bound {p : List Byte} {a : Sockaddr} (hp : p <+: s) (h : Request 0x02 p a) :
      (∃ ret, r.ctl.dials = [.bind a.port ret]) ∧ r.buffer = s.drop p.length :=
    ⟨(accepted (.inr rfl) hp h).2.2 rfl, (accepted (.inr rfl) hp h).1⟩
  refine ⟨r, hfeed, ⟨?_, ?_⟩, ⟨?_, ?_⟩, fun p a => connected, fun p a => bound, ?_⟩
  · rintro ⟨a, ret, hin⟩
    rcases dialed rfl hin with ⟨a', _, p, -, hp, hq⟩ | ⟨_, _, _, _, hk, -⟩
    · exact ⟨p, a', hp, hq⟩
    · cases hk
  · rintro ⟨p, a, hp, hq⟩
    obtain ⟨⟨ret, hd⟩, -⟩ := connected hp hq
    exact ⟨a, ret, (mem_dials rfl).mpr (by simp [hd])⟩
  · rintro ⟨port, ret, hin⟩
    rcases dialed rfl hin with ⟨_, _, _, hk, -⟩ | ⟨_, _, p, a, -, hp, hq⟩
    · cases hk
    · exact ⟨p, a, hp, hq⟩
  · rintro ⟨p, a, hp, hq⟩
    obtain ⟨⟨ret, hd⟩, -⟩ := bound hp hq
    exact ⟨a.port, ret, (mem_dials rfl).mpr (by simp [hd])⟩
  · intro hext hlen
    cases v with
    | incomplete =>
      rcases hv.incomplete_cases with h | h
      · omega
      · exact absurd h hext
    | reject k =>
      obtain rfl := hv.deviationEnd_reject
      exact ⟨hm.1, hm.2.1, foldl_on_fail hm.1⟩
    | accept cmd a k =>
      obtain ⟨hcmd, p, hp, hq⟩ := hv.request
      exact absurd ⟨[], p, cmd, a, hcmd, hq, by simpa using hp⟩ hext

/-- A client of a proxy whose connects stay in progress. -/
def pendingConnect : Callbacks where
  response _ _ := .kStatusOK
  connect := some fun _ _ => .kStatusInProgress
  destAddress := none
  bind _ port := (.kStatusOK, port)

theorem accepted_language_connect :
    ∃ r : QRun, (∀ n, 7 ≤ n → feed pendingConnect n
        [[0x05, 0x01], [0x00, 0x05, 0x01, 0x00, 0x01, 0x7f, 0x00], [0x00, 0x01, 0x00, 0x50, 0xaa]]
        start = some r) ∧ (∃ a ret, Call.connect a ret ∈ r.ctl.calls) ∧ r.buffer = [0xaa] := by
  obtain ⟨r, hr, -, -, hc, -⟩ := accepted_language pendingConnect _ rfl (fun _ _ => rfl)
    [[0x05, 0x01], [0x00, 0x05, 0x01, 0x00, 0x01, 0x7f, 0x00], [0x00, 0x01, 0x00, 0x50, 0xaa]]
  obtain ⟨⟨ret, hd⟩, hb⟩ := hc
    [0x05, 0x01, 0x00, 0x05, 0x01, 0x00, 0x01, 0x7f, 0x00, 0x00, 0x01, 0x00, 0x50]
    (.inet ⟨[0x7f, 0x00, 0x00, 0x01], rfl⟩ ⟨[0x00, 0x50], rfl⟩) ⟨[0xaa], rfl⟩
    ⟨[0x05, 0x01, 0x00], _, ⟨0x01, [0x00], rfl, by decide, by decide, rfl⟩, .v4 _ _, rfl⟩
  have hin := List.mem_singleton_self (Call.connect
    (.inet ⟨[0x7f, 0x00, 0x00, 0x01], rfl⟩ ⟨[0x00, 0x50], rfl⟩) ret)
  rw [← hd] at hin
  exact ⟨r, hr, ⟨_, ret, List.mem_of_mem_filter hin⟩, hb⟩

end Socks5
end Proxy
end TrustedCa
