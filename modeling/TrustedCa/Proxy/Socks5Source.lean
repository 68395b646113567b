import TrustedCa.Proxy.Socks5Lemmas

/-!
# The handshake over a buffer that is a byte queue

`proceed` is written over any buffer (`Source`). When a buffer behaves like a byte queue
(`Simulates`), a transition and the loop on it do what `step` and `loop` do on the queue, so the
facts about the latter hold of the handshake over that buffer.
-/

namespace TrustedCa
namespace Proxy
namespace Socks5

variable {ε β : Type} {S : Source (Except ε) β} {R : β → List Byte → Prop} {cb : Callbacks}

/-- The buffers related to a queue by `R` answer `data_size` and `CopyOut` as the queue does. -/
structure Simulates (S : Source (Except ε) β) (R : β → List Byte → Prop) : Prop where
  dataSize : ∀ {b q}, R b q → S.dataSize b = q.length
  copyOut : ∀ {b q} (n : Nat), R b q → ∃ b', S.copyOut b n = .ok (q.take n, b') ∧ R b' (q.drop n)

/-- A transition that is decided by one `CopyOut`. -/
theorem Simulates.one (hS : Simulates S R) {b : β} {q : List Byte} (hR : R b q) (n : Nat)
    (d : List Byte → Bool × Ctl) :
    ∃ b', (do let (x, buffer) ← S.copyOut b n; return decided (d x) buffer)
        = Except.ok (decided (d (q.take n)) b') ∧ R b' (q.drop n) := by
  obtain ⟨b', heq, hR'⟩ := hS.copyOut n hR
  exact ⟨b', by rw [heq]; rfl, hR'⟩

/-- A transition that is decided by two `CopyOut`s. -/
theorem Simulates.two (hS : Simulates S R) {b : β} {q : List Byte} (hR : R b q) (n k : Nat)
    (d : List Byte → List Byte → Bool × Ctl) :
    ∃ b', (do
        let (x, buffer) ← S.copyOut b n
        let (y, buffer) ← S.copyOut buffer k
        return decided (d x y) buffer)
        = Except.ok (decided (d (q.take n) ((q.drop n).take k)) b') ∧ R b' ((q.drop n).drop k) := by
  obtain ⟨b₁, heq, hR₁⟩ := hS.copyOut n hR
  obtain ⟨b', heq', hR'⟩ := hS.one hR₁ k (d (q.take n))
  exact ⟨b', by rw [heq]; exact heq', hR'⟩

/-- One transition. -/
theorem Simulates.proceed (cb : Callbacks) (hS : Simulates S R) {c : Ctl} {b : β} {q : List Byte}
    (hR : R b q) :
    ∃ b', Socks5.proceed S cb ⟨c, b⟩
        = .ok ((step cb ⟨c, q⟩).1, ⟨(step cb ⟨c, q⟩).2.ctl, b'⟩) ∧
      R b' (step cb ⟨c, q⟩).2.buffer := by
  unfold step Socks5.proceed
  simp only [insufficientBuffer, hS.dataSize hR, listSource]
  by_cases hlt : q.length < c.requiredSize
  · simp only [hlt, decide_true, if_true]
    exact ⟨b, rfl, hR⟩
  · simp only [hlt, decide_false, Bool.false_eq_true, if_false]
    cases hs : c.state with
    | kGreetingHeader => exact hS.one hR 2 (onGreetingHeader c)
    | kGreetingMethods => exact hS.one hR c.requiredSize (onGreetingMethods cb c)
    | kRequestHeader => exact hS.one hR 4 (onRequestHeader c)
    | kRequestAddrV4 =>
      exact hS.two hR 4 2 fun a p => onRequestAddr cb c (.inet (arrayOf 4 a) (arrayOf 2 p))
    | kRequestAddrV6 =>
      exact hS.two hR 16 2 fun a p => onRequestAddr cb c (.inet6 (arrayOf 16 a) (arrayOf 2 p))
    | kRequestBind =>
      exact hS.two hR (c.requiredSize - 2) 2 fun _ p => onRequestBind cb c (ntohs (arrayOf 2 p))
    | kWaitConnect | kWaitAccept | kResponse | kSuccess | kFail => exact ⟨b, rfl, hR⟩

/-- The loop. -/
theorem Simulates.proceedLoop (hS : Simulates S R) {n : Nat} {c : Ctl} {b : β} {q : List Byte}
    {r : QRun} (hR : R b q) (hloop : loop cb n ⟨c, q⟩ = some r) :
    ∃ b', Socks5.proceedLoop S cb n ⟨c, b⟩ = .ok (some ⟨r.ctl, b'⟩) ∧ R b' r.buffer := by
  induction n generalizing c b q with
  | zero => cases hloop
  | succ n ih =>
    rw [loop_succ] at hloop
    rw [Socks5.proceedLoop]
    by_cases hs : c.state = .kSuccess
    · simp only [hs, if_true, Option.some.injEq] at hloop ⊢
      subst hloop
      exact ⟨b, rfl, hR⟩
    · simp only [hs, if_false] at hloop ⊢
      obtain ⟨b', heq, hR'⟩ := hS.proceed cb (c := c) hR
      rw [heq]
      cases hmore : (step cb ⟨c, q⟩).1 with
      | true =>
        rw [hmore] at hloop
        exact ih hR' hloop
      | false =>
        rw [hmore] at hloop
        obtain rfl : (step cb ⟨c, q⟩).2 = r := by simpa using hloop
        exact ⟨b', rfl, hR'⟩

end Socks5
end Proxy
end TrustedCa
