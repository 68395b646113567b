import TrustedCa.Proxy.Socks5Lemmas

/-!
# The handshake does not depend on how the bytes arrive

`feed` appends the chunks one at a time and runs the handshake loop after each one.
`feed_chunks_eq_whole`: the loops end, and the state, the callback calls and the bytes left are
those of one loop over the whole stream. The required size may differ once the state is `kFail`:
a `Proceed` in `kFail` clears it, and a failed transition leaves the value of its own state.
-/

namespace TrustedCa
namespace Proxy
namespace Socks5

variable {cb : Callbacks}

/-- Append each chunk and run the handshake loop, with at most `n` iterations, after it. -/
def feed (cb : Callbacks) (n : Nat) (chunks : List (List Byte)) (r : QRun) : Option QRun :=
  chunks.foldlM (fun r x => loop cb n (r.append x)) r

/-- Two runs that differ at most in the required size of a failed handshake. -/
structure Same (r r' : QRun) : Prop where
  state : r.ctl.state = r'.ctl.state
  calls : r.ctl.calls = r'.ctl.calls
  buffer : r.buffer = r'.buffer
  required : r.ctl.state ≠ .kFail → r.ctl.requiredSize = r'.ctl.requiredSize

namespace Same

theorem refl (r : QRun) : Same r r := ⟨rfl, rfl, rfl, fun _ => rfl⟩

theorem symm {r r' : QRun} (h : Same r r') : Same r' r :=
  ⟨h.state.symm, h.calls.symm, h.buffer.symm, fun hf => (h.required (h.state ▸ hf)).symm⟩

theorem trans {r r' r'' : QRun} (h : Same r r') (h' : Same r' r'') : Same r r'' :=
  ⟨h.state.trans h'.state, h.calls.trans h'.calls, h.buffer.trans h'.buffer,
    fun hf => (h.required hf).trans (h'.required (h.state ▸ hf))⟩

theorem append {r r' : QRun} (h : Same r r') (x : List Byte) : Same (r.append x) (r'.append x) :=
  ⟨h.state, h.calls, by simp [h.buffer], h.required⟩

theorem eq_of_ne_fail {r r' : QRun} (h : Same r r') (hf : r.ctl.state ≠ .kFail) : r = r' := by
  obtain ⟨⟨s, n, calls⟩, q⟩ := r
  obtain ⟨⟨s', n', calls'⟩, q'⟩ := r'
  obtain ⟨rfl, rfl, rfl, hn⟩ := h
  obtain rfl := hn hf
  rfl

end Same

/-- In an idle state the loop changes nothing but the required size of `kFail`. -/
theorem finish_idle {r : QRun} (hw : r.ctl.Wf) (hi : r.ctl.Idle) : Same r (finish cb r) := by
  by_cases hs : r.ctl.state = .kSuccess
  · rw [finish_success hs]; exact .refl r
  · by_cases hn : r.ctl.requiredSize ≤ r.buffer.length
    · have hd : r.ctl.need = 0 := by
        rcases hi with h | h | h | h <;> simp [Ctl.need, h]
      have h1 : step cb r = (false, ⟨if r.ctl.state = .kFail then r.ctl.goTo .kFail 0 else r.ctl,
          r.buffer⟩) := by
        rw [step_eq hw hn, onGroup_idle hi, hd]; rfl
      rw [finish_of_false hs (by rw [h1]), h1]
      split
      · rename_i hf; exact ⟨hf, rfl, rfl, fun h => absurd hf h⟩
      · exact .refl r
    · rw [finish_of_false hs (by rw [step_insufficient (by omega)]), step_insufficient (by omega)]
      exact .refl r

/-- Bytes that arrive after the loop ended lead to the same run as bytes that were there. The two
may differ in the required size only if the loop ended in `kFail`. -/
theorem finish_append_cases (cb : Callbacks) {r : QRun} (hw : r.ctl.Wf) (x : List Byte) :
    finish cb (r.append x) = finish cb ((finish cb r).append x) ∨
      (finish cb r).ctl.state = .kFail ∧
        Same (finish cb (r.append x)) (finish cb ((finish cb r).append x)) := by
  induction hk : r.ctl.state.rank using Nat.strongRecOn generalizing r with
  | _ k ih =>
    by_cases hs : r.ctl.state = .kSuccess
    · rw [finish_success hs]; exact .inl rfl
    have hs' : (r.append x).ctl.state ≠ .kSuccess := hs
    cases h : (step cb r).1 with
    | true =>
      -- Both loops take the same first step.
      obtain ⟨hn, hlt⟩ := step_true hw h
      have ha : step cb (r.append x) = _ := step_append hw hn x
      rw [finish_of_true hw hs h, finish_of_true (r := r.append x) hw hs' (by rw [ha]; exact h), ha]
      exact ih _ (hk ▸ hlt) (step_wf hw) rfl
    | false =>
      rcases step_false hw h with ⟨-, h1⟩ | ⟨hn, hi⟩
      · -- The loop stopped for want of bytes, so it left `r` as it was.
        rw [finish_of_false hs h, h1]; exact .inl rfl
      · have ha : step cb (r.append x) = _ := step_append hw hn x
        have hf : finish cb (r.append x) = (step cb r).2.append x := by
          rw [finish_of_false hs' (by rw [ha]; exact h), ha]
        rw [hf, finish_of_false hs h]
        have hsame : Same ((step cb r).2.append x) (finish cb ((step cb r).2.append x)) :=
          finish_idle (r := (step cb r).2.append x) (step_wf hw) hi
        by_cases hfail : (step cb r).2.ctl.state = .kFail
        · exact .inr ⟨hfail, hsame⟩
        · exact .inl (hsame.eq_of_ne_fail hfail)

theorem finish_append (cb : Callbacks) {r : QRun} (hw : r.ctl.Wf) (x : List Byte) :
    Same (finish cb (r.append x)) (finish cb ((finish cb r).append x)) := by
  rcases finish_append_cases cb hw x with h | ⟨-, h⟩
  · rw [h]; exact .refl _
  · exact h

/-- A loop after the loop changes nothing but the required size of `kFail`. -/
theorem finish_finish {r : QRun} (hw : r.ctl.Wf) : Same (finish cb r) (finish cb (finish cb r)) := by
  have h := finish_append cb hw []
  rwa [append_nil, append_nil] at h

/-- The chunks lead to the run of the whole stream, from a run whose loop has ended. -/
theorem feed_total {r : QRun} (hw : r.ctl.Wf) (hr : Same r (finish cb r))
    (chunks : List (List Byte)) :
    ∃ r', r'.ctl.Wf ∧ (∀ n, 7 ≤ n → feed cb n chunks r = some r') ∧
      Same r' (finish cb (r.append chunks.flatten)) := by
  induction chunks generalizing r with
  | nil => exact ⟨r, hw, fun n _ => rfl, by simpa using hr⟩
  | cons x xs ih =>
    have hwx : (finish cb (r.append x)).ctl.Wf := finish_wf (r := r.append x) hw
    obtain ⟨r', hw', hr', hsame⟩ := ih hwx (finish_finish (r := r.append x) hw)
    refine ⟨r', hw', fun n hn => ?_, ?_⟩
    · have hl : loop cb n (r.append x) = some (finish cb (r.append x)) :=
        loop_eq_finish (r := r.append x) hw (Nat.lt_of_lt_of_le (HandshakeState.rank_le _) hn)
      simp only [feed, List.foldlM_cons, hl, Option.bind_eq_bind, Option.bind_some]
      exact hr' n hn
    · have ha := finish_append cb (r := r.append x) hw xs.flatten
      rw [append_append] at ha
      rw [List.flatten_cons]
      exact hsame.trans ha.symm

/-- The handshake at its start: no byte, no call. -/
def start : QRun := { buffer := [] }

theorem start_wf : start.ctl.Wf := rfl

theorem feed_start (cb : Callbacks) (chunks : List (List Byte)) :
    ∃ r', r'.ctl.Wf ∧ (∀ n, 7 ≤ n → feed cb n chunks start = some r') ∧
      Same r' (finish cb (start.append chunks.flatten)) := by
  have hst : step cb start = (false, start) := step_insufficient (by decide)
  have hf : finish cb start = start := by
    rw [finish_of_false (by decide) (by rw [hst]), hst]
  exact feed_total start_wf (by rw [hf]; exact .refl _) chunks

/-- **Chunking independence.** For every partition of a byte stream, the loops over its chunks and
the loop over the whole end, in the same state, with the same callback calls and bytes left. -/
theorem feed_chunks_eq_whole (cb : Callbacks) (chunks : List (List Byte)) :
    ∃ a b : QRun,
      (∀ n, 7 ≤ n → feed cb n chunks start = some a ∧
        loop cb n (start.append chunks.flatten) = some b) ∧
      a.ctl.state = b.ctl.state ∧ a.ctl.calls = b.ctl.calls ∧ a.buffer = b.buffer := by
  obtain ⟨r, -, hr, hs⟩ := feed_start cb chunks
  refine ⟨r, _, fun n hn => ⟨hr n hn,
    loop_eq_finish (r := start.append chunks.flatten) start_wf ?_⟩, hs.state, hs.calls, hs.buffer⟩
  exact Nat.lt_of_lt_of_le (HandshakeState.rank_le _) hn

end Socks5
end Proxy
end TrustedCa
