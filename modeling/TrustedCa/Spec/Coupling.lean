import Mathlib.Data.List.Chain
import TrustedCa.Spec.Prog

/-!
# Two programs in step

Two programs that keep their state in a device each, of which the states stay related. What the
programs keep to themselves, that is the answers they have seen, may differ.

* `twp T p p' Q s s'`: from the states `s` and `s'`, for every call of `p` and every answer to it there
  is an answer to a call of `p'` that leaves related states; the two calls are related by `T.alike`, and
  the programs end together, in results related by `Q`. `twp_bind`, `twp_tryCatch` and `twp_call`
  reduce it to the calls.
* `RunStep.twp_chain`: runs that are stopped and started again keep in step, too.
-/

namespace TrustedCa
namespace Spec

variable {Op : Type} {Ret : Op → Type} {ε α β γ δ σ : Type}

/-- The two devices, the calls that may be made together, and the states that are related. -/
structure Twin (Op : Type) (Ret : Op → Type) (σ : Type) where
  step : (o : Op) → σ → Ret o → σ → Prop
  step' : (o : Op) → σ → Ret o → σ → Prop
  alike : Op → Op → Prop
  same : σ → σ → Prop

/-- The rest of a block after an answer or an exception, as a program. -/
def Prog.cont (f : α → Prog Op Ret ε β) : Except ε α → Prog Op Ret ε β
  | .ok a => f a
  | .error e => .throw e

/-- The handler of a block after an answer or an exception, as a program. -/
def Prog.handled (h : ε → Prog Op Ret ε α) : Except ε α → Prog Op Ret ε α
  | .ok a => .ret a
  | .error e => h e

section Rules

variable (T : Twin Op Ret σ)

def twp : Prog Op Ret ε α → Prog Op Ret ε β → (Except ε α → Except ε β → σ → σ → Prop) → σ → σ → Prop
  | .ret a, p', Q, s, s' => ∃ r', p'.result = some r' ∧ Q (.ok a) r' s s'
  | .throw e, p', Q, s, s' => ∃ r', p'.result = some r' ∧ Q (.error e) r' s s'
  | .call o k, p', Q, s, s' => ∃ o' k', p' = .call o' k' ∧ T.alike o o' ∧
      ∀ r s₁, T.step o s r s₁ →
        ∃ r' s₁', T.step' o' s' r' s₁' ∧ T.same s₁ s₁' ∧ twp (k r) (k' r') Q s₁ s₁'

variable {T} {s s' : σ}

theorem twp_pure {a : α} {b : β} {Q : Except ε α → Except ε β → σ → σ → Prop}
    (h : Q (.ok a) (.ok b) s s') :
    twp T (pure a : Prog Op Ret ε α) (pure b : Prog Op Ret ε β) Q s s' := ⟨_, rfl, h⟩

theorem twp_throw {e e' : ε} {Q : Except ε α → Except ε β → σ → σ → Prop}
    (h : Q (.error e) (.error e') s s') :
    twp T (throw e : Prog Op Ret ε α) (throw e' : Prog Op Ret ε β) Q s s' := ⟨_, rfl, h⟩

theorem twp_call {o o' : Op} {k : Ret o → Prog Op Ret ε α} {k' : Ret o' → Prog Op Ret ε β}
    {Q : Except ε α → Except ε β → σ → σ → Prop} (ho : T.alike o o')
    (hk : ∀ r s₁, T.step o s r s₁ →
      ∃ r' s₁', T.step' o' s' r' s₁' ∧ T.same s₁ s₁' ∧ twp T (k r) (k' r') Q s₁ s₁') :
    twp T (.call o k) (.call o' k') Q s s' := ⟨o', k', rfl, ho, hk⟩

theorem twp_mono {Q Q' : Except ε α → Except ε β → σ → σ → Prop}
    (hQ : ∀ r r' s s', Q r r' s s' → Q' r r' s s') {p : Prog Op Ret ε α} {p' : Prog Op Ret ε β}
    (h : twp T p p' Q s s') : twp T p p' Q' s s' := by
  induction p generalizing p' s s' with
  | ret a | throw e =>
    obtain ⟨r', hr', hq⟩ := h
    exact ⟨r', hr', hQ _ _ _ _ hq⟩
  | call o k ih =>
    obtain ⟨o', k', rfl, ho, hk⟩ := h
    refine twp_call ho fun r s₁ hs => ?_
    obtain ⟨r', s₁', hs', hsame, h'⟩ := hk r s₁ hs
    exact ⟨r', s₁', hs', hsame, ih r h'⟩

theorem cont_of_result {p : Prog Op Ret ε α} {r : Except ε α} (h : p.result = some r)
    (f : α → Prog Op Ret ε β) : p >>= f = Prog.cont f r := by
  cases p with
  | ret a | throw e => cases h; rfl
  | call o k => cases h

theorem handled_of_result {p : Prog Op Ret ε α} {r : Except ε α} (h : p.result = some r)
    (f : ε → Prog Op Ret ε α) : tryCatch p f = Prog.handled f r := by
  cases p with
  | ret a | throw e => cases h; rfl
  | call o k => cases h

theorem twp_bind {p : Prog Op Ret ε α} {p' : Prog Op Ret ε β} {f : α → Prog Op Ret ε γ}
    {f' : β → Prog Op Ret ε δ} {Q : Except ε γ → Except ε δ → σ → σ → Prop}
    (h : twp T p p' (fun r r' s s' => twp T (.cont f r) (.cont f' r') Q s s') s s') :
    twp T (p >>= f) (p' >>= f') Q s s' := by
  induction p generalizing p' s s' with
  | ret a | throw e =>
    obtain ⟨r', hr', hq⟩ := h
    rw [cont_of_result hr']
    exact hq
  | call o k ih =>
    obtain ⟨o', k', rfl, ho, hk⟩ := h
    refine twp_call ho fun r s₁ hs => ?_
    obtain ⟨r', s₁', hs', hsame, h'⟩ := hk r s₁ hs
    exact ⟨r', s₁', hs', hsame, ih r h'⟩

theorem twp_tryCatch {p : Prog Op Ret ε α} {p' : Prog Op Ret ε β} {h : ε → Prog Op Ret ε α}
    {h' : ε → Prog Op Ret ε β} {Q : Except ε α → Except ε β → σ → σ → Prop}
    (hp : twp T p p' (fun r r' s s' => twp T (.handled h r) (.handled h' r') Q s s') s s') :
    twp T (tryCatch p h) (tryCatch p' h') Q s s' := by
  induction p generalizing p' s s' with
  | ret a | throw e =>
    obtain ⟨r', hr', hq⟩ := hp
    rw [handled_of_result hr']
    exact hq
  | call o k ih =>
    obtain ⟨o', k', rfl, ho, hk⟩ := hp
    refine twp_call ho fun r s₁ hs => ?_
    obtain ⟨r', s₁', hs', hsame, hp'⟩ := hk r s₁ hs
    exact ⟨r', s₁', hs', hsame, ih r hp'⟩

end Rules

namespace RunStep

variable {T : Twin Op Ret σ} {L : Logic Op Ret σ} {mayStop : Op → Prop}
  {main : Prog Op Ret ε α} {main' : Prog Op Ret ε β} {Pre : σ → Prop} {Q : Except ε α → σ → Prop}
  {R : Except ε α → Except ε β → σ → σ → Prop}

/-- Two configurations in step. -/
def InStep (T : Twin Op Ret σ) (R : Except ε α → Except ε β → σ → σ → Prop)
    (c : σ × Prog Op Ret ε α) (q : σ × Prog Op Ret ε β) : Prop :=
  T.same c.1 q.1 ∧ twp T c.2 q.2 R c.1 q.1

/-- A step of runs that are stopped and started again is matched by the other runs, if `main` and
`main'` keep in step from related states in which a run may start. -/
theorem twp_step (hL : Restarts L mayStop main Pre Q) (hstep : T.step = L.step)
    (hstop : ∀ o o', T.alike o o' → mayStop o → mayStop o')
    (hmain : ∀ s s', Pre s → T.same s s' → twp T main main' R s s') {c c' : σ × Prog Op Ret ε α}
    {q : σ × Prog Op Ret ε β} (hwp : wp L c.2 Q c.1) (h : InStep T R c q)
    (hs : RunStep L.step mayStop main c c') :
    ∃ q', RunStep T.step' mayStop main' q q' ∧ InStep T R c' q' := by
  obtain ⟨t, p'⟩ := q
  obtain ⟨hsame, h⟩ := h
  cases hs with
  | call hs =>
    obtain ⟨o', k', rfl, -, hk⟩ := h
    obtain ⟨r', t', hs', hsame', h'⟩ := hk _ _ (hstep ▸ hs)
    exact ⟨_, .call hs', hsame', h'⟩
  | @start s p hmay =>
    refine ⟨(t, main'), .start fun o' k' hp' => ?_, hsame, hmain s t ?_ hsame⟩
    · cases p with
      | ret a | throw e =>
        obtain ⟨r', hr', -⟩ := h
        dsimp only at hr'
        rw [hp'] at hr'
        cases hr'
      | call o k =>
        obtain ⟨o₁, k₁, rfl, ho, -⟩ := h
        cases hp'
        exact hstop o o' ho (hmay o k rfl)
    · cases p with
      | ret a | throw e => exact hL.ended _ _ hwp
      | call o k => exact hL.stopped o _ (hmay o k rfl) (hwp _ (hL.alone _)).1

/-- Every run has one in step with it, configuration by configuration. -/
theorem twp_chain (hL : Restarts L mayStop main Pre Q) (hstep : T.step = L.step)
    (hstop : ∀ o o', T.alike o o' → mayStop o → mayStop o')
    (hmain : ∀ s s', Pre s → T.same s s' → twp T main main' R s s')
    {cs : List (σ × Prog Op Ret ε α)} {c : σ × Prog Op Ret ε α} {q : σ × Prog Op Ret ε β}
    (hwp : wp L c.2 Q c.1) (h : InStep T R c q)
    (hcs : (c :: cs).IsChain (RunStep L.step mayStop main)) :
    ∃ qs : List (σ × Prog Op Ret ε β),
      (q :: qs).IsChain (RunStep T.step' mayStop main') ∧ List.Forall₂ (InStep T R) cs qs := by
  induction cs generalizing c q with
  | nil => exact ⟨[], .singleton _, .nil⟩
  | cons d cs ih =>
    obtain ⟨hs, hcs⟩ := List.isChain_cons_cons.mp hcs
    obtain ⟨q', hs', h'⟩ := twp_step hL hstep hstop hmain hwp h hs
    obtain ⟨qs, hqs, hall⟩ := ih (wp_step hL hwp hs).1 h' hcs
    exact ⟨q' :: qs, List.isChain_cons_cons.mpr ⟨hs', hqs⟩, .cons h' hall⟩

end RunStep

end Spec
end TrustedCa
