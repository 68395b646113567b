import Mathlib.Logic.Function.Basic
import Mathlib.Logic.Relation

/-!
# Programs over a device, and their runs

A program calls operations of a device one after the other, returns or throws, and keeps no state
but what the device holds. Its control flow is a tree over the answers (`Prog`), so a run can be
stopped or interleaved between any two calls.

* `wp L p Q s`: from the device state `s`, the program `p` ends in `Q` and keeps to the logic `L`:
  the others may change the state as `L.rely` says, each own call changes it as `L.guar` says, and
  `L.pending o` holds whenever the call `o` comes next. `wp_bind`, `wp_tryCatch` and `wp_call` reduce
  it to the calls.
* `RunStep`: one program at a time, stopped at any call and started again. `RunStep.wp_reach` says
  what holds in every state of such runs.
* `ParStep`: several programs whose calls are interleaved. `ParStep.wp_reach` is its rule.
-/

namespace TrustedCa
namespace Spec

/-- A program that calls operations `o : Op` with answers in `Ret o`, and returns or throws. -/
inductive Prog (Op : Type) (Ret : Op → Type) (ε α : Type) where
  | ret (a : α)
  | throw (e : ε)
  | call (o : Op) (k : Ret o → Prog Op Ret ε α)

namespace Prog

variable {Op : Type} {Ret : Op → Type} {ε α β : Type}

def bind : Prog Op Ret ε α → (α → Prog Op Ret ε β) → Prog Op Ret ε β
  | .ret a, f => f a
  | .throw e, _ => .throw e
  | .call o k, f => .call o fun r => (k r).bind f

protected def tryCatch : Prog Op Ret ε α → (ε → Prog Op Ret ε α) → Prog Op Ret ε α
  | .ret a, _ => .ret a
  | .throw e, h => h e
  | .call o k, h => .call o fun r => (k r).tryCatch h

instance : Monad (Prog Op Ret ε) where
  pure := .ret
  bind := bind

instance : MonadExcept ε (Prog Op Ret ε) where
  throw := .throw
  tryCatch := Prog.tryCatch

theorem bind_assoc {γ : Type} (p : Prog Op Ret ε α) (f : α → Prog Op Ret ε β)
    (g : β → Prog Op Ret ε γ) : p >>= f >>= g = p >>= fun a => f a >>= g := by
  induction p with
  | ret a => rfl
  | throw e => rfl
  | call o k ih => exact congrArg (Prog.call o) (funext ih)

/-- An answer or an exception as a program. -/
def ofExcept : Except ε α → Prog Op Ret ε α
  | .ok a => .ret a
  | .error e => .throw e

/-- The value, or an exception where there is none. -/
def ofOption (e : ε) : Option α → Prog Op Ret ε α
  | some a => .ret a
  | none => .throw e

/-- The program has returned or thrown. -/
def result : Prog Op Ret ε α → Option (Except ε α)
  | .ret a => some (.ok a)
  | .throw e => some (.error e)
  | .call _ _ => none

end Prog

variable {Op : Type} {Ret : Op → Type} {ε α β σ : Type}

/-- What a program may rely on and has to keep to. -/
structure Logic (Op : Type) (Ret : Op → Type) (σ : Type) where
  step : (o : Op) → σ → Ret o → σ → Prop
  rely : σ → σ → Prop
  guar : σ → σ → Prop
  pending : Op → σ → Prop

section Rules

variable (L : Logic Op Ret σ)

def wp : Prog Op Ret ε α → (Except ε α → σ → Prop) → σ → Prop
  | .ret a, Q, s => Q (.ok a) s
  | .throw e, Q, s => Q (.error e) s
  | .call o k, Q, s => ∀ s₁, L.rely s s₁ → L.pending o s₁ ∧
      ∀ r s₂, L.step o s₁ r s₂ → L.guar s₁ s₂ ∧ wp (k r) Q s₂

variable {L}

@[simp] theorem wp_pure {Q : Except ε α → σ → Prop} {s : σ} (a : α) :
    wp L (pure a : Prog Op Ret ε α) Q s ↔ Q (.ok a) s := .rfl

@[simp] theorem wp_throw {Q : Except ε α → σ → Prop} {s : σ} (e : ε) :
    wp L (throw e : Prog Op Ret ε α) Q s ↔ Q (.error e) s := .rfl

theorem wp_call {Q : Except ε α → σ → Prop} {s : σ} (o : Op) (k : Ret o → Prog Op Ret ε α) :
    wp L (.call o k) Q s ↔ ∀ s₁, L.rely s s₁ → L.pending o s₁ ∧
      ∀ r s₂, L.step o s₁ r s₂ → L.guar s₁ s₂ ∧ wp L (k r) Q s₂ := .rfl

theorem wp_mono {Q Q' : Except ε α → σ → Prop} (hQ : ∀ r s, Q r s → Q' r s)
    (p : Prog Op Ret ε α) {s : σ} (h : wp L p Q s) : wp L p Q' s := by
  induction p generalizing s with
  | ret a => exact hQ _ _ h
  | throw e => exact hQ _ _ h
  | call o k ih =>
    intro s₁ hr
    obtain ⟨hp, hk⟩ := h s₁ hr
    exact ⟨hp, fun r s₂ hs => ⟨(hk r s₂ hs).1, ih r (hk r s₂ hs).2⟩⟩

/-- The rest of a block, after an answer or an exception. -/
def andThen (L : Logic Op Ret σ) (f : α → Prog Op Ret ε β) (Q : Except ε β → σ → Prop) :
    Except ε α → σ → Prop
  | .ok a, s => wp L (f a) Q s
  | .error e, s => Q (.error e) s

/-- The handler of a block. -/
def orElse (L : Logic Op Ret σ) (h : ε → Prog Op Ret ε α) (Q : Except ε α → σ → Prop) :
    Except ε α → σ → Prop
  | .ok a, s => Q (.ok a) s
  | .error e, s => wp L (h e) Q s

@[simp] theorem andThen_ok {f : α → Prog Op Ret ε β} {Q : Except ε β → σ → Prop} {a : α} {s : σ} :
    andThen L f Q (.ok a) s ↔ wp L (f a) Q s := .rfl

@[simp] theorem andThen_error {f : α → Prog Op Ret ε β} {Q : Except ε β → σ → Prop} {e : ε} {s : σ} :
    andThen L f Q (.error e) s ↔ Q (.error e) s := .rfl

@[simp] theorem orElse_ok {h : ε → Prog Op Ret ε α} {Q : Except ε α → σ → Prop} {a : α} {s : σ} :
    orElse L h Q (.ok a) s ↔ Q (.ok a) s := .rfl

@[simp] theorem orElse_error {h : ε → Prog Op Ret ε α} {Q : Except ε α → σ → Prop} {e : ε} {s : σ} :
    orElse L h Q (.error e) s ↔ wp L (h e) Q s := .rfl

theorem wp_bind {Q : Except ε β → σ → Prop} {s : σ} (p : Prog Op Ret ε α)
    (f : α → Prog Op Ret ε β) : wp L (p >>= f) Q s ↔ wp L p (andThen L f Q) s := by
  induction p generalizing s with
  | ret a => exact .rfl
  | throw e => exact .rfl
  | call o k ih =>
    refine forall₂_congr fun s₁ _ => and_congr_right fun _ => ?_
    exact forall₃_congr fun r s₂ _ => and_congr_right fun _ => ih r

theorem wp_tryCatch {Q : Except ε α → σ → Prop} {s : σ} (p : Prog Op Ret ε α)
    (h : ε → Prog Op Ret ε α) : wp L (tryCatch p h) Q s ↔ wp L p (orElse L h Q) s := by
  induction p generalizing s with
  | ret a => exact .rfl
  | throw e => exact .rfl
  | call o k ih =>
    refine forall₂_congr fun s₁ _ => and_congr_right fun _ => ?_
    exact forall₃_congr fun r s₂ _ => and_congr_right fun _ => ih r

@[simp] theorem wp_ofExcept {Q : Except ε α → σ → Prop} {s : σ} (r : Except ε α) :
    wp L (Prog.ofExcept r : Prog Op Ret ε α) Q s ↔ Q r s := by
  cases r <;> rfl

theorem wp_ofOption {Q : Except ε α → σ → Prop} {s : σ} {e : ε} {v : Option α}
    (hsome : ∀ a, v = some a → Q (.ok a) s) (hnone : v = none → Q (.error e) s) :
    wp L (Prog.ofOption e v : Prog Op Ret ε α) Q s := by
  cases v with
  | none => exact hnone rfl
  | some a => exact hsome a rfl

/-- What the others do before the first call does no harm. -/
theorem wp_stable (htrans : ∀ {s₁ s₂ s₃}, L.rely s₁ s₂ → L.rely s₂ s₃ → L.rely s₁ s₃)
    {Q : Except ε α → σ → Prop} (hQ : ∀ r s s', L.rely s s' → Q r s → Q r s')
    {p : Prog Op Ret ε α} {s s' : σ} (hr : L.rely s s') (h : wp L p Q s) : wp L p Q s' := by
  cases p with
  | ret a => exact hQ _ _ _ hr h
  | throw e => exact hQ _ _ _ hr h
  | call o k => exact fun s₁ h₁ => h s₁ (htrans hr h₁)

end Rules

/-! ## Runs that are stopped and started again -/

/-- A step of a sequence of runs of `main`: a call of the present run, or the start of the next run
in place of a run that has ended or is stopped before a call. -/
inductive RunStep (step : (o : Op) → σ → Ret o → σ → Prop) (mayStop : Op → Prop)
    (main : Prog Op Ret ε α) : σ × Prog Op Ret ε α → σ × Prog Op Ret ε α → Prop
  | call {o : Op} {k : Ret o → Prog Op Ret ε α} {s s' : σ} {r : Ret o} (h : step o s r s') :
      RunStep step mayStop main (s, .call o k) (s', k r)
  | start {s : σ} {p : Prog Op Ret ε α} (h : ∀ o k, p = .call o k → mayStop o) :
      RunStep step mayStop main (s, p) (s, main)

namespace RunStep

/-- More answers of the device and more places to stop. -/
theorem mono {step step' : (o : Op) → σ → Ret o → σ → Prop} {mayStop mayStop' : Op → Prop}
    {main : Prog Op Ret ε α} (hs : ∀ o s r s', step o s r s' → step' o s r s')
    (hm : ∀ o, mayStop o → mayStop' o) {c c' : σ × Prog Op Ret ε α}
    (h : RunStep step mayStop main c c') : RunStep step' mayStop' main c c' := by
  cases h with
  | call h => exact .call (hs _ _ _ _ h)
  | start h => exact .start fun o k hp => hm o (h o k hp)

variable {L : Logic Op Ret σ} {mayStop : Op → Prop} {main : Prog Op Ret ε α}
  {Q : Except ε α → σ → Prop} {Pre : σ → Prop}

/-- The conditions under which runs can be stopped and started again: a run has its precondition
wherever the one before may stop or end. -/
structure Restarts (L : Logic Op Ret σ) (mayStop : Op → Prop) (main : Prog Op Ret ε α)
    (Pre : σ → Prop) (Q : Except ε α → σ → Prop) : Prop where
  alone : ∀ s, L.rely s s
  main : ∀ s, Pre s → wp L main Q s
  ended : ∀ r s, Q r s → Pre s
  stopped : ∀ o s, mayStop o → L.pending o s → Pre s

theorem wp_step (hL : Restarts L mayStop main Pre Q) {c c' : σ × Prog Op Ret ε α}
    (h : wp L c.2 Q c.1) (hs : RunStep L.step mayStop main c c') :
    wp L c'.2 Q c'.1 ∧ (c'.1 = c.1 ∨ L.guar c.1 c'.1) := by
  cases hs with
  | call hs =>
    obtain ⟨hg, hk⟩ := ((h _ (hL.alone _)).2 _ _ hs)
    exact ⟨hk, .inr hg⟩
  | @start s p hstop =>
    refine ⟨hL.main _ ?_, .inl rfl⟩
    cases p with
    | ret a => exact hL.ended _ _ h
    | throw e => exact hL.ended _ _ h
    | call o k => exact hL.stopped o _ (hstop o k rfl) (h _ (hL.alone _)).1

/-- Every configuration of the runs has its weakest precondition, and the state changed only as
the logic allows. -/
theorem wp_reach (hL : Restarts L mayStop main Pre Q) (hrefl : ∀ s, L.guar s s)
    (htrans : ∀ {s₁ s₂ s₃}, L.guar s₁ s₂ → L.guar s₂ s₃ → L.guar s₁ s₃)
    {c c' : σ × Prog Op Ret ε α} (h : wp L c.2 Q c.1)
    (hr : Relation.ReflTransGen (RunStep L.step mayStop main) c c') :
    wp L c'.2 Q c'.1 ∧ L.guar c.1 c'.1 := by
  induction hr with
  | refl => exact ⟨h, hrefl _⟩
  | tail _ hs ih =>
    obtain ⟨hw, he | hg⟩ := wp_step hL ih.1 hs
    · exact ⟨hw, he ▸ ih.2⟩
    · exact ⟨hw, htrans ih.2 hg⟩

end RunStep

/-! ## Interleaved programs -/

/-- A step of programs `p i` that run at the same time: a call of one of them. -/
inductive ParStep {ι : Type} [DecidableEq ι] (step : (o : Op) → σ → Ret o → σ → Prop) :
    σ × (ι → Prog Op Ret ε α) → σ × (ι → Prog Op Ret ε α) → Prop
  | call {ps : ι → Prog Op Ret ε α} {i : ι} {o : Op} {k : Ret o → Prog Op Ret ε α} {s s' : σ}
      {r : Ret o} (hi : ps i = .call o k) (h : step o s r s') :
      ParStep step (s, ps) (s', Function.update ps i (k r))

namespace ParStep

variable {ι : Type} [DecidableEq ι] {L : Logic Op Ret σ} {Q : Except ε α → σ → Prop}

/-- The conditions under which programs can be interleaved: what one guarantees, the others rely
on. -/
structure Compatible (L : Logic Op Ret σ) (Q : Except ε α → σ → Prop) : Prop where
  refl : ∀ s, L.rely s s
  trans : ∀ {s₁ s₂ s₃}, L.rely s₁ s₂ → L.rely s₂ s₃ → L.rely s₁ s₃
  guar : ∀ {s s'}, L.guar s s' → L.rely s s'
  stable : ∀ r s s', L.rely s s' → Q r s → Q r s'

theorem wp_reach (hL : Compatible L Q) {c c' : σ × (ι → Prog Op Ret ε α)}
    (h : ∀ i, wp L (c.2 i) Q c.1) (hr : Relation.ReflTransGen (ParStep L.step) c c') :
    (∀ i, wp L (c'.2 i) Q c'.1) ∧ L.rely c.1 c'.1 := by
  induction hr with
  | refl => exact ⟨h, hL.refl _⟩
  | tail _ hs ih =>
    cases hs with
    | @call ps i o k s s' r hi hs =>
      have hi' : wp L (.call o k) Q s := hi ▸ ih.1 i
      obtain ⟨hg, hk⟩ := (hi' s (hL.refl s)).2 r s' hs
      refine ⟨fun j => ?_, hL.trans ih.2 (hL.guar hg)⟩
      dsimp only
      by_cases hj : j = i
      · subst hj; rwa [Function.update_self]
      · rw [Function.update_of_ne hj]
        exact wp_stable hL.trans hL.stable (hL.guar hg) (ih.1 j)

end ParStep

end Spec
end TrustedCa
