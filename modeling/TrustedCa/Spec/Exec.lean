import TrustedCa.Spec.Prog

/-!
# Programs that run to their end

A device that a stream of choices makes deterministic (`serve`). A program makes finitely many calls
on it, so it runs to its end (`Prog.exec`). `wp_exec`: where `wp` holds in the logic of the devices
with these choices, the end is as the postcondition says.
-/

namespace TrustedCa
namespace Spec

variable {Op Ch : Type} {Ret : Op → Type} {ε α σ : Type}

/-- The end of a run. The `n`-th call is served by the choice `chs n`. -/
def Prog.exec (serve : Ch → σ → (o : Op) → Ret o × σ) :
    Prog Op Ret ε α → (Nat → Ch) → σ → σ × Except ε α
  | .ret a, _, s => (s, .ok a)
  | .throw e, _, s => (s, .error e)
  | .call o k, chs, s =>
    (k (serve (chs 0) s o).1).exec serve (fun n => chs (n + 1)) (serve (chs 0) s o).2

/-- The logic of the runs with choices in `allow`, where nobody else uses the device. -/
def served (serve : Ch → σ → (o : Op) → Ret o × σ) (allow : Ch → Prop) : Logic Op Ret σ where
  step o s r s' := ∃ ch, allow ch ∧ serve ch s o = (r, s')
  rely s s' := s' = s
  guar _ _ := True
  pending _ _ := True

variable {serve : Ch → σ → (o : Op) → Ret o × σ} {allow : Ch → Prop}

theorem wp_served {o : Op} {k : Ret o → Prog Op Ret ε α} {Q : Except ε α → σ → Prop} {s : σ}
    (h : ∀ ch, allow ch → wp (served serve allow) (k (serve ch s o).1) Q (serve ch s o).2) :
    wp (served serve allow) (.call o k) Q s := by
  rintro _ rfl
  refine ⟨trivial, ?_⟩
  rintro r s₂ ⟨ch, hch, hs⟩
  have hk := h ch hch
  rw [hs] at hk
  exact ⟨trivial, hk⟩

theorem wp_exec {Q : Except ε α → σ → Prop} {p : Prog Op Ret ε α} {chs : Nat → Ch} {s : σ}
    (hchs : ∀ n, allow (chs n)) (h : wp (served serve allow) p Q s) :
    Q (p.exec serve chs s).2 (p.exec serve chs s).1 := by
  induction p generalizing chs s with
  | ret a => exact h
  | throw e => exact h
  | call o k ih =>
    have hk := ((h s rfl).2 _ _ ⟨chs 0, hchs 0, rfl⟩).2
    exact ih _ (fun n => hchs (n + 1)) hk

end Spec
end TrustedCa
