import TrustedCa.Spec.Recorded

/-!
# Resources that are closed in every case

* `Prog.ensuring p close`: the program `p`, after which `close` is run whether `p` returns or throws,
  as `try` with a resource does. `wp_ensuring` reduces it to `p` and `close`.
* `Handles`: which calls open and close handles. `held hs log h`: the handle `h` is open after the
  calls of the log.
* `held_opened_closed`: what is opened, used by calls that open and close nothing, and closed leaves
  the handles as they were.
-/

namespace TrustedCa
namespace Spec

variable {Op : Type} {Ret : Op → Type} {ε α : Type}

/-! ## A block with an end -/

/-- How a block ends with its resource: an exception of the block goes before one of `close`. -/
def closing : Except ε α → Except ε Unit → Except ε α
  | .ok a, .ok () => .ok a
  | .ok _, .error e => .error e
  | .error e, _ => .error e

/-- The program, and `close` however it ends. -/
def Prog.ensuring : Prog Op Ret ε α → Prog Op Ret ε Unit → Prog Op Ret ε α
  | .ret a, close => close >>= fun _ => .ret a
  | .throw e, close => tryCatch close (fun _ => .ret ()) >>= fun _ => .throw e
  | .call o k, close => .call o fun r => (k r).ensuring close

theorem wp_ensuring {σ : Type} {L : Logic Op Ret σ} {close : Prog Op Ret ε Unit}
    {p : Prog Op Ret ε α} {Q : Except ε α → σ → Prop} {s : σ}
    (h : wp L p (fun r s' => wp L close (fun c s'' => Q (closing r c) s'') s') s) :
    wp L (p.ensuring close) Q s := by
  induction p generalizing s with
  | ret a =>
    refine (wp_bind _ _).mpr (wp_mono ?_ close h)
    rintro (e | ⟨⟩) s' hQ
    · exact hQ
    · exact hQ
  | throw e =>
    refine (wp_bind _ _).mpr ((wp_tryCatch _ _).mpr (wp_mono ?_ close h))
    rintro (e' | ⟨⟩) s' hQ
    · exact hQ
    · exact hQ
  | call o k ih =>
    intro s₁ hr
    obtain ⟨hp, hk⟩ := h s₁ hr
    exact ⟨hp, fun r s₂ hs => ⟨(hk r s₂ hs).1, ih r (hk r s₂ hs).2⟩⟩

/-! ## Open handles -/

variable {H : Type} [DecidableEq H]

/-- The calls that open and close handles. A call opens one depending on its answer. -/
structure Handles (Op : Type) (Ret : Op → Type) (H : Type) where
  opens : Event Op Ret → Option H
  closes : Op → Option H

namespace Handles

variable (hs : Handles Op Ret H)

/-- A call neither opens nor closes a handle. -/
def Neutral (ev : Event Op Ret) : Prop := hs.opens ev = none ∧ hs.closes ev.1 = none

/-- The handles after one more call. -/
def after (held : H → Bool) (ev : Event Op Ret) : H → Bool :=
  match hs.opens ev, hs.closes ev.1 with
  | some h, _ => fun h' => h' = h || held h'
  | none, some h => fun h' => h' ≠ h && held h'
  | none, none => held

/-- The handles that are open after the calls of a log. -/
def held (log : List (Event Op Ret)) : H → Bool := log.foldl hs.after fun _ => false

variable {hs}

theorem held_concat (log : List (Event Op Ret)) (ev : Event Op Ret) :
    hs.held (log ++ [ev]) = hs.after (hs.held log) ev := by
  simp [held]

theorem held_opened {log : List (Event Op Ret)} {ev : Event Op Ret} {h : H}
    (ho : hs.opens ev = some h) (h' : H) :
    hs.held (log ++ [ev]) h' = (h' = h || hs.held log h') := by
  rw [held_concat, after, ho]

theorem held_closed {log : List (Event Op Ret)} {ev : Event Op Ret} {h : H}
    (ho : hs.opens ev = none) (hc : hs.closes ev.1 = some h) (h' : H) :
    hs.held (log ++ [ev]) h' = (h' ≠ h && hs.held log h') := by
  rw [held_concat, after, ho, hc]

theorem held_neutral {log : List (Event Op Ret)} {ev : Event Op Ret} (hn : hs.Neutral ev) :
    hs.held (log ++ [ev]) = hs.held log := by
  rw [held_concat, after, hn.1, hn.2]

/-- The calls of a neutral part of a log, one after the other. -/
theorem held_append_neutral {log more : List (Event Op Ret)} (h : ∀ ev ∈ more, hs.Neutral ev) :
    hs.held (log ++ more) = hs.held log := by
  induction more generalizing log with
  | nil => rw [List.append_nil]
  | cons ev more ih =>
    rw [← List.singleton_append, ← List.append_assoc,
      ih fun e he => h e (List.mem_cons_of_mem _ he), held_neutral (h ev List.mem_cons_self)]

/-- A fresh handle that is opened and closed again leaves the others as they were. -/
theorem held_opened_closed {log log' log'' : List (Event Op Ret)} {h : H}
    (hfresh : hs.held log h = false)
    (hopened : ∀ h', hs.held log' h' = (h' = h || hs.held log h'))
    (hclosed : ∀ h', hs.held log'' h' = (h' ≠ h && hs.held log' h')) :
    hs.held log'' = hs.held log := by
  funext h'
  rw [hclosed, hopened]
  by_cases heq : h' = h
  · simp [heq, hfresh]
  · simp [heq]

end Handles

end Spec
end TrustedCa
