import TrustedCa.Spec.Prog

/-!
# Runs of a program that record their calls

A device may answer a call by anything, and by something else the next time. Such a device is a
function of the calls so far and their answers, so the log of a run is its state.

* `Prog.run answer p log`: the run of `p` on the device `answer`, which has logged `log` before.
* `recorded answer pending`: the logic of these runs, for one program that runs alone.
* `wp_run`: what a weakest precondition says of the result and of the log. `wp_run_pending`: what it
  says of the log before a call.
* `Prog.Calls P p`: the calls of `p` satisfy `P`. `wp_self`: a program that makes no call with an
  obligation ends as it runs.
* `Prog.Ran p log q`: `p` has come to `q` with the log, whatever the answers were. It came there on
  some device (`Ran.run_eq`).
* `run_bind_ok`, `run_tryCatch_error` and the lemmas like them: a run, block by block.
* `Answered answer log`: the answers in the log are those of the device, as in every run.
* `Prog.lift p`: the program `p` as part of one that makes other calls, too (`run_lift`).
* `Adds answer P p Q`: whatever was logged before, `p` makes only calls with `P`, and where it
  returns, `Q` holds of its value and of its own part of the log.
-/

namespace TrustedCa
namespace Spec

/-- A call and its answer. -/
abbrev Event (Op : Type) (Ret : Op → Type) : Type := (o : Op) × Ret o

variable {Op : Type} {Ret : Op → Type} {ε α β : Type}

/-- The run of a program: the log after it and its result. -/
def Prog.run (answer : List (Event Op Ret) → (o : Op) → Ret o) :
    Prog Op Ret ε α → List (Event Op Ret) → List (Event Op Ret) × Except ε α
  | .ret a, log => (log, .ok a)
  | .throw e, log => (log, .error e)
  | .call o k, log => (k (answer log o)).run answer (log ++ [⟨o, answer log o⟩])

/-- Every call of the program satisfies `P`. -/
inductive Prog.Calls (P : Op → Prop) : Prog Op Ret ε α → Prop
  | ret (a : α) : Calls P (.ret a)
  | throw (e : ε) : Calls P (.throw e)
  | call {o : Op} {k : Ret o → Prog Op Ret ε α} (ho : P o) (hk : ∀ r, Calls P (k r)) :
      Calls P (.call o k)

namespace Prog.Calls

variable {P : Op → Prop}

theorem ofExcept (r : Except ε α) : (Prog.ofExcept r : Prog Op Ret ε α).Calls P := by
  cases r with
  | ok a => exact .ret a
  | error e => exact .throw e

theorem bind {p : Prog Op Ret ε α} {f : α → Prog Op Ret ε β} (hp : p.Calls P)
    (hf : ∀ a, (f a).Calls P) : (p >>= f).Calls P := by
  induction hp with
  | ret a => exact hf a
  | throw e => exact .throw e
  | call ho _ ih => exact .call ho ih

theorem tryCatch {p : Prog Op Ret ε α} {h : ε → Prog Op Ret ε α} (hp : p.Calls P)
    (hh : ∀ e, (h e).Calls P) : (MonadExcept.tryCatch p h).Calls P := by
  induction hp with
  | ret a => exact .ret a
  | throw e => exact hh e
  | call ho _ ih => exact .call ho ih

end Prog.Calls

/-- The logic of the runs on one device. Whoever calls `o` has to show `pending o` of the log. -/
def recorded (answer : List (Event Op Ret) → (o : Op) → Ret o)
    (pending : Op → List (Event Op Ret) → Prop) : Logic Op Ret (List (Event Op Ret)) where
  step o log r log' := r = answer log o ∧ log' = log ++ [⟨o, r⟩]
  rely log log' := log' = log
  guar _ _ := True
  pending := pending

section Recorded

variable {answer : List (Event Op Ret) → (o : Op) → Ret o}
  {pending : Op → List (Event Op Ret) → Prop}

theorem wp_recorded_call {Q : Except ε α → List (Event Op Ret) → Prop} {log : List (Event Op Ret)}
    {o : Op} {k : Ret o → Prog Op Ret ε α} (hp : pending o log)
    (hk : ∀ r, r = answer log o → wp (recorded answer pending) (k r) Q (log ++ [⟨o, r⟩])) :
    wp (recorded answer pending) (.call o k) Q log := by
  rintro _ rfl
  refine ⟨hp, ?_⟩
  rintro r _ ⟨hr, rfl⟩
  exact ⟨trivial, hk r hr⟩

theorem wp_recorded_call_inv {Q : Except ε α → List (Event Op Ret) → Prop}
    {log : List (Event Op Ret)} {o : Op} {k : Ret o → Prog Op Ret ε α}
    (h : wp (recorded answer pending) (.call o k) Q log) :
    pending o log ∧ wp (recorded answer pending) (k (answer log o)) Q
      (log ++ [⟨o, answer log o⟩]) := by
  obtain ⟨hp, hk⟩ := h log rfl
  exact ⟨hp, (hk (answer log o) _ ⟨rfl, rfl⟩).2⟩

/-- A run ends in the postcondition. -/
theorem wp_run {Q : Except ε α → List (Event Op Ret) → Prop} {p : Prog Op Ret ε α}
    {log : List (Event Op Ret)} (h : wp (recorded answer pending) p Q log) :
    Q (p.run answer log).2 (p.run answer log).1 := by
  induction p generalizing log with
  | ret a => exact h
  | throw e => exact h
  | call o k ih => exact ih _ (wp_recorded_call_inv h).2

theorem Prog.run_log (answer : List (Event Op Ret) → (o : Op) → Ret o) (p : Prog Op Ret ε α)
    (log : List (Event Op Ret)) : ∃ more, (p.run answer log).1 = log ++ more := by
  induction p generalizing log with
  | ret a => exact ⟨[], by simp [Prog.run]⟩
  | throw e => exact ⟨[], by simp [Prog.run]⟩
  | call o k ih =>
    obtain ⟨more, hm⟩ := ih (answer log o) (log ++ [⟨o, answer log o⟩])
    exact ⟨⟨o, answer log o⟩ :: more, by simp [Prog.run, hm]⟩

/-- Every call of a run had its obligation met by the log before it. -/
theorem wp_run_pending {Q : Except ε α → List (Event Op Ret) → Prop} {p : Prog Op Ret ε α}
    {log before after : List (Event Op Ret)} {ev : Event Op Ret}
    (h : wp (recorded answer pending) p Q log)
    (hlog : (p.run answer log).1 = log ++ before ++ ev :: after) :
    pending ev.1 (log ++ before) := by
  induction p generalizing log before with
  | ret a => simp [Prog.run] at hlog
  | throw e => simp [Prog.run] at hlog
  | call o k ih =>
    obtain ⟨hp, hk⟩ := wp_recorded_call_inv h
    obtain ⟨more, hm⟩ := Prog.run_log answer (k (answer log o)) (log ++ [⟨o, answer log o⟩])
    cases before with
    | nil =>
      rw [Prog.run, hm] at hlog
      simp only [List.append_assoc, List.append_nil, List.append_cancel_left_eq,
        List.singleton_append, List.cons.injEq] at hlog
      rw [← hlog.1, List.append_nil]
      exact hp
    | cons first before =>
      have hfirst : first = ⟨o, answer log o⟩ := by
        rw [Prog.run, hm] at hlog
        simp only [List.append_assoc, List.append_cancel_left_eq, List.cons_append,
          List.cons.injEq] at hlog
        exact hlog.1.symm
      subst hfirst
      have hnext : pending ev.1 (log ++ [⟨o, answer log o⟩] ++ before) :=
        ih _ hk (by rw [← Prog.run, hlog]; simp)
      simpa using hnext

/-- A program whose calls carry no obligation ends as it runs. -/
theorem wp_self {p : Prog Op Ret ε α} {log : List (Event Op Ret)}
    (h : p.Calls fun o => ∀ log, pending o log) :
    wp (recorded answer pending) p (fun r log' => p.run answer log = (log', r)) log := by
  induction h generalizing log with
  | ret a => exact rfl
  | throw e => exact rfl
  | call ho _ ih =>
    refine wp_recorded_call (ho log) ?_
    rintro r rfl
    exact ih _

/-- A program whose calls keep an invariant of the log. -/
theorem wp_calls {P : Op → Prop} {Inv : List (Event Op Ret) → Prop} {p : Prog Op Ret ε α}
    {log : List (Event Op Ret)} (hp : p.Calls P)
    (hpending : ∀ o log, P o → Inv log → pending o log)
    (hinv : ∀ o r log, P o → Inv log → Inv (log ++ [⟨o, r⟩])) (h : Inv log) :
    wp (recorded answer pending) p (fun _ log' => Inv log') log := by
  induction hp generalizing log with
  | ret a => exact h
  | throw e => exact h
  | call ho _ ih => exact wp_recorded_call (hpending _ _ ho h) fun r _ => ih r (hinv _ r _ ho h)

end Recorded

/-! ## Runs, block by block -/

namespace Prog

variable {answer : List (Event Op Ret) → (o : Op) → Ret o} {log log' : List (Event Op Ret)}

@[simp] theorem run_ofExcept (r : Except ε α) :
    (ofExcept r : Prog Op Ret ε α).run answer log = (log, r) := by
  cases r <;> rfl

theorem run_bind_ok {p : Prog Op Ret ε α} {f : α → Prog Op Ret ε β} {a : α}
    (h : p.run answer log = (log', .ok a)) :
    (p >>= f).run answer log = (f a).run answer log' := by
  induction p generalizing log with
  | ret b => cases h; rfl
  | throw e => cases h
  | call o k ih => exact ih _ h

theorem run_bind_error {p : Prog Op Ret ε α} {f : α → Prog Op Ret ε β} {e : ε}
    (h : p.run answer log = (log', .error e)) :
    (p >>= f).run answer log = (log', .error e) := by
  induction p generalizing log with
  | ret b => cases h
  | throw e => cases h; rfl
  | call o k ih => exact ih _ h

theorem run_tryCatch_ok {p : Prog Op Ret ε α} {handler : ε → Prog Op Ret ε α} {a : α}
    (h : p.run answer log = (log', .ok a)) :
    (tryCatch p handler).run answer log = (log', .ok a) := by
  induction p generalizing log with
  | ret b => cases h; rfl
  | throw e => cases h
  | call o k ih => exact ih _ h

theorem run_tryCatch_error {p : Prog Op Ret ε α} {handler : ε → Prog Op Ret ε α} {e : ε}
    (h : p.run answer log = (log', .error e)) :
    (tryCatch p handler).run answer log = (handler e).run answer log' := by
  induction p generalizing log with
  | ret b => cases h
  | throw e => cases h; rfl
  | call o k ih => exact ih _ h

/-- The part of the log that a run adds has only calls of the program. -/
theorem Calls.run_log {P : Op → Prop} {p : Prog Op Ret ε α} (h : p.Calls P)
    (answer : List (Event Op Ret) → (o : Op) → Ret o) (log : List (Event Op Ret)) :
    ∃ more, (p.run answer log).1 = log ++ more ∧ ∀ ev ∈ more, P ev.1 := by
  induction h generalizing log with
  | ret a => exact ⟨[], by simp [Prog.run]⟩
  | throw e => exact ⟨[], by simp [Prog.run]⟩
  | @call o k ho _ ih =>
    obtain ⟨more, hlog, hmore⟩ := ih (answer log o) (log ++ [⟨o, answer log o⟩])
    refine ⟨⟨o, answer log o⟩ :: more, by simp [Prog.run, hlog], ?_⟩
    rintro ev (_ | ⟨_, hev⟩)
    · exact ho
    · exact hmore ev hev

end Prog

/-- The answers in the log are those of the device. -/
def Answered (answer : List (Event Op Ret) → (o : Op) → Ret o) (log : List (Event Op Ret)) : Prop :=
  ∀ before ev after, log = before ++ ev :: after → ev.2 = answer before ev.1

theorem Answered.nil {answer : List (Event Op Ret) → (o : Op) → Ret o} : Answered answer [] :=
  fun _ _ _ h => absurd h (by simp)

theorem Answered.run {answer : List (Event Op Ret) → (o : Op) → Ret o} {log : List (Event Op Ret)}
    (h : Answered answer log) (p : Prog Op Ret ε α) : Answered answer (p.run answer log).1 := by
  induction p generalizing log with
  | ret a => exact h
  | throw e => exact h
  | call o k ih =>
    refine ih _ fun before ev after hlog => ?_
    rcases List.eq_nil_or_concat after with rfl | ⟨rest, last, rfl⟩
    · obtain ⟨rfl, hev⟩ := List.append_inj' hlog rfl
      obtain rfl := List.singleton_inj.mp hev
      rfl
    · have hlog' : log ++ [⟨o, answer log o⟩] = (before ++ ev :: rest) ++ [last] := by
        rw [hlog]
        simp
      exact h before ev rest (List.append_inj' hlog' rfl).1

/-! ## Programs as parts of others -/

section Lift

variable {Op' : Type} {Ret' : Op' → Type}

/-- The program as part of one that has the calls `Op'`, too. -/
def Prog.lift : Prog Op Ret ε α → Prog (Op ⊕ Op') (Sum.elim Ret Ret') ε α
  | .ret a => .ret a
  | .throw e => .throw e
  | .call o k => .call (.inl o) fun r => (k r).lift

/-- The events of the part. -/
def lefts : List (Event (Op ⊕ Op') (Sum.elim Ret Ret')) → List (Event Op Ret)
  | [] => []
  | ⟨.inl o, r⟩ :: log => ⟨o, r⟩ :: lefts log
  | ⟨.inr _, _⟩ :: log => lefts log

/-- The events outside the part. -/
def rights : List (Event (Op ⊕ Op') (Sum.elim Ret Ret')) → List (Event Op' Ret')
  | [] => []
  | ⟨.inl _, _⟩ :: log => rights log
  | ⟨.inr o, r⟩ :: log => ⟨o, r⟩ :: rights log

@[simp] theorem lefts_append (log log' : List (Event (Op ⊕ Op') (Sum.elim Ret Ret'))) :
    lefts (log ++ log') = lefts log ++ lefts log' := by
  induction log with
  | nil => rfl
  | cons ev log ih =>
    obtain ⟨o | o, r⟩ := ev
    · exact congrArg (_ :: ·) ih
    · exact ih

@[simp] theorem rights_append (log log' : List (Event (Op ⊕ Op') (Sum.elim Ret Ret'))) :
    rights (log ++ log') = rights log ++ rights log' := by
  induction log with
  | nil => rfl
  | cons ev log ih =>
    obtain ⟨o | o, r⟩ := ev
    · exact ih
    · exact congrArg (_ :: ·) ih

/-- A device for the part and one for the other calls. -/
def both (answer : List (Event Op Ret) → (o : Op) → Ret o) (other : (o : Op') → Ret' o) :
    List (Event (Op ⊕ Op') (Sum.elim Ret Ret')) → (o : Op ⊕ Op') → Sum.elim Ret Ret' o
  | log, .inl o => answer (lefts log) o
  | _, .inr o => other o

/-- A part runs as it does alone. -/
theorem Prog.run_lift (answer : List (Event Op Ret) → (o : Op) → Ret o)
    (other : (o : Op') → Ret' o) (p : Prog Op Ret ε α)
    (log : List (Event (Op ⊕ Op') (Sum.elim Ret Ret'))) :
    ∃ log', p.lift.run (both answer other) log = (log', (p.run answer (lefts log)).2) ∧
      lefts log' = (p.run answer (lefts log)).1 ∧ rights log' = rights log := by
  induction p generalizing log with
  | ret a => exact ⟨log, rfl, rfl, rfl⟩
  | throw e => exact ⟨log, rfl, rfl, rfl⟩
  | call o k ih =>
    obtain ⟨log', hrun, hleft, hright⟩ :=
      ih (answer (lefts log) o) (log ++ [⟨.inl o, answer (lefts log) o⟩])
    rw [lefts_append] at hrun hleft
    rw [rights_append] at hright
    exact ⟨log', hrun, hleft, hright.trans (List.append_nil _)⟩

end Lift

/-! ## Programs on their way -/

/-- The program `p` has made the calls of the log, and `q` is left of it. -/
inductive Prog.Ran (p : Prog Op Ret ε α) : List (Event Op Ret) → Prog Op Ret ε α → Prop
  | refl : Ran p [] p
  | call {log : List (Event Op Ret)} {o : Op} {k : Ret o → Prog Op Ret ε α} (r : Ret o)
      (h : Ran p log (.call o k)) : Ran p (log ++ [⟨o, r⟩]) (k r)

namespace Prog.Ran

variable {p q : Prog Op Ret ε α} {log : List (Event Op Ret)}

/-- The run on a device that answers as the log says passes through what is left. -/
theorem run_eq {answer : List (Event Op Ret) → (o : Op) → Ret o} (h : p.Ran log q)
    (hanswer : ∀ before ev after, log = before ++ ev :: after → answer before ev.1 = ev.2) :
    p.run answer [] = q.run answer log := by
  induction h with
  | refl => rfl
  | @call log o k r _ ih =>
    have hr : answer log o = r := hanswer log ⟨o, r⟩ [] rfl
    rw [ih fun before ev after hlog => hanswer before ev (after ++ [⟨o, r⟩]) (by simp [hlog]),
      Prog.run, hr]

/-- A device that answers as the log says, and as `other` after it. -/
def answering [DecidableEq Op] (log : List (Event Op Ret)) (other : (o : Op) → Ret o)
    (before : List (Event Op Ret)) (o : Op) : Ret o :=
  match log[before.length]? with
  | some ev => if h : ev.1 = o then h ▸ ev.2 else other o
  | none => other o

theorem answering_eq [DecidableEq Op] {other : (o : Op) → Ret o} {before after : List (Event Op Ret)}
    {ev : Event Op Ret} (hlog : log = before ++ ev :: after) :
    answering log other before ev.1 = ev.2 := by
  simp [answering, hlog]

/-- A program that has returned did so on some device. -/
theorem exists_run [DecidableEq Op] (other : (o : Op) → Ret o) (h : p.Ran log q) :
    ∃ answer, p.run answer [] = q.run answer log :=
  ⟨answering log other, h.run_eq fun _ _ _ => answering_eq⟩

/-- Every call that the program has made had its obligation met by the log before it. -/
theorem pending_of_log [DecidableEq Op] (other : (o : Op) → Ret o)
    {pending : Op → List (Event Op Ret) → Prop}
    {Q : (List (Event Op Ret) → (o : Op) → Ret o) → Except ε α → List (Event Op Ret) → Prop}
    (hwp : ∀ answer, wp (recorded answer pending) p (Q answer) []) (h : p.Ran log q)
    {before after : List (Event Op Ret)} {ev : Event Op Ret} (hlog : log = before ++ ev :: after) :
    pending ev.1 before := by
  obtain ⟨answer, hrun⟩ := h.exists_run other
  obtain ⟨more, hmore⟩ := Prog.run_log answer q log
  have hrest : (p.run answer []).1 = [] ++ before ++ ev :: (after ++ more) := by
    rw [hrun, hmore, hlog]
    simp
  exact wp_run_pending (hwp answer) hrest

/-- The call that comes next has its obligation met, too. -/
theorem pending_of_call [DecidableEq Op] (other : (o : Op) → Ret o)
    {pending : Op → List (Event Op Ret) → Prop}
    {Q : (List (Event Op Ret) → (o : Op) → Ret o) → Except ε α → List (Event Op Ret) → Prop}
    (hwp : ∀ answer, wp (recorded answer pending) p (Q answer) []) {o : Op} {k : Ret o → Prog Op Ret ε α}
    (h : p.Ran log (.call o k)) : pending o log :=
  pending_of_log other hwp (h.call (other o)) rfl

end Prog.Ran

/-- Whatever was logged before, `p` makes only calls with `P`, none of which carries an obligation,
and where it returns, `Q` holds of its value and of its own part of the log. -/
def Adds (L : Logic Op Ret (List (Event Op Ret))) (P : Op → Prop) (p : Prog Op Ret ε α)
    (Q : α → List (Event Op Ret) → Prop) : Prop :=
  ∀ log, wp L p (fun r log' => ∃ more, log' = log ++ more ∧ (∀ ev ∈ more, P ev.1) ∧
    ∀ a, r = .ok a → Q a more) log

namespace Adds

variable {answer : List (Event Op Ret) → (o : Op) → Ret o}
  {pending : Op → List (Event Op Ret) → Prop} {L : Logic Op Ret (List (Event Op Ret))}
  {P : Op → Prop}

theorem pure {a : α} {Q : α → List (Event Op Ret) → Prop} (h : Q a []) :
    Adds L P (pure a : Prog Op Ret ε α) Q := by
  intro log
  refine ⟨[], by simp, by simp, ?_⟩
  rintro _ ⟨⟩
  exact h

theorem throw {e : ε} {Q : α → List (Event Op Ret) → Prop} :
    Adds L P (throw e : Prog Op Ret ε α) Q :=
  fun log => ⟨[], by simp, by simp, fun _ h => by cases h⟩

theorem ofExcept {r : Except ε α} {Q : α → List (Event Op Ret) → Prop}
    (h : ∀ a, r = .ok a → Q a []) : Adds L P (Prog.ofExcept r : Prog Op Ret ε α) Q := by
  cases r with
  | ok a => exact Adds.pure (h a rfl)
  | error e => exact Adds.throw

theorem mono {p : Prog Op Ret ε α} {Q R : α → List (Event Op Ret) → Prop} (hp : Adds L P p Q)
    (h : ∀ a more, Q a more → R a more) : Adds L P p R := by
  intro log
  refine wp_mono ?_ p (hp log)
  rintro r _ ⟨more, rfl, hmore, hQ⟩
  exact ⟨more, rfl, hmore, fun a ha => h a more (hQ a ha)⟩

theorem call {o : Op} {k : Ret o → Prog Op Ret ε α} {Q : α → List (Event Op Ret) → Prop}
    (ho : P o) (hp : ∀ log, pending o log)
    (hk : ∀ r, Adds (recorded answer pending) P (k r) fun a more => Q a (⟨o, r⟩ :: more)) :
    Adds (recorded answer pending) P (.call o k) Q := by
  intro log
  refine wp_recorded_call (hp log) fun r _ => wp_mono ?_ _ (hk r (log ++ [⟨o, r⟩]))
  rintro r' _ ⟨more, rfl, hmore, hQ⟩
  refine ⟨⟨o, r⟩ :: more, by simp, ?_, hQ⟩
  rintro ev (_ | ⟨_, hev⟩)
  · exact ho
  · exact hmore ev hev

/-- The rest of a block after a program that adds to the log. -/
theorem wp_bind {p : Prog Op Ret ε α} {f : α → Prog Op Ret ε β} {Q : α → List (Event Op Ret) → Prop}
    {R : Except ε β → List (Event Op Ret) → Prop} {log : List (Event Op Ret)} (hp : Adds L P p Q)
    (hok : ∀ a more, (∀ ev ∈ more, P ev.1) → Q a more → wp L (f a) R (log ++ more))
    (herr : ∀ e more, (∀ ev ∈ more, P ev.1) → R (.error e) (log ++ more)) :
    wp L (p >>= f) R log := by
  rw [Spec.wp_bind]
  refine wp_mono ?_ p (hp log)
  rintro (e | a) _ ⟨more, rfl, hmore, hQ⟩
  · exact herr e more hmore
  · exact hok a more hmore (hQ a rfl)

theorem bind {p : Prog Op Ret ε α} {f : α → Prog Op Ret ε β} {Q : α → List (Event Op Ret) → Prop}
    {R : β → List (Event Op Ret) → Prop} (hp : Adds L P p Q)
    (hf : ∀ a more, Q a more → Adds L P (f a) fun b more' => R b (more ++ more')) :
    Adds L P (p >>= f) R := by
  intro log
  refine hp.wp_bind (fun a more hmore hQ => wp_mono ?_ _ (hf a more hQ (log ++ more))) ?_
  · rintro r _ ⟨more', rfl, hmore', hR⟩
    refine ⟨more ++ more', by simp, ?_, hR⟩
    intro ev hev
    exact (List.mem_append.mp hev).elim (hmore ev) (hmore' ev)
  · exact fun e more hmore => ⟨more, rfl, hmore, fun _ h => by cases h⟩

/-- The handler of a block that adds to the log. -/
theorem tryCatch {p : Prog Op Ret ε α} {h : ε → Prog Op Ret ε α}
    {Q : α → List (Event Op Ret) → Prop} (hp : Adds L P p Q)
    (hh : ∀ e more, Adds L P (h e) fun a more' => Q a (more ++ more')) :
    Adds L P (MonadExcept.tryCatch p h) Q := by
  intro log
  rw [wp_tryCatch]
  refine wp_mono ?_ p (hp log)
  rintro (e | a) _ ⟨more, rfl, hmore, hQ⟩
  · refine wp_mono ?_ _ (hh e more (log ++ more))
    rintro r _ ⟨more', rfl, hmore', hQ'⟩
    refine ⟨more ++ more', by simp, ?_, hQ'⟩
    intro ev hev
    exact (List.mem_append.mp hev).elim (hmore ev) (hmore' ev)
  · exact ⟨more, rfl, hmore, hQ⟩

end Adds

end Spec
end TrustedCa
