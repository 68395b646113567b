import Mathlib.Logic.Function.Basic
import Mathlib.Tactic.Common

/-!
# The acceptor pool (`proxy/src/acceptor_pool.h`)

`GetAcceptor` looks the port up under the shared lock and, if it is not there, binds an acceptor and
inserts it under the unique lock. Between the two locks other calls may run, so a call is two steps:
`lookup` and `insert`. A state holds the ports of the calls that are between the locks.

* `Pool` is `pool_`. A call that returns an acceptor returns the address of a map entry, which is
  given here by the key of the entry.
* `Outcome` is what the operating system answers to one call. For port 0 it picks a port that is not
  0; `local_endpoint` reports the port that the acceptor is bound to.
* A constructor of `Acceptor` that cannot open a socket throws, before the map is touched.
* For a fixed port, `GetAcceptor` inserts the acceptor first and erases it again when it cannot be
  bound. For port 0 it binds first, and it inserts under the key 0 when that has failed.
  `pool_sound_iff`: the pool is sound in a run if and only if no call for port 0 fails in it.
-/

namespace TrustedCa
namespace Proxy
namespace AcceptorPool

/-- An acceptor with an open socket. -/
structure Acceptor where
  bound : Option UInt16 := none
  listening : Bool := false
  deriving DecidableEq

/-- `std::map<uint16_t, Acceptor>`. -/
abbrev Pool := UInt16 → Option Acceptor

namespace Pool

def empty : Pool := fun _ => none

/-- `try_emplace`: an entry that is there stays. -/
def tryEmplace (pool : Pool) (port : UInt16) (acceptor : Acceptor) : Pool :=
  match pool port with
  | some _ => pool
  | none => Function.update pool port (some acceptor)

def erase (pool : Pool) (port : UInt16) : Pool := Function.update pool port none

end Pool

/-- What the operating system answers to a call: whether a socket is opened, `bind`, the port picked
for port 0, `local_endpoint` and `listen`. -/
structure Outcome where
  opens : Bool := true
  binds : Bool := true
  picked : { port : UInt16 // port ≠ 0 }
  endpoint : Bool := true
  listens : Bool := true

/-- `BindListen`. It returns the bound port, or 0. -/
def bindListen (o : Outcome) (acceptor : Acceptor) (port : UInt16) : UInt16 × Acceptor :=
  if !o.binds then
    (0, acceptor)
  else
    let acceptor := { acceptor with bound := some (if port = 0 then o.picked.val else port) }
    if !o.endpoint then
      (0, acceptor)
    else
      let port := acceptor.bound.getD 0
      if !o.listens then (0, acceptor) else (port, { acceptor with listening := true })

/-- How a step of a call ends: it returns `nullptr` or an entry of the map and leaves its argument
at `port`, it throws, or it goes on to the second lock. -/
inductive Result where
  | returned (acceptor : Option UInt16) (port : UInt16)
  | thrown
  | pending
  deriving DecidableEq

/-- `GetAcceptor` under the shared lock. -/
def lookup (pool : Pool) (port : UInt16) : Result :=
  match pool port with
  | some _ => .returned (some port) port
  | none => .pending

/-- `GetAcceptor` under the unique lock. -/
def insert (o : Outcome) (pool : Pool) (port : UInt16) : Result × Pool :=
  if port = 0 then
    if !o.opens then
      (.thrown, pool)
    else
      let (boundPort, acceptor) := bindListen o {} port
      (.returned (some boundPort) boundPort, pool.tryEmplace boundPort acceptor)
  else
    match pool port with
    | some _ => (.returned (some port) port, pool)
    | none =>
      if !o.opens then
        (.thrown, pool)
      else
        -- `acceptor` is a reference to the new entry.
        let (boundPort, acceptor) := bindListen o {} port
        let pool := pool.tryEmplace port acceptor
        if boundPort = 0 then (.returned none port, pool.erase port)
        else (.returned (some port) port, pool)

/-! ## Runs -/

/-- The pool, and the ports of the calls between the two locks. -/
structure State where
  pool : Pool := .empty
  waiting : List UInt16 := []

/-- A new call takes the shared lock, or the `i`-th waiting call takes the unique one. -/
inductive Event where
  | lookup (port : UInt16)
  | insert (i : Nat) (o : Outcome)

/-- The port of the call that takes a lock. -/
def asked (s : State) : Event → UInt16
  | .lookup port => port
  | .insert i _ => s.waiting.getD i 0

/-- One event; `none` when it cannot happen. -/
def step (s : State) : Event → Option (Result × State)
  | .lookup port =>
    match lookup s.pool port with
    | .pending => some (.pending, { s with waiting := s.waiting ++ [port] })
    | r => some (r, s)
  | .insert i o =>
    if i < s.waiting.length then
      let (r, pool) := insert o s.pool (asked s (.insert i o))
      some (r, ⟨pool, s.waiting.eraseIdx i⟩)
    else none

/-- One step of a run. -/
structure Step where
  before : State
  event : Event
  result : Result
  after : State

/-- The steps of a run from an empty pool, the last one first, and the state in which it ends. -/
inductive Run : List Step → State → Prop
  | start : Run [] {}
  | step {steps : List Step} {s s' : State} {e : Event} {r : Result} : Run steps s →
    step s e = some (r, s') → Run (⟨s, e, r, s'⟩ :: steps) s'

/-! ## Soundness -/

/-- Every key is a port, not 0, that its acceptor is bound to and listens on. -/
def Pool.Sound (pool : Pool) : Prop :=
  ∀ key acceptor, pool key = some acceptor →
    key ≠ 0 ∧ acceptor.bound = some key ∧ acceptor.listening = true

/-- `bind`, `local_endpoint` or `listen` fails. -/
def Outcome.fails (o : Outcome) : Prop := ¬ (o.binds = true ∧ o.endpoint = true ∧ o.listens = true)

/-- The step calls `BindListen`, and that fails. -/
def Step.Fails (st : Step) : Prop :=
  match st.event with
  | .lookup _ => False
  | .insert i o =>
    (asked st.before (.insert i o) = 0 ∨ st.before.pool (asked st.before (.insert i o)) = none) ∧
      o.opens = true ∧ o.fails

/-- What a call returns is an acceptor that listens on the port that its argument is left at, and a
call that fails returns `nullptr` and leaves the pool and its argument alone. -/
def Step.Sound (st : Step) : Prop :=
  (∀ key port, st.result = .returned (some key) port →
    ∃ acceptor, st.after.pool key = some acceptor ∧ acceptor.listening = true ∧
      acceptor.bound = some port) ∧
  (st.Fails → st.result = .returned none (asked st.before st.event) ∧
    st.after.pool = st.before.pool)

/-- A call for port 0 fails. -/
def Step.Slips (st : Step) : Prop := st.Fails ∧ asked st.before st.event = 0

section BindListen

variable {o : Outcome} {port : UInt16}

theorem bindListen_ok (h : ¬ o.fails) :
    bindListen o {} port = ((if port = 0 then o.picked.val else port),
      ⟨some (if port = 0 then o.picked.val else port), true⟩) := by
  obtain ⟨hb, he, hl⟩ := not_not.mp h
  simp [bindListen, hb, he, hl]

theorem bindListen_fails (h : o.fails) : (bindListen o {} port).1 = 0 := by
  unfold bindListen
  by_cases hb : o.binds = true
  · by_cases he : o.endpoint = true
    · have hl : ¬ o.listens = true := fun hl => h ⟨hb, he, hl⟩
      simp [hb, he, hl]
    · simp [hb, he]
  · simp [hb]

end BindListen

section Insert

variable {pool : Pool} {port : UInt16}

/-- The entry of a key is an acceptor that listens on it. -/
def Pool.Listens (pool : Pool) (port : UInt16) : Prop :=
  ∃ acceptor, pool port = some acceptor ∧ acceptor.listening = true ∧ acceptor.bound = some port

theorem Pool.Sound.listens (hs : pool.Sound) {acceptor : Acceptor} (h : pool port = some acceptor) :
    pool.Listens port :=
  ⟨acceptor, h, (hs port acceptor h).2.2, (hs port acceptor h).2.1⟩

theorem Pool.Sound.tryEmplace (hs : pool.Sound) (hport : port ≠ 0) :
    (pool.tryEmplace port ⟨some port, true⟩).Sound ∧
      (pool.tryEmplace port ⟨some port, true⟩).Listens port := by
  unfold Pool.tryEmplace
  split
  · next acceptor h => exact ⟨hs, hs.listens h⟩
  · refine ⟨fun key acceptor hkey => ?_, _, Function.update_self .., rfl, rfl⟩
    by_cases heq : key = port
    · subst heq
      rw [Function.update_self] at hkey
      cases hkey
      exact ⟨hport, rfl, rfl⟩
    · rw [Function.update_of_ne heq] at hkey
      exact hs key acceptor hkey

/-- `erase` takes a new entry out again. -/
theorem erase_tryEmplace (h : pool port = none) (acceptor : Acceptor) :
    (pool.tryEmplace port acceptor).erase port = pool := by
  funext key
  by_cases heq : key = port
  · subst heq
    rw [Pool.erase, Function.update_self, h]
  · rw [Pool.erase, Function.update_of_ne heq, Pool.tryEmplace, h]
    exact Function.update_of_ne heq ..

variable {o : Outcome}

/-- What `insert` has to give for a port. -/
structure Inserted (o : Outcome) (pool : Pool) (port : UInt16) (r : Result × Pool) : Prop where
  sound : r.2.Sound
  listens : ∀ key port', r.1 = .returned (some key) port' → key = port' ∧ r.2.Listens key
  failed : port = 0 ∨ pool port = none → o.opens = true → o.fails →
    r.1 = .returned none port ∧ r.2 = pool

theorem inserted_thrown (hs : pool.Sound) (h : ¬ o.opens = true) :
    Inserted o pool port (.thrown, pool) :=
  ⟨hs, nofun, fun _ ho => absurd ho h⟩

/-- Under the unique lock, unless a call for port 0 fails. -/
theorem insert_spec (hs : pool.Sound) (h : ¬ (port = 0 ∧ o.opens = true ∧ o.fails)) :
    Inserted o pool port (insert o pool port) := by
  unfold insert
  by_cases hport : port = 0
  · rw [if_pos hport]
    by_cases ho : o.opens = true
    · have hok : ¬ o.fails := fun hf => h ⟨hport, ho, hf⟩
      obtain ⟨hsound, hlistens⟩ := hs.tryEmplace o.picked.property
      simp only [ho, Bool.not_true, Bool.false_eq_true, if_false, bindListen_ok hok, hport, if_true]
      refine ⟨hsound, ?_, fun _ _ hf => absurd hf hok⟩
      rintro key port' heq
      cases heq
      exact ⟨rfl, hlistens⟩
    · simp only [ho, Bool.not_false, if_true]
      exact inserted_thrown hs ho
  · rw [if_neg hport]
    cases hfind : pool port with
    | some acceptor =>
      refine ⟨hs, ?_, fun hnew => ?_⟩
      · rintro key port' heq
        cases heq
        exact ⟨rfl, hs.listens hfind⟩
      · rcases hnew with h0 | hnone
        · exact absurd h0 hport
        · rw [hfind] at hnone
          cases hnone
    | none =>
      by_cases ho : o.opens = true
      · by_cases hf : o.fails
        · simp only [ho, Bool.not_true, Bool.false_eq_true, if_false, bindListen_fails hf, if_true,
            erase_tryEmplace hfind]
          exact ⟨hs, nofun, fun _ _ _ => ⟨rfl, rfl⟩⟩
        · obtain ⟨hsound, hlistens⟩ := hs.tryEmplace hport
          simp only [ho, Bool.not_true, Bool.false_eq_true, if_false, bindListen_ok hf, hport]
          refine ⟨hsound, ?_, fun _ _ hfails => absurd hfails hf⟩
          rintro key port' heq
          cases heq
          exact ⟨rfl, hlistens⟩
      · simp only [ho, Bool.not_false, if_true]
        exact inserted_thrown hs ho

/-- A call for port 0 that fails returns an entry all the same. -/
theorem insert_zero_fails (ho : o.opens = true) (hf : o.fails) :
    (insert o pool 0).1 = .returned (some 0) 0 := by
  unfold insert
  simp only [ho, Bool.not_true, Bool.false_eq_true, if_false, if_true, bindListen_fails hf]

end Insert

section Runs

variable {s s' : State} {e : Event} {r : Result} {steps : List Step}

/-- One step. -/
theorem step_sound (hs : s.pool.Sound) (h : step s e = some (r, s'))
    (hslip : ¬ Step.Slips ⟨s, e, r, s'⟩) : s'.pool.Sound ∧ Step.Sound ⟨s, e, r, s'⟩ := by
  cases e with
  | lookup port =>
    unfold step lookup at h
    cases hfind : s.pool port with
    | some acceptor =>
      simp only [hfind] at h
      cases h
      refine ⟨hs, ?_, False.elim⟩
      rintro key port' heq
      cases heq
      exact hs.listens hfind
    | none =>
      simp only [hfind] at h
      cases h
      exact ⟨hs, nofun, False.elim⟩
  | insert i o =>
    simp only [step] at h
    split at h
    · have hok : ¬ (asked s (.insert i o) = 0 ∧ o.opens = true ∧ o.fails) :=
        fun hf => hslip ⟨⟨.inl hf.1, hf.2⟩, hf.1⟩
      have hins := insert_spec hs hok
      cases h
      refine ⟨hins.sound, ?_, fun hf => hins.failed hf.1 hf.2.1 hf.2.2⟩
      intro key port heq
      obtain ⟨rfl, hlistens⟩ := hins.listens key port heq
      exact hlistens
    · cases h

/-- A failed call for port 0 is not sound. -/
theorem slips_not_sound (h : step s e = some (r, s')) (hslip : Step.Slips ⟨s, e, r, s'⟩) :
    ¬ Step.Sound ⟨s, e, r, s'⟩ := by
  intro hsound
  obtain ⟨hnull, -⟩ := hsound.2 hslip.1
  cases e with
  | lookup port => exact hslip.1
  | insert i o =>
    simp only [step] at h
    split at h
    · have hzero : asked s (.insert i o) = 0 := hslip.2
      have hret : (insert o s.pool 0).1 = .returned (some 0) 0 :=
        insert_zero_fails hslip.1.2.1 hslip.1.2.2
      rw [hzero] at h
      have hr : (insert o s.pool 0).1 = r := congrArg Prod.fst (Option.some.inj h)
      rw [← hr, hret] at hnull
      cases hnull
    · cases h

theorem sound_empty : Pool.empty.Sound := nofun

theorem Run.sound (hr : Run steps s) (h : ∀ st ∈ steps, ¬ st.Slips) : s.pool.Sound := by
  induction hr with
  | start => exact sound_empty
  | step hr hs ih =>
    obtain ⟨hslip, hslips⟩ := List.forall_mem_cons.mp h
    exact (step_sound (ih hslips) hs hslip).1

/-- **The pool is sound.** In every run, every state has a sound pool and every step is sound, if
and only if no call for port 0 has a failing `bind`, `local_endpoint` or `listen`. -/
theorem pool_sound_iff (hr : Run steps s) :
    (s.pool.Sound ∧ ∀ st ∈ steps, st.before.pool.Sound ∧ st.Sound) ↔
      ∀ st ∈ steps, ¬ st.Slips := by
  induction hr with
  | start => exact ⟨fun _ => List.forall_mem_nil _, fun _ => ⟨sound_empty, List.forall_mem_nil _⟩⟩
  | step hr hs ih =>
    rw [List.forall_mem_cons, List.forall_mem_cons]
    constructor
    · rintro ⟨-, ⟨hpool, hsound⟩, hall⟩
      exact ⟨fun hslip => slips_not_sound hs hslip hsound, ih.mp ⟨hpool, hall⟩⟩
    · rintro ⟨hslip, hslips⟩
      obtain ⟨hpool, hall⟩ := ih.mpr hslips
      obtain ⟨hpool', hsound⟩ := step_sound hpool hs hslip
      exact ⟨hpool', ⟨hpool, hsound⟩, hall⟩

end Runs

/-- The operating system picks a port and everything works. -/
def pickedOutcome : Outcome := { picked := ⟨40000, by decide⟩ }

/-- The operating system has no port left. -/
def noPortOutcome : Outcome := { pickedOutcome with binds := false }

/-- A call for port 0 binds a port, and a call for port 80 fails. -/
theorem pool_sound_iff_picked :
    ∃ steps s, Run steps s ∧ s.pool.Listens 40000 ∧ s.pool 80 = none ∧
      ∀ st ∈ steps, st.before.pool.Sound ∧ st.Sound := by
  have hr := (((Run.start.step (e := .lookup 0) rfl).step (e := .insert 0 pickedOutcome) rfl).step
    (e := .lookup 80) rfl).step (e := .insert 0 noPortOutcome) rfl
  refine ⟨_, _, hr, ⟨⟨some 40000, true⟩, by decide, rfl, rfl⟩, by decide,
    ((pool_sound_iff hr).mpr ?_).2⟩
  refine List.forall_mem_cons.mpr ⟨fun h => ?_, List.forall_mem_cons.mpr ⟨fun h => h.1,
    List.forall_mem_cons.mpr ⟨fun h => h.1.2.2 ⟨rfl, rfl, rfl⟩,
      List.forall_mem_cons.mpr ⟨fun h => h.1, List.forall_mem_nil _⟩⟩⟩⟩
  exact absurd h.2 (by decide)

/-- A call for port 0 that cannot bind leaves an entry under the key 0. -/
theorem pool_sound_noPort :
    ¬ ∀ steps s, Run steps s → s.pool.Sound ∧ ∀ st ∈ steps, st.before.pool.Sound ∧ st.Sound := by
  intro hall
  have hr := (Run.start.step (e := .lookup 0) rfl).step (e := .insert 0 noPortOutcome) rfl
  exact ((hall _ _ hr).1 0 {} (by decide)).1 rfl

end AcceptorPool
end Proxy
end TrustedCa
