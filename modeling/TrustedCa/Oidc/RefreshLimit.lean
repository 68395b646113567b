import TrustedCa.Oidc.KeyFetcher

/-!
# How often a key set is fetched by many threads

Any number of threads call `getKey`. Each goes through its cache reads, its age check, its
invalidation and its load, and these steps of the threads interleave. Caffeine's operations are
atomic, and while a thread loads no other one reads or invalidates the entry.

* `step` is one step of one thread, or of the clock, which never goes back. Every fetch succeeds with
  a lifetime of at least a minute.
* `State.log` records when fetches start and the `fetchedAt` of their results.
* The age check and the invalidation are two steps. A thread that has found an old entry invalidates
  whatever is in the cache by then, also an entry that another thread has just loaded.
  `refresh_limited`: as long as no entry younger than the minimum refresh interval is invalidated, no
  fetch starts less than that interval after an earlier `fetchedAt`.
-/

namespace TrustedCa
namespace Oidc
namespace Threads

open Issuance (Thrown longMax)
open Spec

variable {Key : Type}

/-- Where a thread is: outside of `getKey`, at its first or second `cache.get`, at the age check, or
at the invalidation. -/
inductive Pc (Key : Type) where
  | idle
  | get (keyId : JString) (second : Bool)
  | check (keyId : JString) (data : JwksData Key)
  | invalidate (keyId : JString)

/-- A fetch starts, or has recorded its `fetchedAt`. -/
inductive Fetch where
  | started (millis : Int)
  | recorded (fetchedAt : Int)
  deriving DecidableEq

/-- `load` is the thread that loads, with what it has fetched. -/
structure State (Key : Type) where
  clock : Int := 0
  cache : Option (Entry Key) := none
  load : Option (Nat × Option (JwksData Key)) := none
  threads : Nat → Pc Key := fun _ => .idle
  log : List Fetch := []

def State.goTo (s : State Key) (t : Nat) (pc : Pc Key) : State Key :=
  { s with threads := Function.update s.threads t pc }

/-- Where a thread goes with the value of a `cache.get`. -/
def Pc.next (keyId : JString) (second : Bool) (data : JwksData Key) : Pc Key :=
  if second then .idle
  else match data.keys keyId with
    | some _ => .idle
    | none => .check keyId data

inductive Event where
  | tick (millis : Nat)
  | call (t : Nat) (keyId : JString)
  | get (t : Nat)
  | fetched (response : HttpResponse)
  | stored
  | check (t : Nat)
  | invalidate (t : Nat)

/-- One event; `none` when it cannot happen. -/
def step (lib : Lib Key) (s : State Key) : Event → Option (State Key)
  | .tick millis => some { s with clock := s.clock + millis }
  | .call t keyId =>
    match s.threads t with
    | .idle => some (s.goTo t (.get keyId false))
    | _ => none
  | .get t =>
    match s.threads t, s.load with
    | .get keyId second, none =>
      match alive s.cache s.clock with
      | some data => some (s.goTo t (.next keyId second data))
      | none => some { s with load := some (t, none), log := s.log ++ [.started s.clock] }
    | _, _ => none
  | .fetched response =>
    match s.load with
    | some (t, none) =>
      match fetchJwks lib (.ok response) s.clock with
      | .ok data =>
        if 60 ≤ data.maxAgeSecs then
          some { s with load := some (t, some data), log := s.log ++ [.recorded data.fetchedAt] }
        else none
      | .error _ => none
    | _ => none
  | .stored =>
    match s.load with
    | some (t, some data) =>
      match s.threads t with
      | .get keyId second => some { s.goTo t (.next keyId second data) with
          cache := some ⟨data, s.clock⟩
          load := none }
      | _ => none
    | _ => none
  | .check t =>
    match s.threads t with
    | .check keyId data =>
      some (s.goTo t (if shouldAttemptRefresh data s.clock then .invalidate keyId else .idle))
    | _ => none
  | .invalidate t =>
    match s.threads t, s.load with
    | .invalidate keyId, none => some { s.goTo t (.get keyId true) with cache := none }
    | _, _ => none

/-- The states of a run with the events that happened in them, the last one first, and the state in
which the run ends. -/
inductive Run (lib : Lib Key) : List (State Key × Event) → State Key → Prop
  | start : Run lib [] {}
  | step {steps : List (State Key × Event)} {s s' : State Key} {e : Event} : Run lib steps s →
    step lib s e = some s' → Run lib ((s, e) :: steps) s'

/-- No fetch starts less than the minimum refresh interval after an earlier `fetchedAt`. -/
def Limited (log : List Fetch) : Prop :=
  log.Pairwise fun earlier later => ∀ fetchedAt millis, earlier = .recorded fetchedAt →
    later = .started millis → fetchedAt + minRefreshInterval ≤ millis

/-- The event does not invalidate an entry younger than the minimum refresh interval. -/
def Spares (s : State Key) : Event → Prop
  | .invalidate _ => ∀ e ∈ s.cache, e.data.fetchedAt + minRefreshInterval ≤ s.clock
  | _ => True

/-! ## The invariant -/

/-- An entry lives for at least a minute after its `fetchedAt`. -/
structure Sturdy (e : Entry Key) (clock : Int) : Prop where
  fetched : e.data.fetchedAt ≤ e.created
  created : e.created ≤ clock
  lifetime : 60 ≤ e.data.maxAgeSecs

/-- Every `fetchedAt` so far is a minute old, or that of the entry in the cache is as late. While a
fetch that has recorded its `fetchedAt` is being stored, that one is the latest. -/
structure Inv (s : State Key) : Prop where
  limited : Limited s.log
  sturdy : ∀ e ∈ s.cache, Sturdy e s.clock
  fresh : ∀ f, .recorded f ∈ s.log → f + minRefreshInterval ≤ s.clock ∨
    (∃ e ∈ s.cache, f ≤ e.data.fetchedAt) ∨ ∃ t data, s.load = some (t, some data)
  newest : ∀ t data, s.load = some (t, some data) → data.fetchedAt ≤ s.clock ∧
    60 ≤ data.maxAgeSecs ∧ ∀ f, .recorded f ∈ s.log → f ≤ data.fetchedAt
  past : ∀ f, .recorded f ∈ s.log → f ≤ s.clock

section Steps

variable {lib : Lib Key} {s s' : State Key} {e : Entry Key} {t : Nat}

theorem expired_of_alive {cache : Option (Entry Key)} {millis : Int} (h : alive cache millis = none) :
    ∀ e ∈ cache, e.expired millis = true := by
  rintro e hmem
  obtain rfl := Option.mem_def.mp hmem
  by_contra hno
  simp only [alive, hno, if_false] at h
  cases h

/-- An entry that has expired was fetched at least a minute ago. -/
theorem Sturdy.expired {clock millis : Int} (hs : Sturdy e clock) (h : e.expired millis = true) :
    e.data.fetchedAt + minRefreshInterval ≤ millis := by
  have hle := of_decide_eq_true h
  have hfetched := hs.fetched
  have hlifetime := hs.lifetime
  simp only [JwksData.expireAfterCreate, maximumExpiry, longMax] at hle
  simp only [minRefreshInterval]
  omega

theorem Inv.goTo (hi : Inv s) (t : Nat) (pc : Pc Key) : Inv (s.goTo t pc) :=
  ⟨hi.limited, hi.sturdy, hi.fresh, hi.newest, hi.past⟩

theorem Inv.tick (hi : Inv s) (millis : Nat) : Inv { s with clock := s.clock + millis } := by
  have hle : s.clock ≤ s.clock + millis := by omega
  refine ⟨hi.limited, fun e he => ?_, fun f hf => ?_, fun t data hload => ?_, fun f hf => ?_⟩
  · exact ⟨(hi.sturdy e he).fetched, (hi.sturdy e he).created.trans hle, (hi.sturdy e he).lifetime⟩
  · exact (hi.fresh f hf).imp_left fun h => h.trans hle
  · exact ⟨(hi.newest t data hload).1.trans hle, (hi.newest t data hload).2⟩
  · exact (hi.past f hf).trans hle

/-- A load starts when the cache has no entry that is alive. By then every `fetchedAt` is a minute
old. -/
theorem Inv.started (hi : Inv s) (halive : alive s.cache s.clock = none) (hload : s.load = none)
    (t : Nat) : Inv { s with load := some (t, none), log := s.log ++ [.started s.clock] } := by
  have hold : ∀ f, .recorded f ∈ s.log → f + minRefreshInterval ≤ s.clock := by
    intro f hf
    rcases hi.fresh f hf with h | ⟨e, he, hle⟩ | ⟨t', data, h⟩
    · exact h
    · have := (hi.sturdy e he).expired (expired_of_alive halive e he)
      omega
    · rw [hload] at h
      cases h
  have hmem : ∀ f, .recorded f ∈ s.log ++ [.started s.clock] → .recorded f ∈ s.log := by
    intro f hf
    simpa using hf
  refine ⟨?_, hi.sturdy, fun f hf => .inl (hold f (hmem f hf)), nofun,
    fun f hf => hi.past f (hmem f hf)⟩
  refine List.pairwise_append.mpr ⟨hi.limited, List.pairwise_singleton .., ?_⟩
  rintro earlier hearlier later hlater f millis rfl rfl
  obtain rfl : millis = s.clock := by simpa using hlater
  exact hold f hearlier

/-- A fetch has succeeded. -/
theorem Inv.recorded (hi : Inv s) {data : JwksData Key} (hat : data.fetchedAt = s.clock)
    (hage : 60 ≤ data.maxAgeSecs) (t : Nat) :
    Inv { s with load := some (t, some data), log := s.log ++ [.recorded data.fetchedAt] } := by
  have hmem : ∀ f, .recorded f ∈ s.log ++ [.recorded data.fetchedAt] → f ≤ s.clock := by
    intro f hf
    rcases List.mem_append.mp hf with h | h
    · exact hi.past f h
    · obtain rfl : f = data.fetchedAt := by simpa using h
      exact Int.le_of_eq hat
  refine ⟨?_, hi.sturdy, fun f _ => .inr (.inr ⟨t, data, rfl⟩), ?_, hmem⟩
  · refine List.pairwise_append.mpr ⟨hi.limited, List.pairwise_singleton .., ?_⟩
    rintro earlier hearlier later hlater f millis rfl rfl
    simp at hlater
  · rintro t' data' heq
    cases heq
    refine ⟨Int.le_of_eq hat, hage, fun f hf => ?_⟩
    rw [hat]
    exact hmem f hf

/-- The new entry is made. -/
theorem Inv.stored (hi : Inv s) {data : JwksData Key} (hload : s.load = some (t, some data)) :
    Inv { s with cache := some ⟨data, s.clock⟩, load := none } := by
  obtain ⟨hat, hage, hnewest⟩ := hi.newest t data hload
  refine ⟨hi.limited, fun e he => ?_, fun f hf => .inr (.inl ⟨_, rfl, hnewest f hf⟩), nofun, hi.past⟩
  obtain rfl : (⟨data, s.clock⟩ : Entry Key) = e := Option.some.inj he
  exact ⟨hat, Int.le_refl _, hage⟩

/-- An entry that is a minute old is invalidated. -/
theorem Inv.invalidated (hi : Inv s) (hload : s.load = none)
    (hold : ∀ e ∈ s.cache, e.data.fetchedAt + minRefreshInterval ≤ s.clock) :
    Inv { s with cache := none } := by
  refine ⟨hi.limited, nofun, fun f hf => .inl ?_, hi.newest, hi.past⟩
  rcases hi.fresh f hf with h | ⟨e, he, hle⟩ | ⟨t', data, h⟩
  · exact h
  · exact (Int.add_le_add_right hle _).trans (hold e he)
  · rw [hload] at h
    cases h

/-- One event. -/
theorem Inv.step {ev : Event} (hi : Inv s) (hspares : Spares s ev)
    (hs : step lib s ev = some s') : Inv s' := by
  cases ev with
  | tick millis =>
    cases hs
    exact hi.tick millis
  | call t keyId =>
    simp only [Threads.step] at hs
    split at hs
    · cases hs
      exact hi.goTo t _
    · cases hs
  | get t =>
    simp only [Threads.step] at hs
    split at hs
    · next hload =>
      split at hs
      · cases hs
        exact hi.goTo t _
      · next halive =>
        cases hs
        exact hi.started halive hload t
    · cases hs
  | fetched response =>
    simp only [Threads.step] at hs
    split at hs
    · split at hs
      · next data hfetch =>
        split at hs
        · next hage =>
          cases hs
          exact hi.recorded (fetchJwks_fetchedAt hfetch) hage _
        · cases hs
      · cases hs
    · cases hs
  | stored =>
    simp only [Threads.step] at hs
    split at hs
    · next hload =>
      split at hs
      · cases hs
        exact (hi.stored hload).goTo _ _
      · cases hs
    · cases hs
  | check t =>
    simp only [Threads.step] at hs
    split at hs
    · cases hs
      exact hi.goTo t _
    · cases hs
  | invalidate t =>
    simp only [Threads.step] at hs
    split at hs
    · next hload =>
      cases hs
      exact (hi.invalidated hload hspares).goTo t _
    · cases hs

theorem inv_start : Inv ({} : State Key) :=
  ⟨List.Pairwise.nil, nofun, nofun, nofun, nofun⟩

end Steps

/-- **The refresh limit.** In every run of any number of threads in which no entry younger than the
minimum refresh interval is invalidated, no fetch starts less than that interval after the
`fetchedAt` of an earlier fetch. -/
theorem refresh_limited {lib : Lib Key} {steps : List (State Key × Event)} {s : State Key}
    (hr : Run lib steps s) (h : ∀ p ∈ steps, Spares p.1 p.2) : Limited s.log := by
  have hinv : Inv s := by
    induction hr with
    | start => exact inv_start
    | step hr hs ih =>
      obtain ⟨hspares, hrest⟩ := List.forall_mem_cons.mp h
      exact (ih hrest).step hspares hs
  exact hinv.limited

/-- The object mapper on a document without keys. -/
def emptyLib : Lib Nat where
  readValue body := if body = .lit "\x7b\x7d" then .ok (some ⟨none⟩) else .error ⟨.ioException, []⟩
  decode _ := none
  generatePublic _ _ := none

/-- Its response. -/
def emptySet : HttpResponse := ⟨200, .lit "\x7b\x7d", none⟩

/-- Two threads wait for the first key set, find it old after a minute, and both invalidate it before
one of them loads the next one. -/
theorem refresh_limited_two_threads :
    ∃ steps s, Run emptyLib steps s ∧ Limited s.log ∧
      s.log = [.started 0, .recorded 0, .started 60001, .recorded 60001] := by
  have hstart : Run emptyLib [] {} := .start
  have hloading := (((hstart.step (e := .call 0 (.lit "a")) rfl).step (e := .get 0) rfl).step
    (e := .call 1 (.lit "a")) rfl).step (e := .fetched emptySet) rfl
  have hold := (((((hloading.step (e := .stored) rfl).step (e := .get 1) rfl).step
    (e := .tick 60001) rfl).step (e := .check 1) rfl).step (e := .check 0) rfl)
  have hnone := (hold.step (e := .invalidate 1) rfl).step (e := .invalidate 0) rfl
  have hend := (((hnone.step (e := .get 1) rfl).step (e := .fetched emptySet) rfl).step
    (e := .stored) rfl).step (e := .get 0) rfl
  refine ⟨_, _, hend, refresh_limited hend ?_, rfl⟩
  simp only [List.forall_mem_cons, Spares, true_and]
  refine ⟨nofun, fun e he => ?_, List.forall_mem_nil _⟩
  cases he
  decide

/-- Two threads have found the same old entry. The second one invalidates what the first one has
loaded. -/
def lateInvalidation : List Event :=
  [.call 0 (.lit "a"), .get 0, .fetched emptySet, .stored, .call 1 (.lit "a"), .get 1, .tick 60001,
    .check 0, .check 1, .invalidate 0, .get 0, .fetched emptySet, .stored, .invalidate 1, .get 1]

theorem Run.foldlM {lib : Lib Key} {steps : List (State Key × Event)} {s s' : State Key}
    {es : List Event} (hr : Run lib steps s) (h : es.foldlM (Threads.step lib) s = some s') :
    ∃ steps', Run lib steps' s' := by
  induction es generalizing s steps with
  | nil =>
    cases h
    exact ⟨steps, hr⟩
  | cons e es ih =>
    rw [List.foldlM_cons] at h
    obtain ⟨s₁, hs, hrest⟩ := Option.bind_eq_some_iff.mp h
    exact ih (hr.step hs) hrest

theorem refresh_race :
    ¬ ∀ (lib : Lib Nat) steps s, Run lib steps s → Limited s.log := by
  intro hall
  have hlog : (lateInvalidation.foldlM (step emptyLib) {}).map State.log =
      some [.started 0, .recorded 0, .started 60001, .recorded 60001, .started 60001] := by
    decide +kernel
  obtain ⟨s, hs, hlog⟩ := Option.map_eq_some_iff.mp hlog
  obtain ⟨steps, hr⟩ := Run.start.foldlM hs
  have hlimited := hall emptyLib steps s hr
  rw [hlog] at hlimited
  have hpair := (List.pairwise_cons.mp (List.pairwise_cons.mp (List.pairwise_cons.mp
    (List.pairwise_cons.mp hlimited).2).2).2).1
  have hle := hpair (.started 60001) List.mem_cons_self 60001 60001 rfl rfl
  exact absurd hle (by decide)

end Threads
end Oidc
end TrustedCa
