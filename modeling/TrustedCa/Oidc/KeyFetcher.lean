import TrustedCa.Oidc.Jwks

/-!
# The cache of key sets (`OidcJwksKeyFetcher.getKey`)

The fetcher keeps one key set in a Caffeine cache. A key set is loaded when the cache has none that
is alive, and again when a key is asked for that is not in it and the set is older than the minimum
refresh interval.

* `Entry` is an entry of the cache, and `Entry.expired` is its lifetime: the time of its creation,
  which the cache reads after the load, plus `max-age`. Times are in milliseconds since the epoch,
  as long as the nanoseconds of the ticker fit in a `long`.
* A load that throws leaves the cache as it is.
* `Load` is what a `cache.get` finds outside of the cache: the clock, and the exchange with the
  server in case it loads. `Readings` are those of a call of `getKey`.
* The refresh invalidates the entry and then loads. `getKey_unknown` says what is left of the entry
  in each case.
-/

namespace TrustedCa
namespace Oidc

open Issuance (Thrown longMax)
open Spec

variable {Key : Type}

/-- `MIN_REFRESH_INTERVAL`, in milliseconds. -/
def minRefreshInterval : Int := 60000

/-- The longest lifetime of a Caffeine entry, in nanoseconds. -/
def maximumExpiry : Int := longMax / 2

structure Entry (Key : Type) where
  data : JwksData Key
  created : Int

/-- `expireAfterCreate`, in nanoseconds. -/
def JwksData.expireAfterCreate (data : JwksData Key) : Int :=
  min (data.maxAgeSecs * 1000000000) maximumExpiry

def Entry.expired (e : Entry Key) (millis : Int) : Bool :=
  e.created * 1000000 + e.data.expireAfterCreate ≤ millis * 1000000

/-- The value that a `cache.get` finds. -/
def alive (cache : Option (Entry Key)) (millis : Int) : Option (JwksData Key) :=
  match cache with
  | some e => if e.expired millis then none else some e.data
  | none => none

def shouldAttemptRefresh (data : JwksData Key) (millis : Int) : Bool :=
  data.fetchedAt + minRefreshInterval < millis

/-- The clock at a `cache.get`, the exchange with the server, and the clock when the keys have been
read and when the entry is made. -/
structure Load where
  read : Int
  response : Except Thrown HttpResponse
  fetchedAt : Int
  created : Int

/-- The readings of a call of `getKey`: its two `cache.get`s, and the clock between them. -/
structure Readings where
  first : Load
  check : Int
  second : Load

/-- The cache, and the number of fetches that were started. -/
structure State (Key : Type) where
  cache : Option (Entry Key)
  fetches : Nat

section GetKey

variable (lib : Lib Key)

/-- `cache.get(CACHE_KEY)`. -/
def get (l : Load) (s : State Key) : Except Thrown (JwksData Key) × State Key :=
  match alive s.cache l.read with
  | some data => (.ok data, s)
  | none =>
    match fetchJwks lib l.response l.fetchedAt with
    | .ok data => (.ok data, ⟨some ⟨data, l.created⟩, s.fetches + 1⟩)
    | .error e => (.error e, ⟨s.cache, s.fetches + 1⟩)

/-- `cache.invalidate(CACHE_KEY)`. -/
def invalidate (s : State Key) : State Key := { s with cache := none }

def getKey (r : Readings) (keyId : JString) (s : State Key) :
    Except Thrown (Option Key) × State Key :=
  match get lib r.first s with
  | (.error e, s) => (.error e, s)
  | (.ok data, s) =>
    match data.keys keyId with
    | some key => (.ok (some key), s)
    | none =>
      if shouldAttemptRefresh data r.check then
        match get lib r.second (invalidate s) with
        | (.error e, s) => (.error e, s)
        | (.ok data, s) => (.ok (data.keys keyId), s)
      else
        (.ok none, s)

end GetKey

/-! ## What a call can do -/

section Cases

variable (lib : Lib Key)

/-- A `cache.get` finds an entry that is alive, or loads one, or throws and leaves the cache. -/
theorem get_cases (l : Load) (s : State Key) :
    (∃ e, s.cache = some e ∧ e.expired l.read = false ∧ get lib l s = (.ok e.data, s)) ∨
    (∃ data, fetchJwks lib l.response l.fetchedAt = .ok data ∧
      get lib l s = (.ok data, ⟨some ⟨data, l.created⟩, s.fetches + 1⟩)) ∨
    ∃ err, get lib l s = (.error err, ⟨s.cache, s.fetches + 1⟩) := by
  unfold get
  split
  · next data halive =>
    refine .inl ?_
    unfold alive at halive
    split at halive
    · next e hcache =>
      split at halive
      · cases halive
      · next hexpired =>
        cases halive
        exact ⟨e, hcache, Bool.eq_false_iff.mpr hexpired, rfl⟩
    · cases halive
  · split
    · next data hfetch => exact .inr (.inl ⟨data, hfetch, rfl⟩)
    · next err _ => exact .inr (.inr ⟨err, rfl⟩)

/-- A call of `getKey` throws or answers after its first `cache.get`, or after the refresh. -/
theorem getKey_cases (r : Readings) (keyId : JString) (s : State Key) :
    (∃ err s₁, get lib r.first s = (.error err, s₁) ∧ getKey lib r keyId s = (.error err, s₁)) ∨
    ∃ data s₁, get lib r.first s = (.ok data, s₁) ∧
      (getKey lib r keyId s = (.ok (data.keys keyId), s₁) ∨
        (∃ err s₂, get lib r.second (invalidate s₁) = (.error err, s₂) ∧
          getKey lib r keyId s = (.error err, s₂)) ∨
        ∃ data' s₂, get lib r.second (invalidate s₁) = (.ok data', s₂) ∧
          getKey lib r keyId s = (.ok (data'.keys keyId), s₂)) := by
  rcases hget : get lib r.first s with ⟨err | data, s₁⟩
  · exact .inl ⟨err, s₁, rfl, by simp only [getKey, hget]⟩
  · refine .inr ⟨data, s₁, rfl, ?_⟩
    cases hkey : data.keys keyId with
    | some key => exact .inl (by simp only [getKey, hget, hkey])
    | none =>
      cases hold : shouldAttemptRefresh data r.check with
      | false => exact .inl (by simp [getKey, hget, hkey, hold])
      | true =>
        rcases hsecond : get lib r.second (invalidate s₁) with ⟨err | data', s₂⟩
        · exact .inr (.inl ⟨err, s₂, rfl, by simp [getKey, hget, hkey, hold, hsecond]⟩)
        · exact .inr (.inr ⟨data', s₂, rfl, by simp [getKey, hget, hkey, hold, hsecond]⟩)

end Cases

/-! ## An unknown key -/

section Unknown

variable {lib : Lib Key} {e : Entry Key} {r : Readings} {keyId : JString} {n : Nat}

theorem get_alive {l : Load} (h : e.expired l.read = false) :
    get lib l ⟨some e, n⟩ = (.ok e.data, ⟨some e, n⟩) := by
  simp only [get, alive, h, Bool.false_eq_true, if_false]

/-- A key of an entry that is alive is returned without a fetch. -/
theorem getKey_cached {kid : JString} {key : Key} (hkey : e.data.keys kid = some key)
    (h : e.expired r.first.read = false) :
    getKey lib r kid ⟨some e, n⟩ = (.ok (some key), ⟨some e, n⟩) := by
  simp only [getKey, get_alive h, hkey]

theorem get_error {l : Load} {err : Thrown}
    (h : fetchJwks lib l.response l.fetchedAt = .error err) :
    get lib l ⟨none, n⟩ = (.error err, ⟨none, n + 1⟩) := by
  simp only [get, alive, h]

theorem get_ok {l : Load} {data : JwksData Key}
    (h : fetchJwks lib l.response l.fetchedAt = .ok data) :
    get lib l ⟨none, n⟩ = (.ok data, ⟨some ⟨data, l.created⟩, n + 1⟩) := by
  simp only [get, alive, h]

theorem fetches_le_get (lib : Lib Key) (l : Load) (s : State Key) : s.fetches ≤ (get lib l s).2.fetches := by
  unfold get
  split
  · exact Nat.le_refl _
  · split
    · exact Nat.le_succ _
    · exact Nat.le_succ _

/-- Without an entry, every call starts with a fetch. -/
theorem getKey_empty (kid : JString) :
    n < (getKey lib r kid ⟨none, n⟩).2.fetches ∧
      ∀ err, fetchJwks lib r.first.response r.first.fetchedAt = .error err →
        getKey lib r kid ⟨none, n⟩ = (.error err, ⟨none, n + 1⟩) := by
  have herror : ∀ err, fetchJwks lib r.first.response r.first.fetchedAt = .error err →
      getKey lib r kid ⟨none, n⟩ = (.error err, ⟨none, n + 1⟩) := by
    intro err h
    simp only [getKey, get_error h]
  refine ⟨?_, herror⟩
  cases hfetch : fetchJwks lib r.first.response r.first.fetchedAt with
  | error err =>
    rw [herror err hfetch]
    exact Nat.lt_succ_self n
  | ok data =>
    simp only [getKey, get_ok hfetch]
    split
    · exact Nat.lt_succ_self n
    · split
      · have hle := fetches_le_get lib r.second
          (invalidate ⟨some ⟨data, r.first.created⟩, n + 1⟩)
        split
        · next heq =>
          rw [heq] at hle
          exact hle
        · next heq =>
          rw [heq] at hle
          exact hle
      · exact Nat.lt_succ_self n

/-- **An unknown key.** While an entry is alive, a call for a key that it does not have starts no
fetch if the entry is not older than the minimum refresh interval, and the entry goes on serving its
keys without a fetch. If the entry is older and the fetch fails, then the entry is gone: the call
throws, and every later call starts with a fetch. -/
theorem getKey_unknown (halive : e.expired r.first.read = false) (hkey : e.data.keys keyId = none) :
    (shouldAttemptRefresh e.data r.check = false →
      getKey lib r keyId ⟨some e, n⟩ = (.ok none, ⟨some e, n⟩) ∧
      ∀ kid key r', e.data.keys kid = some key → e.expired r'.first.read = false →
        getKey lib r' kid ⟨some e, n⟩ = (.ok (some key), ⟨some e, n⟩)) ∧
    (shouldAttemptRefresh e.data r.check = true →
      ∀ err, fetchJwks lib r.second.response r.second.fetchedAt = .error err →
        getKey lib r keyId ⟨some e, n⟩ = (.error err, ⟨none, n + 1⟩) ∧
        ∀ kid r', n + 1 < (getKey lib r' kid ⟨none, n + 1⟩).2.fetches ∧
          ∀ err', fetchJwks lib r'.first.response r'.first.fetchedAt = .error err' →
            getKey lib r' kid ⟨none, n + 1⟩ = (.error err', ⟨none, n + 2⟩)) := by
  refine ⟨fun hyoung => ⟨?_, fun kid key r' hk h => getKey_cached hk h⟩, fun hold err herr => ⟨?_, ?_⟩⟩
  · simp only [getKey, get_alive halive, hkey, hyoung, Bool.false_eq_true, if_false]
  · simp only [getKey, get_alive halive, hkey, hold, if_true, invalidate, get_error herr]
  · exact fun kid r' => getKey_empty kid

end Unknown

/-! ## A failed refresh -/

/-- A call for a key that an entry does not have keeps the keys of the entry if it throws. -/
def KeepsKeys (lib : Lib Key) (e : Entry Key) (keyId : JString) (r : Readings) : Prop :=
  ∀ n err s, getKey lib r keyId ⟨some e, n⟩ = (.error err, s) →
    ∀ kid key r', e.data.keys kid = some key → e.expired r'.first.read = false →
      getKey lib r' kid s = (.ok (some key), s)

/-- An entry of one hour with a key for the id `b`. -/
def oneKey : Entry (Nat × Nat) where
  data := ⟨fun kid => if kid = .lit "b" then some (bigInteger modulusBytes, 65537) else none, 3600, 0⟩
  created := 0

/-- The server does not answer. -/
def outage (millis : Int) : Readings where
  first := ⟨millis, .error ⟨.ioException, .lit "timeout"⟩, millis, millis⟩
  check := millis
  second := ⟨millis, .error ⟨.ioException, .lit "timeout"⟩, millis, millis⟩

/-- After a minute and during an outage, a call for another id takes the key of `b` away. -/
theorem getKey_unknown_outage :
    getKey mixedLib (outage 61000) (.lit "a") ⟨some oneKey, 1⟩ =
        (.error ⟨.runtimeException, .lit "Failed to fetch or parse JWKS"⟩, ⟨none, 2⟩) ∧
      1 + 1 < (getKey mixedLib (outage 62000) (.lit "b") ⟨none, 1 + 1⟩).2.fetches :=
  have h := (getKey_unknown (by decide) (by decide)).2 (by decide) _ rfl
  ⟨h.1, (h.2 (.lit "b") (outage 62000)).1⟩

theorem getKey_forgets :
    ¬ ∀ (lib : Lib (Nat × Nat)) (e : Entry (Nat × Nat)) (keyId : JString) (r : Readings),
      e.expired r.first.read = false → e.data.keys keyId = none → KeepsKeys lib e keyId r := by
  intro hall
  have hkeeps := hall mixedLib oneKey (.lit "a") (outage 61000) (by decide) (by decide) 1 _ _ rfl
    (.lit "b") (bigInteger modulusBytes, 65537) (outage 61000) rfl (by decide)
  cases hkeeps

end Oidc
end TrustedCa
