import TrustedCa.Issuance.Platform
import Mathlib.Logic.Function.Basic

/-!
# Fetching a key set (`OidcJwksKeyFetcher.fetchJwks`)

The identity provider publishes its keys as a JSON document. `fetchJwks` reads the document and the
lifetime in its `Cache-Control` header.

* `Lib`: the object mapper, the Base64 decoder and the RSA key factory. The last two are partial
  functions: the code catches what they throw, and drops the key.
* `find` is `Matcher.find` of `max-age\s*=\s*(\d+)` with its group. No character can be taken by two
  neighbouring parts of the pattern, so a match at a position is unique.
* An entry of the list may be `null`, and a number may be too long for `Long.parseLong`. Neither is
  caught. `fetchJwks_robust_iff`: apart from these two, every key that can be decoded is kept.
-/

namespace TrustedCa
namespace Oidc

open Issuance (Bytes Thrown longMax)
open Spec

/-- `Jwk`. Every field may be missing. -/
structure Jwk where
  kid : Option JString := none
  kty : Option JString := none
  n : Option JString := none
  e : Option JString := none
  deriving DecidableEq

/-- `JwksResponse`. -/
structure JwksResponse where
  keys : Option (List (Option Jwk))
  deriving DecidableEq

/-- `HttpResponse<String>`, with the first value of its `Cache-Control` header. -/
structure HttpResponse where
  statusCode : Int
  body : JString
  cacheControl : Option JString
  deriving DecidableEq

/-- `Map<String, Key>`. -/
abbrev KeyMap (Key : Type) := JString → Option Key

/-- `JwksData`. The instant is in milliseconds since the epoch. -/
structure JwksData (Key : Type) where
  keys : KeyMap Key
  maxAgeSecs : Int
  fetchedAt : Int

/-- What the code uses of its libraries. -/
structure Lib (Key : Type) where
  readValue : JString → Except Thrown (Option JwksResponse)
  decode : JString → Option Bytes
  generatePublic : Nat → Nat → Option Key

/-! ## The lifetime -/

/-- `DEFAULT_CACHE_DURATION_SECS`. -/
def defaultCacheDurationSecs : Int := 3600

/-- `\s`. -/
def isSpace (c : UInt16) : Bool := c == 0x20 || (0x09 ≤ c && c ≤ 0x0d)

/-- `\d`. -/
def isDigit (c : UInt16) : Bool := JString.char '0' ≤ c && c ≤ JString.char '9'

/-- The rest of `s` after `start`, where `s` starts with it. -/
def after (start s : JString) : Option JString :=
  if start <+: s then some (s.drop start.length) else none

/-- The group of a match of `MAX_AGE_PATTERN` at the start of a text. -/
def lookingAt (s : JString) : Option JString := do
  let s ← after (.lit "max-age") s
  let s ← after (.lit "=") (s.dropWhile isSpace)
  let digits := (s.dropWhile isSpace).takeWhile isDigit
  if digits = [] then none else some digits

/-- The group of the first match in a text. -/
def find : JString → Option JString
  | [] => none
  | c :: s =>
    match lookingAt (c :: s) with
    | some digits => some digits
    | none => find s

/-- The number that a text of digits is. -/
def toNat (digits : JString) : Nat :=
  digits.foldl (fun n c => 10 * n + (c.toNat - (JString.char '0').toNat)) 0

/-- `Long.parseLong` of a text of digits. -/
def parseLong (digits : JString) : Except Thrown Int :=
  if (toNat digits : Int) ≤ longMax then .ok (toNat digits)
  else .error ⟨.numberFormatException, .lit "For input string: \"" ++ digits ++ .lit "\""⟩

def getMaxAgeSecs (cacheControlHeader : Option JString) : Except Thrown Int :=
  match cacheControlHeader.bind find with
  | some digits => do
    let age ← parseLong digits
    return if 0 ≤ age then age else defaultCacheDurationSecs
  | none => .ok defaultCacheDurationSecs

/-! ## The keys -/

section Keys

variable {Key : Type} (lib : Lib Key)

/-- `new BigInteger(1, bytes)`. -/
def bigInteger (bytes : Bytes) : Nat := bytes.foldl (fun n b => 256 * n + b.toNat) 0

def parseKey (jwk : Jwk) : Option Key :=
  if jwk.kty ≠ some (.lit "RSA") then
    none
  else do
    let n ← jwk.n
    let e ← jwk.e
    let modulus ← lib.decode n
    let exponent ← lib.decode e
    lib.generatePublic (bigInteger modulus) (bigInteger exponent)

/-- The body of the loop of `parseKeys`. -/
def putKey (keys : KeyMap Key) : Option Jwk → Except Thrown (KeyMap Key)
  | none => .error ⟨.nullPointerException, []⟩
  | some jwk =>
    match jwk.kid with
    | none => .ok keys
    | some kid =>
      match parseKey lib jwk with
      | some key => .ok (Function.update keys kid (some key))
      | none => .ok keys

def parseKeys : Option JwksResponse → Except Thrown (KeyMap Key)
  | none | some ⟨none⟩ => .ok fun _ => none
  | some ⟨some entries⟩ => entries.foldlM (putKey lib) fun _ => none

/-- `fetchJwks`. `send` is what the exchange with the server gives, including the look-up of its
address. -/
def fetchJwks (send : Except Thrown HttpResponse) (millis : Int) : Except Thrown (JwksData Key) :=
  let fetched : Except Thrown (JwksData Key) := do
    let response ← send
    if response.statusCode ≠ 200 then
      throw ⟨.ioException, .lit "Failed to fetch JWKS: " ++ response.body⟩
    let maxAgeSecs ← getMaxAgeSecs response.cacheControl
    let jwksResponse ← lib.readValue response.body
    let keys ← parseKeys lib jwksResponse
    return ⟨keys, maxAgeSecs, millis⟩
  match fetched with
  | .ok data => .ok data
  | .error e =>
    if e.isA .ioException || e.isA .interruptedException then
      .error ⟨.runtimeException, .lit "Failed to fetch or parse JWKS"⟩
    else .error e

/-- The keys of a fetch are those of the moment in which they were read. -/
theorem fetchJwks_fetchedAt {lib : Lib Key} {send : Except Thrown HttpResponse} {millis : Int}
    {data : JwksData Key} (h : fetchJwks lib send millis = .ok data) : data.fetchedAt = millis := by
  unfold fetchJwks at h
  dsimp only at h
  split at h
  · next data' hfetched =>
    cases h
    obtain ⟨response, -, h⟩ := bind_eq_ok.mp hfetched
    split at h
    · cases h
    obtain ⟨maxAgeSecs, -, h⟩ := bind_eq_ok.mp h
    obtain ⟨jwksResponse, -, h⟩ := bind_eq_ok.mp h
    obtain ⟨keys, -, h⟩ := bind_eq_ok.mp h
    cases h
    rfl
  · split at h <;> cases h

end Keys

/-! ## Robustness -/

/-- The number of the first `max-age` of a header. -/
def maxAge (header : Option JString) : Option Nat := (header.bind find).map toNat

/-- The lifetime that a header stands for. -/
def lifetime (header : Option JString) : Int :=
  match maxAge header with
  | some age => if (age : Int) ≤ longMax then age else defaultCacheDurationSecs
  | none => defaultCacheDurationSecs

section Robust

variable {Key : Type} {lib : Lib Key}

/-- The key of an entry with the id `kid`, if the entry can be decoded. -/
def entryKey (lib : Lib Key) (kid : JString) : Option Jwk → Option Key
  | some jwk => if jwk.kid = some kid then parseKey lib jwk else none
  | none => none

/-- The key of the last entry with the id `kid` that can be decoded. -/
def lastKey (lib : Lib Key) (entries : List (Option Jwk)) (kid : JString) : Option Key :=
  (entries.filterMap (entryKey lib kid)).getLast?

/-- The fetch of a list of entries succeeds, with the keys that can be decoded and the lifetime of
the header. -/
def Robust (lib : Lib Key) (entries : List (Option Jwk)) (response : HttpResponse) (millis : Int) :
    Prop :=
  ∃ data, fetchJwks lib (.ok response) millis = .ok data ∧
    (∀ kid, data.keys kid = lastKey lib entries kid) ∧
    data.maxAgeSecs = lifetime response.cacheControl

/-- The header has no number that is too long. -/
def Fits (header : Option JString) : Prop := ∀ age ∈ maxAge header, (age : Int) ≤ longMax

theorem getMaxAgeSecs_ok {header : Option JString} (h : Fits header) :
    getMaxAgeSecs header = .ok (lifetime header) := by
  unfold getMaxAgeSecs lifetime
  unfold Fits maxAge at *
  cases hfind : header.bind find with
  | none => rfl
  | some digits =>
    have hle : (toNat digits : Int) ≤ longMax := h _ (by rw [hfind]; rfl)
    simp only [Option.map_some, parseLong, hle, if_true]
    rfl

theorem getMaxAgeSecs_error {header : Option JString} (h : ¬ Fits header) :
    ∃ message, getMaxAgeSecs header = .error ⟨.numberFormatException, message⟩ := by
  unfold getMaxAgeSecs
  unfold Fits maxAge at h
  cases hfind : header.bind find with
  | none =>
    rw [hfind] at h
    exact absurd nofun h
  | some digits =>
    have hgt : ¬ (toNat digits : Int) ≤ longMax := by
      intro hle
      refine h fun age hage => ?_
      rw [hfind] at hage
      cases hage
      exact hle
    simp only [parseLong, hgt, if_false]
    exact ⟨_, rfl⟩

/-- An entry that is there. -/
theorem putKey_ok {entry : Option Jwk} (keys : KeyMap Key) (h : entry ≠ none) :
    ∃ keys', putKey lib keys entry = .ok keys' ∧
      ∀ kid, keys' kid = (entryKey lib kid entry).or (keys kid) := by
  obtain ⟨jwk, rfl⟩ := Option.ne_none_iff_exists'.mp h
  cases hkid : jwk.kid with
  | none => exact ⟨keys, by simp only [putKey, hkid], fun kid => by simp [entryKey, hkid]⟩
  | some id =>
    cases hkey : parseKey lib jwk with
    | none =>
      refine ⟨keys, by simp only [putKey, hkid, hkey], fun kid => ?_⟩
      simp [entryKey, hkey]
    | some key =>
      refine ⟨_, by simp only [putKey, hkid, hkey]; rfl, fun kid => ?_⟩
      by_cases heq : kid = id
      · subst heq
        simp [entryKey, hkid, hkey]
      · have hne : ¬ id = kid := fun h => heq h.symm
        simp [entryKey, hkid, heq, hne]

/-- The loop over entries that are there: later entries win. -/
theorem foldlM_putKey_ok (lib : Lib Key) {entries : List (Option Jwk)} (keys : KeyMap Key)
    (h : ∀ entry ∈ entries, entry ≠ none) :
    ∃ keys', entries.foldlM (putKey lib) keys = .ok keys' ∧
      ∀ kid, keys' kid = (lastKey lib entries kid).or (keys kid) := by
  induction entries generalizing keys with
  | nil => exact ⟨keys, rfl, fun kid => rfl⟩
  | cons entry entries ih =>
    obtain ⟨hentry, hentries⟩ := List.forall_mem_cons.mp h
    obtain ⟨keys₁, hput, hkeys₁⟩ := putKey_ok keys hentry
    obtain ⟨keys₂, hloop, hkeys₂⟩ := ih keys₁ hentries
    refine ⟨keys₂, ?_, fun kid => ?_⟩
    · rw [List.foldlM_cons, hput]
      exact hloop
    · rw [hkeys₂, hkeys₁, lastKey, lastKey, List.filterMap_cons]
      cases entryKey lib kid entry with
      | none => rfl
      | some key =>
        rw [List.getLast?_cons]
        cases (entries.filterMap (entryKey lib kid)).getLast? <;> rfl

/-- The loop stops at an entry that is `null`. -/
theorem foldlM_putKey_error (lib : Lib Key) {entries : List (Option Jwk)} (keys : KeyMap Key)
    (h : none ∈ entries) :
    ∃ message, entries.foldlM (putKey lib) keys = .error ⟨.nullPointerException, message⟩ := by
  induction entries generalizing keys with
  | nil => cases h
  | cons entry entries ih =>
    rw [List.foldlM_cons]
    cases entry with
    | none => exact ⟨[], rfl⟩
    | some jwk =>
      have hrest : none ∈ entries := by simpa using h
      obtain ⟨keys₁, hput, -⟩ := putKey_ok keys (Option.some_ne_none jwk)
      rw [hput]
      exact ih keys₁ hrest

section Fetch

variable {entries : List (Option Jwk)} {response : HttpResponse} {millis : Int}

/-- A fetch with a body that is a list of entries, step by step. -/
theorem fetchJwks_eq (hstatus : response.statusCode = 200)
    (hbody : lib.readValue response.body = .ok (some ⟨some entries⟩)) :
    fetchJwks lib (.ok response) millis =
      match (do
        let maxAgeSecs ← getMaxAgeSecs response.cacheControl
        let keys ← entries.foldlM (putKey lib) fun _ => none
        return (⟨keys, maxAgeSecs, millis⟩ : JwksData Key)) with
      | .ok data => .ok data
      | .error e =>
        if e.isA .ioException || e.isA .interruptedException then
          .error ⟨.runtimeException, .lit "Failed to fetch or parse JWKS"⟩
        else .error e := by
  unfold fetchJwks
  simp only [hstatus, hbody, parseKeys, bind, Except.bind, ne_eq, not_true_eq_false, if_false, pure,
    Except.pure]

theorem fetchJwks_ok (hstatus : response.statusCode = 200)
    (hbody : lib.readValue response.body = .ok (some ⟨some entries⟩))
    (hentries : ∀ entry ∈ entries, entry ≠ none) (hfits : Fits response.cacheControl) :
    Robust lib entries response millis := by
  obtain ⟨keys, hloop, hkeys⟩ := foldlM_putKey_ok lib (fun _ => none) hentries
  refine ⟨⟨keys, lifetime response.cacheControl, millis⟩, ?_, fun kid => ?_, rfl⟩
  · rw [fetchJwks_eq hstatus hbody, getMaxAgeSecs_ok hfits, hloop]
    rfl
  · exact (hkeys kid).trans Option.or_none

/-- A number that is too long in the header discards all keys. -/
theorem fetchJwks_tooLong (hstatus : response.statusCode = 200)
    (hbody : lib.readValue response.body = .ok (some ⟨some entries⟩))
    (hfits : ¬ Fits response.cacheControl) :
    ∃ message, fetchJwks lib (.ok response) millis = .error ⟨.numberFormatException, message⟩ := by
  obtain ⟨message, hage⟩ := getMaxAgeSecs_error hfits
  refine ⟨message, ?_⟩
  rw [fetchJwks_eq hstatus hbody, hage]
  rfl

/-- An entry that is `null` discards all keys. -/
theorem fetchJwks_null (hstatus : response.statusCode = 200)
    (hbody : lib.readValue response.body = .ok (some ⟨some entries⟩)) (hnull : none ∈ entries)
    (hfits : Fits response.cacheControl) :
    ∃ message, fetchJwks lib (.ok response) millis = .error ⟨.nullPointerException, message⟩ := by
  obtain ⟨message, hloop⟩ := foldlM_putKey_error lib (fun _ => none) hnull
  refine ⟨message, ?_⟩
  rw [fetchJwks_eq hstatus hbody, getMaxAgeSecs_ok hfits, hloop]
  rfl

/-- The fetch of a list of entries gives all keys that can be decoded, and the lifetime of the
header, if and only if no entry is `null` and the header has no number that is too long. -/
theorem fetchJwks_robust_iff (hstatus : response.statusCode = 200)
    (hbody : lib.readValue response.body = .ok (some ⟨some entries⟩)) :
    Robust lib entries response millis ↔
      (∀ entry ∈ entries, entry ≠ none) ∧ Fits response.cacheControl := by
  refine ⟨?_, fun h => fetchJwks_ok hstatus hbody h.1 h.2⟩
  rintro ⟨data, hfetch, -⟩
  have hfits : Fits response.cacheControl := by
    by_contra hno
    obtain ⟨message, herror⟩ := fetchJwks_tooLong hstatus hbody hno
    rw [herror] at hfetch
    cases hfetch
  refine ⟨?_, hfits⟩
  rintro entry hmem rfl
  obtain ⟨message, herror⟩ := fetchJwks_null hstatus hbody hmem hfits
  rw [herror] at hfetch
  cases hfetch

end Fetch

end Robust

/-- A modulus of 512 bits. -/
def modulusText : JString :=
  .lit "tJhm10pLdhHcgaWKghMOwsdBlWK2P9P-ODAC4D7vhJT2-ZLXyEy3YT0rDKtr6YGs" ++
  .lit "YKmKxuYxyjfv3hGwBhCXQQ"

def modulusBytes : Bytes :=
  [0xb4, 0x98, 0x66, 0xd7, 0x4a, 0x4b, 0x76, 0x11, 0xdc, 0x81, 0xa5, 0x8a, 0x82, 0x13, 0x0e, 0xc2,
   0xc7, 0x41, 0x95, 0x62, 0xb6, 0x3f, 0xd3, 0xfe, 0x38, 0x30, 0x02, 0xe0, 0x3e, 0xef, 0x84, 0x94,
   0xf6, 0xf9, 0x92, 0xd7, 0xc8, 0x4c, 0xb7, 0x61, 0x3d, 0x2b, 0x0c, 0xab, 0x6b, 0xe9, 0x81, 0xac,
   0x60, 0xa9, 0x8a, 0xc6, 0xe6, 0x31, 0xca, 0x37, 0xef, 0xde, 0x11, 0xb0, 0x06, 0x10, 0x97, 0x41]

/-- A key of another type, and two entries with the same id of which the second cannot be
decoded. -/
def mixedEntries : List (Option Jwk) :=
  [some { kid := some (.lit "a"), kty := some (.lit "EC") },
    some ⟨some (.lit "b"), some (.lit "RSA"), some modulusText, some (.lit "AQAB")⟩,
    some ⟨some (.lit "b"), some (.lit "RSA"), some (.lit "*"), some (.lit "AQAB")⟩]

/-- A document with these entries behind the text `first`. -/
def document (first : JString) : JString :=
  .lit "\x7b\"keys\":[" ++ first ++ .lit "\x7b\"kid\":\"a\",\"kty\":\"EC\"\x7d," ++
    .lit "\x7b\"kid\":\"b\",\"kty\":\"RSA\",\"n\":\"" ++ modulusText ++
    .lit "\",\"e\":\"AQAB\"\x7d," ++
    .lit "\x7b\"kid\":\"b\",\"kty\":\"RSA\",\"n\":\"*\",\"e\":\"AQAB\"\x7d]\x7d"

/-- The libraries on these documents and their texts. A key is its modulus and exponent. -/
def mixedLib : Lib (Nat × Nat) where
  readValue body :=
    if body = document [] then .ok (some ⟨some mixedEntries⟩)
    else if body = document (.lit "null,") then .ok (some ⟨some (none :: mixedEntries)⟩)
    else .error ⟨.ioException, []⟩
  decode text :=
    if text = modulusText then some modulusBytes
    else if text = .lit "AQAB" then some [0x01, 0x00, 0x01]
    else none
  generatePublic modulus exponent := if 2 ^ 511 ≤ modulus then some (modulus, exponent) else none

theorem fetchJwks_robust_iff_mixed :
    Robust mixedLib mixedEntries ⟨200, document [], some (.lit "public, max-age = 60")⟩ 0 := by
  refine (fetchJwks_robust_iff rfl ?_).mpr ⟨by decide, fun age hage => ?_⟩
  · simp only [mixedLib, if_true]
  · have hmax : maxAge (some (.lit "public, max-age = 60")) = some 60 := by decide
    rw [hmax] at hage
    cases hage
    decide

/-- One entry that is `null` discards all keys. -/
theorem fetchJwks_null_entry :
    ¬ Robust mixedLib (none :: mixedEntries) ⟨200, document (.lit "null,"), none⟩ 0 := by
  have hbody : mixedLib.readValue (document (.lit "null,")) =
      .ok (some ⟨some (none :: mixedEntries)⟩) := by decide +kernel
  rintro ⟨data, hfetch, -⟩
  obtain ⟨message, herror⟩ : ∃ message,
      fetchJwks mixedLib (.ok ⟨200, document (.lit "null,"), none⟩) 0 =
        .error ⟨.nullPointerException, message⟩ :=
    fetchJwks_null rfl hbody List.mem_cons_self nofun
  rw [herror] at hfetch
  cases hfetch

end Oidc
end TrustedCa
