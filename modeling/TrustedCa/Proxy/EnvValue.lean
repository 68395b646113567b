import TrustedCa.Proxy.Protocol
import Mathlib.Data.List.TakeWhile

/-!
# The address of the parent instance from the environment (`proxy/src/protocol.cc`)

`EnvGetVal` overrides a default with the value of an environment variable. It parses the value with
`strtoul`, keeps the low 32 bits of the result, and looks at `errno`; it does not look at where the
parse ended.

* `strtoul` is that of ISO C with base 10, in the C locale and with a 64-bit `unsigned long`: white
  space, a sign, digits. Without digits it returns 0 and leaves `errno` alone; above `ULONG_MAX` it
  returns `ULONG_MAX` and sets `ERANGE`; a minus sign negates the result as an `unsigned long`.
* `overridden` is what the header promises: `val` is overwritten if everything succeeds, and
  otherwise untouched.
-/

namespace TrustedCa
namespace Proxy
namespace EnvValue

/-- `isspace` in the C locale. -/
def isSpace (c : Byte) : Bool := c == 0x20 || (0x09 ≤ c && c ≤ 0x0d)

def isDigit (c : Byte) : Bool := 0x30 ≤ c && c ≤ 0x39

/-- The number that a list of decimal digits is. -/
def ofDigits (digits : List Byte) : Nat := digits.foldl (fun n c => 10 * n + (c.toNat - 0x30)) 0

def ULONG_MAX : Nat := 2 ^ 64 - 1

def UINT_MAX : Nat := 2 ^ 32 - 1

/-- The sign of the number that `strtoul` finds, and the text from its first digit on. -/
def afterSign (str : List Byte) : Bool × List Byte :=
  match str.dropWhile isSpace with
  | 0x2d :: rest => (true, rest)
  | 0x2b :: rest => (false, rest)
  | rest => (false, rest)

inductive Errno where
  | zero | erange
  deriving DecidableEq

/-- The return value of `strtoul`, the text at `*endptr`, and `errno` when it was 0 before. -/
structure Strtoul where
  value : Nat
  endptr : List Byte
  errno : Errno
  deriving DecidableEq

/-- `strtoul(str, &endptr, 10)`. -/
def strtoul (str : List Byte) : Strtoul :=
  let (negative, text) := afterSign str
  let digits := text.takeWhile isDigit
  let endptr := text.dropWhile isDigit
  if digits = [] then ⟨0, str, .zero⟩
  else if ULONG_MAX < ofDigits digits then ⟨ULONG_MAX, endptr, .erange⟩
  else if negative then ⟨(2 ^ 64 - ofDigits digits) % 2 ^ 64, endptr, .zero⟩
  else ⟨ofDigits digits, endptr, .zero⟩

/-- `getenv`. -/
abbrev Environment := String → Option (List Byte)

/-- `EnvGetVal`: the value of `val` after it. -/
def envGetVal (getenv : Environment) (envName : Option String) (val : UInt32) : UInt32 :=
  match envName with
  | none => val
  | some name =>
    match getenv name with
    | none => val
    | some str =>
      let parsed := strtoul str
      -- `unsigned int v` takes the low 32 bits of the `unsigned long`.
      let v := UInt32.ofNat parsed.value
      if parsed.errno = .zero ∧ v.toNat < UINT_MAX then v else val

/-- The members of `sockaddr_vm` that are not constant. -/
structure SockaddrVm where
  port : UInt32
  cid : UInt32
  deriving DecidableEq

def kParentCidEnv : String := "PROXY_PARENT_CID"

def kParentPortEnv : String := "PROXY_PARENT_PORT"

def kDefaultParentCid : UInt32 := 3

def kDefaultParentPort : UInt32 := 8888

/-- `GetProxyVsockAddr`. -/
def getProxyVsockAddr (getenv : Environment) : SockaddrVm :=
  let cid := envGetVal getenv (some kParentCidEnv) kDefaultParentCid
  let port := envGetVal getenv (some kParentPortEnv) kDefaultParentPort
  ⟨port, cid⟩

/-! ## What the override should be -/

/-- A non-empty decimal numeral. -/
def Numeral (str : List Byte) : Prop := str ≠ [] ∧ ∀ c ∈ str, isDigit c = true

instance : DecidablePred Numeral := fun str =>
  @instDecidableAnd (str ≠ []) (∀ c ∈ str, isDigit c = true) inferInstance
    (List.decidableBAll (fun c => isDigit c = true) str)

/-- `val` is overwritten by a numeral below `UINT_MAX`, and by nothing else. -/
def overridden (str : List Byte) (val : UInt32) : UInt32 :=
  if Numeral str ∧ ofDigits str < UINT_MAX then UInt32.ofNat (ofDigits str) else val

/-- The number behind the sign, without it. -/
def magnitude (str : List Byte) : Nat := ofDigits ((afterSign str).2.takeWhile isDigit)

/-- The values that `EnvGetVal` treats as it should: the numerals below `UINT_MAX`, the texts whose
number does not fit into an `unsigned long`, and those whose number, with its sign, is `UINT_MAX`
modulo `2 ^ 32`. -/
def Sound (str : List Byte) : Prop :=
  (Numeral str ∧ ofDigits str < UINT_MAX) ∨ ULONG_MAX < magnitude str ∨
    magnitude str % 2 ^ 32 = if (afterSign str).1 then 1 else UINT_MAX

instance : DecidablePred Sound := fun _ => inferInstanceAs (Decidable (_ ∨ _))

theorem isDigit_range {c : Byte} (hc : isDigit c = true) : 0x30 ≤ c.toNat ∧ c.toNat ≤ 0x39 := by
  simpa [isDigit, UInt8.le_iff_toNat_le] using hc

theorem isSpace_of_isDigit {c : Byte} (hc : isDigit c = true) : isSpace c = false := by
  have hr := isDigit_range hc
  have hne : c ≠ 0x20 := by
    rintro rfl
    exact absurd hr.1 (by decide)
  have hle : ¬ c ≤ 0x0d := by
    rw [UInt8.le_iff_toNat_le, Nat.not_le]
    exact Nat.lt_of_lt_of_le (by decide) hr.1
  simp [isSpace, hne, hle]

/-- Neither white space nor a sign stands before a numeral, and nothing behind it. -/
theorem afterSign_numeral {str : List Byte} (hs : Numeral str) : afterSign str = (false, str) := by
  obtain ⟨c, rest, rfl⟩ := List.exists_cons_of_ne_nil hs.1
  have hc := hs.2 c (by simp)
  have hr := isDigit_range hc
  have hdrop : (c :: rest).dropWhile isSpace = c :: rest := by
    rw [List.dropWhile_cons, isSpace_of_isDigit hc]
    rfl
  rw [afterSign, hdrop]
  split
  · rename_i heq
    obtain ⟨rfl, -⟩ := List.cons.inj heq
    exact absurd hr.1 (by decide)
  · rename_i heq
    obtain ⟨rfl, -⟩ := List.cons.inj heq
    exact absurd hr.1 (by decide)
  · rfl

theorem takeWhile_numeral {str : List Byte} (hs : Numeral str) : str.takeWhile isDigit = str :=
  List.takeWhile_eq_self_iff.mpr hs.2

/-- The low 32 bits of a negated `unsigned long`. -/
theorem negated_eq_uintMax {n : Nat} (hn : n ≤ ULONG_MAX) :
    (2 ^ 64 - n) % 2 ^ 64 % 2 ^ 32 < UINT_MAX ↔ n % 2 ^ 32 ≠ 1 := by
  simp only [ULONG_MAX, UINT_MAX] at hn ⊢
  omega

/-- When `EnvGetVal` overwrites `val`. -/
theorem overwrites_iff (str : List Byte) :
    (strtoul str).errno = .zero ∧ (UInt32.ofNat (strtoul str).value).toNat < UINT_MAX ↔
      ¬ (ULONG_MAX < magnitude str ∨
        magnitude str % 2 ^ 32 = if (afterSign str).1 then 1 else UINT_MAX) := by
  rw [UInt32.toNat_ofNat', not_or]
  unfold strtoul magnitude
  obtain ⟨negative, text⟩ := afterSign str
  by_cases hd : text.takeWhile isDigit = []
  · cases negative <;> simp [hd, ofDigits, UINT_MAX]
  · by_cases hlarge : ULONG_MAX < ofDigits (text.takeWhile isDigit)
    · simp [hd, hlarge]
    · simp only [hd, hlarge, if_false, not_false_eq_true, true_and]
      cases negative with
      | true =>
        simp only [if_true, true_and]
        exact negated_eq_uintMax (Nat.le_of_not_lt hlarge)
      | false =>
        simp only [Bool.false_eq_true, if_false, true_and, UINT_MAX]
        omega

/-- A numeral below `UINT_MAX` is parsed as it is written. -/
theorem strtoul_numeral {str : List Byte} (hs : Numeral str) (hlt : ofDigits str < UINT_MAX) :
    strtoul str = ⟨ofDigits str, [], .zero⟩ := by
  have hle : ¬ ULONG_MAX < ofDigits str := by
    simp only [UINT_MAX, ULONG_MAX] at *
    omega
  have hend : str.dropWhile isDigit = [] := List.dropWhile_eq_nil_iff.mpr hs.2
  simp [strtoul, afterSign_numeral hs, takeWhile_numeral hs, hs.1, hle, hend]

section EnvGetVal

variable {getenv : Environment} {name : String} {str : List Byte}

theorem envGetVal_eq (hget : getenv name = some str) (val : UInt32) :
    envGetVal getenv (some name) val =
      if (strtoul str).errno = .zero ∧ (UInt32.ofNat (strtoul str).value).toNat < UINT_MAX then
        UInt32.ofNat (strtoul str).value
      else val := by
  simp only [envGetVal, hget]

theorem envGetVal_numeral (hget : getenv name = some str)
    (hs : Numeral str ∧ ofDigits str < UINT_MAX) (val : UInt32) :
    envGetVal getenv (some name) val = overridden str val := by
  have hv : (UInt32.ofNat (ofDigits str)).toNat < UINT_MAX := by
    rw [UInt32.toNat_ofNat']
    exact Nat.lt_of_le_of_lt (Nat.mod_le ..) hs.2
  rw [envGetVal_eq hget, strtoul_numeral hs.1 hs.2, overridden, if_pos hs, if_pos ⟨rfl, hv⟩]

/-- A value that is no numeral below `UINT_MAX`: `val` is untouched for every `val` exactly when
the code does not assign to it. -/
theorem envGetVal_other (hget : getenv name = some str)
    (hs : ¬ (Numeral str ∧ ofDigits str < UINT_MAX)) :
    (∀ val, envGetVal getenv (some name) val = overridden str val) ↔
      ¬ ((strtoul str).errno = .zero ∧ (UInt32.ofNat (strtoul str).value).toNat < UINT_MAX) := by
  constructor
  · intro h hw
    -- A `val` that differs from what is assigned shows the assignment.
    have hval := h (UInt32.ofNat (strtoul str).value + 1)
    rw [envGetVal_eq hget, if_pos hw, overridden, if_neg hs] at hval
    generalize UInt32.ofNat (strtoul str).value = v at hval
    have hnat := congrArg UInt32.toNat hval
    have hlt := v.toNat_lt
    rw [UInt32.toNat_add] at hnat
    simp only [UInt32.reduceToNat] at hnat
    omega
  · intro hw val
    rw [envGetVal_eq hget, if_neg hw, overridden, if_neg hs]

end EnvGetVal

theorem envGetVal_iff {getenv : Environment} {name : String} {str : List Byte}
    (hget : getenv name = some str) :
    (∀ val, envGetVal getenv (some name) val = overridden str val) ↔ Sound str := by
  by_cases hs : Numeral str ∧ ofDigits str < UINT_MAX
  · exact ⟨fun _ => .inl hs, fun _ val => envGetVal_numeral hget hs val⟩
  · rw [envGetVal_other hget hs, overwrites_iff, not_not, Sound]
    simp only [hs, false_or]

/-- The override of a variable that may not be set. -/
def overriddenBy (value : Option (List Byte)) (val : UInt32) : UInt32 :=
  match value with
  | none => val
  | some str => overridden str val

theorem envGetVal_sound {getenv : Environment} {name : String}
    (hs : ∀ str ∈ getenv name, Sound str) (val : UInt32) :
    envGetVal getenv (some name) val = overriddenBy (getenv name) val := by
  cases hget : getenv name with
  | none => simp [envGetVal, hget, overriddenBy]
  | some str => exact (envGetVal_iff hget).mpr (hs str hget) val

/-- `EnvGetVal` overwrites `val` as it should exactly at the `Sound` values of the variable. When
both variables are `Sound` or not set, the address of the parent is the one that they name, with
the default for each that does not name one. -/
theorem parentAddress_override (getenv : Environment) :
    (∀ (name : String) (str : List Byte), getenv name = some str →
      ((∀ val, envGetVal getenv (some name) val = overridden str val) ↔ Sound str)) ∧
    ((∀ str ∈ getenv kParentCidEnv, Sound str) → (∀ str ∈ getenv kParentPortEnv, Sound str) →
      getProxyVsockAddr getenv =
        ⟨overriddenBy (getenv kParentPortEnv) kDefaultParentPort,
          overriddenBy (getenv kParentCidEnv) kDefaultParentCid⟩) := by
  refine ⟨fun name str hget => envGetVal_iff hget, ?_⟩
  intro hcid hport
  rw [getProxyVsockAddr, envGetVal_sound hcid, envGetVal_sound hport]

/-- The text `4294967304`, that is `2 ^ 32 + 8`. -/
def wrapping : List Byte := [0x34, 0x32, 0x39, 0x34, 0x39, 0x36, 0x37, 0x33, 0x30, 0x34]

/-- The port `2 ^ 32 + 8` sends the traffic to port 8. -/
theorem parentAddress_wraps :
    getProxyVsockAddr (fun name => if name = kParentPortEnv then some wrapping else none) = ⟨8, 3⟩ ∧
    overridden wrapping kDefaultParentPort = kDefaultParentPort ∧
    ¬ ∀ (getenv : Environment) (name : String) (str : List Byte), getenv name = some str →
      ∀ val, envGetVal getenv (some name) val = overridden str val := by
  refine ⟨by decide, by decide, ?_⟩
  intro h
  exact absurd (h (fun _ => some wrapping) kParentPortEnv wrapping rfl kDefaultParentPort)
    (by decide)

/-- A CID in the environment and the default port. -/
theorem parentAddress_override_cid :
    getProxyVsockAddr (fun name => if name = kParentCidEnv then some [0x31, 0x36] else none) =
      ⟨8888, 16⟩ ∧
    ∀ val, envGetVal (fun _ => some [0x31, 0x36]) (some kParentCidEnv) val = 16 := by
  have hs : Sound [0x31, 0x36] := by decide
  constructor
  · rw [(parentAddress_override _).2 ?_ ?_]
    · decide
    · intro str hstr
      obtain rfl : [0x31, 0x36] = str := by simpa using hstr
      exact hs
    · intro str hstr
      simp [kParentPortEnv, kParentCidEnv] at hstr
  · exact ((parentAddress_override fun _ => some [0x31, 0x36]).1 kParentCidEnv _ rfl).mpr hs

end EnvValue
end Proxy
end TrustedCa
