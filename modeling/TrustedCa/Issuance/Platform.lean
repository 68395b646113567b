import TrustedCa.Spec.Except
import TrustedCa.Spec.JString
import Mathlib.Algebra.Order.Ring.Int

/-!
# Exceptions and time, as the certificate authority sees them

* Exceptions: their class and message. `Thrown.isA` is `instanceof` for the classes that some `catch`
  tells apart.
* Time: an `Instant` is a number of nanoseconds within Java's range, so `plus` may throw. Where it
  does not, it is the sum (`Instant.plus_ok`).
-/

namespace TrustedCa
namespace Issuance

open Spec

abbrev Bytes := List UInt8

/-! ## Exceptions -/

/-- The classes of exceptions that the code throws or catches, and the classes between them. -/
inductive ExnClass where
  | throwable | error | exception | interruptedException
  | ioException | parseException | certIOException
  | generalSecurityException | certificateException | invalidKeySpecException
  | noSuchAlgorithmException | operatorCreationException
  | runtimeException | fileLoadException | invalidPolicyException
  | unsupportedOperationException | illegalStateException | dateTimeException | arithmeticException
  | nullPointerException | jwtException
  | illegalArgumentException | incorrectEndorsementFormatException | audienceValidationException
  | numberFormatException | dateTimeParseException
  deriving DecidableEq

namespace ExnClass

/-- The superclass. `TextFormat.ParseException` and `CertIOException` are `IOException`s. -/
def parent : ExnClass → ExnClass
  | throwable | error | exception => throwable
  | ioException | generalSecurityException | operatorCreationException | runtimeException
  | interruptedException => exception
  | parseException | certIOException => ioException
  | certificateException | invalidKeySpecException | noSuchAlgorithmException =>
    generalSecurityException
  | fileLoadException | invalidPolicyException | unsupportedOperationException
  | illegalStateException | dateTimeException | arithmeticException | nullPointerException
  | jwtException | illegalArgumentException => runtimeException
  | incorrectEndorsementFormatException | audienceValidationException | numberFormatException =>
    illegalArgumentException
  | dateTimeParseException => dateTimeException

/-- `c` is `d` or a subclass of it. No chain of superclasses is longer than four. -/
def isA (c d : ExnClass) : Bool :=
  c == d || c.parent == d || c.parent.parent == d || c.parent.parent.parent == d ||
    c.parent.parent.parent.parent == d

/-- Four steps up lead to the root of the hierarchy. -/
theorem parent_four (c : ExnClass) : c.parent.parent.parent.parent = throwable := by
  cases c <;> rfl

end ExnClass

/-- A thrown exception. Classes that no `catch` mentions are the next class above them. -/
structure Thrown where
  cls : ExnClass
  message : JString
  deriving DecidableEq

def Thrown.isA (e : Thrown) (c : ExnClass) : Bool := e.cls.isA c

def IllegalArgumentException (message : JString) : Thrown := ⟨.illegalArgumentException, message⟩

/-! ## Time -/

def nanosPerSecond : Int := 1000000000

/-- `Instant.MIN.getEpochSecond()` and `Instant.MAX.getEpochSecond()`. -/
def minSecond : Int := -31557014167219200
def maxSecond : Int := 31556889864403199

def longMin : Int := -9223372036854775808
def longMax : Int := 9223372036854775807

/-- `Math.addExact` and the checks like it. -/
def exact (n : Int) : Except Thrown Int :=
  if longMin ≤ n ∧ n ≤ longMax then .ok n else .error ⟨.arithmeticException, .lit "long overflow"⟩

/-- `java.time.Instant`: nanoseconds since the epoch. -/
structure Instant where
  nanos : Int
  seconds_ge : minSecond ≤ nanos / nanosPerSecond
  seconds_le : nanos / nanosPerSecond ≤ maxSecond
  deriving DecidableEq

/-- `java.time.Duration`: nanoseconds. -/
structure Duration where
  nanos : Int
  deriving DecidableEq

def Duration.getSeconds (d : Duration) : Int := d.nanos / nanosPerSecond

def Duration.getNano (d : Duration) : Int := d.nanos % nanosPerSecond

/-- `Duration.ofSeconds(seconds, nanoAdjustment)`. -/
def Duration.ofSeconds (seconds nanoAdjustment : Int) : Except Thrown Duration := do
  let _ ← exact (seconds + nanoAdjustment / nanosPerSecond)
  return ⟨seconds * nanosPerSecond + nanoAdjustment⟩

namespace Instant

instance : LinearOrder Instant :=
  LinearOrder.lift' nanos fun a b h => by cases a; cases b; simp_all

/-- `Instant.create`: the instant, if it is one. -/
def ofNanos (n : Int) : Except Thrown Instant :=
  if h : minSecond ≤ n / nanosPerSecond ∧ n / nanosPerSecond ≤ maxSecond then
    .ok ⟨n, h.1, h.2⟩
  else
    .error ⟨.dateTimeException, .lit "Instant exceeds minimum or maximum instant"⟩

/-- `Instant.plusSeconds`. The sum of seconds is checked first. -/
def plusSeconds (t : Instant) (seconds : Int) : Except Thrown Instant := do
  let _ ← exact (t.nanos / nanosPerSecond + seconds)
  ofNanos (t.nanos + seconds * nanosPerSecond)

/-- `Instant.plus(Duration)`: the seconds, then the nanoseconds. -/
def plus (t : Instant) (d : Duration) : Except Thrown Instant := do
  let t ← t.plusSeconds d.getSeconds
  ofNanos (t.nanos + d.getNano)

/-- `Instant.toEpochMilli`. -/
def toEpochMilli (t : Instant) : Except Thrown Int := exact (t.nanos / 1000000)

theorem ofNanos_ok {n : Int} {t : Instant} (h : ofNanos n = .ok t) : t.nanos = n := by
  unfold ofNanos at h
  split at h
  · cases h; rfl
  · cases h

theorem plusSeconds_ok {t t' : Instant} {seconds : Int} (h : t.plusSeconds seconds = .ok t') :
    t'.nanos = t.nanos + seconds * nanosPerSecond := by
  obtain ⟨_, -, h⟩ := bind_eq_ok.mp h
  exact ofNanos_ok h

/-- Where `plus` does not throw, it is the sum. -/
theorem plus_ok {t t' : Instant} {d : Duration} (h : t.plus d = .ok t') :
    t'.nanos = t.nanos + d.nanos := by
  have hd : d.getSeconds * nanosPerSecond + d.getNano = d.nanos := by
    simp only [Duration.getSeconds, Duration.getNano, nanosPerSecond]
    omega
  obtain ⟨t₁, hs, hn⟩ := bind_eq_ok.mp h
  rw [ofNanos_ok hn, plusSeconds_ok hs]
  omega

end Instant

end Issuance
end TrustedCa
