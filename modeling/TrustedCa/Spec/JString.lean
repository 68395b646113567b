import Mathlib.Data.List.Basic

/-!
# Java strings

A string is the list of its UTF-16 code units (`JString`). The methods below compare code units with
fixed characters only, so they agree with the ones that read code points.
-/

namespace TrustedCa
namespace Spec

/-- The UTF-16 code units of a string. -/
abbrev JString := List UInt16

namespace JString

/-- A literal of characters below U+10000. -/
def lit (s : String) : JString := s.toList.map fun c => UInt16.ofNat c.toNat

/-- The code unit of a character below U+10000. -/
def char (c : Char) : UInt16 := UInt16.ofNat c.toNat

/-- `Character.isWhitespace`: no character above U+FFFF is whitespace. -/
def isWhitespace (c : UInt16) : Bool :=
  (0x09 ≤ c && c ≤ 0x0d) || (0x1c ≤ c && c ≤ 0x20) || c == 0x1680 ||
    (0x2000 ≤ c && c ≤ 0x200a && c != 0x2007) || c == 0x2028 || c == 0x2029 || c == 0x205f ||
    c == 0x3000

def isBlank (s : JString) : Bool := s.all isWhitespace

/-- The two parts around the first `c`: `s.substring(0, i)` and `s.substring(i + 1)` with
`i = s.indexOf(c)`, or `none` where `i` is -1. -/
def splitAtFirst (c : UInt16) : JString → Option (JString × JString)
  | [] => none
  | x :: s =>
    if x = c then some ([], s) else (splitAtFirst c s).map fun (a, b) => (x :: a, b)

/-- The parts make up the string, and the first one has no `c`. -/
theorem splitAtFirst_eq_some {c : UInt16} {s a b : JString} (h : splitAtFirst c s = some (a, b)) :
    s = a ++ c :: b ∧ c ∉ a := by
  induction s generalizing a with
  | nil => cases h
  | cons x s ih =>
    unfold splitAtFirst at h
    split at h
    · next hx =>
      cases h
      exact ⟨by rw [hx]; rfl, List.not_mem_nil⟩
    · next hx =>
      obtain ⟨⟨a', b'⟩, hsplit, heq⟩ := Option.map_eq_some_iff.mp h
      cases heq
      obtain ⟨rfl, hmem⟩ := ih hsplit
      refine ⟨rfl, ?_⟩
      rintro (_ | ⟨_, hc⟩)
      · exact hx rfl
      · exact hmem hc

/-- The lower case hexadecimal digit of a number below 16. -/
def hexDigit (n : Nat) : UInt16 :=
  if n < 10 then char '0' + UInt16.ofNat n else char 'a' + UInt16.ofNat (n - 10)

/-- `String.format("%04x", (int) c)`. -/
def hex4 (c : UInt16) : JString :=
  [hexDigit (c.toNat / 4096), hexDigit (c.toNat / 256 % 16), hexDigit (c.toNat / 16 % 16),
    hexDigit (c.toNat % 16)]

/-- `BaseEncoding.base16().lowerCase().encode`. -/
def base16 (bytes : List UInt8) : JString :=
  bytes.flatMap fun b => [hexDigit (b.toNat / 16), hexDigit (b.toNat % 16)]

/-- The decimal digits of a number, as `%d` prints it. -/
def decimal (n : Nat) : JString := (Nat.toDigits 10 n).map char

example : base16 [0x0a, 0xff] = lit "0aff" := by decide

example : hex4 (char '/') = lit "002f" := by decide

example : splitAtFirst (char '@') (lit "dev@example.com") = some (lit "dev", lit "example.com") := by
  decide

end JString

end Spec
end TrustedCa
