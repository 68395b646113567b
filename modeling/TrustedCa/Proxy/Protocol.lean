import Mathlib.Data.Vector.Basic

/-!
# Addresses on the wire (`proxy/src/protocol.cc`)

A `sockaddr` is its family with the address and port bytes as they are in memory, that is in
network byte order. `fillAddrPort` is the one encoder of ATYP, address and port: the preloaded
client uses it for its CONNECT request and the proxy for its replies.
-/

namespace TrustedCa
namespace Proxy

abbrev Byte := UInt8

/-- An array of `n` bytes (`in_addr`, `in6_addr`, a port field). -/
abbrev Bytes (n : Nat) := List.Vector Byte n

/-- `sockaddr`: the fields that the proxy and the client read. `other` is any family but `AF_INET`
and `AF_INET6`. -/
inductive Sockaddr where
  | inet (addr : Bytes 4) (port : Bytes 2)
  | inet6 (addr : Bytes 16) (port : Bytes 2)
  | other (family : Nat)
  deriving DecidableEq

/-- An IPv4 or IPv6 address. -/
def Sockaddr.IsIp : Sockaddr → Prop
  | .inet _ _ | .inet6 _ _ => True
  | .other _ => False

instance : DecidablePred Sockaddr.IsIp
  | .inet _ _ | .inet6 _ _ => .isTrue trivial
  | .other _ => .isFalse id

/-- A zeroed array of `n` bytes (`memset`) after a copy of `bs` to its front. -/
def arrayOf (n : Nat) (bs : List Byte) : Bytes n :=
  ⟨(bs ++ List.replicate n 0).take n, by simp⟩

theorem arrayOf_val {n : Nat} {bs : List Byte} (h : bs.length = n) : (arrayOf n bs).val = bs := by
  simp [arrayOf, ← h]

@[simp] theorem arrayOf_toList {n : Nat} (v : Bytes n) : arrayOf n v.val = v :=
  Subtype.ext (arrayOf_val v.property)

/-- `ntohs`: the two bytes of a port, most significant first. -/
def ntohs (p : Bytes 2) : UInt16 := p.head.toUInt16 * 256 + p.tail.head.toUInt16

/-- `htons`, as the two bytes in memory. -/
def htons (p : UInt16) : Bytes 2 := ⟨[(p / 256).toUInt8, p.toUInt8], rfl⟩

theorem ntohs_htons (p : UInt16) : ntohs (htons p) = p := by
  have h : ntohs (htons p) = (p / 256).toUInt8.toUInt16 * 256 + p.toUInt8.toUInt16 := rfl
  have hp := p.toNat_lt
  have h256 : (256 : UInt16).toNat = 256 := rfl
  rw [h, ← UInt16.toNat_inj]
  simp only [UInt16.toNat_add, UInt16.toNat_mul, UInt8.toNat_toUInt16, UInt16.toNat_toUInt8,
    UInt16.toNat_div, h256]
  omega

def kATYP_v4 : Byte := 0x01

def kATYP_v6 : Byte := 0x04

/-- `FillAddrPort`: the bytes copied into `msg`. Their number is the return value. -/
def fillAddrPort : Sockaddr → List Byte
  | .inet addr port => kATYP_v4 :: (addr.val ++ port.val)
  | .inet6 addr port => kATYP_v6 :: (addr.val ++ port.val)
  | .other _ => []

theorem fillAddrPort_length (a : Sockaddr) :
    (fillAddrPort a).length = match a with
      | .inet _ _ => 7
      | .inet6 _ _ => 19
      | .other _ => 0 := by
  cases a with
  | inet addr port => simp [fillAddrPort, addr.property, port.property]
  | inet6 addr port => simp [fillAddrPort, addr.property, port.property]
  | other f => rfl

end Proxy
end TrustedCa
