import TrustedCa.Proxy.SocketVendor

/-!
# The IPv4 address that `accept4` reports

An application that gives `accept4` no room for an IPv6 address gets the peer's address as IPv4.
The code looks at the 16 bytes as four words in host order. `uint32_inj` turns each of its
comparisons into one of bytes (`v4Addr_eq`), and `convertedAddr` is what the conversion is for.

The two differ at two addresses. The word of `::1` is `0x01000000` in a little-endian host, so the
comparison with 1 does not find it; it finds `::1.0.0.0` instead, whose bytes are those of 1.
-/

namespace TrustedCa
namespace Proxy
namespace SocketVendor

/-- An IPv4-compatible address, `::a.b.c.d`. -/
def IsCompatible (addr : Bytes 16) : Prop := addr.val.take 12 = List.replicate 12 0

/-- An IPv4-mapped address, `::ffff:a.b.c.d`. -/
def IsMapped (addr : Bytes 16) : Prop := addr.val.take 12 = List.replicate 10 0 ++ [0xff, 0xff]

instance : DecidablePred IsCompatible := fun _ => inferInstanceAs (Decidable (_ = _))

instance : DecidablePred IsMapped := fun _ => inferInstanceAs (Decidable (_ = _))

/-- The IPv4-compatible address with the last four bytes `bs`. -/
def compatible (bs : Bytes 4) : Bytes 16 :=
  ⟨List.replicate 12 0 ++ bs.val, by simp [bs.property]⟩

/-- The IPv4-mapped address of `bs`. -/
def mapped (bs : Bytes 4) : Bytes 16 :=
  ⟨List.replicate 10 0 ++ ([0xff, 0xff] ++ bs.val), by simp [bs.property]⟩

/-- The IPv6 loopback address, `::1`. -/
def loopback : Bytes 16 := compatible ⟨[0, 0, 0, 1], rfl⟩

/-- The address `::1.0.0.0`. -/
def compatibleOne : Bytes 16 := compatible ⟨[1, 0, 0, 0], rfl⟩

/-- The IPv4 address of a peer: the one that is embedded in its IPv6 address, or `0.0.0.0`. -/
def convertedAddr (addr : Bytes 16) : Bytes 4 :=
  if IsMapped addr ∨ IsCompatible addr ∧ addr ≠ loopback then arrayOf 4 (addr.val.drop 12)
  else arrayOf 4 []

/-- A word is determined by its value in host order. -/
theorem uint32_inj (bs cs : List Byte) (hb : bs.length = 4) (hc : cs.length = 4) :
    uint32 bs = uint32 cs ↔ bs = cs := by
  obtain ⟨b₀, b₁, b₂, b₃, rfl⟩ := List.length_eq_four.mp hb
  obtain ⟨c₀, c₁, c₂, c₃, rfl⟩ := List.length_eq_four.mp hc
  have hlt : ∀ b : Byte, b.toNat < 256 := UInt8.toNat_lt
  simp only [uint32, List.getD_cons_zero, List.getD_cons_succ, List.cons.injEq, and_true,
    ← UInt8.toNat_inj]
  have := hlt b₀; have := hlt b₁; have := hlt b₂
  have := hlt c₀; have := hlt c₁; have := hlt c₂
  omega

theorem ntohl_eq_iff {bs : List Byte} (hb : bs.length = 4) :
    ntohl bs = 0xFFFF ↔ bs = [0, 0, 0xff, 0xff] := by
  have htake : bs.take 4 = bs := List.take_of_length_le (Nat.le_of_eq hb)
  rw [ntohl, htake, show (0xFFFF : Nat) = uint32 [0xff, 0xff, 0, 0] from rfl,
    uint32_inj _ _ (by rw [List.length_reverse, hb]) rfl, List.reverse_eq_iff]
  rfl

section Words

variable {addr : Bytes 16}

theorem word_length (addr : Bytes 16) {i : Nat} (hi : i < 4) :
    ((addr.val.drop (4 * i)).take 4).length = 4 := by
  rw [List.length_take, List.length_drop, addr.property]
  omega

/-- The first twelve bytes are the first three words. -/
theorem take_words (w₀ w₁ w₂ : List Byte) (h₀ : w₀.length = 4) (h₁ : w₁.length = 4) :
    addr.val.take 12 = w₀ ++ (w₁ ++ w₂) ↔ (addr.val.drop (4 * 0)).take 4 = w₀ ∧
      (addr.val.drop (4 * 1)).take 4 = w₁ ∧ (addr.val.drop (4 * 2)).take 4 = w₂ := by
  have hsplit : ∀ l : List Byte, l.take 12 =
      (l.drop (4 * 0)).take 4 ++ ((l.drop (4 * 1)).take 4 ++ (l.drop (4 * 2)).take 4) := by
    intro l
    rw [show 12 = 4 + (4 + 4) from rfl, List.take_add, List.take_add, List.drop_drop]
    rfl
  rw [hsplit]
  constructor
  · intro h
    obtain ⟨h0, h⟩ := List.append_inj h (by rw [word_length addr (by decide), h₀])
    obtain ⟨h1, h2⟩ := List.append_inj h (by rw [word_length addr (by decide), h₁])
    exact ⟨h0, h1, h2⟩
  · rintro ⟨h0, h1, h2⟩
    rw [h0, h1, h2]

theorem isCompatible_iff : IsCompatible addr ↔ (addr.val.drop (4 * 0)).take 4 = [0, 0, 0, 0] ∧
    (addr.val.drop (4 * 1)).take 4 = [0, 0, 0, 0] ∧
    (addr.val.drop (4 * 2)).take 4 = [0, 0, 0, 0] :=
  take_words [0, 0, 0, 0] [0, 0, 0, 0] [0, 0, 0, 0] rfl rfl

theorem isMapped_iff : IsMapped addr ↔ (addr.val.drop (4 * 0)).take 4 = [0, 0, 0, 0] ∧
    (addr.val.drop (4 * 1)).take 4 = [0, 0, 0, 0] ∧
    (addr.val.drop (4 * 2)).take 4 = [0, 0, 0xff, 0xff] :=
  take_words [0, 0, 0, 0] [0, 0, 0, 0] [0, 0, 0xff, 0xff] rfl rfl

end Words

/-- The comparisons of `accept4`, as comparisons of bytes. -/
theorem v4Addr_eq (addr : Bytes 16) :
    v4Addr addr =
      if IsMapped addr ∨ IsCompatible addr ∧ addr.val.drop 12 ≠ [1, 0, 0, 0] then
        arrayOf 4 (addr.val.drop 12)
      else arrayOf 4 [] := by
  have hlast : (addr.val.drop (4 * 3)).take 4 = addr.val.drop 12 :=
    List.take_of_length_le (by rw [List.length_drop, addr.property])
  have hzero : ∀ i, i < 4 → (uint32 ((addr.val.drop (4 * i)).take 4) = 0 ↔
      (addr.val.drop (4 * i)).take 4 = [0, 0, 0, 0]) :=
    fun i hi => uint32_inj _ [0, 0, 0, 0] (word_length addr hi) rfl
  have hone : uint32 (addr.val.drop 12) = 1 ↔ addr.val.drop 12 = [1, 0, 0, 0] :=
    uint32_inj _ [1, 0, 0, 0] (hlast ▸ word_length addr (by decide)) rfl
  simp only [v4Addr, hlast, hzero 0 (by decide), hzero 1 (by decide), hzero 2 (by decide), ne_eq,
    hone, ntohl_eq_iff (word_length addr (by decide : 2 < 4)), isCompatible_iff, isMapped_iff]
  split
  · rw [if_pos (by tauto)]
  · split
    · rw [if_pos (by tauto)]
    · rw [if_neg (by tauto)]

theorem isCompatible_compatible (bs : Bytes 4) : IsCompatible (compatible bs) :=
  List.take_left' rfl

theorem drop_compatible (bs : Bytes 4) : (compatible bs).val.drop 12 = bs.val :=
  List.drop_left' rfl

/-- An IPv4-compatible address is determined by its last four bytes. -/
theorem eq_compatible_iff {addr : Bytes 16} {bs : Bytes 4} :
    addr = compatible bs ↔ IsCompatible addr ∧ addr.val.drop 12 = bs.val := by
  constructor
  · rintro rfl
    exact ⟨isCompatible_compatible bs, drop_compatible bs⟩
  · rintro ⟨hc, hd⟩
    refine Subtype.ext ?_
    rw [← List.take_append_drop 12 addr.val, hc, hd]
    rfl

/-- The conversion is right at all addresses but two. -/
theorem v4Addr_iff (addr : Bytes 16) :
    v4Addr addr = convertedAddr addr ↔ addr ≠ loopback ∧ addr ≠ compatibleOne := by
  rw [v4Addr_eq, convertedAddr]
  by_cases hl : addr = loopback
  · subst hl
    decide
  by_cases ho : addr = compatibleOne
  · subst ho
    decide
  have hone : IsCompatible addr → addr.val.drop 12 ≠ [1, 0, 0, 0] :=
    fun hc hd => ho (eq_compatible_iff.mpr ⟨hc, hd⟩)
  have hcond : (IsMapped addr ∨ IsCompatible addr ∧ addr.val.drop 12 ≠ [1, 0, 0, 0]) ↔
      (IsMapped addr ∨ IsCompatible addr ∧ addr ≠ loopback) := by
    tauto
  simp only [hcond, hl, ho, ne_eq, not_false_eq_true, and_self]

/-- A message of the vendor, accepted with room for an IPv4 address only: `accept4` reports the
IPv4 address of the peer and its port, except for the peers `::1` and `::1.0.0.0`. -/
theorem accept4_inet_iff {env : AcceptEnv} {r : NewConnectionResponse} {padding : Bytes 2}
    {fd : Int} (hd : Delivers env (r.toBytes padding) fd) {len : Nat}
    (hlen : sizeofSockaddrIn ≤ len) (hlt : len < sizeofSockaddrIn6) (flags : UInt32) :
    accept4 env (some len) flags = .ok fd (acceptedFlags (env.getfl fd) flags)
        (some (.inet (convertedAddr r.addr) r.port, sizeofSockaddrIn)) ↔
      r.addr ≠ loopback ∧ r.addr ≠ compatibleOne := by
  have haddr : acceptedAddr (r.toBytes padding) len =
      (.inet (v4Addr r.addr) r.port, sizeofSockaddrIn) := by
    rw [acceptedAddr, if_neg (Nat.not_le.mpr hlt), if_pos hlen, addrOf_toBytes, portOf_toBytes]
  have hfd : ¬ fd < 0 := Int.not_lt.mpr hd.fd
  rw [← v4Addr_iff]
  simp [accept4, hd.domain, hd.getpeername, hd.recvmsg, hfd, haddr]

/-- A host that hands over descriptor 7 for a connection from port 80 of `addr`. -/
def deliver (addr : Bytes 16) : AcceptEnv where
  domain := some AF_UNIX
  getpeername := true
  recvmsg := some (NewConnectionResponse.toBytes { addr := addr, port := htons 80 } (arrayOf 2 []),
    some ⟨SOL_SOCKET, SCM_RIGHTS, 7⟩)
  getfl _ := 2

theorem deliver_delivers (addr : Bytes 16) : Delivers (deliver addr)
    (NewConnectionResponse.toBytes { addr := addr, port := htons 80 } (arrayOf 2 [])) 7 :=
  ⟨rfl, rfl, rfl, by decide⟩

/-- A connection from `::1` is reported as one from `0.0.0.1`. -/
theorem accept4_loopback :
    accept4 (deliver loopback) (some 16) 0 =
        .ok 7 (acceptedFlags 2 0) (some (.inet (arrayOf 4 [0, 0, 0, 1]) (htons 80), 16)) ∧
      convertedAddr loopback = arrayOf 4 [0, 0, 0, 0] ∧
      accept4 (deliver loopback) (some 16) 0 ≠
        .ok 7 (acceptedFlags 2 0) (some (.inet (convertedAddr loopback) (htons 80), 16)) := by
  decide

/-- A connection from `::ffff:10.0.0.1`. -/
theorem accept4_inet_iff_mapped :
    accept4 (deliver (mapped (arrayOf 4 [10, 0, 0, 1]))) (some 16) 0 =
      .ok 7 (acceptedFlags 2 0) (some (.inet (arrayOf 4 [10, 0, 0, 1]) (htons 80), 16)) := by
  have hlen : sizeofSockaddrIn ≤ 16 := by decide
  have h := (accept4_inet_iff (deliver_delivers (mapped (arrayOf 4 [10, 0, 0, 1]))) hlen
    (by decide) 0).mpr (by decide)
  exact h.trans (by decide)

end SocketVendor
end Proxy
end TrustedCa
