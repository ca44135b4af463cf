import Sponge.Wire.Codec
import Sponge.Wire.IPv4

/-!
# What `IPv4Datagram.parse` accepts

A well-formed datagram is framed (a version 4 header that fits, and the length
field is the length) and its header verifies. `IPv4Header.parse` checks all of
it, but the datagram drops what it returns: it rejects a string only by the
length its header leaves for the payload. A framed datagram is accepted whatever
its checksum, and one that is not framed is accepted when the lengths happen to
agree.
-/

namespace Sponge

open Lib NetParser

namespace IPv4Header

/-- The header length field, in words. -/
def headerWords (b : List UInt8) : Nat := field b 0 1 % 16

/-- The total length field. -/
def lenField (b : List UInt8) : Nat := field b 2 2

/-- The header whose big-endian fields are the first 20 bytes of `b`. -/
def ofBytes (b : List UInt8) : IPv4Header where
  ver := .ofNat (field b 0 1 / 16)
  hlen := .ofNat (headerWords b)
  tos := .ofNat (field b 1 1)
  len := .ofNat (lenField b)
  id := .ofNat (field b 4 2)
  df := (field b 6 2).testBit 14
  mf := (field b 6 2).testBit 13
  offset := .ofNat (field b 6 2 % 2 ^ 13)
  ttl := .ofNat (field b 8 1)
  proto := .ofNat (field b 9 1)
  cksum := .ofNat (field b 10 2)
  src := .ofNat (field b 12 4)
  dst := .ofNat (field b 16 4)

/-- A version 4 header of at least five words that fits, and the length field. -/
structure Framed (b : List UInt8) : Prop where
  version : field b 0 1 / 16 = 4
  words : 5 ≤ headerWords b
  fits : 4 * headerWords b ≤ b.length
  length : lenField b = b.length

theorem headerWords_lt (b : List UInt8) : headerWords b < 16 := Nat.mod_lt _ (by omega)

theorem lenField_lt (b : List UInt8) : lenField b < 65536 := field_lt b 2 2

theorem parseFields_eq {b : List UInt8} (h : LENGTH ≤ b.length) :
    parseFields { buffer := b } = (ofBytes b, { buffer := b.drop LENGTH }) := by
  have h20 : 20 ≤ b.length := h
  have h0 : ({ buffer := b } : NetParser) = { buffer := b.drop 0 } := rfl
  unfold parseFields
  rw [h0]
  simp (disch := omega) only [u8_drop, u16_drop, u32_drop]
  have hbyte := field_lt b 0 1
  have hword := field_lt b 6 2
  rw [high_nibble hbyte, low_nibble hbyte, show (0x4000 : UInt16) = .ofNat (2 ^ 14) from rfl,
    show (0x2000 : UInt16) = .ofNat (2 ^ 13) from rfl,
    show (0x1fff : UInt16) = .ofNat (2 ^ 13 - 1) from rfl, mask16 hword (by omega),
    mask16 hword (by omega), low16 hword (by omega)]
  rfl

/-- What is compared with the length of the header and the version. -/
theorem ofBytes_ver {b : List UInt8} : (ofBytes b).ver = 4 ↔ field b 0 1 / 16 = 4 := by
  have hbyte := field_lt b 0 1
  rw [← UInt8.toNat_inj]
  change (field b 0 1 / 16) % 2 ^ 8 = 4 ↔ _
  omega

theorem ofBytes_hlen (b : List UInt8) : (ofBytes b).hlen.toNat = headerWords b := by
  have hlt := headerWords_lt b
  exact Nat.mod_eq_of_lt (by omega)

theorem ofBytes_len (b : List UInt8) : (ofBytes b).len.toNat = lenField b :=
  Nat.mod_eq_of_lt (lenField_lt b)

/-- The payload length the header leaves, modulo the width of the length field. -/
theorem payloadLength_toNat (h : IPv4Header) :
    h.payloadLength.toNat = (h.len.toNat + 65536 - 4 * h.hlen.toNat) % 65536 := by
  have hlen := h.hlen.toNat_lt
  unfold payloadLength
  rw [UInt16.toNat_sub, UInt16.toNat_mul, UInt8.toNat_toUInt16]
  change (2 ^ 16 - 4 * h.hlen.toNat % 2 ^ 16 + h.len.toNat) % 2 ^ 16 = _
  omega

theorem parse_short {h : IPv4Header} {b : List UInt8} (hb : b.length < LENGTH) :
    h.parse { buffer := b } = (.packetTooShort, h, { buffer := b }) := if_pos hb

/-- A framed header is skipped with its options; only the checksum is left to check. -/
theorem parse_framed {h : IPv4Header} {b : List UInt8} (hb : LENGTH ≤ b.length)
    (hf : Framed b) :
    h.parse { buffer := b } =
      (if Verifies 0 (b.take (4 * headerWords b)) then .noError else .badChecksum, ofBytes b,
        { buffer := b.drop (4 * headerWords b) }) := by
  have hlt := headerWords_lt b
  have hfits := hf.fits
  have hwords := hf.words
  have hver : ¬ (ofBytes b).ver ≠ 4 := not_not.mpr (ofBytes_ver.mpr hf.version)
  have hshort : ¬ (ofBytes b).hlen < 5 := by
    rw [UInt8.lt_iff_toNat_lt, ofBytes_hlen]
    exact Nat.not_lt.mpr hwords
  have hlen : ¬ b.length ≠ (ofBytes b).len.toNat := by
    rw [ofBytes_len, hf.length]
    exact not_not.mpr rfl
  have hskip : ({ buffer := b.drop LENGTH } : NetParser).removePrefix
      (headerWords b * 4 - LENGTH) = { buffer := b.drop (4 * headerWords b) } := by
    have hto : LENGTH + (headerWords b * 4 - LENGTH) = 4 * headerWords b := by
      unfold LENGTH
      omega
    rw [removePrefix_drop (by omega), hto]
  have hsum : (0 : UInt32).toNat + wordSum (b.take (4 * headerWords b)) < 2 ^ 32 := by
    have hle := wordSum_le (b.take (4 * headerWords b))
    have htake : (b.take (4 * headerWords b)).length ≤ 4 * headerWords b := List.length_take_le _ _
    change 0 + _ < _
    omega
  unfold parse
  simp only [parseFields_eq hb, ofBytes_hlen, hskip]
  rw [if_neg (Nat.not_lt.mpr hb), if_neg (Nat.not_lt.mpr hfits), if_neg hver, if_neg hshort,
    if_neg hlen, if_neg (not_not.mpr rfl)]
  by_cases hv : Verifies 0 (b.take (4 * headerWords b))
  · rw [if_pos hv, if_neg (not_not.mpr ((InternetChecksum.value_eq_zero_iff 0 _ hsum).mpr hv))]
  · rw [if_neg hv, if_pos (fun h0 => hv ((InternetChecksum.value_eq_zero_iff 0 _ hsum).mp h0))]

/-- Anything else leaves the parser behind the first 20 bytes, with no error in it. -/
theorem parse_unframed {h : IPv4Header} {b : List UInt8} (hb : LENGTH ≤ b.length)
    (hf : ¬ Framed b) :
    (h.parse { buffer := b }).2 = (ofBytes b, { buffer := b.drop LENGTH }) := by
  unfold parse
  simp only [parseFields_eq hb, ofBytes_hlen]
  rw [if_neg (Nat.not_lt.mpr hb)]
  by_cases hfits : b.length < 4 * headerWords b
  · rw [if_pos hfits]
  · rw [if_neg hfits]
    by_cases hver : (ofBytes b).ver ≠ 4
    · rw [if_pos hver]
    · rw [if_neg hver]
      by_cases hshort : (ofBytes b).hlen < 5
      · rw [if_pos hshort]
      · rw [if_neg hshort]
        by_cases hlen : b.length ≠ (ofBytes b).len.toNat
        · rw [if_pos hlen]
        · rw [UInt8.lt_iff_toNat_lt, ofBytes_hlen] at hshort
          rw [ofBytes_len, not_not] at hlen
          exact absurd ⟨ofBytes_ver.mp (not_not.mp hver), Nat.not_lt.mp hshort,
            Nat.not_lt.mp hfits, hlen.symm⟩ hf

end IPv4Header

namespace IPv4Datagram

open IPv4Header

/-- The bytes of a datagram. -/
structure WellFormed (b : List UInt8) : Prop where
  header : LENGTH ≤ b.length
  framed : Framed b
  verifies : Verifies 0 (b.take (4 * headerWords b))

/-- `parse` accepts exactly the well-formed datagrams, and reads what they hold. -/
structure ParsesExactly (dgram : IPv4Datagram) (b : List UInt8) : Prop where
  accepts : (dgram.parse b).1 = .noError ↔ WellFormed b
  reads : (dgram.parse b).1 = .noError →
    (dgram.parse b).2 =
      { header := ofBytes b, payload := [b.drop (4 * headerWords b)] }

/-- The payload length of the header in `b`, as the 16-bit subtraction gives it. -/
def claimedPayload (b : List UInt8) : Nat := (lenField b + 65536 - 4 * headerWords b) % 65536

variable (dgram : IPv4Datagram) {b : List UInt8}

/-- The header parser's own result does not count, only what it leaves. -/
theorem parse_eq {h : IPv4Header} {p : NetParser}
    (hp : (dgram.header.parse { buffer := b }).2 = (h, p)) :
    dgram.parse b =
      (if p.buffer.length = h.payloadLength.toNat then p.error else .packetTooShort,
        { header := h, payload := [p.buffer] }) := by
  have hsize : BufferList.size [p.buffer] = p.buffer.length := Nat.zero_add _
  unfold parse
  simp only [hp, hsize]
  by_cases hlen : p.buffer.length = h.payloadLength.toNat
  · rw [if_pos hlen, if_neg (not_not.mpr hlen)]
  · rw [if_neg hlen, if_pos hlen]

/-- Too few bytes leave the header as it was, which decides. -/
theorem parse_short (hb : b.length < LENGTH) :
    (dgram.parse b).1 = .noError ↔ b.length = dgram.header.payloadLength.toNat := by
  rw [dgram.parse_eq (congrArg Prod.snd (IPv4Header.parse_short hb))]
  by_cases hlen : b.length = dgram.header.payloadLength.toNat
  · simp [hlen]
  · simp [hlen]

theorem parse_framed (hb : LENGTH ≤ b.length) (hf : Framed b) :
    dgram.parse b =
      (.noError, { header := ofBytes b, payload := [b.drop (4 * headerWords b)] }) := by
  have hlt := headerWords_lt b
  have hfits := hf.fits
  have hlen := hf.length
  have htotal := lenField_lt b
  rw [dgram.parse_eq (congrArg Prod.snd (IPv4Header.parse_framed hb hf)), if_pos]
  rw [payloadLength_toNat, ofBytes_len, ofBytes_hlen, List.length_drop]
  omega

theorem parse_unframed (hb : LENGTH ≤ b.length) (hf : ¬ Framed b) :
    (dgram.parse b).1 = .noError ↔ b.length - LENGTH = claimedPayload b := by
  rw [dgram.parse_eq (IPv4Header.parse_unframed hb hf), payloadLength_toNat, ofBytes_len,
    ofBytes_hlen, List.length_drop]
  unfold claimedPayload
  by_cases hlen : b.length - LENGTH = (lenField b + 65536 - 4 * headerWords b) % 65536
  · simp [hlen]
  · simp [hlen]

/-- A string that is not well formed is told apart exactly when it is rejected. -/
theorem parsesExactly_of_not (h : ¬ WellFormed b) :
    dgram.ParsesExactly b ↔ (dgram.parse b).1 ≠ .noError :=
  ⟨fun hp hok => h (hp.accepts.mp hok),
    fun hne => ⟨iff_of_false hne h, fun hok => absurd hok hne⟩⟩

/-- When `parse` accepts exactly the well-formed datagrams. -/
theorem parsesExactly_iff (b : List UInt8) :
    dgram.ParsesExactly b ↔
      (b.length < LENGTH ∧ b.length ≠ dgram.header.payloadLength.toNat) ∨
      (LENGTH ≤ b.length ∧ Framed b ∧ Verifies 0 (b.take (4 * headerWords b))) ∨
      (LENGTH ≤ b.length ∧ ¬ Framed b ∧ b.length - LENGTH ≠ claimedPayload b) := by
  rcases Nat.lt_or_ge b.length LENGTH with hb | hb
  · have hnot : ¬ WellFormed b := fun h => absurd h.header (Nat.not_le.mpr hb)
    rw [parsesExactly_of_not dgram hnot, ne_eq, parse_short dgram hb]
    simp [hb, Nat.not_le.mpr hb]
  by_cases hf : Framed b
  · by_cases hv : Verifies 0 (b.take (4 * headerWords b))
    · have hparse := dgram.parse_framed hb hf
      have hwell : WellFormed b := ⟨hb, hf, hv⟩
      refine iff_of_true ⟨?_, fun _ => ?_⟩ (Or.inr (Or.inl ⟨hb, hf, hv⟩))
      · rw [hparse]
        exact iff_of_true rfl hwell
      · rw [hparse]
    · have hnot : ¬ WellFormed b := fun h => hv h.verifies
      rw [parsesExactly_of_not dgram hnot, dgram.parse_framed hb hf]
      simp [Nat.not_lt.mpr hb, hf, hv]
  · have hnot : ¬ WellFormed b := fun h => hf h.framed
    rw [parsesExactly_of_not dgram hnot, ne_eq, parse_unframed dgram hb hf]
    simp [Nat.not_lt.mpr hb, hb, hf]

/-- A header of 20 bytes with nothing in its checksum field. -/
theorem parse_unverified :
    ¬ ParsesExactly {} [0x45, 0, 0, 20, 0, 0, 0, 0, 0, 0, 0, 0, 0, 0, 0, 0, 0, 0, 0, 0] := by
  intro h
  have hverifies := (h.accepts.mp (by decide)).verifies
  revert hverifies
  decide

end IPv4Datagram

end Sponge
