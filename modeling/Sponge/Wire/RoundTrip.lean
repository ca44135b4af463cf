import Sponge.Wire.Datagram
import Sponge.Wire.Segment

/-!
# Headers survive the wire

A header that fits its fields is read back from the bytes it is written as
(`IPv4Header.ofBytes_bytes`, `TCPHeader.ofBytes_bytes`); with what the parsers
accept this gives the round trips of a whole datagram and of a whole segment. The
checksum word splits the header in two (`front`, `back`), and what `serialize`
puts there makes the string verify.
-/

namespace Sponge

open Lib NetParser

/-- A flag above the low bits of a word. -/
theorem testBit_word {k r : Nat} (hr : r < 2 ^ 13) (i : Nat) :
    (2 ^ 13 * k + r).testBit (13 + i) = k.testBit i := by
  rw [Nat.testBit_two_pow_mul_add k hr, if_neg (by omega)]
  congr 1
  omega

namespace IPv4Header

/-- What stands in front of the checksum word. -/
def front (h : IPv4Header) : List UInt8 :=
  NetUnparser.u8 h.firstByte ++ NetUnparser.u8 h.tos ++ NetUnparser.u16 h.len ++
    NetUnparser.u16 h.id ++ NetUnparser.u16 h.foVal ++ NetUnparser.u8 h.ttl ++
    NetUnparser.u8 h.proto

/-- What stands behind it, options included. -/
def back (h : IPv4Header) : List UInt8 :=
  NetUnparser.u32 h.src ++ NetUnparser.u32 h.dst ++
    List.replicate (4 * h.hlen.toNat - LENGTH) 0

theorem front_length (h : IPv4Header) : h.front.length = 10 := by
  simp [front]

theorem bytes_eq (h : IPv4Header) : h.bytes = h.front ++ encode 2 h.cksum.toNat ++ h.back := by
  unfold bytes front back LENGTH
  simp only [List.length_append, NetUnparser.u8_length, NetUnparser.u16_length,
    NetUnparser.u32_length, List.append_assoc]
  rfl

/-- The fields fit the bits they are written in. -/
structure Writable (h : IPv4Header) : Prop where
  version : h.ver = 4
  words : 5 ≤ h.hlen.toNat
  words_lt : h.hlen.toNat < 16
  offset_lt : h.offset.toNat < 2 ^ 13

theorem serialize_eq {h : IPv4Header} (hw : h.Writable) : h.serialize = .ok h.bytes := by
  have hwords := hw.words
  unfold serialize
  rw [if_neg (not_not.mpr hw.version), if_neg (by unfold LENGTH; omega)]

theorem bytes_length {h : IPv4Header} (hw : h.Writable) :
    h.bytes.length = 4 * h.hlen.toNat := by
  have hwords := hw.words
  unfold bytes
  simp only [List.length_append, List.length_replicate, NetUnparser.u8_length,
    NetUnparser.u16_length, NetUnparser.u32_length]
  omega

/-- The version and the header length share a byte. -/
theorem firstByte_eq {h : IPv4Header} (hw : h.Writable) :
    h.firstByte = UInt8.ofNat (64 + h.hlen.toNat) := by
  have hlt := hw.words_lt
  have hlow : h.hlen.toNat &&& 0xf = h.hlen.toNat := by
    rw [show 0xf = 2 ^ 4 - 1 from rfl, Nat.and_two_pow_sub_one_eq_mod]
    omega
  apply UInt8.toNat_inj.mp
  rw [firstByte, hw.version, UInt8.toNat_or, UInt8.toNat_and, UInt8.toNat_ofNat']
  change 2 ^ 4 * 4 ||| (h.hlen.toNat &&& 0xf) = _
  rw [hlow, ← Nat.two_pow_add_eq_or_of_lt hlt]
  omega

/-- The flags and the offset share a word. -/
theorem foVal_eq {h : IPv4Header} (hw : h.Writable) :
    h.foVal = UInt16.ofNat (2 ^ 13 * (2 * h.df.toNat + h.mf.toNat) + h.offset.toNat) := by
  have hoff := hw.offset_lt
  have hlow : h.offset.toNat &&& 0x1fff = h.offset.toNat := by
    rw [show 0x1fff = 2 ^ 13 - 1 from rfl, Nat.and_two_pow_sub_one_eq_mod]
    omega
  have hhigh : ((if h.df then 0x4000 else 0) ||| (if h.mf then 0x2000 else 0) : UInt16).toNat =
      2 ^ 13 * (2 * h.df.toNat + h.mf.toNat) := by
    cases h.df <;> cases h.mf <;> rfl
  have hdf := Bool.toNat_le h.df
  have hmf := Bool.toNat_le h.mf
  apply UInt16.toNat_inj.mp
  rw [foVal, UInt16.toNat_or, hhigh, UInt16.toNat_and, UInt16.toNat_ofNat']
  change _ ||| (h.offset.toNat &&& 0x1fff) = _
  rw [hlow, ← Nat.two_pow_add_eq_or_of_lt hoff]
  omega

theorem version_nibble {h : IPv4Header} (hw : h.Writable) :
    UInt8.ofNat (64 + h.hlen.toNat) >>> 4 = h.ver ∧
      UInt8.ofNat (64 + h.hlen.toNat) &&& 0x0f = h.hlen := by
  have hlt := hw.words_lt
  rw [high_nibble (by omega), low_nibble (by omega), hw.version,
    show (64 + h.hlen.toNat) / 16 = 4 by omega,
    show (64 + h.hlen.toNat) % 16 = h.hlen.toNat by omega]
  exact ⟨rfl, UInt8.ofNat_toNat⟩

theorem flag_bits (df mf : Bool) {offset : UInt16} (h : offset.toNat < 2 ^ 13) :
    let foVal := UInt16.ofNat (2 ^ 13 * (2 * df.toNat + mf.toNat) + offset.toNat)
    ((foVal &&& 0x4000) != 0) = df ∧ ((foVal &&& 0x2000) != 0) = mf ∧
      foVal &&& 0x1fff = offset := by
  have hdf := Bool.toNat_le df
  have hmf := Bool.toNat_le mf
  have hlt : 2 ^ 13 * (2 * df.toNat + mf.toNat) + offset.toNat < 2 ^ 16 := by omega
  refine ⟨?_, ?_, ?_⟩
  · rw [show (0x4000 : UInt16) = .ofNat (2 ^ (13 + 1)) from rfl, mask16 hlt (by omega),
      testBit_word h]
    cases df <;> cases mf <;> rfl
  · rw [show (0x2000 : UInt16) = .ofNat (2 ^ (13 + 0)) from rfl, mask16 hlt (by omega),
      testBit_word h]
    cases df <;> cases mf <;> rfl
  · rw [show (0x1fff : UInt16) = .ofNat (2 ^ 13 - 1) from rfl, low16 hlt (by omega),
      Nat.mul_add_mod, Nat.mod_eq_of_lt h]
    exact UInt16.ofNat_toNat

/-- A header that fits is read back, whatever follows it. -/
theorem ofBytes_bytes {h : IPv4Header} (hw : h.Writable) (rest : List UInt8) :
    ofBytes (h.bytes ++ rest) = h := by
  have hwords := hw.words
  have hlen : LENGTH ≤ (h.bytes ++ rest).length := by
    rw [List.length_append, bytes_length hw]
    unfold LENGTH
    omega
  obtain ⟨hver, hhlen⟩ := version_nibble hw
  obtain ⟨hdf, hmf, hoff⟩ := flag_bits h.df h.mf hw.offset_lt
  calc ofBytes (h.bytes ++ rest)
      = (parseFields { buffer := h.bytes ++ rest }).1 :=
        (congrArg Prod.fst (parseFields_eq hlen)).symm
    _ = h := by
        unfold bytes parseFields
        simp only [List.append_assoc, u8_append, u16_append, u32_append]
        rw [firstByte_eq hw, foVal_eq hw, hver, hhlen, hdf, hmf, hoff]

end IPv4Header

namespace IPv4Datagram

open IPv4Header

theorem headerWords_bytes {h : IPv4Header} (hw : h.Writable) (payload : List UInt8) :
    headerWords (h.bytes ++ payload) = h.hlen.toNat := by
  rw [← ofBytes_hlen, ofBytes_bytes hw]

/-- A datagram whose length field is right is framed. -/
theorem framed_bytes {h : IPv4Header} (hw : h.Writable) {payload : List UInt8}
    (hlen : h.len.toNat = 4 * h.hlen.toNat + payload.length) : Framed (h.bytes ++ payload) := by
  have htotal : (h.bytes ++ payload).length = 4 * h.hlen.toNat + payload.length := by
    rw [List.length_append, bytes_length hw]
  refine ⟨ofBytes_ver.mp ?_, ?_, ?_, ?_⟩
  · rw [ofBytes_bytes hw]
    exact hw.version
  · rw [headerWords_bytes hw]
    exact hw.words
  · rw [headerWords_bytes hw, htotal]
    omega
  · rw [← ofBytes_len, ofBytes_bytes hw, hlen, htotal]

theorem length_le_bytes {h : IPv4Header} (hw : h.Writable) (payload : List UInt8) :
    LENGTH ≤ (h.bytes ++ payload).length := by
  have hwords := hw.words
  rw [List.length_append, bytes_length hw]
  unfold LENGTH
  omega

/-- It is accepted with its header and payload. -/
theorem parse_bytes {h : IPv4Header} (hw : h.Writable) {payload : List UInt8}
    (hlen : h.len.toNat = 4 * h.hlen.toNat + payload.length) (dgram : IPv4Datagram) :
    dgram.parse (h.bytes ++ payload) = (.noError, { header := h, payload := [payload] }) := by
  have hdrop : (h.bytes ++ payload).drop (4 * h.hlen.toNat) = payload :=
    List.drop_left' (bytes_length hw)
  rw [dgram.parse_framed (length_le_bytes hw payload) (framed_bytes hw hlen),
    headerWords_bytes hw, hdrop, ofBytes_bytes hw]

/-- The header with its checksum, which is taken with 0 in its field. -/
def sealed (dgram : IPv4Datagram) : IPv4Header :=
  { dgram.header with
    cksum := (InternetChecksum.add {} { dgram.header with cksum := 0 }.bytes).value }

theorem sealed_writable {dgram : IPv4Datagram} (hw : dgram.header.Writable) :
    dgram.sealed.Writable := ⟨hw.version, hw.words, hw.words_lt, hw.offset_lt⟩

/-- The sealed header verifies. -/
theorem sealed_verifies {dgram : IPv4Datagram} (hw : dgram.header.Writable) :
    Verifies 0 dgram.sealed.bytes := by
  have hlt := hw.words_lt
  have hzero : { dgram.header with cksum := 0 }.bytes =
      dgram.header.front ++ encode 2 0 ++ dgram.header.back :=
    bytes_eq { dgram.header with cksum := 0 }
  have hlen : { dgram.header with cksum := 0 }.bytes.length = 4 * dgram.header.hlen.toNat :=
    bytes_length (h := { dgram.header with cksum := 0 })
      ⟨hw.version, hw.words, hw.words_lt, hw.offset_lt⟩
  have hsum := InternetChecksum.sum_lt (c := 0) (by decide)
    (show { dgram.header with cksum := 0 }.bytes.length ≤ 65535 by omega)
  rw [hzero] at hsum
  have hseal := InternetChecksum.verifies_value (by rw [front_length]) hsum
  rw [← hzero] at hseal
  rw [bytes_eq]
  exact hseal

/-- What `serialize` writes: the sealed header, then the payload. -/
theorem serialize_eq {dgram : IPv4Datagram} (hw : dgram.header.Writable)
    (hsize : dgram.payload.size = dgram.header.payloadLength.toNat) :
    dgram.serialize = .ok (dgram.sealed.bytes :: dgram.payload) := by
  have hzero : ({ dgram.header with cksum := 0 } : IPv4Header).serialize =
      .ok { dgram.header with cksum := 0 }.bytes :=
    IPv4Header.serialize_eq ⟨hw.version, hw.words, hw.words_lt, hw.offset_lt⟩
  have hsealed : dgram.sealed.serialize = .ok dgram.sealed.bytes :=
    IPv4Header.serialize_eq (sealed_writable hw)
  calc dgram.serialize
      = (dgram.sealed.serialize >>= fun header => pure (header :: dgram.payload)) := by
        unfold serialize sealed
        rw [if_neg (not_not.mpr hsize), hzero]
        rfl
    _ = .ok (dgram.sealed.bytes :: dgram.payload) := by
        rw [hsealed]
        rfl

/-- **The IPv4 round trip.** What is written is read back but for the checksum, whatever it was
before: the one with which the header verifies, and is accepted by its own parser. -/
theorem serialize_roundTrip (dgram : IPv4Datagram) (hw : dgram.header.Writable)
    (hlen : dgram.header.len.toNat = 4 * dgram.header.hlen.toNat + dgram.payload.size)
    (prev : IPv4Datagram) :
    ∃ buffers cksum, dgram.serialize = .ok buffers ∧
      prev.parse buffers.flatten = (.noError,
        { header := { dgram.header with cksum }, payload := [dgram.payload.flatten] }) ∧
      Verifies 0 (buffers.flatten.take (4 * dgram.header.hlen.toNat)) ∧
      (prev.header.parse { buffer := buffers.flatten }).1 = .noError := by
  have hsealed := sealed_writable hw
  have htotal : dgram.sealed.len.toNat =
      4 * dgram.sealed.hlen.toNat + dgram.payload.flatten.length := by
    rw [← BufferList.size_eq]
    exact hlen
  have hlt := dgram.header.len.toNat_lt
  have hsize : dgram.payload.size = dgram.header.payloadLength.toNat := by
    rw [payloadLength_toNat]
    omega
  have htake : (dgram.sealed.bytes ++ dgram.payload.flatten).take (4 * dgram.header.hlen.toNat) =
      dgram.sealed.bytes := List.take_left' (bytes_length hsealed)
  refine ⟨_, dgram.sealed.cksum, serialize_eq hw hsize, ?_, ?_, ?_⟩
  · rw [List.flatten_cons]
    exact parse_bytes hsealed htotal prev
  · rw [List.flatten_cons, htake]
    exact sealed_verifies hw
  · have hwords : headerWords (dgram.sealed.bytes ++ dgram.payload.flatten) =
        dgram.header.hlen.toNat := headerWords_bytes hsealed _
    rw [List.flatten_cons, IPv4Header.parse_framed (length_le_bytes hsealed _)
      (framed_bytes hsealed htotal), hwords, htake, if_pos (sealed_verifies hw)]

/-- A header with options and a stale checksum, and a payload in three buffers. -/
def stale : IPv4Datagram where
  header := { hlen := 7, tos := 3, len := 33, offset := 0x1fff, df := false, cksum := 0xbeef }
  payload := [[1, 2], [], [3, 4, 5]]

theorem roundTrip_stale :
    ∃ buffers cksum, stale.serialize = .ok buffers ∧
      IPv4Datagram.parse {} buffers.flatten = (.noError,
        { header := { stale.header with cksum }, payload := [[1, 2, 3, 4, 5]] }) ∧
      Verifies 0 (buffers.flatten.take 28) ∧
      (IPv4Header.parse {} { buffer := buffers.flatten }).1 = .noError :=
  serialize_roundTrip stale ⟨rfl, by decide, by decide, by decide⟩ (by decide) {}

end IPv4Datagram

namespace TCPHeader

/-- What stands in front of the checksum word. -/
def front (h : TCPHeader) : List UInt8 :=
  NetUnparser.u16 h.sport ++ NetUnparser.u16 h.dport ++ NetUnparser.u32 h.seqno.rawValue ++
    NetUnparser.u32 h.ackno.rawValue ++ NetUnparser.u8 (h.doff <<< 4) ++
    NetUnparser.u8 (flB h.urg h.ack h.psh h.rst h.syn h.fin) ++ NetUnparser.u16 h.win

/-- What stands behind it, options included. -/
def back (h : TCPHeader) : List UInt8 :=
  NetUnparser.u16 h.uptr ++ List.replicate (4 * h.doff.toNat - LENGTH) 0

theorem front_length (h : TCPHeader) : h.front.length = 16 := by
  simp [front]

theorem bytes_eq (h : TCPHeader) : h.bytes = h.front ++ encode 2 h.cksum.toNat ++ h.back := by
  unfold bytes front back LENGTH
  simp only [List.length_append, NetUnparser.u8_length, NetUnparser.u16_length,
    NetUnparser.u32_length, List.append_assoc]
  rfl

theorem bytes_length {h : TCPHeader} (hoff : 5 ≤ h.doff.toNat) :
    h.bytes.length = 4 * h.doff.toNat := by
  rw [bytes_eq, List.length_append, List.length_append, front_length, encode_length]
  unfold back LENGTH
  rw [List.length_append, NetUnparser.u16_length, List.length_replicate]
  omega

theorem doff_nibble {d : UInt8} (h : d.toNat < 16) : (d <<< 4) >>> 4 = d := by
  apply UInt8.toNat_inj.mp
  rw [UInt8.toNat_shiftRight, UInt8.toNat_shiftLeft, Nat.shiftLeft_eq, Nat.shiftRight_eq_div_pow]
  change d.toNat * 2 ^ 4 % 2 ^ 8 / 2 ^ 4 = d.toNat
  omega

theorem flB_bits : ∀ urg ack psh rst syn fin : Bool,
    let b := flB urg ack psh rst syn fin
    ((b &&& 0b00100000) != 0) = urg ∧ ((b &&& 0b00010000) != 0) = ack ∧
      ((b &&& 0b00001000) != 0) = psh ∧ ((b &&& 0b00000100) != 0) = rst ∧
      ((b &&& 0b00000010) != 0) = syn ∧ ((b &&& 0b00000001) != 0) = fin := by
  decide

/-- A header whose data offset fits is read back, whatever follows it. -/
theorem ofBytes_bytes {h : TCPHeader} (hoff : 5 ≤ h.doff.toNat) (hlt : h.doff.toNat < 16)
    (rest : List UInt8) : ofBytes (h.bytes ++ rest) = h := by
  have hlen : LENGTH ≤ (h.bytes ++ rest).length := by
    rw [List.length_append, bytes_length hoff]
    unfold LENGTH
    omega
  obtain ⟨hurg, hack, hpsh, hrst, hsyn, hfin⟩ := flB_bits h.urg h.ack h.psh h.rst h.syn h.fin
  calc ofBytes (h.bytes ++ rest)
      = (parseFields { buffer := h.bytes ++ rest }).1 :=
        (congrArg Prod.fst (parseFields_eq hlen)).symm
    _ = h := by
        unfold bytes parseFields
        simp only [List.append_assoc, u8_append, u16_append, u32_append]
        rw [doff_nibble hlt, hurg, hack, hpsh, hrst, hsyn, hfin]

end TCPHeader

namespace TCPSegment

open TCPHeader

variable {seg : TCPSegment}

/-- The sealed header makes the segment verify. -/
theorem sealed_verifies {c : UInt32} (hc : c.toNat < 2 ^ 20) (hoff : 5 ≤ seg.header.doff.toNat)
    (hlen : 4 * seg.header.doff.toNat + seg.payload.length ≤ 65535) :
    Verifies c.toNat ((seg.sealed c).bytes ++ seg.payload) := by
  have hzero : (seg.header.withCksum 0).bytes ++ seg.payload =
      seg.header.front ++ encode 2 0 ++ (seg.header.back ++ seg.payload) := by
    rw [bytes_eq, List.append_assoc _ _ seg.payload]
    rfl
  have hsum : c.toNat + wordSum ((seg.header.withCksum 0).bytes ++ seg.payload) < 2 ^ 32 := by
    apply InternetChecksum.sum_lt hc
    rw [List.length_append, bytes_length (h := seg.header.withCksum 0) hoff]
    exact hlen
  rw [hzero] at hsum
  have hseal := InternetChecksum.verifies_value (by rw [front_length]) hsum
  rw [← hzero] at hseal
  rw [bytes_eq, List.append_assoc _ _ seg.payload]
  exact hseal

/-- A segment is read back with the checksum it was sealed with. -/
theorem parse_sealed (seg : TCPSegment) {c : UInt32} (hc : c.toNat < 2 ^ 20)
    (hoff : 5 ≤ seg.header.doff.toNat) (hlt : seg.header.doff.toNat < 16)
    (hlen : 4 * seg.header.doff.toNat + seg.payload.length ≤ 65535) (prev : TCPSegment) :
    prev.parse ((seg.sealed c).bytes ++ seg.payload) c =
      (.noError, { header := seg.sealed c, payload := seg.payload }) := by
  have hread : ofBytes ((seg.sealed c).bytes ++ seg.payload) = seg.sealed c :=
    ofBytes_bytes (h := seg.sealed c) hoff hlt seg.payload
  have hlength : (seg.sealed c).bytes.length = 4 * seg.header.doff.toNat :=
    bytes_length (h := seg.sealed c) hoff
  have htotal : ((seg.sealed c).bytes ++ seg.payload).length =
      4 * seg.header.doff.toNat + seg.payload.length := by
    rw [List.length_append, hlength]
  have hoffset : dataOffset ((seg.sealed c).bytes ++ seg.payload) = seg.header.doff.toNat := by
    rw [← ofBytes_doff, hread]
    rfl
  have hdrop : ((seg.sealed c).bytes ++ seg.payload).drop (4 * seg.header.doff.toNat) =
      seg.payload := List.drop_left' hlength
  have hfits := parse_fits (b := (seg.sealed c).bytes ++ seg.payload)
    (by unfold LENGTH; omega) (by rw [hoffset]; exact hoff) (by rw [hoffset, htotal]; omega)
  rw [hread, hoffset, hdrop] at hfits
  rw [prev.parse_verified (InternetChecksum.sum_lt hc (by rw [htotal]; exact hlen))
    (sealed_verifies hc hoff hlen), hfits]

end TCPSegment

end Sponge
