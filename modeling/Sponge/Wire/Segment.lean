import Sponge.Wire.Codec
import Sponge.Wire.TCP

/-!
# What `TCPSegment.parse` accepts

A well-formed segment verifies and holds its header. Too few bytes for the
header, fixed part or options, end in the parser's error and are rejected. A data
offset below 5 only shows in what the header parser returns, which is dropped:
such a segment is accepted, and cannot be serialized again.
-/

namespace Sponge

open Lib NetParser

namespace TCPHeader

/-- The data offset field, in words. -/
def dataOffset (b : List UInt8) : Nat := field b 12 1 / 16

/-- The header whose big-endian fields are the first 20 bytes of `b`. -/
def ofBytes (b : List UInt8) : TCPHeader where
  sport := .ofNat (field b 0 2)
  dport := .ofNat (field b 2 2)
  seqno := ⟨.ofNat (field b 4 4)⟩
  ackno := ⟨.ofNat (field b 8 4)⟩
  doff := .ofNat (dataOffset b)
  urg := (field b 13 1).testBit 5
  ack := (field b 13 1).testBit 4
  psh := (field b 13 1).testBit 3
  rst := (field b 13 1).testBit 2
  syn := (field b 13 1).testBit 1
  fin := (field b 13 1).testBit 0
  win := .ofNat (field b 14 2)
  cksum := .ofNat (field b 16 2)
  uptr := .ofNat (field b 18 2)

theorem dataOffset_lt (b : List UInt8) : dataOffset b < 16 := by
  have hlt := field_lt b 12 1
  unfold dataOffset
  omega

theorem parseFields_eq {b : List UInt8} (h : LENGTH ≤ b.length) :
    parseFields { buffer := b } = (ofBytes b, { buffer := b.drop LENGTH }) := by
  have h20 : 20 ≤ b.length := h
  have h0 : ({ buffer := b } : NetParser) = { buffer := b.drop 0 } := rfl
  have hbyte := field_lt b 12 1
  have hflags := field_lt b 13 1
  unfold parseFields
  rw [h0]
  simp (disch := omega) only [u8_drop, u16_drop, u32_drop]
  rw [high_nibble hbyte, show (0b00100000 : UInt8) = .ofNat (2 ^ 5) from rfl,
    show (0b00010000 : UInt8) = .ofNat (2 ^ 4) from rfl,
    show (0b00001000 : UInt8) = .ofNat (2 ^ 3) from rfl,
    show (0b00000100 : UInt8) = .ofNat (2 ^ 2) from rfl,
    show (0b00000010 : UInt8) = .ofNat (2 ^ 1) from rfl,
    show (0b00000001 : UInt8) = .ofNat (2 ^ 0) from rfl, mask8 hflags (by omega),
    mask8 hflags (by omega), mask8 hflags (by omega), mask8 hflags (by omega),
    mask8 hflags (by omega), mask8 hflags (by omega)]
  rfl

theorem parseFields_reads (p : NetParser) : Reads p (parseFields p).2 LENGTH := by
  have hports := (u16_reads p).trans (u16_reads _)
  have hnumbers := (hports.trans (u32_reads _)).trans (u32_reads _)
  have hflags := (hnumbers.trans (u8_reads _)).trans (u8_reads _)
  have hall := ((hflags.trans (u16_reads _)).trans (u16_reads _)).trans (u16_reads _)
  simp only [parseFields]
  exact hall

theorem ofBytes_doff (b : List UInt8) : (ofBytes b).doff.toNat = dataOffset b := by
  have hlt := dataOffset_lt b
  exact Nat.mod_eq_of_lt (by omega)

theorem ofBytes_doff_lt (b : List UInt8) : (ofBytes b).doff < 5 ↔ dataOffset b < 5 := by
  rw [UInt8.lt_iff_toNat_lt, ofBytes_doff]
  exact Iff.rfl

/-- The parser's error is all that is left of a failure, and a short offset sets none. -/
theorem parse_ok {b : List UInt8} (h : (parse { buffer := b }).2.2.error = .noError) :
    LENGTH ≤ b.length ∧ (dataOffset b < 5 ∨ 4 * dataOffset b ≤ b.length) := by
  have hfields : (parseFields { buffer := b }).2.error = .noError := by
    unfold parse at h
    simp only at h
    split at h
    · exact h
    · exact (removePrefix_ok (by split at h <;> exact h)).1
  have hlen : LENGTH ≤ b.length := by
    have hread := (parseFields_reads _ hfields).2
    simp only at hread
    omega
  refine ⟨hlen, ?_⟩
  by_cases hoff : dataOffset b < 5
  · exact Or.inl hoff
  · right
    unfold parse at h
    simp only [parseFields_eq hlen, ofBytes_doff_lt, ofBytes_doff, if_neg hoff] at h
    have hle := (removePrefix_ok (by split at h <;> exact h)).2
    rw [List.length_drop] at hle
    unfold LENGTH at hle hlen
    omega

/-- A short offset leaves the parser behind the first 20 bytes, with no error in it. -/
theorem parse_shortOffset {b : List UInt8} (h : LENGTH ≤ b.length) (hoff : dataOffset b < 5) :
    (parse { buffer := b }).2 = (ofBytes b, { buffer := b.drop LENGTH }) := by
  unfold parse
  simp only [parseFields_eq h]
  rw [if_pos ((ofBytes_doff_lt b).mpr hoff)]

theorem parse_fits {b : List UInt8} (h : LENGTH ≤ b.length) (hoff : 5 ≤ dataOffset b)
    (hfits : 4 * dataOffset b ≤ b.length) :
    (parse { buffer := b }).2 = (ofBytes b, { buffer := b.drop (4 * dataOffset b) }) := by
  have hskip : ({ buffer := b.drop LENGTH } : NetParser).removePrefix
      (dataOffset b * 4 - LENGTH) = { buffer := b.drop (4 * dataOffset b) } := by
    have hto : LENGTH + (dataOffset b * 4 - LENGTH) = 4 * dataOffset b := by
      unfold LENGTH
      omega
    rw [removePrefix_drop (by omega), hto]
  unfold parse
  simp only [parseFields_eq h, ofBytes_doff, hskip]
  rw [if_neg (fun hlt => Nat.not_lt.mpr hoff ((ofBytes_doff_lt b).mp hlt)),
    if_neg (not_not.mpr rfl)]

theorem serialize_eq {h : TCPHeader} (hoff : ¬ h.doff < 5) : h.serialize = .ok h.bytes :=
  if_neg hoff

end TCPHeader

namespace TCPSegment

open TCPHeader

/-- The bytes of a segment whose pseudo-header sums up to `c`. -/
structure WellFormed (b : List UInt8) (c : UInt32) : Prop where
  verifies : Verifies c.toNat b
  header : LENGTH ≤ b.length
  words : 5 ≤ dataOffset b
  fits : 4 * dataOffset b ≤ b.length

/-- `parse` accepts exactly the well-formed segments, reads what they hold, and what it read
can be serialized. -/
structure ParsesExactly (seg : TCPSegment) (b : List UInt8) (c : UInt32) : Prop where
  accepts : (seg.parse b c).1 = .noError ↔ WellFormed b c
  reads : (seg.parse b c).1 = .noError →
    (seg.parse b c).2 = { header := ofBytes b, payload := b.drop (4 * dataOffset b) }
  serializes : (seg.parse b c).1 = .noError →
    ∀ c', ∃ out, (seg.parse b c).2.serialize c' = .ok out

/-- The header with the checksum of the segment, which is taken with 0 in its field. -/
def sealed (seg : TCPSegment) (c : UInt32) : TCPHeader :=
  seg.header.withCksum
    (InternetChecksum.add { sum := c } ((seg.header.withCksum 0).bytes ++ seg.payload)).value

/-- What `serialize` writes: the sealed header, then the payload. -/
theorem serialize_eq {seg : TCPSegment} (hoff : ¬ seg.header.doff < 5) (c : UInt32) :
    seg.serialize c = .ok [(seg.sealed c).bytes, seg.payload] := by
  have hzero : (seg.header.withCksum 0).serialize = .ok (seg.header.withCksum 0).bytes :=
    TCPHeader.serialize_eq hoff
  have hsealed : (seg.sealed c).serialize = .ok (seg.sealed c).bytes :=
    TCPHeader.serialize_eq hoff
  calc seg.serialize c
      = ((seg.sealed c).serialize >>= fun header => pure [header, seg.payload]) := by
        unfold serialize sealed
        rw [hzero, InternetChecksum.add_append]
        rfl
    _ = .ok [(seg.sealed c).bytes, seg.payload] := by
        rw [hsealed]
        rfl

variable (seg : TCPSegment) {b : List UInt8} {c : UInt32}

/-- A checksum that does not verify is reported before anything is read. -/
theorem parse_of_not_verifies (hsum : c.toNat + wordSum b < 2 ^ 32) (hv : ¬ Verifies c.toNat b) :
    seg.parse b c = (.badChecksum, seg) :=
  if_pos fun h0 => hv ((InternetChecksum.value_eq_zero_iff c b hsum).mp h0)

theorem parse_verified (hsum : c.toNat + wordSum b < 2 ^ 32) (hv : Verifies c.toNat b) :
    seg.parse b c = ((TCPHeader.parse { buffer := b }).2.2.error,
      { header := (TCPHeader.parse { buffer := b }).2.1
        payload := (TCPHeader.parse { buffer := b }).2.2.buffer }) :=
  if_neg (not_not.mpr ((InternetChecksum.value_eq_zero_iff c b hsum).mpr hv))

/-- A string that is not well formed is told apart exactly when it is rejected. -/
theorem parsesExactly_of_not (h : ¬ WellFormed b c) :
    seg.ParsesExactly b c ↔ (seg.parse b c).1 ≠ .noError :=
  ⟨fun hp hok => h (hp.accepts.mp hok), fun hne =>
    ⟨iff_of_false hne h, fun hok => absurd hok hne, fun hok => absurd hok hne⟩⟩

/-- When `parse` accepts exactly the well-formed segments. -/
theorem parsesExactly_iff_offset (hb : b.length ≤ 65535) (hc : c.toNat < 2 ^ 20) :
    seg.ParsesExactly b c ↔
      ¬ (Verifies c.toNat b ∧ LENGTH ≤ b.length ∧ dataOffset b < 5) := by
  have hsum : c.toNat + wordSum b < 2 ^ 32 := InternetChecksum.sum_lt hc hb
  by_cases hv : Verifies c.toNat b
  · have hparse := seg.parse_verified hsum hv
    by_cases hwell : WellFormed b c
    · have hleft := parse_fits hwell.header hwell.words hwell.fits
      have hoff : ¬ (ofBytes b).doff < 5 := by
        rw [ofBytes_doff_lt]
        exact Nat.not_lt.mpr hwell.words
      rw [hleft] at hparse
      refine iff_of_true ⟨?_, fun _ => ?_, fun _ c' => ?_⟩
        fun h => Nat.not_lt.mpr hwell.words h.2.2
      · rw [hparse]
        exact iff_of_true rfl hwell
      · rw [hparse]
      · rw [hparse]
        exact ⟨_, serialize_eq hoff c'⟩
    · rw [parsesExactly_of_not seg hwell, not_iff_not, hparse]
      constructor
      · intro hok
        obtain ⟨hlen, hoff | hfits⟩ := parse_ok hok
        · exact ⟨hv, hlen, hoff⟩
        · refine ⟨hv, hlen, ?_⟩
          by_contra hge
          exact hwell ⟨hv, hlen, Nat.not_lt.mp hge, hfits⟩
      · rintro ⟨-, hlen, hoff⟩
        rw [parse_shortOffset hlen hoff]
  · have hwell : ¬ WellFormed b c := fun h => hv h.verifies
    rw [parsesExactly_of_not seg hwell, seg.parse_of_not_verifies hsum hv]
    exact iff_of_true (fun h => by cases h) fun h => hv h.1

/-- 20 zero bytes but for the source port, with an empty pseudo-header. -/
def noOffset : List UInt8 := [0xff, 0xff, 0, 0, 0, 0, 0, 0, 0, 0, 0, 0, 0, 0, 0, 0, 0, 0, 0, 0]

/-- A segment without options, on which the offset is right. -/
def bareHeader : List UInt8 :=
  [0xaf, 0xff, 0, 0, 0, 0, 0, 0, 0, 0, 0, 0, 0x50, 0, 0, 0, 0, 0, 0, 0]

theorem parsesExactly_bareHeader : ParsesExactly {} bareHeader 0 :=
  (parsesExactly_iff_offset {} (by decide) (by decide)).mpr (by decide)

/-- A data offset of 0 is accepted. -/
theorem parse_noOffset : ¬ ParsesExactly {} noOffset 0 := by
  intro h
  have hwords := (h.accepts.mp (by decide)).words
  revert hwords
  decide

end TCPSegment

end Sponge
