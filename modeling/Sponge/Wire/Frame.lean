import Sponge.Wire.Message

/-!
# Ethernet frames on the wire

Every string of at least 14 bytes is a header and a payload (`exists_header`), so
a frame is read back from what it is written as, and written as what it was read
from. A shorter string leaves the parser without an error: `parse` accepts it,
with the header as it was (`exact_iff`).
-/

namespace Sponge

open NetParser NetUnparser

namespace EthernetHeader

theorem serialize_length (header : EthernetHeader) : header.serialize.length = LENGTH := by
  simp [serialize, EthernetAddress.serialize_length, LENGTH]

/-- A header that is written is read back. -/
theorem parse_serialize (prev header : EthernetHeader) (rest : List UInt8) :
    prev.parse { buffer := header.serialize ++ rest } = (.noError, header, { buffer := rest }) := by
  have hlen : ¬ (header.serialize ++ rest).length < LENGTH := by
    rw [List.length_append, serialize_length]
    omega
  unfold parse
  rw [if_neg hlen]
  unfold serialize
  simp only [List.append_assoc, EthernetAddress.parse_append, u16_append]

/-- Every string that is long enough begins with a header. -/
theorem exists_header {b : List UInt8} (h : LENGTH ≤ b.length) :
    ∃ (header : EthernetHeader) (rest : List UInt8), b = header.serialize ++ rest := by
  obtain ⟨dst, b1, rfl, h1⟩ := EthernetAddress.front (n := 8) h
  obtain ⟨src, b2, rfl, h2⟩ := EthernetAddress.front (n := 2) h1
  obtain ⟨type, rest, rfl, -⟩ := u16_front (n := 0) h2
  refine ⟨{ dst, src, type }, rest, ?_⟩
  simp only [serialize, List.append_assoc]

end EthernetHeader

namespace EthernetFrame

/-- The string is accepted exactly if it has room for a header, and a frame that is accepted is
written as that string. -/
structure Exact (prev : EthernetFrame) (b : List UInt8) : Prop where
  accepted : (prev.parse b).1 = .noError ↔ 14 ≤ b.length
  inverse : (prev.parse b).1 = .noError → (prev.parse b).2.serialize.flatten = b

theorem parse_append (prev : EthernetFrame) (header : EthernetHeader) (rest : List UInt8) :
    prev.parse (header.serialize ++ rest) = (.noError, { header, payload := [rest] }) := by
  unfold parse
  rw [EthernetHeader.parse_serialize]

/-- What is too short for a header is payload. -/
theorem parse_short {b : List UInt8} (prev : EthernetFrame)
    (h : b.length < EthernetHeader.LENGTH) :
    prev.parse b = (.noError, { header := prev.header, payload := [b] }) := by
  unfold parse EthernetHeader.parse
  rw [if_pos h]

/-- **Ethernet framing.** A string is parsed as it should be exactly if it has at least 14 bytes,
and every frame is read back from what it is written as. -/
theorem exact_iff (prev : EthernetFrame) (b : List UInt8) (frame : EthernetFrame) :
    (prev.Exact b ↔ 14 ≤ b.length) ∧ (prev.parse frame.serialize.flatten).1 = .noError ∧
      (prev.parse frame.serialize.flatten).2.header = frame.header ∧
      (prev.parse frame.serialize.flatten).2.payload.flatten = frame.payload.flatten := by
  constructor
  · by_cases hlen : EthernetHeader.LENGTH ≤ b.length
    · obtain ⟨header, rest, rfl⟩ := EthernetHeader.exists_header hlen
      refine iff_of_true ⟨?_, fun _ => ?_⟩ hlen
      · rw [parse_append]
        exact iff_of_true rfl hlen
      · rw [parse_append]
        simp [serialize]
    · have hshort := parse_short prev (Nat.not_le.mp hlen)
      refine iff_of_false (fun h => hlen (h.accepted.mp ?_)) hlen
      rw [hshort]
  · have hbytes : frame.serialize.flatten = frame.header.serialize ++ frame.payload.flatten := by
      simp [serialize]
    rw [hbytes, parse_append]
    exact ⟨rfl, rfl, by simp⟩

/-- Three bytes are accepted, as the payload of a frame of which 17 are written. -/
theorem short_accepted :
    EthernetFrame.parse {} [1, 2, 3] = (.noError, { payload := [[1, 2, 3]] }) ∧
      ¬ Exact {} [1, 2, 3] := by
  refine ⟨rfl, fun h => ?_⟩
  have hlen := h.accepted.mp rfl
  revert hlen
  decide

end EthernetFrame

end Sponge
