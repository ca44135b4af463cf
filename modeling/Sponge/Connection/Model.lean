import Sponge.Receiver.Model
import Sponge.Sender.State

/-!
# The TCP connection

One endpoint: a sender, a receiver and the outgoing queue. The application calls
`connect`, `write`, `endInputStream` and reads the inbound stream; the owner
calls `tick` and `segmentReceived` and takes what `segmentsOut` holds.
-/

namespace Sponge

structure TCPConnection where
  cfg : TCPConfig
  receiver : TCPReceiver
  sender : TCPSender
  active : Bool := true
  synSended : Bool := false
  timeSinceLastSegmentReceived : Nat := 0
  needSendRst : Bool := false
  segmentsOut : List TCPSegment := []
  lingerAfterStreamsFinish : Bool := true
  deriving DecidableEq, Repr

namespace TCPConnection

/-- The constructor; `none` when the receiver's throws, and `random` is what `random_device`
returns. -/
def mk? (cfg : TCPConfig) (random : UInt32) : Option TCPConnection :=
  (TCPReceiver.mk? cfg.recvCapacity).map fun r =>
    { cfg := cfg
      receiver := r
      sender := TCPSender.new cfg.sendCapacity cfg.rtTimeout cfg.fixedIsn random }

def inboundStream (c : TCPConnection) : ByteStream := c.receiver.streamOut

/-- The inbound stream has ended and the outbound one, too: linger, or close. -/
def cleanShutdown (c : TCPConnection) : TCPConnection :=
  let c := if c.receiver.streamOut.inputEnded && !c.sender.stream.eof then
    { c with lingerAfterStreamsFinish := false } else c
  if c.receiver.streamOut.inputEnded && c.sender.stream.eof && c.sender.bytesInFlight == 0 then
    if c.lingerAfterStreamsFinish = false ∨
        c.timeSinceLastSegmentReceived ≥ 10 * c.cfg.rtTimeout.toNat then
      { c with active := false }
    else c
  else c

/-- An outgoing segment with the receiver's ackno and window, and the RST flag. -/
def stamp (c : TCPConnection) (seg : TCPSegment) : TCPSegment :=
  let seg := match c.receiver.acknoOut with
    | some ackno => { seg with header := { seg.header with
        ack := true, ackno := ackno, win := UInt16.ofNat c.receiver.windowSize } }
    | none => seg
  if c.needSendRst then { seg with header := { seg.header with rst := true } } else seg

def segmentSends (c : TCPConnection) (sendSyn : Bool) : TCPConnection :=
  if sendSyn = false ∧ c.synSended = false then c
  else
    let c := { c with synSended := true, sender := c.sender.fillWindow }
    let c := { c with
      segmentsOut := c.segmentsOut ++ c.sender.segmentsOut.map c.stamp
      sender := { c.sender with segmentsOut := [] } }
    c.cleanShutdown

def connect (c : TCPConnection) : TCPConnection := c.segmentSends true

def uncleanShutdown (c : TCPConnection) (sendRst : Bool) : TCPConnection :=
  let c := { c with
    receiver := { c.receiver with reassembler :=
      { c.receiver.reassembler with output := c.receiver.reassembler.output.setError } }
    sender := { c.sender with stream := c.sender.stream.setError }
    lingerAfterStreamsFinish := false
    active := false }
  if sendRst then
    let c := { c with needSendRst := true }
    let c := if c.sender.segmentsOut.isEmpty then
      { c with sender := c.sender.sendEmptySegment } else c
    c.segmentSends false
  else c

/-- An ack is passed to the sender unless nothing has been sent yet. -/
def acceptAck (c : TCPConnection) (seg : TCPSegment) : TCPConnection :=
  if seg.header.ack && decide (c.sender.nextSeqno > 0) then
    { c with sender := c.sender.ackReceived seg.header.ackno seg.header.win }
  else c

/-- What follows once the sender and the receiver have seen the segment. -/
def reply (c : TCPConnection) (seg : TCPSegment) : TCPConnection :=
  if seg.header.syn && c.sender.nextSeqno == 0 then c.connect
  else if seg.header.rst then
    if c.sender.stateSummary = .synSent ∧ seg.header.ack = false then c
    else c.uncleanShutdown false
  else
    let c := if decide (seg.lengthInSequenceSpace > 0) && c.receiver.acknoOut.isSome &&
        c.sender.segmentsOut.isEmpty then
      { c with sender := c.sender.sendEmptySegment } else c
    c.segmentSends false

def segmentReceived (c : TCPConnection) (seg : TCPSegment) : TCPConnection :=
  if c.active = false then c
  else
    let c := { c with timeSinceLastSegmentReceived := 0 }
    if c.sender.stateSummary = .synSent ∧ seg.header.ack = true ∧ seg.payload.length ≠ 0 then c
    else
      let c := c.acceptAck seg
      let c := { c with receiver := c.receiver.segmentReceived seg }
      c.reply seg

/-- Write to the outbound stream; the second component is the number of bytes accepted. -/
def write (c : TCPConnection) (data : List UInt8) : TCPConnection × Nat :=
  (({ c with sender := c.sender.write data }).segmentSends false, (c.sender.stream.write data).2)

def tick (c : TCPConnection) (msSinceLastTick : Nat) : TCPConnection :=
  if c.active = false then c
  else
    let c := { c with
      timeSinceLastSegmentReceived :=
        (c.timeSinceLastSegmentReceived + msSinceLastTick) % 2 ^ 64
      sender := c.sender.tick msSinceLastTick }
    let c := if c.sender.consecutiveRetrans > TCPConfig.MAX_RETX_ATTEMPTS then
      c.uncleanShutdown true else c
    c.segmentSends false

def endInputStream (c : TCPConnection) : TCPConnection :=
  ({ c with sender := c.sender.endInput }).segmentSends false

/-- The application reads `n` bytes from the inbound stream. -/
def readInbound (c : TCPConnection) (n : Nat) : TCPConnection :=
  { c with receiver := c.receiver.readOut n }

end TCPConnection

end Sponge
