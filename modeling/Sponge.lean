import Sponge.Lib.Run
import Sponge.Lib.Pieces
import Sponge.Lib.Bytes
import Sponge.Lib.Checksum
import Sponge.Lib.SoftState
import Sponge.Lib.Count
import Sponge.WrappingIntegers
import Sponge.ByteStream
import Sponge.Storage.Stream
import Sponge.Reassembler.Assembly
import Sponge.Reassembler.Ending
import Sponge.Reassembler.Accounting
import Sponge.Reassembler.Iterators
import Sponge.Receiver.Finish
import Sponge.Receiver.Outside
import Sponge.Sender.Transcript
import Sponge.Sender.Window
import Sponge.Sender.Fill
import Sponge.Sender.Ended
import Sponge.Connection.Silence
import Sponge.Connection.Listen
import Sponge.Connection.Answer
import Sponge.Connection.Close
import Sponge.Connection.Handshake
import Sponge.Connection.Probe
import Sponge.Connection.Backoff
import Sponge.Connection.Advertise
import Sponge.Connection.Heard
import Sponge.Network.Acked
import Sponge.Wire.Datagram
import Sponge.Wire.Segment
import Sponge.Wire.Encapsulation
import Sponge.Wire.Filter
import Sponge.Wire.Checksum
import Sponge.Wire.Frame
import Sponge.Interface.Delivery
import Sponge.Interface.Resolve
import Sponge.Interface.Aging
import Sponge.Interface.Ignored
import Sponge.Router.Forward
import Sponge.Router.Lookup
import Sponge.Connection.Transitions
import Sponge.Network.Close
import Sponge.Internet.Refine
import Sponge.Apps.StreamCopy
import Sponge.Socket.Delivery
import Sponge.Datagram.Refine
import Sponge.Apps.Lab7
