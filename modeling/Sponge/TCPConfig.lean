import Sponge.WrappingIntegers

/-!
# The configuration of a TCP endpoint
-/

namespace Sponge

namespace TCPConfig

def DEFAULT_CAPACITY : Nat := 64000

def MAX_PAYLOAD_SIZE : Nat := 1000

def TIMEOUT_DFLT : UInt16 := 1000

def MAX_RETX_ATTEMPTS : UInt32 := 8

end TCPConfig

structure TCPConfig where
  rtTimeout : UInt16 := TCPConfig.TIMEOUT_DFLT
  recvCapacity : Nat := TCPConfig.DEFAULT_CAPACITY
  sendCapacity : Nat := TCPConfig.DEFAULT_CAPACITY
  fixedIsn : Option WrappingInt32 := none
  deriving DecidableEq, Repr

end Sponge
