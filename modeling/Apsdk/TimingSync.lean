import Apsdk.Library.ByteOrder

/-! The query for the time of the peer, as the timing service fills it in where `htonll`
is the macro of `utils.h`. -/

namespace Apsdk.TimingSync
open Library

def rtpTimingQuery : Nat := 82

/-- January 1970, in seconds of NTP. -/
def EPOCH : Nat := 2208988800

def NTP_SCALE_FRAC : Nat := 4294967296

/-- `get_ntp_timestamp` at a time in milliseconds since 1970. The fraction is a product of type `double`, and
the conversion of a negative one to an unsigned number is undefined. -/
def getNtpTimestamp (ms : Int) : Option (BitVec 64) :=
  let seconds := BitVec.ofInt 64 (ms.tdiv 1000 + EPOCH)
  let scaled := ms.tmod 1000 * NTP_SCALE_FRAC
  if scaled < 0 then none
  else
    let fraction := BitVec.ofInt 64 (scaled / 1000)
    some ((seconds <<< 32) ||| fraction)

/-- The order in which the host stores the bytes of a number. -/
inductive ByteOrder where
  | little
  | big
deriving DecidableEq, Repr

/-- `htonl`; the bytes are those of the result on the host. -/
def htonl (order : ByteOrder) (value : BitVec 32) : BitVec 32 :=
  match order with
  | .little => BitVec.ofNat 32 (beValue (leBytes 4 value.toNat))
  | .big => value

/-- The macro `htonll`. Its argument occurs twice: one value of it gives the low word and another one the high word. -/
def htonll (order : ByteOrder) (low high : BitVec 64) : BitVec 64 :=
  ((htonl order (low.setWidth 32)).setWidth 64 <<< 32) + (htonl order ((high >>> 32).setWidth 32)).setWidth 64

def stored (order : ByteOrder) (value : BitVec 64) : Bytes :=
  match order with
  | .little => leBytes 8 value.toNat
  | .big => beBytes 8 value.toNat

/-- `rtp_timming_sync_packet_t`, as far as it is filled in. -/
structure QueryPacket where
  marker : Bool
  payloadType : Nat
  originalTimestamp : BitVec 64
  receiveTimestamp : BitVec 64
  transmitTimestamp : BitVec 64
deriving DecidableEq, Repr

/-- What the compiler decides: the order of bytes, and which operand of the sum is evaluated first. -/
structure Build where
  order : ByteOrder
  lowFirst : Bool
deriving DecidableEq, Repr

/-- `post_send_query`, with the two times at which the clock is read. -/
def postSendQuery (build : Build) (first second : Int) : Option QueryPacket := do
  let earlier ← getNtpTimestamp first
  let later ← getNtpTimestamp second
  let now := if build.lowFirst then htonll build.order earlier later else htonll build.order later earlier
  return ⟨true, rtpTimingQuery, htonll build.order 0 0, htonll build.order 0 0, now⟩

end Apsdk.TimingSync
