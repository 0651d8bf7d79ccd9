import Apsdk.Library.Machine
import Apsdk.Message

/-! The sending side of `xtxp_connection_base`. Every response is appended to the
one `out_stream_` and starts a write of its own, which sends what is buffered at
that moment, in as many pieces as the socket takes, and consumes it when done. -/

namespace Apsdk
open Library

/-- An `async_write` that has not completed, with the bytes it was started with. -/
structure PendingWrite where
  data : Bytes
  transferred : Nat
deriving DecidableEq, Repr

structure Sender where
  outStream : Bytes
  writes : List PendingWrite
deriving DecidableEq, Repr

/-- A response is posted, or the socket takes some bytes of a pending write, or
a pending write ends early with an error. -/
inductive SendEvent where
  | postSendResponse (res : Response)
  | wroteSome (index count : Nat)
  | failed (index : Nat)
deriving DecidableEq

namespace Sender

def idle : Sender := ⟨[], []⟩

def postSendResponse (sender : Sender) (res : Response) : Sender :=
  let outStream := sender.outStream ++ res.serialize
  ⟨outStream, sender.writes ++ [⟨outStream, 0⟩]⟩

/-- The completion of a write: `buffers_.consume`, then `on_response_sent`, which does nothing. -/
def complete (sender : Sender) (index bytesTransferred : Nat) : Sender :=
  ⟨sender.outStream.drop bytesTransferred, sender.writes.eraseIdx index⟩

/-- The outputs are the bytes that the socket takes. -/
def step : Machine Sender SendEvent UInt8
  | sender, .postSendResponse res => some (sender.postSendResponse res, [])
  | sender, .wroteSome index count => do
    let write ← sender.writes[index]?
    let transferred := write.transferred + count
    if 0 < count ∧ transferred ≤ write.data.length then
      let sent := (write.data.drop write.transferred).take count
      if transferred = write.data.length then some (sender.complete index transferred, sent)
      else some ({ sender with writes := sender.writes.set index { write with transferred } }, sent)
    else none
  | sender, .failed index => do
    let write ← sender.writes[index]?
    some (sender.complete index write.transferred, [])

/-- The responses that are posted in a trace, in order. -/
def posted (trace : List SendEvent) : List Response :=
  trace.filterMap fun
    | .postSendResponse res => some res
    | .wroteSome .. => none
    | .failed .. => none

/-- No response is posted while a write is pending. -/
def Sequential : Sender → List SendEvent → Prop
  | _, [] => True
  | sender, event :: later =>
    (∀ res, event = .postSendResponse res → sender.writes = []) ∧
    ∀ next sent, step sender event = some (next, sent) → Sequential next later

end Sender
end Apsdk
