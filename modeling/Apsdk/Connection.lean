import Apsdk.Library.Machine
import Apsdk.Library.ReadLoop
import Apsdk.MessageParser

/-! The receiving side of `xtxp_connection_base`: a message head is read up to the
first empty line, then as much of a body as its Content-Length asks for, and the
message is processed before the next head is read. A connection that has been
reversed receives responses instead of requests. -/

namespace Apsdk
open Library

/-- The subtraction of `size_t` values, which wraps. -/
def sizeSub (minuend subtrahend : Nat) : Nat := (minuend + (2 ^ 64 - subtrahend % 2 ^ 64)) % 2 ^ 64

/-- `max_size` of a `streambuf`. -/
def streambufMaxSize : Nat := 2 ^ 64 - 1

/-- `consume` of a `streambuf`, which moves the get pointer by what a cast to `int` leaves of the number. Where
that is negative, the pointer goes back to bytes that have been read before. -/
def streambufConsume (buffer : Bytes) (n : Nat) : Option Bytes :=
  let moved := min n buffer.length % 2 ^ 32
  if moved < 2 ^ 31 then some (buffer.drop moved) else none

/-- The read that is pending. -/
inductive Pending where
  | head
  | content
  | stopped
  /-- The counter of `parse` has overflowed, or the get pointer of `in_stream_` has gone back. -/
  | undefined
deriving DecidableEq, Repr

structure Connection where
  request : Request
  response : Response
  isReversed : Bool
  inStream : Bytes
  parser : Parser
  pending : Pending
deriving DecidableEq

/-- The messages that `process_request` and `process_response` are called for. -/
inductive Processed where
  | request (req : Request)
  | response (res : Response)
deriving DecidableEq

namespace Connection

/-- `async_read_until` asks for nothing more once the buffer holds an empty line, or after an error. -/
def headLimit : ReadLimit := fun failed buffer =>
  if failed || (endOfFirst RNRN_LINE_BREAK buffer).isSome then 0 else streambufMaxSize - buffer.length

def bodyCompletionCondition (conn : Connection) (_error : Bool) : Nat :=
  sizeSub conn.request.contentLength conn.inStream.length

/-- `async_read` asks for what the completion condition allows. -/
def bodyLimit (conn : Connection) : ReadLimit := fun failed buffer =>
  min (bodyCompletionCondition { conn with inStream := buffer } failed) (streambufMaxSize - buffer.length)

def postReceiveMessageHead (conn : Connection) : Connection := { conn with pending := .head }

def postReceiveMessageContent (conn : Connection) : Connection :=
  if conn.isReversed then { conn with response := { conn.response with content := [] }, pending := .content }
  else { conn with request := { conn.request with content := [] }, pending := .content }

def stop (conn : Connection) : Connection := { conn with pending := .stopped }

def undefined (conn : Connection) : Connection := { conn with pending := .undefined }

variable (reverses : Request → Bool)

/-- The handler of a request may call `reverse`. -/
def processRequest (conn : Connection) : Connection × List Processed :=
  ({ conn with isReversed := conn.isReversed || reverses conn.request }, [.request conn.request])

def processResponse (conn : Connection) : Connection × List Processed := (conn, [.response conn.response])

/-- Hands the message to its handler and posts the next read. -/
def process (conn : Connection) : Connection × List Processed :=
  let (conn, processed) := if conn.isReversed then conn.processResponse else conn.processRequest reverses
  (conn.postReceiveMessageHead, processed)

/-- The message gets all that is in the buffer. -/
def assignContent (conn : Connection) : Connection :=
  if conn.isReversed then { conn with response := { conn.response with content := conn.inStream } }
  else { conn with request := { conn.request with content := conn.inStream } }

/-- The whole buffer is assigned and consumed, and the message handed over. -/
def deliver (conn : Connection) : Connection × List Processed :=
  match streambufConsume conn.inStream conn.inStream.length with
  | some inStream => { conn.assignContent with inStream }.process reverses
  | none =>
    -- It is only the read for the next head that looks for bytes behind the get pointer.
    let (conn, processed) := conn.assignContent.process reverses
    (conn.undefined, processed)

def parseHead (conn : Connection) (head : Bytes) : Option (Bool × Connection) :=
  if conn.isReversed then do
    let (accepted, parser, response) ← conn.parser.parseResponse conn.response head
    return (accepted, { conn with parser, response })
  else do
    let (accepted, parser, request) ← conn.parser.parseRequest conn.request head
    return (accepted, { conn with parser, request })

def contentLength (conn : Connection) : Nat :=
  if conn.isReversed then conn.response.contentLength else conn.request.contentLength

/-- What `on_message_head_received` does behind a head that has been accepted and consumed. -/
def headAccepted (conn : Connection) : Connection × List Processed :=
  if conn.contentLength = 0 then conn.process reverses
  else if sizeSub conn.contentLength conn.inStream.length ≠ 0 then (conn.postReceiveMessageContent, [])
  else if conn.inStream = [] then conn.process reverses
  else conn.deliver reverses

/-- `on_message_head_received` without an error. `parse` works on a copy of the head. -/
def headReceived (conn : Connection) (bytesTransferred : Nat) : Connection × List Processed :=
  let headData := conn.inStream.take bytesTransferred
  let consumed := streambufConsume conn.inStream bytesTransferred
  match conn.parseHead headData, consumed with
  | none, _ => (conn.undefined, [])
  | some (false, conn), _ => (conn.stop, [])
  | some (true, conn), none => (conn.undefined, [])
  | some (true, conn), some inStream => { conn with inStream }.headAccepted reverses

def onMessageHeadReceived (conn : Connection) (failed : Bool) : Connection × List Processed :=
  if failed then (conn.stop, [])
  else
    match endOfFirst RNRN_LINE_BREAK conn.inStream with
    | none => (conn.stop, [])
    | some bytesTransferred => conn.headReceived reverses bytesTransferred

def onMessageContentReceived (conn : Connection) (failed : Bool) : Connection × List Processed :=
  if failed then (conn.stop, []) else conn.deliver reverses

/-- One round of the pending read, and its handler when the round ends it. -/
def step : Machine Connection Received Processed := fun conn event =>
  match conn.pending with
  | .head => do
    match ← ReadLoop.round headLimit conn.inStream event with
    | .reading inStream => return ({ conn with inStream }, [])
    | .finished failed inStream => return { conn with inStream }.onMessageHeadReceived reverses failed
  | .content => do
    match ← ReadLoop.round conn.bodyLimit conn.inStream event with
    | .reading inStream => return ({ conn with inStream }, [])
    | .finished failed inStream => return { conn with inStream }.onMessageContentReceived reverses failed
  | .stopped | .undefined => none

/-- A connection on which nothing has been received. The constructors leave the
lengths of the two messages unset. -/
def start (request response : Nat) : Connection where
  request := { Request.new [] [] [] with contentLength := request }
  response := { Response.new [] with contentLength := response }
  isReversed := false
  inStream := []
  parser := .fresh
  pending := .head

end Connection
end Apsdk
