import Mathlib.Logic.Function.Basic
import Apsdk.AirplayService
import Apsdk.Connection
import Apsdk.MediaHttpService
import Apsdk.ResponseSender

/-! A connection with a client at its other end. The client sends a request only when it
has read the response to the one before. Between the two, bytes arrive in pieces of any size,
and every party may be slow. -/

namespace Apsdk
open Library

/-- A request of a client, with a body as long as the head states. Both are short enough for `int` counters. -/
structure Ask where
  head : RequestHead
  body : Bytes
  stated : contentLengthOf head.lines = body.length
  headCounted : head.bytes.length < 2 ^ 31
  bodyCounted : body.length < 2 ^ 31

def Ask.bytes (ask : Ask) : Bytes := ask.head.bytes ++ ask.body

/-- What the handlers of a connection do with a request and with what is around at that moment: the
state they leave and the response that is posted, if they return. -/
structure Server (State Input : Type) where
  reverses : Request → Bool
  respond : Input → Request → State → Option (State × Option Response)

structure Exchange (State : Type) where
  unsent : List Ask
  awaiting : Bool
  /-- What the client has sent and the connection has not read. -/
  requestBytes : Bytes
  conn : Connection
  world : State
  sender : Sender
  /-- What has been sent to the client and is not part of a response that it has read. -/
  responseBytes : Bytes

inductive ExchangeEvent (Input : Type) where
  | send
  | received (count : Nat) (input : Input)
  | wrote (index count : Nat)
  | answered

/-- A client reads the first response of what has arrived. -/
def readResponse (arrived : Bytes) : Option (Response × Bytes) := do
  let n ← endOfFirst RNRN_LINE_BREAK arrived
  let (accepted, _, res) ← Parser.fresh.parseResponse (.new []) (arrived.take n)
  let rest := arrived.drop n
  if accepted ∧ res.contentLength ≤ rest.length then
    some ({ res with content := rest.take res.contentLength }, rest.drop res.contentLength)
  else none

/-- A connection that is not in use: the object that requests are parsed into, and what the handlers have left. -/
structure Between (State : Type) where
  request : Request
  world : State

namespace Server
variable {State Input : Type} (server : Server State Input)

/-- `process_request` for what the connection hands over; for a response nothing is posted. -/
def handle (input : Input) : List Processed → State → Option (State × List Response)
  | [], world => some (world, [])
  | .request req :: later, world => do
    let (world, posted) ← server.respond input req world
    let (world, posts) ← handle input later world
    return (world, posted.toList ++ posts)
  | .response _ :: later, world => handle input later world

/-- The outputs are the responses that the client has read. -/
def exchange : Machine (Exchange State) (ExchangeEvent Input) Response := fun state event =>
  match event with
  | .send =>
    match state.awaiting, state.unsent with
    | false, ask :: later =>
      some ({ state with unsent := later, awaiting := true, requestBytes := state.requestBytes ++ ask.bytes }, [])
    | _, _ => none
  | .received count input => do
    let (conn, processed) ← Connection.step server.reverses state.conn (.bytes (state.requestBytes.take count))
    let (world, posts) ← server.handle input processed state.world
    return ({ state with
      requestBytes := state.requestBytes.drop count
      conn
      world
      sender := posts.foldl Sender.postSendResponse state.sender }, [])
  | .wrote index count => do
    let (sender, sent) ← Sender.step state.sender (.wroteSome index count)
    return ({ state with sender, responseBytes := state.responseBytes ++ sent }, [])
  | .answered =>
    if state.awaiting then do
      let (res, later) ← readResponse state.responseBytes
      return ({ state with awaiting := false, responseBytes := later }, [res])
    else none

/-- The same requests without a connection in between, each as one call. -/
def call : Machine (Between State) (Ask × Input) Response := fun between event => do
  let (_, _, parsed) ← Parser.fresh.parseRequest between.request event.1.head.bytes
  let request := { parsed with content := event.1.body }
  let (world, posted) ← server.respond event.2 request between.world
  return (⟨request, world⟩, posted.toList)

end Server

/-- A conversation before its first request. -/
def Exchange.start {State : Type} (asks : List Ask) (request response : Nat) (world : State) : Exchange State where
  unsent := asks
  awaiting := false
  requestBytes := []
  conn := .start request response
  world := world
  sender := .idle
  responseBytes := []

section Shared
variable {Index State Input : Type} [DecidableEq Index]

/-- The connections of a service, whose handlers share one state. -/
structure Exchanges (Index State : Type) where
  parties : Index → Exchange State
  world : State

/-- One thread runs the handlers of all connections, and each runs to its end. The state that a party was left with does not
count. -/
def exchanges (servers : Index → Server State Input) :
    Machine (Exchanges Index State) (Index × ExchangeEvent Input) (Index × Response) := fun state event => do
  let (next, outputs) ← (servers event.1).exchange { state.parties event.1 with world := state.world } event.2
  return (⟨Function.update state.parties event.1 next, next.world⟩, outputs.map fun res => (event.1, res))

/-- The connections with nothing on its way. -/
structure Shared (Index State : Type) where
  requests : Index → Request
  world : State

/-- Whole calls, one at a time. -/
def calls (servers : Index → Server State Input) :
    Machine (Shared Index State) (Index × Ask × Input) (Index × Response) := fun shared event => do
  let (between, posts) ← (servers event.1).call ⟨shared.requests event.1, shared.world⟩ event.2
  return (⟨Function.update shared.requests event.1 between.request, between.world⟩, posts.map fun res => (event.1, res))

/-- Conversations before their first requests. -/
def Exchanges.start (asks : Index → List Ask) (world : State) : Exchanges Index State :=
  ⟨fun index => .start (asks index) 0 0 world, world⟩

end Shared

/-- A response that a client with the parser of this program can read. -/
def Response.Counted (res : Response) : Prop := res.serialize.length < 2 ^ 31

instance (res : Response) : Decidable res.Counted := inferInstanceAs (Decidable (_ < _))

namespace Airplay

variable {prims : Primitives}

/-- What is around when a request is processed; the version of the server may stand in a header. -/
structure Surroundings where
  env : Environment
  date : DateText
  configured : IsValue env.config.serverVersion

/-- The handlers of `ap_airplay_connection`, as long as they post what a client can read. -/
def server (prims : Primitives) : Server (World prims) Surroundings where
  reverses req :=
    match RequestRouteTable.queryHandler routeTable req with
    | .ok .postReverse => true
    | _ => false
  respond surroundings req world :=
    let ran := (processRequest surroundings.env surroundings.date req).run world
    match ran.value with
    | .ok posted => if posted.all (fun res => decide res.Counted) then some (ran.state, posted) else none
    | .error _ => none

/-- A connection is alive where the service says so. -/
def Surroundings.within (surroundings : Surroundings) (service : Service prims) : Surroundings where
  env := { surroundings.env with alive := service.alive }
  date := surroundings.date
  configured := surroundings.configured

/-- The handlers of one of the connections of `ap_airplay_service`, as long as it is there and has not been reversed. -/
def serverOf (prims : Primitives) (id : Nat) : Server (Service prims) Surroundings where
  reverses := (server prims).reverses
  respond surroundings req service :=
    match service.members.find? id with
    | some ⟨conn, true⟩ =>
      if conn.isReversed then none
      else do
        let (world, posted) ← (server prims).respond (surroundings.within service) req (service.world conn)
        return (service.update id world, posted)
    | _ => none

end Airplay

namespace MediaHttp
open Airplay

/-- The handler of `ap_casting_media_http_connection`, while the store is left as it is. -/
def server (store : MediaDataStore.Store) : Server Unit DateText where
  reverses _ := false
  respond date req _ :=
    let posted := processRequest store date req
    if posted.all (fun res => decide res.Counted) then some ((), posted) else none

end MediaHttp

end Apsdk
