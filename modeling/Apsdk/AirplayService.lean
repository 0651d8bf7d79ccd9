import Apsdk.RequestRoutes

/-! `ap_airplay_service`: connections are accepted, requests are processed on each of
them, and a connection is destroyed when nothing refers to it any more. All of them
share the store of playlists and the manager of event connections. -/

namespace Apsdk.Airplay
open Library Traced

variable {prims : Primitives}

/-- A connection that has been released is no longer locked by weak pointers, but its destructor has not run yet. -/
structure Member (prims : Primitives) where
  conn : Connection prims
  alive : Bool

structure Service (prims : Primitives) where
  /-- The identity of the next connection. -/
  next : Nat
  members : SortedMap Nat (Member prims)
  store : MediaDataStore.Store
  eventConnections : SortedMap Bytes Nat
  allocations : Nat

/-- A request, and what is around when it is processed. -/
structure Dispatch where
  env : Environment
  date : DateText
  req : Request

inductive ServiceEvent where
  /-- What `init_session_id` draws, the keys of `ap_crypto`, and whether the service has a handler. -/
  | accept (sessionId : UInt64) (server : ServerKeyChain) (handler : Bool)
  | request (id : Nat) (dispatch : Dispatch)
  | release (id : Nat)
  | destroy (id : Nat)

/-- What the application sees of a session, and the type of it after a request. -/
inductive Observation where
  | onSessionBegin (sessionId : UInt64)
  | onSessionEnd (sessionId : UInt64)
  | sessionType (type : SessionType)
deriving DecidableEq, Repr

def Event.observation : Event → Option Observation
  | .call (.onSessionBegin sessionId) => some (.onSessionBegin sessionId)
  | _ => none

namespace Connection

/-- The body of `~ap_airplay_connection` as far as the event connections go. -/
def unregister (conn : Connection prims) (eventConnections : SortedMap Bytes Nat) : SortedMap Bytes Nat :=
  if conn.isReversed then eventConnections.erase conn.appleSessionId else eventConnections

/-- The end of a session in `~ap_airplay_connection`. -/
def endSession (conn : Connection prims) : List Observation :=
  match conn.sessionType with
  | .casting => if conn.handler then [.onSessionEnd conn.sessionId] else []
  | .mirroring => if conn.handler then [.onSessionEnd conn.sessionId] else []
  | .unknown => []

end Connection

namespace Service

def start (requestId : UInt32) : Service prims := ⟨0, .empty, .new requestId, .empty, 0⟩

def alive (service : Service prims) (id : Nat) : Bool := (service.members.find? id).any Member.alive

def world (service : Service prims) (conn : Connection prims) : World prims :=
  ⟨conn, service.store, service.eventConnections, service.allocations⟩

def update (service : Service prims) (id : Nat) (world : World prims) : Service prims :=
  { service with
    members := service.members.insert id ⟨world.conn, true⟩
    store := world.store
    eventConnections := world.eventConnections
    allocations := world.allocations }

def process (service : Service prims) (dispatch : Dispatch) (conn : Connection prims) :
    Execution Event (World prims) (Option Response) :=
  (processRequest { dispatch.env with alive := service.alive } dispatch.date dispatch.req).run (service.world conn)

/-- `ap_casting_event_connection_manager::get`, where it can be locked. -/
def eventConnection (service : Service prims) (session : Bytes) : Option Nat :=
  (service.eventConnections.find? session).filter service.alive

/-- The event connections of a service take responses in place of requests. A step
is disabled where the handler of a request does not return. -/
def step : Machine (Service prims) ServiceEvent (Nat × Observation) := fun service event =>
  match event with
  | .accept sessionId server handler =>
    some ({ service with
      next := service.next + 1
      members := service.members.insert service.next ⟨.new prims service.next sessionId server handler, true⟩ }, [])
  | .request id dispatch =>
    match service.members.find? id with
    | some ⟨conn, true⟩ =>
      if conn.isReversed then none
      else
        let ran := service.process dispatch conn
        match ran.value with
        | .ok _ =>
          let observations := ran.events.filterMap Event.observation ++ [.sessionType ran.state.conn.sessionType]
          some (service.update id ran.state, observations.map fun observation => (id, observation))
        | .error _ => none
    | _ => none
  | .release id =>
    match service.members.find? id with
    | some ⟨conn, true⟩ => some ({ service with members := service.members.insert id ⟨conn, false⟩ }, [])
    | _ => none
  | .destroy id =>
    match service.members.find? id with
    | some ⟨conn, false⟩ =>
      some ({ service with
        members := service.members.erase id
        eventConnections := conn.unregister service.eventConnections },
        conn.endSession.map fun observation => (id, observation))
    | _ => none

end Service
end Apsdk.Airplay
