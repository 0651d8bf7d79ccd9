import Apsdk.CastingHandlers
import Apsdk.Library.Machine
import Apsdk.MessageGrammar

/-! Dispatching. A request is routed by its scheme, its method and its path to a
handler; what the handler makes of the response is completed and posted. -/

namespace Apsdk
open Library

structure RequestRoute (Handler : Type) where
  scheme : Bytes
  method : Bytes
  path : Bytes
  handler : Handler

inductive RouteError where
  | unknownScheme
  | unknownMethod
  | unknownPath
deriving DecidableEq, Repr

abbrev PathMap (Handler : Type) := SortedMap Bytes Handler
abbrev MethodMap (Handler : Type) := SortedMap Bytes (PathMap Handler)

/-- `route_table_`. -/
abbrev RequestRouteTable (Handler : Type) := SortedMap Bytes (MethodMap Handler)

namespace RequestRouteTable
variable {Handler : Type}

def registerRequestRoute (table : RequestRouteTable Handler) (route : RequestRoute Handler) : RequestRouteTable Handler :=
  match table.find? route.scheme with
  | none => table.insert route.scheme (SortedMap.empty.insert route.method (SortedMap.empty.insert route.path route.handler))
  | some methodPath =>
    match methodPath.find? route.method with
    | none => table.insert route.scheme (methodPath.insert route.method (SortedMap.empty.insert route.path route.handler))
    | some pathHandler =>
      table.insert route.scheme (methodPath.insert route.method (pathHandler.insert route.path route.handler))

/-- The part of a text before the first occurrence of a byte, where there is one. -/
def before (stop : UInt8) (text : Bytes) : Option Bytes :=
  if stop ∈ text then some (text.takeWhile (· ≠ stop)) else none

def queryHandler (table : RequestRouteTable Handler) (req : Request) : Except RouteError Handler :=
  let scheme := (before 47 req.schemeVersion).getD []
  match table.find? scheme with
  | none => .error .unknownScheme
  | some methodPath =>
    match methodPath.find? req.method with
    | none => .error .unknownMethod
    | some pathHandler =>
      let path := (before 63 req.uri).getD req.uri
      match pathHandler.find? path with
      | some handler => .ok handler
      | none =>
        match pathHandler.find? (ascii "*") with
        | some handler => .ok handler
        | none => .error .unknownPath

end RequestRouteTable

namespace Airplay
open Traced

/-- The handlers that are registered. -/
inductive Handler where
  | options
  | postPairSetup
  | postPairVerify
  | postFpSetup
  | setup
  | getInfo
  | postFeedback
  | record
  | getParameter
  | setParameter
  | teardown
  | flush
  | postAudioMode
  | getServerInfo
  | postFpSetup2
  | postReverse
  | postPlay
  | postScrub
  | postRate
  | postStop
  | postAction
  | getPlaybackInfo
  | putSetProperty
  | postGetProperty
deriving DecidableEq, Repr

variable {prims : Primitives} (env : Environment)

def Handler.run (req : Request) (res : Response) : Handler → Handling prims Response
  | .options => optionsHandler res
  | .postPairSetup => postPairSetupHandler req res
  | .postPairVerify => postPairVerifyHandler req res
  | .postFpSetup => postFpSetupHandler req res
  | .setup => setupHandler env req res
  | .getInfo => getInfoHandler env res
  | .postFeedback => postFeedbackHandler res
  | .record => recordHandler res
  | .getParameter => getParameterHandler res
  | .setParameter => setParameterHandler env req res
  | .teardown => teardownHandler env req res
  | .flush => flushHandler res
  | .postAudioMode => Airplay.postAudioMode res
  | .getServerInfo => getServerInfoHandler env res
  | .postFpSetup2 => postFpSetup2Handler res
  | .postReverse => postReverseHandler req res
  | .postPlay => postPlayHandler env req res
  | .postScrub => postScrubHandler env req res
  | .postRate => postRateHandler env req res
  | .postStop => postStopHandler res
  | .postAction => postActionHandler env req res
  | .getPlaybackInfo => getPlaybackInfoHandler env res
  | .putSetProperty => putSetPropertyHandler env req res
  | .postGetProperty => postGetPropertyHandler res

def route (scheme method path : String) (handler : Handler) : RequestRoute Handler :=
  ⟨ascii scheme, ascii method, ascii path, handler⟩

def routesTable : List (RequestRoute Handler) :=
  [route "RTSP" "OPTIONS" "" .options,
    route "RTSP" "POST" "/pair-setup" .postPairSetup,
    route "RTSP" "POST" "/pair-verify" .postPairVerify,
    route "RTSP" "POST" "/fp-setup" .postFpSetup,
    route "RTSP" "SETUP" "*" .setup,
    route "RTSP" "GET" "/info" .getInfo,
    route "RTSP" "POST" "/feedback" .postFeedback,
    route "RTSP" "RECORD" "*" .record,
    route "RTSP" "GET_PARAMETER" "*" .getParameter,
    route "RTSP" "SET_PARAMETER" "*" .setParameter,
    route "RTSP" "TEARDOWN" "*" .teardown,
    route "RTSP" "FLUSH" "*" .flush,
    route "RTSP" "POST" "/audioMode" .postAudioMode,
    route "HTTP" "GET" "/server-info" .getServerInfo,
    route "HTTP" "POST" "/fp-setup" .postFpSetup,
    route "HTTP" "POST" "/fp-setup2" .postFpSetup2,
    route "HTTP" "POST" "/reverse" .postReverse,
    route "HTTP" "POST" "/play" .postPlay,
    route "HTTP" "POST" "/scrub" .postScrub,
    route "HTTP" "POST" "/rate" .postRate,
    route "HTTP" "POST" "/stop" .postStop,
    route "HTTP" "POST" "/action" .postAction,
    route "HTTP" "GET" "/playback-info" .getPlaybackInfo,
    route "HTTP" "PUT" "/setProperty" .putSetProperty,
    route "HTTP" "POST" "/getProperty" .postGetProperty]

/-- What `initialize_request_handlers` leaves. -/
def routeTable : RequestRouteTable Handler :=
  routesTable.foldl RequestRouteTable.registerRequestRoute .empty

def HEADER_DATE : Bytes := ascii "Date"
def HEADER_SERVER : Bytes := ascii "Server"
def HEADER_SESSION : Bytes := ascii "Session"
def HEADER_CSEQ : Bytes := ascii "CSeq"
def HEADER_AUDIO_JACK_STATUS : Bytes := ascii "Audio-Jack-Status"

/-- `gmt_time_string`, which `strftime` makes of visible characters and blanks. -/
structure DateText where
  text : Bytes
  plain : IsValue text

def addCommonHeader (date : DateText) (req : Request) (res : Response) : Response :=
  let res := res.withHeader HEADER_DATE date.text
  let res := (res.withHeader HEADER_SERVER (ascii "AirTunes/" ++ env.config.serverVersion)).withHeader HEADER_SESSION
    (ascii "CAFEBABE")
  let res := match req.headers.find? HEADER_CSEQ with
    | some cseq => res.withHeader HEADER_CSEQ cseq
    | none => res
  if req.method ≠ ascii "RECORD" ∧ req.method ≠ ascii "SET_PARAMETER" then
    res.withHeader HEADER_AUDIO_JACK_STATUS (ascii "Connected; type=digital")
  else res

def pathNotFoundHandler (res : Response) : Handling prims Response := return res.withStatus ok

def methodNotFoundHandler (res : Response) : Handling prims Response := return res.withStatus ok

/-- The response that is posted, if one is. -/
def processRequest (date : DateText) (req : Request) : Handling prims (Option Response) := do
  let res := Response.new req.schemeVersion
  match RequestRouteTable.queryHandler routeTable req with
  | .ok handler =>
    let res ← handler.run env req res
    return some (addCommonHeader env date req res)
  | .error .unknownPath =>
    let res ← pathNotFoundHandler res
    return some (addCommonHeader env date req res)
  | .error .unknownMethod =>
    let res ← methodNotFoundHandler res
    return some (addCommonHeader env date req res)
  | .error .unknownScheme => return none

/-- A head that the parser accepts with the body behind it, and what is around when it is processed. -/
structure Message where
  head : RequestHead
  body : Bytes
  env : Environment
  date : DateText

/-- A connection that receives requests into one request object. -/
structure Session (prims : Primitives) where
  parser : Parser
  request : Request
  world : World prims

/-- A request is parsed and processed. The step is disabled where its handler does not return. How far `parse` can
count is a matter of the connection that the head comes from. -/
def Session.step : Machine (Session prims) Message Response := fun session message =>
  let (accepted, parser, request) := session.parser.scanRequest session.request message.head.bytes
  let request := { request with content := message.body }
  let ran := (processRequest message.env message.date request).run session.world
  match ran.value with
  | .ok posted => if accepted then some (⟨parser, request, ran.state⟩, posted.toList) else none
  | .error _ => none

end Airplay
end Apsdk
