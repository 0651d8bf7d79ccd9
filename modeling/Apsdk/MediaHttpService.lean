import Apsdk.RequestRoutes

/-! The service from which the player gets the playlists of the store, over HTTP. -/

namespace Apsdk.MediaHttp
open Library MediaDataStore Airplay

def APPLICATION_MPEGURL : Bytes := ascii "application/x-mpegURL; charset=utf-8"
def HEADER_ALLOW_HEADER : Bytes := ascii "Access-Control-Allow-Headers"
def HEADER_ALLOW_ORIGIN : Bytes := ascii "Access-Control-Allow-Origin"

/-- The only handler. -/
inductive Handler where
  | get
deriving DecidableEq, Repr

variable (store : Store)

def getHandler (req : Request) (res : Response) : Response :=
  let data := store.queryMediaData req.uri
  if data = [] then res.withStatus notFound
  else ((res.withStatus ok).withContentType APPLICATION_MPEGURL).withContentString data

def addCommonHeader (date : DateText) (res : Response) : Response :=
  ((res.withHeader HEADER_DATE date.text).withHeader HEADER_ALLOW_HEADER HEADER_CONTENT_TYPE).withHeader
    HEADER_ALLOW_ORIGIN (ascii "*")

/-- What `initialize_request_handlers` leaves. -/
def routeTable : RequestRouteTable Handler :=
  [RequestRoute.mk (ascii "HTTP") (ascii "GET") (ascii "*") Handler.get].foldl RequestRouteTable.registerRequestRoute .empty

def Handler.run (req : Request) (res : Response) : Handler → Response
  | .get => getHandler store req res

/-- `process_request`; the handlers for what is not found are those of the base class. -/
def processRequest (date : DateText) (req : Request) : Option Response :=
  let res := Response.new req.schemeVersion
  match RequestRouteTable.queryHandler routeTable req with
  | .ok handler => some (addCommonHeader date (handler.run store req res))
  | .error .unknownPath => some (addCommonHeader date (res.withStatus ok))
  | .error .unknownMethod => some (addCommonHeader date (res.withStatus ok))
  | .error .unknownScheme => none

/-- A call of the store, or a request of the player. -/
inductive Event where
  | call (call : Call)
  | request (date : DateText) (req : Request)

/-- The store while it is filled and asked. -/
def step (rewriting : Rewriting) : Machine Store Event Response
  | store, .call call => some ((store.step rewriting call).store, [])
  | store, .request date req => some (store, (processRequest store date req).toList)

end Apsdk.MediaHttp
