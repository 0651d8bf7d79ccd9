import Apsdk.Message

/-! The store of playlists for casting. It asks the client for the primary playlist
of a video, then for one collected URI after the other, and rewrites what it is
given for the player. -/

namespace Apsdk.MediaDataStore
open Library

inductive AppId where
  | youtube
  | netflix
  | unknown
deriving DecidableEq, Repr

def MLHLS_SCHEME : Bytes := ascii "mlhls://"
def NFHLS_SCHEME : Bytes := ascii "nfhls://"
def SCHEME_LIST : List Bytes := [MLHLS_SCHEME, NFHLS_SCHEME]
def HOST_LIST : List Bytes := [ascii "localhost", ascii "127.0.0.1"]
def MASTER_M3U8 : Bytes := ascii "master.m3u8"
def INDEX_M3U8 : Bytes := ascii "index.m3u8"
def HTTP_SCHEME : Bytes := ascii "http://"
def HEADER_APPLE_SESSION_ID : Bytes := ascii "X-Apple-Session-ID"

/-- The lists of a parsed master playlist: the URI of each entry, where it has one. -/
structure MasterPlaylist where
  media : List (Option Bytes)
  streamInfs : List (Option Bytes)
deriving DecidableEq, Repr

/-- What the store leaves to others: `hlsparse_master`, which may reject a document,
and the expansion of condensed playlists, whose regular expression may be malformed. -/
structure Rewriting where
  hlsparseMaster : Bytes → Option MasterPlaylist
  adjustSecondaryMediaData : Bytes → Option Bytes

structure Store where
  appId : AppId
  requestId : UInt32
  sessionId : Bytes
  primaryUri : Bytes
  /-- The top of the stack first. -/
  uriStack : List Bytes
  host : Bytes
  mediaData : SortedMap Bytes Bytes
deriving DecidableEq

/-- A request that the store sends for a URI. -/
structure FcupRequest where
  requestId : UInt32
  uri : Bytes
  sessionId : Bytes
deriving DecidableEq, Repr

/-- What escapes from `process_media_data`. -/
inductive Fault where
  | outOfRange
  | regexError
deriving DecidableEq, Repr

def line (text : String) : Bytes := ascii text ++ [10]

/-- The property list in the body of `send_fcup_request`. -/
def FcupRequest.body (fcup : FcupRequest) : Bytes :=
  line "<?xml version=\"1.0\" encoding=\"UTF-8\"?>" ++
  line "<!DOCTYPE plist PUBLIC \"-//Apple//DTD PLIST 1.0//EN\" \"http://www.apple.com/DTDs/PropertyList-1.0.dtd\">" ++
  line "<plist version=\"1.0\">" ++
  line "\t<dict>" ++
  line "\t\t<key>sessionID</key>" ++
  line "\t\t<integer>1</integer>" ++
  line "\t\t<key>type</key>" ++
  line "\t\t<string>unhandledURLRequest</string>" ++
  line "\t\t<key>request</key>" ++
  line "\t\t<dict>" ++
  line "\t\t\t<key>FCUP_Response_ClientInfo</key>" ++
  line "\t\t\t<integer>1</integer>" ++
  line "\t\t\t<key>FCUP_Response_ClientRef</key>" ++
  line "\t\t\t<integer>40030004</integer>" ++
  line "\t\t\t<key>FCUP_Response_RequestID</key>" ++
  ascii "\t\t\t<integer>" ++ ascii (toString fcup.requestId.toNat) ++ line "</integer>" ++
  line "\t\t\t<key>FCUP_Response_URL</key>" ++
  ascii "\t\t\t<string>" ++ fcup.uri ++ line "</string>" ++
  line "\t\t\t<key>sessionID</key>" ++
  line "\t\t\t<integer>1</integer>" ++
  line "\t\t\t<key>FCUP_Response_Headers</key>" ++
  line "\t\t\t<dict>" ++
  line "\t\t\t\t<key>X-Playback-Session-Id</key>" ++
  ascii "\t\t\t\t<string>" ++ fcup.sessionId ++ line "</string>" ++
  line "\t\t\t\t<key>User-Agent</key>" ++
  line "\t\t\t\t<string>AppleCoreMedia/1.0.0.11B554a (Apple TV; U; CPU OS 7_0_4 like Mac OS X; en_us)</string>" ++
  line "\t\t\t</dict>" ++
  line "\t\t</dict>" ++
  line "\t</dict>" ++
  ascii "</plist>"

def FcupRequest.message (fcup : FcupRequest) : Request :=
  let request := Request.new (ascii "HTTP/1.1") (ascii "POST") (ascii "/event")
  { request with
    toMessage := ((request.withHeader HEADER_APPLE_SESSION_ID fcup.sessionId).withContentType
      TEXT_APPLE_PLIST_XML).withContentString fcup.body }

namespace Store

/-- A constructed store; `request_id_` is not initialised. -/
def new (requestId : UInt32) : Store := ⟨.unknown, requestId, [], [], [], [], .empty⟩

def setStoreRoot (store : Store) (port : UInt16) : Store :=
  { store with host := ascii "localhost:" ++ ascii (toString port.toNat) }

def getAppId (uri : Bytes) : AppId :=
  if MLHLS_SCHEME.isPrefixOf uri then .youtube
  else if NFHLS_SCHEME.isPrefixOf uri then .netflix
  else .unknown

def reset (store : Store) : Store :=
  { store with appId := .unknown, requestId := 1, sessionId := [], primaryUri := [], uriStack := [], mediaData := .empty }

def addMediaData (store : Store) (uri data : Bytes) : Store :=
  { store with mediaData := store.mediaData.insert uri data }

/-- `strstr` looks at the bytes before the first zero only. -/
def isPrimaryDataUri (uri : Bytes) : Bool :=
  let text := uri.takeWhile (· ≠ 0)
  contains MASTER_M3U8 text || contains INDEX_M3U8 text

/-- The request goes out if the event connection of the session is `connected`; the number is used up anyway. -/
def sendFcupRequest (store : Store) (connected : Bool) (uri : Bytes) : Store × List FcupRequest :=
  ({ store with requestId := store.requestId + 1 },
    if connected then [⟨store.requestId, uri, store.sessionId⟩] else [])

def adjustPrimaryUri (store : Store) (uri : Bytes) : Bytes :=
  replaceAll HOST_LIST store.host (replaceAll SCHEME_LIST HTTP_SCHEME uri)

def extractNetflixPath (uri : Bytes) : Option Bytes :=
  match replaceAll HOST_LIST [] (replaceAll [NFHLS_SCHEME] [] uri) with
  -- `s.at(0)` throws.
  | [] => none
  | first :: rest => some (if first ≠ 47 then 47 :: first :: rest else first :: rest)

/-- The case for `e_app_youtube` falls through to the next one. -/
def extractUriPath (store : Store) (uri : Bytes) : Option Bytes :=
  match store.appId with
  | .youtube => extractNetflixPath (replaceAll HOST_LIST [] (replaceAll [MLHLS_SCHEME] [] uri))
  | .netflix => extractNetflixPath uri
  | .unknown => some uri

def adjustMlhlsData (store : Store) (data : Bytes) : Bytes :=
  replaceAll HOST_LIST store.host (replaceAll [MLHLS_SCHEME] HTTP_SCHEME data)

def adjustNfhlsData (store : Store) (data : Bytes) : Bytes :=
  replaceAll [NFHLS_SCHEME] (HTTP_SCHEME ++ store.host ++ [47]) data

def adjustPrimaryMediaData (store : Store) (data : Bytes) : Bytes :=
  match store.appId with
  | .youtube => store.adjustMlhlsData data
  | .netflix => store.adjustNfhlsData data
  | .unknown => data

def requestMediaData (store : Store) (connected : Bool) (primaryUri sessionId : Bytes) : Store × List FcupRequest × Bool :=
  let store := store.reset
  match getAppId primaryUri with
  | .unknown => (store, [], false)
  | id =>
    let store := { store with appId := id, sessionId := sessionId }
    let store := { store with primaryUri := store.adjustPrimaryUri primaryUri }
    let (store, sent) := store.sendFcupRequest connected primaryUri
    (store, sent, true)

variable (rewriting : Rewriting)

/-- Each of the two loops ends at the first entry without a URI. -/
def collectedUris (data : Bytes) : List Bytes :=
  match rewriting.hlsparseMaster data with
  | none => []
  | some playlist => (playlist.media.takeWhile Option.isSome ++ playlist.streamInfs.takeWhile Option.isSome).filterMap id

/-- The part of `process_media_data` behind the one that stores the data. -/
def nextRequest (store : Store) (connected : Bool) : Store × List FcupRequest × Bytes :=
  match store.uriStack with
  | [] => (store, [], store.primaryUri)
  | next :: rest =>
    let (store, sent) := { store with uriStack := rest }.sendFcupRequest connected next
    (store, sent, [])

theorem nextRequest_mediaData (store : Store) (connected : Bool) :
    (store.nextRequest connected).1.mediaData = store.mediaData := by
  unfold nextRequest
  split <;> rfl

def processMediaData (store : Store) (connected : Bool) (uri data : Bytes) : Store × List FcupRequest × Except Fault Bytes :=
  let primary := isPrimaryDataUri uri
  let store := if primary then { store with uriStack := (collectedUris rewriting data).reverse ++ store.uriStack } else store
  match if primary then some (store.adjustPrimaryMediaData data) else rewriting.adjustSecondaryMediaData data with
  | none => (store, [], .error .regexError)
  | some mediaData =>
    match store.extractUriPath uri with
    | none => (store, [], .error .outOfRange)
    | some path =>
      let store := if path ≠ [] ∧ mediaData ≠ [] then store.addMediaData path mediaData else store
      let (store, sent, location) := store.nextRequest connected
      (store, sent, .ok location)

def queryMediaData (store : Store) (path : Bytes) : Bytes := (store.mediaData.find? path).getD []

end Store

/-- The calls of the store; `connected` says whether the event connection of the session exists at the time. -/
inductive Call where
  | setStoreRoot (port : UInt16)
  | requestMediaData (connected : Bool) (primaryUri sessionId : Bytes)
  | processMediaData (connected : Bool) (uri data : Bytes)
  | reset
deriving DecidableEq, Repr

/-- A call leaves a store and the requests that it sent; only `process_media_data` gives a location. -/
structure Outcome where
  store : Store
  sent : List FcupRequest
  location : Bytes
deriving DecidableEq

def Store.step (rewriting : Rewriting) (store : Store) : Call → Outcome
  | .setStoreRoot port => ⟨store.setStoreRoot port, [], []⟩
  | .requestMediaData connected primaryUri sessionId =>
    let (store, sent, _) := store.requestMediaData connected primaryUri sessionId
    ⟨store, sent, []⟩
  | .processMediaData connected uri data =>
    match store.processMediaData rewriting connected uri data with
    | (store, sent, .ok location) => ⟨store, sent, location⟩
    | (store, sent, .error _) => ⟨store, sent, []⟩
  | .reset => ⟨store.reset, [], []⟩

end Apsdk.MediaDataStore
