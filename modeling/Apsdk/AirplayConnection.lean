import Apsdk.ApCrypto
import Apsdk.MediaDataStore
import Apsdk.PlistEncoder

/-! `ap_airplay_connection`: the handlers of its requests. A handler leaves a trace
of the indices it reads in the body of the request, the iterators it follows, what
the decoder of property lists does, and its calls to the application. -/

namespace Apsdk.Airplay
open Library Plist

def APPLICATION_OCTET_STREAM : Bytes := ascii "application/octet-stream"
def APPLICATION_BINARY_PLIST : Bytes := ascii "application/x-apple-binary-plist"
def APPLICATION_DMAP_TAGGED : Bytes := ascii "application/x-dmap-tagged"
def TEXT_PARAMETERS : Bytes := ascii "text/parameters"
def IMAGE_JPEG : Bytes := ascii "image/jpeg"
def IMAGE_PNG : Bytes := ascii "image/png"

def ERROR_STATUS_RESPONSE : Bytes :=
  MediaDataStore.line "<?xml version=\"1.0\" encoding=\"UTF-8\"?>" ++
  MediaDataStore.line
    "<!DOCTYPE plist PUBLIC \"-//Apple//DTD PLIST 1.0//EN\" \"http://www.apple.com/DTDs/PropertyList-1.0.dtd\">" ++
  MediaDataStore.line "<plist version=\"1.0\">" ++
  MediaDataStore.line "<dict>" ++
  MediaDataStore.line "\t<key>errorCode</key>" ++
  MediaDataStore.line "\t<integer>0</integer>" ++
  MediaDataStore.line "</dict>" ++
  ascii "</plist>"

/-- `stream_type_t`. -/
def audio : BitVec 64 := 96
def video : BitVec 64 := 110

/-- `audio_format_t`. -/
def alac : BitVec 64 := 0x40000
def aacMain : BitVec 64 := 0x400000
def aacEld : BitVec 64 := 0x1000000

inductive SessionType where
  | unknown
  | mirroring
  | casting
deriving DecidableEq, Repr

/-- The properties of `ap_config` that the handlers read; numbers as the integers of a property list. -/
structure Config where
  name : Bytes
  model : Bytes
  serverVersion : Bytes
  macAddress : Bytes
  pi : Bytes
  pk : Bytes
  vv : Int
  features : BitVec 64
  statusFlag : BitVec 64
  displayHeight : BitVec 64
  displayWidth : BitVec 64
  displayRefreshRate : BitVec 64
  displayUuid : Bytes

def Config.deviceID (config : Config) : Bytes := replaceAll [[58]] [] config.macAddress

/-- `ap_casting_content_parser`, which searches with regular expressions; floats are their patterns. -/
structure ContentParser where
  getVolumeValue : Bytes → Option (BitVec 32)
  getProgressValues : Bytes → Option (UInt64 × UInt64 × UInt64)
  getPlayParameters : Bytes → Option (Bytes × BitVec 32)
  getScrubPosition : Bytes → Option (BitVec 32)
  getRateValue : Bytes → Option (BitVec 32)

/-- What the handlers compute with floats. -/
structure Arithmetic where
  volumeRatio : BitVec 32 → BitVec 32
  progressRatio : UInt64 → UInt64 → UInt64 → BitVec 32
  /-- From seconds as a `double`. -/
  milliseconds : BitVec 64 → BitVec 32
  scrubMilliseconds : BitVec 32 → BitVec 32

/-- The members of `playback_info_t` that are answered, as a stream prints them. -/
structure PlaybackInfo where
  duration : Bytes
  position : Bytes
  rate : Bytes
  readyToPlay : Bytes

structure Ports where
  timingSync : UInt16
  mirroringVideo : UInt16
  audioData : UInt16
  audioControl : UInt16
  service : UInt16

/-- What a handler finds around it. The fuel bounds the recursion of the decoder. -/
structure Environment where
  config : Config
  host : Plist.Host
  fuel : Nat
  parser : ContentParser
  arithmetic : Arithmetic
  rewriting : MediaDataStore.Rewriting
  ports : Ports
  playbackInfo : PlaybackInfo
  /-- Whether a connection has not been destroyed. -/
  alive : Nat → Bool
  /-- The handler, present or null, that the application sets when a session begins. -/
  sessionHandler : Option Bool

/-- The calls of a handler to the application and to the services. -/
inductive Callback where
  | onSessionBegin (sessionId : UInt64)
  | onAudioStreamStarted (format : Nat)
  | onAudioStreamStopped
  | onVideoStreamStarted
  | onVideoStreamStopped
  | onAudioSetVolume (ratio volume : BitVec 32)
  | onAudioSetProgress (ratio : BitVec 32) (start current stop : UInt64)
  | onAudioSetCover (format data : Bytes)
  | onAudioSetMetaData (data : Bytes)
  | onVideoPlay (sessionId : UInt64) (location : Bytes) (startPosInMs : BitVec 32)
  | onVideoScrub (sessionId : UInt64) (posInMs : BitVec 32)
  | onVideoRate (sessionId : UInt64) (value : BitVec 32)
  | onVideoStop (sessionId : UInt64)
  | onAcquirePlaybackInfo (sessionId : UInt64)
  | setTimingEndpoint (port : UInt16)
  | postSendTimingQuery
  | sendFcupRequest (fcup : MediaDataStore.FcupRequest)
deriving DecidableEq, Repr

inductive Event where
  /-- Bytes of the body, which has a given size. -/
  | content (offset count size : Nat)
  /-- An iterator of the headers is followed, which refers to a header or is the end. -/
  | iterator (found : Bool)
  /-- An exception escapes. -/
  | escapes (fault : MediaDataStore.Fault)
  | decoder (datalen : Nat) (event : Plist.Event)
  | call (callback : Callback)

/-- The members of `ap_airplay_connection`; a shared pointer to a handler or a service is set or null. -/
structure Connection (prims : Primitives) where
  id : Nat
  sessionId : UInt64
  sessionType : SessionType
  crypto : ApCrypto prims
  handler : Bool
  mirroringSessionHandler : Bool
  videoSessionHandler : Bool
  mirroringVideoStreamService : Bool
  mirroringAudioStreamService : Bool
  startPosInMs : BitVec 32
  playbackUuid : Bytes
  appleSessionId : Bytes
  isReversed : Bool

/-- A connection with the two objects that all connections share. -/
structure World (prims : Primitives) where
  conn : Connection prims
  store : MediaDataStore.Store
  /-- `event_connection_map_`. -/
  eventConnections : SortedMap Bytes Nat
  /-- The number of allocations of the decoder. -/
  allocations : Nat

/-- A constructed connection; the handler of the service may be null. -/
def Connection.new (prims : Primitives) (id : Nat) (sessionId : UInt64) (server : ServerKeyChain) (handler : Bool) :
    Connection prims where
  id := id
  sessionId := sessionId
  sessionType := .unknown
  crypto := .new server
  handler := handler
  mirroringSessionHandler := false
  videoSessionHandler := false
  mirroringVideoStreamService := false
  mirroringAudioStreamService := false
  startPosInMs := 0
  playbackUuid := []
  appleSessionId := []
  isReversed := false

abbrev Handling (prims : Primitives) := Traced Event (World prims)

end Apsdk.Airplay

namespace Apsdk.Response
open Library

def withContentType (res : Response) (type : Bytes) : Response := { res with toMessage := res.toMessage.withContentType type }

def withHeader (res : Response) (name value : Bytes) : Response := { res with toMessage := res.toMessage.withHeader name value }

def withContentString (res : Response) (data : Bytes) : Response :=
  { res with toMessage := res.toMessage.withContentString data }

def withContentVector (res : Response) (data : Bytes) : Response :=
  { res with toMessage := res.toMessage.withContentVector data }

end Apsdk.Response

namespace Apsdk.Airplay
open Library Plist Traced

variable {prims : Primitives}

/-- What a `const char *` to a text refers to. -/
def cString (text : Bytes) : Bytes := text.takeWhile (· ≠ 0)

def toLower (byte : UInt8) : UInt8 := if 65 ≤ byte.toNat ∧ byte.toNat ≤ 90 then byte + 32 else byte

/-- `compare_string_no_case` gives zero. -/
def equalNoCase (first second : Bytes) : Bool := (cString first).map toLower = (cString second).map toLower

def call (callback : Callback) : Handling prims Unit := emit (.call callback)

def getConn : Handling prims (Connection prims) := do return (← get).conn

def modifyConn (change : Connection prims → Connection prims) : Handling prims Unit :=
  modify fun world => { world with conn := change world.conn }

def modifyCrypto (change : ApCrypto prims → ApCrypto prims) : Handling prims Unit :=
  modifyConn fun conn => { conn with crypto := change conn.crypto }

def readContent (req : Request) (offset count : Nat) : Handling prims Bytes :=
  checked (.content offset count req.content.length) (offset + count ≤ req.content.length)
    ((req.content.drop offset).take count)

/-- Whether the bytes from an offset on are the expected ones; the first that is not ends the comparison. -/
def matchContent (req : Request) : Nat → Bytes → Handling prims Bool
  | _, [] => pure true
  | offset, expected :: later => do
    let byte ← readContent req offset 1
    if byte = [expected] then matchContent req (offset + 1) later else pure false

/-- `it->second`. -/
def second (found : Option Bytes) : Handling prims Bytes :=
  checked (.iterator found.isSome) (found.isSome = true) (found.getD [])

/-- `plist_object_from_bplist`, which takes the size of the body as a `uint32_t`. -/
def objectFromBplist (env : Environment) (req : Request) : Handling prims Object :=
  let datalen := req.content.length % 2 ^ 32
  zoom (.decoder datalen) World.allocations (fun allocations world => { world with allocations })
    (fromBplist env.host (req.content.take datalen) env.fuel)

def toBytesArray (env : Environment) (object : Object) : Bytes :=
  match toBplist env.host object with
  | .ok bytes => bytes
  | .error _ => []

def string (text : Bytes) : Object := .string (.ofBuffer text)

def dict (entries : List (String × Object)) : Object :=
  .dict (entries.map fun (key, value) => (.ofBuffer (ascii key), value))

def port (port : UInt16) : Object := .integer (BitVec.ofNat 64 port.toNat)

def setMirroringHandler (present : Bool) (conn : Connection prims) : Connection prims :=
  if conn.sessionType = .mirroring then { conn with mirroringSessionHandler := present } else conn

def setCastingHandler (present : Bool) (conn : Connection prims) : Connection prims :=
  if conn.sessionType = .casting then { conn with videoSessionHandler := present } else conn

def beginSession (env : Environment) (type : SessionType) : Handling prims Unit := do
  modifyConn fun conn => { conn with sessionType := type }
  let conn ← getConn
  if conn.handler then
    call (.onSessionBegin conn.sessionId)
    match env.sessionHandler with
    | none => pure ()
    | some present => modifyConn fun conn => setCastingHandler present (setMirroringHandler present conn)

def callMirroring (callback : Callback) : Handling prims Unit := do
  if (← getConn).mirroringSessionHandler then call callback

def callVideo (callback : UInt64 → Callback) : Handling prims Unit := do
  let conn ← getConn
  if conn.videoSessionHandler then call (callback conn.sessionId)

/-- Whether `ap_casting_event_connection_manager` has a connection for a session that can be locked. -/
def connected (env : Environment) (world : World prims) (session : Bytes) : Bool :=
  match world.eventConnections.find? session with
  | none => false
  | some id => env.alive id

def sendAll : List MediaDataStore.FcupRequest → Handling prims Unit
  | [] => pure ()
  | fcup :: later => do
    call (.sendFcupRequest fcup)
    sendAll later

section Handlers
variable (env : Environment) (req : Request) (res : Response)

def optionsHandler : Handling prims Response :=
  return ((res.withStatus ok).withHeader (ascii "Public")
    (ascii "ANNOUNCE, SETUP, RECORD, PAUSE, FLUSH, TEARDOWN, OPTIONS, GET_PARAMETER, SET_PARAMETER, POST, GET")).withContentType
      APPLICATION_OCTET_STREAM

def postPairSetupHandler : Handling prims Response := do
  if req.content.length = 32 then
    let ed ← readContent req 0 32
    modifyCrypto fun crypto => crypto.initClientPublicKeys [] ed
  let conn ← getConn
  return ((res.withStatus ok).withContentType APPLICATION_OCTET_STREAM).withContentVector conn.crypto.server.edPublicKey

def postPairVerifyHandler : Handling prims Response := do
  let isFirstFrame ← readContent req 0 1
  if isFirstFrame ≠ [0] then
    let curve ← readContent req 4 32
    let ed ← readContent req (4 + 32) 32
    modifyCrypto fun crypto => (crypto.initClientPublicKeys curve ed).initPairVerifyAes
    let conn ← getConn
    let (crypto, signature) := conn.crypto.signPairSignature
    modifyCrypto fun _ => crypto
    return ((res.withStatus ok).withContentType APPLICATION_OCTET_STREAM).withContentVector
      (crypto.server.curvePublicKey ++ signature)
  else
    let encrypted ← readContent req 4 64
    let conn ← getConn
    let (crypto, verified) := conn.crypto.verifyPairSignature encrypted
    modifyCrypto fun _ => crypto
    return if verified then res.withStatus ok else res.withStatus badRequest

/-- The answers to the phases fall through to the last line. -/
def postFpSetupHandler : Handling prims Response := do
  let finish (res : Response) := (res.withStatus ok).withContentType APPLICATION_OCTET_STREAM
  if ← matchContent req 0 (ascii "FPLY" ++ [3]) then
    let phase ← readContent req 6 1
    if phase = [1] ∧ req.content.length = 16 then
      let mode ← readContent req 14 1
      let conn ← getConn
      return finish ((finish res).withContentVector (conn.crypto.fpSetup (mode.headD 0)))
    else if phase = [2] then
      return finish res
    else if phase = [3] ∧ req.content.length = 164 then
      let keymsg ← readContent req 0 164
      let conn ← getConn
      let (crypto, content) := conn.crypto.fpHandshake keymsg
      modifyCrypto fun _ => crypto
      return finish ((finish res).withContentVector content)
    else
      return res.withStatus badRequest
  else
    return finish res

/-- The number for the application, and 0 for a format that is not supported. -/
def audioDataFormat (formatValue : BitVec 64) : Nat :=
  if formatValue = alac then 1 else if formatValue = aacMain then 2 else if formatValue = aacEld then 3 else 0

def setupAudio (streamObj : Object) : Handling prims Response := do
  match (streamObj.dictGetValue (ascii "audioFormat")).integerGetValue with
  | none => return res.withStatus badRequest
  | some formatValue =>
    if audioDataFormat formatValue = 0 then
      return res.withStatus badRequest
    modifyConn fun conn => { conn with mirroringAudioStreamService := true }
    callMirroring (.onAudioStreamStarted (audioDataFormat formatValue))
    let audioStream := dict [("streams", .array [dict [("type", .integer audio),
      ("dataPort", port env.ports.audioData), ("controlPort", port env.ports.audioControl)]])]
    return ((res.withStatus ok).withContentType APPLICATION_BINARY_PLIST).withContentVector (toBytesArray env audioStream)

def setupVideo (streamObj : Object) : Handling prims Response := do
  match (streamObj.dictGetValue (ascii "streamConnectionID")).integerGetValue with
  | none => return res.withStatus badRequest
  | some connectionId =>
    modifyCrypto fun crypto => crypto.initVideoStreamAesCtr ⟨connectionId⟩
    callMirroring .onVideoStreamStarted
    modifyConn fun conn => { conn with mirroringVideoStreamService := true }
    let videoStream := dict [("eventPort", port env.ports.service), ("streams", .array [dict [("type", .integer video),
      ("dataPort", port env.ports.mirroringVideo)]])]
    return ((res.withStatus ok).withContentType APPLICATION_BINARY_PLIST).withContentVector (toBytesArray env videoStream)

def setupSession (dataObj : Object) : Handling prims Response := do
  match (dataObj.dictGetValue (ascii "eiv")).dataGetValue with
  | none => return res.withStatus badRequest
  | some iv =>
    match (dataObj.dictGetValue (ascii "ekey")).dataGetValue with
    | none => return res.withStatus badRequest
    | some key =>
      modifyCrypto fun crypto => crypto.initClientAesInfo iv key
      match (dataObj.dictGetValue (ascii "timingPort")).integerGetValue with
      | none => return res.withStatus badRequest
      | some timingPort =>
        beginSession env .mirroring
        call (.setTimingEndpoint (UInt16.ofNat timingPort.toNat))
        let content := dict [("eventPort", .integer 0), ("timingPort", port env.ports.timingSync)]
        return ((res.withStatus ok).withContentType APPLICATION_BINARY_PLIST).withContentVector (toBytesArray env content)

/-- Every way out of the loop but a `return` leads to the bad request. The type of an integer is the one that its accessor wants. -/
def setupHandler : Handling prims Response := do
  if req.contentType ≠ APPLICATION_BINARY_PLIST then
    return res.withStatus badRequest
  let dataObj ← objectFromBplist env req
  if dataObj.isNull then
    return res.withStatus badRequest
  let streams := dataObj.dictGetValue (ascii "streams")
  if ¬ streams.isNull then
    if streams.getType ≠ PLIST_TYPE_ARRAY then
      return res.withStatus badRequest
    let streamObj := streams.arrayGetValue 0
    if streamObj.isNull ∨ streamObj.getType ≠ PLIST_TYPE_DICT then
      return res.withStatus badRequest
    match (streamObj.dictGetValue (ascii "type")).integerGetValue with
    | none => return res.withStatus badRequest
    | some type =>
      if type = audio then setupAudio env res streamObj
      else if type = video then setupVideo env res streamObj
      else return res.withStatus badRequest
  else
    setupSession env res dataObj

def infoObject (config : Config) : Object := dict
  [("deviceID", string config.deviceID),
    ("features", .integer config.features),
    ("keepAliveLowPower", .integer 1),
    ("keepAliveSendStatsAsBody", .integer 1),
    ("macAddress", string config.macAddress),
    ("model", string config.model),
    ("name", string config.name),
    ("sourceVersion", string config.serverVersion),
    ("statusFlags", .integer config.statusFlag),
    ("pi", string config.pi),
    ("pk", .data (config.pk.take (config.pk.length % 2 ^ 32))),
    ("vv", .integer (BitVec.ofInt 64 config.vv)),
    ("audioFormats", .array [dict
      [("type", .integer 96), ("audioInputFormats", .integer 0x01000000), ("audioOutputFormats", .integer 0x01000000)]]),
    ("audioLatencies", .array [dict
      [("type", .integer 96), ("audioType", string (ascii "default")), ("inputLatencyMicros", .integer 0),
        ("outputLatencyMicros", .integer 0)]]),
    ("displays", .array [dict
      [("features", .integer 14), ("height", .integer config.displayHeight), ("heightPixels", .integer config.displayHeight),
        ("heightPhysical", .integer 0), ("width", .integer config.displayWidth), ("widthPixels", .integer config.displayWidth),
        ("widthPhysical", .integer 0), ("refreshRate", .real config.displayRefreshRate),
        ("overscanned", .primitive PLIST_PRIMITIVE_TRUE), ("rotation", .primitive PLIST_PRIMITIVE_TRUE),
        ("uuid", string config.displayUuid)]])]

def getInfoHandler : Handling prims Response :=
  return ((res.withStatus ok).withContentType APPLICATION_BINARY_PLIST).withContentVector
    (toBytesArray env (infoObject env.config))

def postFeedbackHandler : Handling prims Response := return res.withStatus ok

def recordHandler : Handling prims Response := do
  call .postSendTimingQuery
  return (res.withStatus ok).withHeader (ascii "Audio-Latency") (ascii "0")

def getParameterHandler : Handling prims Response :=
  return ((res.withStatus ok).withContentType TEXT_PARAMETERS).withContentString (ascii "volume: 0.000000\r\n")

def postAudioMode : Handling prims Response := return res.withStatus ok

def setParameterHandler : Handling prims Response := do
  let content := cString req.content
  if req.contentType = TEXT_PARAMETERS then
    match env.parser.getVolumeValue content with
    | some volume => callMirroring (.onAudioSetVolume (env.arithmetic.volumeRatio volume) volume)
    | none =>
      match env.parser.getProgressValues content with
      | some (start, current, stop) =>
        callMirroring (.onAudioSetProgress (env.arithmetic.progressRatio start current stop) start current stop)
      | none => pure ()
  else if req.contentType = IMAGE_JPEG ∨ req.contentType = IMAGE_PNG then
    callMirroring (.onAudioSetCover req.contentType (req.content.take (req.content.length % 2 ^ 32)))
  else if req.contentType = APPLICATION_DMAP_TAGGED then
    callMirroring (.onAudioSetMetaData (req.content.take (req.content.length % 2 ^ 32)))
  return res.withStatus ok

def teardownStream (dataObj : Object) : Handling prims Unit :=
  let streams := dataObj.dictGetValue (ascii "streams")
  let streamObj := streams.arrayGetValue 0
  match (streamObj.dictGetValue (ascii "type")).integerGetValue with
  | none => pure ()
  | some type =>
    if type = video then do
      modifyConn fun conn => { conn with mirroringVideoStreamService := false }
      callMirroring .onVideoStreamStopped
    else if type = audio then do
      modifyConn fun conn => { conn with mirroringAudioStreamService := false }
      callMirroring .onAudioStreamStopped
    else pure ()

/-- Each object of the chain is of the type that the accessor of the next one wants. -/
def teardownHandler : Handling prims Response := do
  if req.contentType = APPLICATION_BINARY_PLIST then
    let dataObj ← objectFromBplist env req
    teardownStream dataObj
  return res.withStatus ok

/-- The sequence number of `RTP-Info` is read but not used. -/
def flushHandler : Handling prims Response :=
  return (res.withStatus ok).withContentType APPLICATION_BINARY_PLIST

end Handlers
end Apsdk.Airplay
