import Apsdk.AirplayConnection

/-! The handlers of `ap_airplay_connection` for casting. -/

namespace Apsdk.Airplay
open Library Plist Traced

variable {prims : Primitives} (env : Environment) (req : Request) (res : Response)

def xmlHead : Bytes :=
  MediaDataStore.line "<?xml version=\"1.0\" encoding=\"UTF-8\"?>" ++
  MediaDataStore.line
    "<!DOCTYPE plist PUBLIC \"-//Apple//DTD PLIST 1.0//EN\" \"http://www.apple.com/DTDs/PropertyList-1.0.dtd\">" ++
  MediaDataStore.line "<plist version=\"1.0\">" ++
  MediaDataStore.line "<dict>"

def serverInfo (config : Config) : Bytes :=
  xmlHead ++
  MediaDataStore.line "\t<key>features</key>" ++
  MediaDataStore.line "\t<integer>0x27F</integer>" ++
  MediaDataStore.line "\t<key>macAddress</key>" ++
  ascii "\t<string>" ++ config.macAddress ++ MediaDataStore.line "</string>" ++
  MediaDataStore.line "\t<key>model</key>" ++
  ascii "\t<string>" ++ config.model ++ MediaDataStore.line "</string>" ++
  MediaDataStore.line "\t<key>osBuildVersion</key>" ++
  MediaDataStore.line "\t<string>12B435</string>" ++
  MediaDataStore.line "\t<key>protovers</key>" ++
  MediaDataStore.line "\t<string>1.0</string>" ++
  MediaDataStore.line "\t<key>srcvers</key>" ++
  ascii "\t<string>" ++ config.serverVersion ++ MediaDataStore.line "</string>" ++
  MediaDataStore.line "\t<key>vv</key>" ++
  ascii "\t<integer>" ++ printInt config.vv ++ MediaDataStore.line "</integer>" ++
  MediaDataStore.line "\t<key>deviceid</key>" ++
  ascii "\t<string>" ++ config.macAddress ++ MediaDataStore.line "</string>" ++
  MediaDataStore.line "</dict>" ++
  ascii "</plist>"

def getServerInfoHandler : Handling prims Response := do
  let res := res.withStatus ok
  beginSession env .casting
  return ((res.withStatus ok).withContentType TEXT_APPLE_PLIST_XML).withContentString (serverInfo env.config)

def postFpSetup2Handler : Handling prims Response := return res.withStatus ok

/-- The iterator of the session id is compared with the end only for the log. -/
def postReverseHandler : Handling prims Response := do
  let res := match req.headers.find? (ascii "Connection") with
    | some connection => res.withHeader (ascii "Connection") connection
    | none => res
  let res := match req.headers.find? (ascii "Upgrade") with
    | some upgrade => res.withHeader (ascii "Upgrade") upgrade
    | none => res
  let session ← second (req.headers.find? MediaDataStore.HEADER_APPLE_SESSION_ID)
  modify fun world =>
    { world with
      conn := { world.conn with appleSessionId := session, isReversed := true }
      eventConnections := world.eventConnections.insert session world.conn.id }
  return res.withStatus switchingProtocols

/-- The end of `post_play_handler`. -/
def playLocation (location : Bytes) : Handling prims Response := do
  match req.headers.find? MediaDataStore.HEADER_APPLE_SESSION_ID with
  | none => return res.withStatus badRequest
  | some session =>
    let world ← get
    let (store, sent, requested) := world.store.requestMediaData (connected env world session) location session
    modify fun world => { world with store }
    sendAll sent
    if ¬ requested then
      callVideo fun sessionId => .onVideoPlay sessionId location world.conn.startPosInMs
    return res.withStatus ok

def playObject (dataObj : Object) : Handling prims Response := do
  match (dataObj.dictGetValue (ascii "uuid")).stringGetValue with
  | none => return res.withStatus badRequest
  | some id =>
    modifyConn fun conn => { conn with playbackUuid := id.bytes }
    match (dataObj.dictGetValue (ascii "Content-Location")).stringGetValue with
    | none => return res.withStatus badRequest
    | some location =>
      let posInSecond := ((dataObj.dictGetValue (ascii "Start-Position-Seconds")).realGetValue).getD 0
      modifyConn fun conn => { conn with startPosInMs := env.arithmetic.milliseconds posInSecond }
      playLocation env req res location.bytes

def postPlayHandler : Handling prims Response := do
  if equalNoCase req.contentType APPLICATION_BINARY_PLIST then
    let dataObj ← objectFromBplist env req
    if dataObj.isNull then
      return res.withStatus badRequest
    playObject env req res dataObj
  else if equalNoCase req.contentType TEXT_PARAMETERS ∨ equalNoCase req.contentType APPLICATION_OCTET_STREAM then
    match env.parser.getPlayParameters (cString req.content) with
    | some (location, start) =>
      modifyConn fun conn => { conn with startPosInMs := start }
      playLocation env req res location
    | none => playLocation env req res []
  else
    return res.withStatus badRequest

def postScrubHandler : Handling prims Response := do
  match env.parser.getScrubPosition (cString req.uri) with
  | some position => callVideo fun sessionId => .onVideoScrub sessionId (env.arithmetic.scrubMilliseconds position)
  | none => pure ()
  return res.withStatus ok

def postRateHandler : Handling prims Response := do
  match env.parser.getRateValue (cString req.uri) with
  | some value => callVideo fun sessionId => .onVideoRate sessionId value
  | none => pure ()
  return res.withStatus ok

def postStopHandler : Handling prims Response := do
  modify fun world => { world with store := world.store.reset }
  callVideo .onVideoStop
  return res.withStatus ok

/-- `process_media_data` with the text for the player that comes back. -/
def processMediaData (uri data : Bytes) : Handling prims Bytes := do
  let world ← get
  let (store, sent, result) :=
    world.store.processMediaData env.rewriting (connected env world world.store.sessionId) uri data
  modify fun world => { world with store }
  match result with
  | .error fault =>
    emit (.escapes fault)
    stop .undefined
  | .ok location =>
    sendAll sent
    return location

def unhandledUrlResponse (dataObj : Object) : Handling prims Response := do
  let paramsDict := dataObj.dictGetValue (ascii "params")
  match (paramsDict.dictGetValue (ascii "FCUP_Response_URL")).stringGetValue with
  | none => return res.withStatus badRequest
  | some fcupUri =>
    match (paramsDict.dictGetValue (ascii "FCUP_Response_Data")).dataGetValue with
    | none => return res.withStatus badRequest
    | some fcupContent =>
      let location ← processMediaData env fcupUri.bytes fcupContent
      let conn ← getConn
      if location ≠ [] ∧ conn.videoSessionHandler then
        modifyConn fun conn =>
          { conn with
            appleSessionId := (req.headers.find? MediaDataStore.HEADER_APPLE_SESSION_ID).getD conn.appleSessionId }
        callVideo fun sessionId => .onVideoPlay sessionId location conn.startPosInMs
      let res := (res.withContentType TEXT_APPLE_PLIST_XML).withContentString ERROR_STATUS_RESPONSE
      return res.withStatus ok

/-- Insertion into and removal from the playlist are only logged. -/
def postActionHandler : Handling prims Response := do
  let dataObj ← objectFromBplist env req
  if dataObj.isNull then
    return res.withStatus badRequest
  match (dataObj.dictGetValue (ascii "type")).stringGetValue with
  | none => return res.withStatus badRequest
  | some type =>
    if equalNoCase type.bytes (ascii "unhandledURLResponse") then unhandledUrlResponse env req res dataObj
    else return res.withStatus ok

def playbackInfoText (info : PlaybackInfo) : Bytes :=
  let ranges :=
    MediaDataStore.line "\t<array>" ++
    MediaDataStore.line "\t\t<dict>" ++
    MediaDataStore.line "\t\t\t<key>duration</key>" ++
    ascii "\t\t\t<real>" ++ info.duration ++ MediaDataStore.line "</real>" ++
    MediaDataStore.line "\t\t\t<key>start</key>" ++
    MediaDataStore.line "\t\t\t<real>0.0</real>" ++
    MediaDataStore.line "\t\t</dict>" ++
    MediaDataStore.line "\t</array>"
  xmlHead ++
  MediaDataStore.line "\t<key>duration</key>" ++
  ascii "\t<real>" ++ info.duration ++ MediaDataStore.line "</real>" ++
  MediaDataStore.line "\t<key>position</key>" ++
  ascii "\t<real>" ++ info.position ++ MediaDataStore.line "</real>" ++
  MediaDataStore.line "\t<key>rate</key>" ++
  ascii "\t<real>" ++ info.rate ++ MediaDataStore.line "</real>" ++
  MediaDataStore.line "\t<key>readyToPlay</key>" ++
  ascii "\t<integer>" ++ info.readyToPlay ++ MediaDataStore.line "</integer>" ++
  MediaDataStore.line "\t<key>playbackBufferEmpty</key>" ++
  MediaDataStore.line "\t<integer>1</integer>" ++
  MediaDataStore.line "\t<key>playbackBufferFull</key>" ++
  MediaDataStore.line "\t<integer>0</integer>" ++
  MediaDataStore.line "\t<key>playbackLikelyToKeepUp</key>" ++
  MediaDataStore.line "\t<integer>1</integer>" ++
  MediaDataStore.line "\t<key>loadedTimeRanges</key>" ++ ranges ++
  MediaDataStore.line "\t<key>seekableTimeRanges</key>" ++ ranges ++
  MediaDataStore.line "</dict>" ++
  ascii "</plist>"

def getPlaybackInfoHandler : Handling prims Response := do
  callVideo .onAcquirePlaybackInfo
  return ((res.withStatus ok).withContentType TEXT_APPLE_PLIST_XML).withContentString (playbackInfoText env.playbackInfo)

/-- The value of `actionAtItemEnd` is only logged. -/
def putSetPropertyHandler : Handling prims Response := do
  let known := (res.withContentType TEXT_APPLE_PLIST_XML).withContentString ERROR_STATUS_RESPONSE
  if contains (ascii "actionAtItemEnd") req.uri then
    let _ ← @objectFromBplist prims env req
    return known.withStatus ok
  else if contains (ascii "forwardEndTime") req.uri then
    return known.withStatus ok
  else if contains (ascii "reverseEndTime") req.uri then
    return known.withStatus ok
  else
    return res.withStatus ok

def postGetPropertyHandler : Handling prims Response := return res.withStatus ok

end Apsdk.Airplay
