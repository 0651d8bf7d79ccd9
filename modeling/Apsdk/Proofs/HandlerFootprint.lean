import Apsdk.Library.Footprint
import Apsdk.RequestRoutes

/-! What each handler may change of a connection and of what all connections share,
and which calls to the application it may make. -/

namespace Apsdk.Airplay
open Library Plist Traced

variable {prims : Primitives}

/-- The world of a handler in parts. -/
inductive Part where
  | fixed
  | session
  | services
  | playback
  | appleSessionId
  | reversal
  | pairing
  | streamKeys
  | store
  | eventConnections
  | allocations
deriving DecidableEq, Repr

namespace Part

def View (prims : Primitives) : Part → Type
  | fixed => Nat × UInt64 × Bool × ServerKeyChain
  | session => SessionType × Bool × Bool
  | services => Bool × Bool
  | playback => BitVec 32 × Bytes
  | appleSessionId => Bytes
  | reversal => Bool
  | pairing => Bool × Bytes × Bytes × Bytes × AesCtr128 prims.aes
  | streamKeys => Bytes × Bytes × Bytes × AesCtr128 prims.aes
  | store => MediaDataStore.Store
  | eventConnections => SortedMap Bytes Nat
  | allocations => Nat

def view (world : World prims) : (part : Part) → part.View prims
  | fixed => (world.conn.id, world.conn.sessionId, world.conn.handler, world.conn.crypto.server)
  | session => (world.conn.sessionType, world.conn.mirroringSessionHandler, world.conn.videoSessionHandler)
  | services => (world.conn.mirroringVideoStreamService, world.conn.mirroringAudioStreamService)
  | playback => (world.conn.startPosInMs, world.conn.playbackUuid)
  | appleSessionId => world.conn.appleSessionId
  | reversal => world.conn.isReversed
  | pairing => (world.conn.crypto.pairVerifyed, world.conn.crypto.sharedSecret, world.conn.crypto.clientEdPublicKey,
      world.conn.crypto.clientCurvePublicKey, world.conn.crypto.pairVerifyAesCtr)
  | streamKeys => (world.conn.crypto.fpKeyMessage, world.conn.crypto.clientAesKey, world.conn.crypto.clientAesIv,
      world.conn.crypto.mirrorStreamAesCtr)
  | store => world.store
  | eventConnections => world.eventConnections
  | allocations => world.allocations

/-- Sessions begin, and streams are reported, through calls. -/
def Shows : Part → Event → Prop
  | session, .call (.onSessionBegin _) => True
  | services, .call (.onAudioStreamStarted _) => True
  | services, .call .onAudioStreamStopped => True
  | services, .call .onVideoStreamStarted => True
  | services, .call .onVideoStreamStopped => True
  | _, _ => False

end Part

def parts (prims : Primitives) : Parts Part Event (World prims) := ⟨Part.View prims, fun part world => part.view world, Part.Shows⟩

variable {touched : List Part} {env : Environment} {req : Request} {res : Response}

/-- A change of the world leaves a part alone. -/
def Leaves (change : World prims → World prims) (world : World prims) (part : Part) : Prop :=
  part.view (change world) = part.view world

section Calls

theorem call_confined {callback : Callback} (apart : ∀ part ∉ touched, ¬ part.Shows (.call callback)) :
    Confined (parts prims) touched (call callback) := confined_emit apart

theorem getConn_confined : Confined (parts prims) touched getConn := confined_get.bind fun _ => confined_pure _

theorem getConn_bind_confinedAt {α : Type} {next : Connection prims → Handling prims α} {world : World prims}
    (later : ConfinedAt (parts prims) touched (next world.conn) world) :
    ConfinedAt (parts prims) touched (getConn >>= next) world := later

theorem modify_confined {change : World prims → World prims} (keeps : ∀ world, ∀ part ∉ touched, Leaves change world part) :
    Confined (parts prims) touched (modify change) := fun world => confinedAt_modify (keeps world)

theorem readContent_confined (offset count : Nat) : Confined (parts prims) touched (readContent req offset count) :=
  confined_checked fun part _ => by cases part <;> exact id

theorem callMirroring_confined {callback : Callback} (apart : ∀ part ∉ touched, ¬ part.Shows (.call callback)) :
    Confined (parts prims) touched (callMirroring callback) := by
  refine getConn_confined.bind fun conn => ?_
  split
  · exact call_confined apart
  · exact confined_pure ()

theorem callVideo_confined {callback : UInt64 → Callback}
    (apart : ∀ sessionId, ∀ part ∉ touched, ¬ part.Shows (.call (callback sessionId))) :
    Confined (parts prims) touched (callVideo callback) := by
  refine getConn_confined.bind fun conn => ?_
  split
  · exact call_confined (apart _)
  · exact confined_pure ()

theorem beginSession_confined (type : SessionType) (member : Part.session ∈ touched) :
    Confined (parts prims) touched (beginSession env type) := by
  refine (modify_confined ?_).bind fun _ => getConn_confined.bind fun conn => ?_
  · intro world part outside
    cases part <;> first | rfl | exact absurd member outside
  split
  · refine (call_confined ?_).bind fun _ => ?_
    · intro part outside
      cases part <;> first | exact id | exact absurd member outside
    split
    · exact confined_pure ()
    · apply modify_confined
      intro world part outside
      simp only [Leaves, setCastingHandler, setMirroringHandler]
      cases part <;> split_ifs <;> first | rfl | exact absurd member outside
  · exact confined_pure ()

theorem sendAll_confined (sent : List MediaDataStore.FcupRequest) : Confined (parts prims) touched (sendAll sent) := by
  induction sent with
  | nil => exact confined_pure ()
  | cons fcup later ih => exact (call_confined fun part _ => by cases part <;> exact id).bind fun _ => ih

theorem objectFromBplist_confined (member : Part.allocations ∈ touched) :
    Confined (parts prims) touched (objectFromBplist env req) := by
  unfold objectFromBplist
  refine confined_zoom (fun part _ _ => ?_) (fun part outside _ _ => ?_)
  · cases part <;> exact id
  · cases part <;> first | rfl | exact absurd member outside

theorem matchContent_confined (offset : Nat) (expected : Bytes) :
    Confined (parts prims) touched (matchContent req offset expected) := by
  induction expected generalizing offset with
  | nil => exact confined_pure true
  | cons first later ih =>
    refine (readContent_confined offset 1).bind fun byte => ?_
    split
    · exact ih (offset + 1)
    · exact confined_pure false

end Calls

section Handshakes

/-- The keys of the server and of the streams stay as they are. -/
structure ChangesPairing (before after : ApCrypto prims) : Prop where
  server : after.server = before.server
  message : after.fpKeyMessage = before.fpKeyMessage
  key : after.clientAesKey = before.clientAesKey
  iv : after.clientAesIv = before.clientAesIv
  stream : after.mirrorStreamAesCtr = before.mirrorStreamAesCtr

/-- The keys of the server and what has been agreed in pairing stay as they are. -/
structure ChangesStreamKeys (before after : ApCrypto prims) : Prop where
  server : after.server = before.server
  verified : after.pairVerifyed = before.pairVerifyed
  secret : after.sharedSecret = before.sharedSecret
  ed : after.clientEdPublicKey = before.clientEdPublicKey
  curve : after.clientCurvePublicKey = before.clientCurvePublicKey
  cipher : after.pairVerifyAesCtr = before.pairVerifyAesCtr

theorem initClientPublicKeys_changes (crypto : ApCrypto prims) (curve ed : Bytes) :
    ChangesPairing crypto (crypto.initClientPublicKeys curve ed) := by
  simp only [ApCrypto.initClientPublicKeys]
  constructor <;> split_ifs <;> rfl

theorem initClientAesInfo_changes (crypto : ApCrypto prims) (iv key : Bytes) :
    ChangesStreamKeys crypto (crypto.initClientAesInfo iv key) := by
  simp only [ApCrypto.initClientAesInfo, ApCrypto.fpDecrypt]
  constructor <;> split_ifs <;> rfl

variable {change : ApCrypto prims → ApCrypto prims} {world : World prims}

theorem modifyPairing_confinedAt (member : Part.pairing ∈ touched)
    (changes : ChangesPairing world.conn.crypto (change world.conn.crypto)) :
    ConfinedAt (parts prims) touched (modifyCrypto change) world := by
  refine confinedAt_modify fun part outside => ?_
  cases part with
  | pairing => exact absurd member outside
  | fixed => exact congrArg (fun server => (_, _, _, server)) changes.server
  | streamKeys =>
    show (_, _, _, _) = (_, _, _, _)
    rw [changes.message, changes.key, changes.iv, changes.stream]
  | _ => rfl

theorem modifyStreamKeys_confinedAt (member : Part.streamKeys ∈ touched)
    (changes : ChangesStreamKeys world.conn.crypto (change world.conn.crypto)) :
    ConfinedAt (parts prims) touched (modifyCrypto change) world := by
  refine confinedAt_modify fun part outside => ?_
  cases part with
  | streamKeys => exact absurd member outside
  | fixed => exact congrArg (fun server => (_, _, _, server)) changes.server
  | pairing =>
    show (_, _, _, _, _) = (_, _, _, _, _)
    rw [changes.verified, changes.secret, changes.ed, changes.curve, changes.cipher]
  | _ => rfl

theorem postPairSetupHandler_confined (member : Part.pairing ∈ touched) :
    Confined (parts prims) touched (postPairSetupHandler req res) := by
  simp only [postPairSetupHandler]
  split
  · refine (readContent_confined 0 32).bind fun ed => Confined.bind (fun world => ?_) fun _ => ?_
    · exact modifyPairing_confinedAt member (initClientPublicKeys_changes _ _ _)
    · exact getConn_confined.bind fun conn => confined_pure _
  · exact getConn_confined.bind fun conn => confined_pure _

theorem postPairVerifyHandler_confined (member : Part.pairing ∈ touched) :
    Confined (parts prims) touched (postPairVerifyHandler req res) := by
  simp only [postPairVerifyHandler]
  refine (readContent_confined 0 1).bind fun isFirstFrame => ?_
  split
  · refine (readContent_confined 4 32).bind fun curve => (readContent_confined (4 + 32) 32).bind fun ed => ?_
    refine Confined.bind (fun world => ?_) fun _ world => ?_
    · obtain ⟨server, message, key, iv, stream⟩ := initClientPublicKeys_changes world.conn.crypto curve ed
      exact modifyPairing_confinedAt member ⟨server, message, key, iv, stream⟩
    · refine getConn_bind_confinedAt ?_
      exact ConfinedAt.bind (modifyPairing_confinedAt member ⟨rfl, rfl, rfl, rfl, rfl⟩) fun _ _ => confined_pure _ _
  · refine (readContent_confined 4 64).bind fun encrypted world => getConn_bind_confinedAt ?_
    exact ConfinedAt.bind (modifyPairing_confinedAt member ⟨rfl, rfl, rfl, rfl, rfl⟩) fun _ _ => confined_pure _ _

theorem postFpSetupHandler_confined (member : Part.streamKeys ∈ touched) :
    Confined (parts prims) touched (postFpSetupHandler req res) := by
  simp only [postFpSetupHandler]
  refine (matchContent_confined 0 _).bind fun matched => ?_
  split
  · refine (readContent_confined 6 1).bind fun phase => ?_
    split
    · exact (readContent_confined 14 1).bind fun mode => getConn_confined.bind fun conn => confined_pure _
    · split
      · exact confined_pure _
      · split
        · refine (readContent_confined 0 164).bind fun keymsg world => getConn_bind_confinedAt ?_
          refine ConfinedAt.bind (modifyStreamKeys_confinedAt member ⟨rfl, rfl, rfl, rfl, rfl, rfl⟩) fun _ _ => ?_
          exact confined_pure _ _
        · exact confined_pure _
  · exact confined_pure _

end Handshakes

section Streams

theorem setupAudio_confined (member : Part.services ∈ touched) (streamObj : Object) :
    Confined (parts prims) touched (setupAudio env res streamObj) := by
  simp only [setupAudio]
  split
  · exact confined_pure _
  · split
    · exact confined_pure _
    · refine (modify_confined ?_).bind fun _ => (callMirroring_confined ?_).bind fun _ => confined_pure _
      · intro world part outside
        cases part <;> first | rfl | exact absurd member outside
      · intro part outside
        cases part <;> first | exact id | exact absurd member outside

theorem setupVideo_confined (keys : Part.streamKeys ∈ touched) (member : Part.services ∈ touched) (streamObj : Object) :
    Confined (parts prims) touched (setupVideo env res streamObj) := by
  simp only [setupVideo]
  split
  · exact confined_pure _
  · refine Confined.bind (fun world => ?_) fun _ => (callMirroring_confined ?_).bind fun _ => (modify_confined ?_).bind fun _ => ?_
    · exact modifyStreamKeys_confinedAt keys ⟨rfl, rfl, rfl, rfl, rfl, rfl⟩
    · intro part outside
      cases part <;> first | exact id | exact absurd member outside
    · intro world part outside
      cases part <;> first | rfl | exact absurd member outside
    · exact confined_pure _

theorem setupSession_confined (keys : Part.streamKeys ∈ touched) (member : Part.session ∈ touched) (dataObj : Object) :
    Confined (parts prims) touched (setupSession env res dataObj) := by
  simp only [setupSession]
  split
  · exact confined_pure _
  · split
    · exact confined_pure _
    · refine Confined.bind (fun world => modifyStreamKeys_confinedAt keys (initClientAesInfo_changes _ _ _)) fun _ => ?_
      split
      · exact confined_pure _
      · refine (beginSession_confined _ member).bind fun _ => (call_confined ?_).bind fun _ => confined_pure _
        exact fun part _ => by cases part <;> exact id

/-- `setup_handler` for a document with streams. -/
def setupStreams (env : Environment) (res : Response) (streams : Object) : Handling prims Response :=
  if streams.getType ≠ PLIST_TYPE_ARRAY then return res.withStatus badRequest
  else
    let streamObj := streams.arrayGetValue 0
    if streamObj.isNull ∨ streamObj.getType ≠ PLIST_TYPE_DICT then return res.withStatus badRequest
    else
      match (streamObj.dictGetValue (ascii "type")).integerGetValue with
      | none => return res.withStatus badRequest
      | some type =>
        if type = audio then setupAudio env res streamObj
        else if type = video then setupVideo env res streamObj
        else return res.withStatus badRequest

/-- `setup_handler` behind the decoder. -/
def setupObject (env : Environment) (res : Response) (dataObj : Object) : Handling prims Response :=
  if dataObj.isNull then return res.withStatus badRequest
  else if ¬ (dataObj.dictGetValue (ascii "streams")).isNull then setupStreams env res (dataObj.dictGetValue (ascii "streams"))
  else setupSession env res dataObj

theorem setupHandler_eq : (setupHandler env req res : Handling prims Response) =
    if req.contentType ≠ APPLICATION_BINARY_PLIST then pure (res.withStatus badRequest)
    else objectFromBplist env req >>= setupObject env res := rfl

theorem setupStreams_confined (keys : Part.streamKeys ∈ touched) (member : Part.services ∈ touched) (streams : Object) :
    Confined (parts prims) touched (setupStreams env res streams) := by
  rw [setupStreams]
  split
  · exact confined_pure _
  · dsimp only
    split
    · exact confined_pure _
    · split
      · exact confined_pure _
      · split
        · exact setupAudio_confined member _
        · split
          · exact setupVideo_confined keys member _
          · exact confined_pure _

theorem setupHandler_confined (member : ∀ part ∈ [Part.session, .services, .streamKeys, .allocations], part ∈ touched) :
    Confined (parts prims) touched (setupHandler env req res) := by
  rw [setupHandler_eq]
  split
  · exact confined_pure _
  · refine (objectFromBplist_confined (member _ (by decide))).bind fun dataObj => ?_
    rw [setupObject]
    split
    · exact confined_pure _
    · split
      · exact setupStreams_confined (member _ (by decide)) (member _ (by decide)) _
      · exact setupSession_confined (member _ (by decide)) (member _ (by decide)) _

theorem teardownHandler_confined (member : ∀ part ∈ [Part.services, .allocations], part ∈ touched) :
    Confined (parts prims) touched (teardownHandler env req res) := by
  have stopped : ∀ change : Connection prims → Connection prims,
      (∀ world : World prims, ∀ part ≠ Part.services, Leaves (fun world => { world with conn := change world.conn }) world part) →
      ∀ callback, (∀ part ≠ Part.services, ¬ part.Shows (.call callback)) →
      Confined (parts prims) touched (do modifyConn change; callMirroring callback) := by
    intro change keeps callback apart
    refine (modify_confined fun world part outside => keeps world part ?_).bind fun _ =>
      callMirroring_confined fun part outside => apart part ?_
    all_goals exact fun same => outside (same ▸ member _ (by decide))
  simp only [teardownHandler]
  split
  · refine (objectFromBplist_confined (member _ (by decide))).bind fun dataObj => Confined.bind ?_ fun _ => confined_pure _
    simp only [teardownStream]
    split
    · exact confined_pure ()
    · split
      · apply stopped
        · intro world part other
          cases part <;> first | rfl | exact absurd rfl other
        · intro part other
          cases part <;> first | exact id | exact absurd rfl other
      · split
        · apply stopped
          · intro world part other
            cases part <;> first | rfl | exact absurd rfl other
          · intro part other
            cases part <;> first | exact id | exact absurd rfl other
        · exact confined_pure ()
  · exact confined_pure _

end Streams

section Casting

theorem store_confined {change : World prims → MediaDataStore.Store} (member : Part.store ∈ touched) :
    Confined (parts prims) touched (modify fun world => { world with store := change world }) := by
  apply modify_confined
  intro world part outside
  cases part <;> first | rfl | exact absurd member outside

theorem postReverseHandler_confined
    (member : ∀ part ∈ [Part.appleSessionId, .reversal, .eventConnections], part ∈ touched) :
    Confined (parts prims) touched (postReverseHandler req res) := by
  simp only [postReverseHandler, second]
  refine (confined_checked fun part _ => ?_).bind fun session => (modify_confined ?_).bind fun _ => confined_pure _
  · cases part <;> exact id
  · intro world part outside
    cases part <;> first | rfl | exact absurd (member _ (by decide)) outside

theorem playLocation_confined (member : Part.store ∈ touched) (location : Bytes) :
    Confined (parts prims) touched (playLocation env req res location) := by
  simp only [playLocation]
  split
  · exact confined_pure _
  · refine confined_get.bind fun world => (store_confined member).bind fun _ => (sendAll_confined _).bind fun _ => ?_
    split
    · refine (callVideo_confined fun sessionId part _ => ?_).bind fun _ => confined_pure _
      cases part <;> exact id
    · exact confined_pure _

theorem postPlayHandler_confined (member : ∀ part ∈ [Part.playback, .store, .allocations], part ∈ touched) :
    Confined (parts prims) touched (postPlayHandler env req res) := by
  have stored := member .store (by decide)
  have opened : ∀ location, Confined (parts prims) touched (playLocation env req res location) := playLocation_confined stored
  simp only [postPlayHandler]
  split
  · refine (objectFromBplist_confined (member _ (by decide))).bind fun dataObj => ?_
    split
    · exact confined_pure _
    · simp only [playObject]
      split
      · exact confined_pure _
      · refine (modify_confined ?_).bind fun _ => ?_
        · intro world part outside
          cases part <;> first | rfl | exact absurd (member _ (by decide)) outside
        split
        · exact confined_pure _
        · refine (modify_confined ?_).bind fun _ => opened _
          intro world part outside
          cases part <;> first | rfl | exact absurd (member _ (by decide)) outside
  · split
    · split
      · refine (modify_confined ?_).bind fun _ => opened _
        intro world part outside
        cases part <;> first | rfl | exact absurd (member _ (by decide)) outside
      · exact opened _
    · exact confined_pure _

theorem processMediaData_confined (member : Part.store ∈ touched) (uri data : Bytes) :
    Confined (parts prims) touched (processMediaData env uri data) := by
  simp only [processMediaData]
  refine confined_get.bind fun world => (store_confined member).bind fun _ => ?_
  split
  · exact (confined_emit fun part _ => by cases part <;> exact id).bind fun _ => confined_stop _
  · exact (sendAll_confined _).bind fun _ => confined_pure _

theorem postActionHandler_confined (member : ∀ part ∈ [Part.appleSessionId, .store, .allocations], part ∈ touched) :
    Confined (parts prims) touched (postActionHandler env req res) := by
  simp only [postActionHandler]
  refine (objectFromBplist_confined (member _ (by decide))).bind fun dataObj => ?_
  split
  · exact confined_pure _
  · split
    · exact confined_pure _
    · split
      · simp only [unhandledUrlResponse]
        split
        · exact confined_pure _
        · split
          · exact confined_pure _
          · refine (processMediaData_confined (member _ (by decide)) _ _).bind fun location => getConn_confined.bind fun conn => ?_
            split
            · refine (modify_confined ?_).bind fun _ => (callVideo_confined fun sessionId part _ => ?_).bind fun _ => confined_pure _
              · intro world part outside
                cases part <;> first | rfl | exact absurd (member _ (by decide)) outside
              · cases part <;> exact id
            · exact confined_pure _
      · exact confined_pure _

end Casting

section Others

theorem setParameterHandler_confined : Confined (parts prims) touched (setParameterHandler env req res) := by
  have reported : ∀ callback, (∀ part : Part, ¬ part.Shows (.call callback)) →
      Confined (parts prims) touched (do callMirroring callback; return res.withStatus ok) :=
    fun callback apart => (callMirroring_confined fun part _ => apart part).bind fun _ => confined_pure _
  simp only [setParameterHandler]
  split
  · split
    · exact reported _ fun part => by cases part <;> exact id
    · split
      · exact reported _ fun part => by cases part <;> exact id
      · exact confined_pure _
  · split
    · exact reported _ fun part => by cases part <;> exact id
    · split
      · exact reported _ fun part => by cases part <;> exact id
      · exact confined_pure _

/-- A call for the session of a video, and nothing else. -/
theorem videoCall_confined {callback : UInt64 → Callback} {answer : Response}
    (apart : ∀ sessionId, ∀ part : Part, ¬ part.Shows (.call (callback sessionId))) :
    Confined (parts prims) touched (do callVideo callback; return answer) :=
  (callVideo_confined fun sessionId part _ => apart sessionId part).bind fun _ => confined_pure _

theorem postScrubHandler_confined : Confined (parts prims) touched (postScrubHandler env req res) := by
  simp only [postScrubHandler]
  split
  · exact videoCall_confined fun _ part => by cases part <;> exact id
  · exact confined_pure _

theorem postRateHandler_confined : Confined (parts prims) touched (postRateHandler env req res) := by
  simp only [postRateHandler]
  split
  · exact videoCall_confined fun _ part => by cases part <;> exact id
  · exact confined_pure _

theorem putSetPropertyHandler_confined (member : Part.allocations ∈ touched) :
    Confined (parts prims) touched (putSetPropertyHandler env req res) := by
  simp only [putSetPropertyHandler]
  split
  · exact (objectFromBplist_confined member).bind fun _ => confined_pure _
  · split
    · exact confined_pure _
    · split <;> exact confined_pure _

end Others

/-- The parts of the world that a handler may change. -/
def Handler.touches : Handler → List Part
  | .postPairSetup | .postPairVerify => [.pairing]
  | .postFpSetup => [.streamKeys]
  | .setup => [.session, .services, .streamKeys, .allocations]
  | .teardown => [.services, .allocations]
  | .getServerInfo => [.session]
  | .postReverse => [.appleSessionId, .reversal, .eventConnections]
  | .postPlay => [.playback, .store, .allocations]
  | .postStop => [.store]
  | .postAction => [.appleSessionId, .store, .allocations]
  | .putSetProperty => [.allocations]
  | _ => []

theorem Handler.run_confined (handler : Handler) : Confined (parts prims) handler.touches (handler.run env req res) := by
  cases handler with
  | postPairSetup => exact postPairSetupHandler_confined (by decide)
  | postPairVerify => exact postPairVerifyHandler_confined (by decide)
  | postFpSetup => exact postFpSetupHandler_confined (by decide)
  | setup => exact setupHandler_confined (by decide)
  | teardown => exact teardownHandler_confined (by decide)
  | getServerInfo => exact (beginSession_confined _ (by decide)).bind fun _ => confined_pure _
  | postReverse => exact postReverseHandler_confined (by decide)
  | postPlay => exact postPlayHandler_confined (by decide)
  | postStop =>
    refine (store_confined (by decide)).bind fun _ => videoCall_confined ?_
    exact fun _ part => by cases part <;> exact id
  | postAction => exact postActionHandler_confined (by decide)
  | putSetProperty => exact putSetPropertyHandler_confined (by decide)
  | record => exact (call_confined fun part _ => by cases part <;> exact id).bind fun _ => confined_pure _
  | setParameter => exact setParameterHandler_confined
  | postScrub => exact postScrubHandler_confined
  | postRate => exact postRateHandler_confined
  | getPlaybackInfo => exact videoCall_confined fun _ part => by cases part <;> exact id
  | options | getInfo | postFeedback | getParameter | flush | postAudioMode | postFpSetup2 | postGetProperty =>
    exact confined_pure _

/-- The handler that a request is routed to, if there is one. -/
def routed (req : Request) : Option Handler := (RequestRouteTable.queryHandler routeTable req).toOption

/-- A request touches what its handler touches, and nothing where it has none. -/
theorem processRequest_confined (date : DateText) (req : Request) :
    Confined (parts prims) ((routed req).elim [] Handler.touches) (processRequest env date req) := by
  simp only [processRequest, routed]
  cases RequestRouteTable.queryHandler routeTable req with
  | ok handler => exact handler.run_confined.bind fun _ => confined_pure _
  | error reason => cases reason <;> exact confined_pure _

theorem processRequest_eq {date : DateText} {req : Request} {handler : Handler} (route : routed req = some handler) :
    (processRequest env date req : Handling prims (Option Response)) =
      handler.run env req (.new req.schemeVersion) >>= fun res => pure (some (addCommonHeader env date req res)) := by
  have found : RequestRouteTable.queryHandler routeTable req = .ok handler := by
    unfold routed at route
    cases query : RequestRouteTable.queryHandler routeTable req with
    | ok other =>
      rw [query] at route
      exact congrArg Except.ok (Option.some.inj route)
    | error reason =>
      rw [query] at route
      cases route
  simp only [processRequest, found]

/-- A request that is routed is answered just where its handler ends, and leaves the world that the handler leaves. -/
theorem processRequest_outcome_iff {date : DateText} {req : Request} {handler : Handler} {world after : World prims}
    {posted : Option Response} (route : routed req = some handler) :
    Outcome (processRequest env date req) world posted after ↔
      ∃ res, Outcome (handler.run env req (.new req.schemeVersion)) world res after ∧
        posted = some (addCommonHeader env date req res) := by
  rw [processRequest_eq route, outcome_bind_iff]
  constructor
  · rintro ⟨res, between, ran, rest⟩
    obtain ⟨rfl, rfl⟩ := outcome_pure_iff.mp rest
    exact ⟨res, ran, rfl⟩
  · rintro ⟨res, ran, rfl⟩
    exact ⟨res, after, ran, outcome_pure_iff.mpr ⟨rfl, rfl⟩⟩

end Apsdk.Airplay
