import Apsdk.Proofs.EventConnections
import Apsdk.Proofs.HandlerSafety

/-! The application is told of streams by the handlers that set them up and tear
them down, whatever stream services there are, and not by the destructor. What it
is told agrees with the services as long as the client sets up no stream twice,
tears down none that is not set up, and leaves none behind. -/

namespace Apsdk.Airplay
open Library Plist Traced Machine

variable {prims : Primitives} {env : Environment} {req : Request} {res answered : Response} {world after : World prims}

inductive Stream where
  | audio
  | video
deriving DecidableEq, Repr

inductive Phase where
  | started
  | stopped
deriving DecidableEq, Repr

/-- What the mirroring handler is told of a stream. -/
def Event.stream : Event → Option (Stream × Phase)
  | .call (.onAudioStreamStarted _) => some (.audio, .started)
  | .call .onAudioStreamStopped => some (.audio, .stopped)
  | .call .onVideoStreamStarted => some (.video, .started)
  | .call .onVideoStreamStopped => some (.video, .stopped)
  | _ => none

/-- Whether the service of a stream is not null. -/
def Connection.streamService (conn : Connection prims) : Stream → Bool
  | .audio => conn.mirroringAudioStreamService
  | .video => conn.mirroringVideoStreamService

/-- The stream that a `SETUP` with an object for a stream sets up. -/
def setsUp (streamObj : Object) : Option Stream :=
  match (streamObj.dictGetValue (ascii "type")).integerGetValue with
  | none => none
  | some type =>
    if type = audio then
      match (streamObj.dictGetValue (ascii "audioFormat")).integerGetValue with
      | none => none
      | some formatValue => if audioDataFormat formatValue = 0 then none else some .audio
    else if type = video then (streamObj.dictGetValue (ascii "streamConnectionID")).integerGetValue.map fun _ => .video
    else none

/-- The stream that a `TEARDOWN` with an object for a stream tears down. -/
def tearsDown (streamObj : Object) : Option Stream :=
  match (streamObj.dictGetValue (ascii "type")).integerGetValue with
  | none => none
  | some type => if type = video then some .video else if type = audio then some .audio else none

/-- The object for the first stream in the document of a request, null where there is none. -/
def streamObject (env : Environment) (req : Request) (world : World prims) : Object :=
  if req.contentType = APPLICATION_BINARY_PLIST then
    match (decoding env req world).value with
    | .ok dataObj => (dataObj.dictGetValue (ascii "streams")).arrayGetValue 0
    | .error _ => .null
  else .null

/-- What a request is meant to do to a stream. -/
def commands (env : Environment) (req : Request) (world : World prims) : Option (Stream × Phase) :=
  match routed req with
  | some .setup => (setsUp (streamObject env req world)).map fun stream => (stream, .started)
  | some .teardown => (tearsDown (streamObject env req world)).map fun stream => (stream, .stopped)
  | _ => none

/-- What becomes of a stream service under a command. -/
def commanded (command : Option (Stream × Phase)) (stream : Stream) (before : Bool) : Bool :=
  match command with
  | none => before
  | some (meant, phase) => if meant = stream then phase = .started else before

/-- A computation has followed a command, and told the handler if there is one. -/
structure Commanded (command : Option (Stream × Phase)) (world after : World prims) (events : List Event) : Prop where
  services : ∀ stream, after.conn.streamService stream = commanded command stream (world.conn.streamService stream)
  told : events.filterMap Event.stream = if world.conn.mirroringSessionHandler = true then command.toList else []

section Rules
variable {α β : Type} {first : Handling prims α} {next : α → Handling prims β} {command : Option (Stream × Phase)} {value : α}

theorem untold_of_silent {events : List Event} (silent : ∀ event ∈ events, ¬ Part.services.Shows event) :
    events.filterMap Event.stream = [] := by
  refine List.filterMap_eq_nil_iff.mpr fun event member => ?_
  have unseen := silent event member
  cases event with
  | call callback => cases callback <;> first | rfl | exact absurd trivial unseen
  | _ => rfl

theorem streamService_of_view (same : Part.services.view after = Part.services.view world) (stream : Stream) :
    after.conn.streamService stream = world.conn.streamService stream := by
  obtain ⟨videoSame, audioSame⟩ := Prod.mk.inj same
  cases stream with
  | audio => exact audioSame
  | video => exact videoSame

theorem commanded_of_confined (touched : List Part) (confined : ConfinedAt (parts prims) touched first world)
    (outside : Part.services ∉ touched) : Commanded none world (first.run world).state (first.run world).events := by
  obtain ⟨kept, silent⟩ := confined _ outside
  refine ⟨fun stream => streamService_of_view kept stream, ?_⟩
  rw [untold_of_silent silent]
  exact (ite_self []).symm

theorem commanded_pure (value : α) :
    Commanded none world ((pure value : Handling prims α).run world).state ((pure value : Handling prims α).run world).events :=
  commanded_of_confined [] (confined_pure value world) List.not_mem_nil

/-- What comes first has nothing to do with streams or handlers. -/
theorem Commanded.later (touched : List Part) (confined : ConfinedAt (parts prims) touched first world)
    (outside : Part.services ∉ touched ∧ Part.session ∉ touched) (done : (first.run world).value = .ok value)
    (followed : Commanded command (first.run world).state ((next value).run (first.run world).state).state
      ((next value).run (first.run world).state).events) :
    Commanded command world ((first >>= next).run world).state ((first >>= next).run world).events := by
  have here := commanded_of_confined touched confined outside.1
  have sameHandler : (first.run world).state.conn.mirroringSessionHandler = world.conn.mirroringSessionHandler :=
    congrArg (fun session => session.2.1) (confined _ outside.2).1
  rw [bind_of_ok done]
  refine ⟨fun stream => ?_, ?_⟩
  · rw [followed.services, here.services]
    rfl
  · rw [List.filterMap_append, here.told, followed.told, sameHandler]
    cases world.conn.mirroringSessionHandler <;> rfl

/-- What comes behind has nothing to do with streams. -/
theorem Commanded.earlier (touched : List Part) (followed : Commanded command world (first.run world).state (first.run world).events)
    (done : (first.run world).value = .ok value)
    (confined : ConfinedAt (parts prims) touched (next value) (first.run world).state) (outside : Part.services ∉ touched) :
    Commanded command world ((first >>= next).run world).state ((first >>= next).run world).events := by
  have rest := commanded_of_confined touched confined outside
  rw [bind_of_ok done]
  refine ⟨fun stream => (rest.services stream).trans (followed.services stream), ?_⟩
  rw [List.filterMap_append, followed.told, rest.told]
  exact (congrArg _ (ite_self [])).trans (List.append_nil _)

end Rules

section Handlers

/-- A service changes, and the handler is told if there is one. -/
theorem commanded_of_run {α : Type} {traced : Handling prims α} {stream : Stream} {phase : Phase} {value : α} (callback : Callback)
    (change : Connection prims → Connection prims) (reports : Event.stream (.call callback) = some (stream, phase))
    (changes : ∀ other, (change world.conn).streamService other =
      commanded (some (stream, phase)) other (world.conn.streamService other))
    (ran : traced.run world = ⟨if world.conn.mirroringSessionHandler = true then [.call callback] else [],
      { world with conn := change world.conn }, .ok value⟩) :
    Commanded (some (stream, phase)) world (traced.run world).state (traced.run world).events := by
  rw [ran]
  refine ⟨changes, ?_⟩
  cases world.conn.mirroringSessionHandler with
  | false => rfl
  | true => exact List.filterMap_cons_some reports

theorem callMirroring_run (callback : Callback) (world : World prims) : (callMirroring callback).run world =
    ⟨if world.conn.mirroringSessionHandler = true then [.call callback] else [], world, .ok ()⟩ := by
  show ((if world.conn.mirroringSessionHandler = true then call callback else pure ()) : Handling prims Unit).run world = _
  cases world.conn.mirroringSessionHandler <;> rfl

theorem callMirroring_bind_run {α : Type} (callback : Callback) (next : Unit → Handling prims α) (world : World prims) :
    (callMirroring callback >>= next).run world =
      ⟨(if world.conn.mirroringSessionHandler = true then [.call callback] else []) ++ ((next ()).run world).events,
        ((next ()).run world).state, ((next ()).run world).value⟩ := by
  have done : ((callMirroring callback).run world).value = .ok () := by rw [callMirroring_run]
  rw [bind_of_ok done, callMirroring_run]

theorem setupAudio_commanded (streamObj : Object) :
    Commanded (match (streamObj.dictGetValue (ascii "audioFormat")).integerGetValue with
      | none => none
      | some formatValue => if audioDataFormat formatValue = 0 then none else some (.audio, .started)) world
      ((setupAudio env res streamObj).run world).state ((setupAudio env res streamObj).run world).events := by
  simp only [setupAudio]
  cases (streamObj.dictGetValue (ascii "audioFormat")).integerGetValue with
  | none => exact commanded_pure _
  | some formatValue =>
    by_cases unsupported : audioDataFormat formatValue = 0
    · simp only [if_pos unsupported]
      exact commanded_pure _
    · simp only [if_neg unsupported]
      apply commanded_of_run (.onAudioStreamStarted (audioDataFormat formatValue))
        (fun conn => { conn with mirroringAudioStreamService := true }) rfl
      · intro other
        cases other <;> rfl
      · refine (callMirroring_bind_run _ _ { world with conn := { world.conn with mirroringAudioStreamService := true } }).trans ?_
        exact congrArg (Execution.mk · _ _) (List.append_nil _)

theorem setupVideo_commanded (streamObj : Object) :
    Commanded ((streamObj.dictGetValue (ascii "streamConnectionID")).integerGetValue.map fun _ => (.video, .started)) world
      ((setupVideo env res streamObj).run world).state ((setupVideo env res streamObj).run world).events := by
  simp only [setupVideo]
  cases (streamObj.dictGetValue (ascii "streamConnectionID")).integerGetValue with
  | none => exact commanded_pure _
  | some connectionId =>
    have keyed : ConfinedAt (parts prims) [.streamKeys] (modifyCrypto fun crypto => crypto.initVideoStreamAesCtr ⟨connectionId⟩) world :=
      modifyStreamKeys_confinedAt (List.mem_singleton_self _) ⟨rfl, rfl, rfl, rfl, rfl, rfl⟩
    refine Commanded.later [.streamKeys] keyed (by decide) rfl ?_
    apply commanded_of_run .onVideoStreamStarted (fun conn => { conn with mirroringVideoStreamService := true }) rfl
    · intro other
      cases other <;> rfl
    · refine (callMirroring_bind_run _ _ _).trans ?_
      exact congrArg (Execution.mk · _ _) (List.append_nil _)

theorem setsUp_of_typeless {streamObj : Object} (typeless : streamObj.isNull = true ∨ streamObj.getType ≠ PLIST_TYPE_DICT) :
    setsUp streamObj = none := by
  cases streamObj with
  | dict entries =>
    rcases typeless with null | other
    · cases null
    · exact absurd rfl other
  | _ => rfl

theorem arrayGetValue_of_other {object : Object} (other : object.getType ≠ PLIST_TYPE_ARRAY) (idx : Nat) :
    object.arrayGetValue idx = .null := by
  cases object with
  | array values => exact absurd rfl other
  | _ => rfl

theorem setupStreams_commanded (streams : Object) :
    Commanded ((setsUp (streams.arrayGetValue 0)).map fun stream => (stream, .started)) world
      ((setupStreams env res streams).run world).state ((setupStreams env res streams).run world).events := by
  rw [setupStreams]
  by_cases array : streams.getType = PLIST_TYPE_ARRAY
  · rw [if_neg (not_not.mpr array)]
    dsimp only
    by_cases typeless : (streams.arrayGetValue 0).isNull = true ∨ (streams.arrayGetValue 0).getType ≠ PLIST_TYPE_DICT
    · rw [if_pos typeless, setsUp_of_typeless typeless]
      exact commanded_pure _
    · rw [if_neg typeless, setsUp]
      cases ((streams.arrayGetValue 0).dictGetValue (ascii "type")).integerGetValue with
      | none => exact commanded_pure _
      | some type =>
        dsimp only
        by_cases isAudio : type = audio
        · rw [if_pos isAudio, if_pos isAudio]
          have followed := @setupAudio_commanded prims env res world (streams.arrayGetValue 0)
          cases formatted : ((streams.arrayGetValue 0).dictGetValue (ascii "audioFormat")).integerGetValue with
          | none =>
            rw [formatted] at followed
            exact followed
          | some formatValue =>
            rw [formatted] at followed
            dsimp only at followed ⊢
            split_ifs at followed ⊢ with unsupported
            · exact followed
            · exact followed
        · rw [if_neg isAudio, if_neg isAudio]
          by_cases isVideo : type = video
          · rw [if_pos isVideo, if_pos isVideo, Option.map_map]
            exact setupVideo_commanded _
          · rw [if_neg isVideo, if_neg isVideo]
            exact commanded_pure _
  · rw [if_pos array, arrayGetValue_of_other array]
    exact commanded_pure _

/-- A document without streams commands none. -/
theorem setupObject_commanded (dataObj : Object) :
    Commanded ((setsUp ((dataObj.dictGetValue (ascii "streams")).arrayGetValue 0)).map fun stream => (stream, .started)) world
      ((setupObject env res dataObj).run world).state ((setupObject env res dataObj).run world).events := by
  rw [setupObject]
  by_cases null : dataObj.isNull = true
  · have nothing : dataObj.dictGetValue (ascii "streams") = .null := by
      cases dataObj with
      | null => rfl
      | _ => cases null
    rw [if_pos null, nothing]
    exact commanded_pure _
  · rw [if_neg null]
    by_cases streamless : (dataObj.dictGetValue (ascii "streams")).isNull = true
    · have nothing : dataObj.dictGetValue (ascii "streams") = .null := by
        cases object : dataObj.dictGetValue (ascii "streams") with
        | null => rfl
        | _ =>
          rw [object] at streamless
          cases streamless
      rw [if_neg (not_not.mpr streamless), nothing]
      refine commanded_of_confined [.streamKeys, .session] ?_ (by decide)
      exact setupSession_confined (by decide) (by decide) dataObj world
    · rw [if_pos streamless]
      exact setupStreams_commanded _

theorem setupHandler_commanded (ends : Outcome (setupHandler env req res) world answered after) :
    Commanded ((setsUp (streamObject env req world)).map fun stream => (stream, .started)) world
      ((setupHandler env req res).run world).state ((setupHandler env req res).run world).events := by
  rw [setupHandler_eq] at ends ⊢
  rw [streamObject]
  by_cases typed : req.contentType = APPLICATION_BINARY_PLIST
  · rw [if_neg (not_not.mpr typed)] at ends ⊢
    obtain ⟨dataObj, between, ⟨decoded, -⟩, rest⟩ := outcome_bind_iff.mp ends
    have value : (decoding env req world).value = .ok dataObj := decoded
    rw [if_pos typed, value]
    exact Commanded.later _ (objectFromBplist_confined (List.mem_singleton_self _) _) (by decide) decoded (setupObject_commanded dataObj)
  · rw [if_pos typed, if_neg typed]
    exact commanded_pure _

theorem teardownStream_commanded (dataObj : Object) :
    Commanded ((tearsDown ((dataObj.dictGetValue (ascii "streams")).arrayGetValue 0)).map fun stream => (stream, .stopped)) world
      ((teardownStream dataObj).run world).state ((teardownStream dataObj).run world).events := by
  rw [teardownStream, tearsDown]
  cases (((dataObj.dictGetValue (ascii "streams")).arrayGetValue 0).dictGetValue (ascii "type")).integerGetValue with
  | none => exact commanded_pure ()
  | some type =>
    dsimp only
    by_cases isVideo : type = video
    · rw [if_pos isVideo, if_pos isVideo]
      apply commanded_of_run .onVideoStreamStopped (fun conn => { conn with mirroringVideoStreamService := false }) rfl
      · intro other
        cases other <;> rfl
      · exact callMirroring_run _ { world with conn := { world.conn with mirroringVideoStreamService := false } }
    · rw [if_neg isVideo, if_neg isVideo]
      by_cases isAudio : type = audio
      · rw [if_pos isAudio, if_pos isAudio]
        apply commanded_of_run .onAudioStreamStopped (fun conn => { conn with mirroringAudioStreamService := false }) rfl
        · intro other
          cases other <;> rfl
        · exact callMirroring_run _ { world with conn := { world.conn with mirroringAudioStreamService := false } }
      · rw [if_neg isAudio, if_neg isAudio]
        exact commanded_pure ()

theorem teardownHandler_commanded (ends : Outcome (teardownHandler env req res) world answered after) :
    Commanded ((tearsDown (streamObject env req world)).map fun stream => (stream, .stopped)) world
      ((teardownHandler env req res).run world).state ((teardownHandler env req res).run world).events := by
  rw [streamObject]
  simp only [teardownHandler] at ends ⊢
  by_cases typed : req.contentType = APPLICATION_BINARY_PLIST
  · rw [if_pos typed] at ends ⊢
    obtain ⟨dataObj, between, ⟨decoded, rfl⟩, rest⟩ := outcome_bind_iff.mp ends
    have value : (decoding env req world).value = .ok dataObj := decoded
    obtain ⟨⟨⟩, torn, ⟨done, -⟩, -⟩ := outcome_bind_iff.mp rest
    rw [if_pos typed, value]
    refine Commanded.later _ (objectFromBplist_confined (List.mem_singleton_self _) _) (by decide) decoded ?_
    exact (teardownStream_commanded dataObj).earlier [] done (confined_pure _ _) List.not_mem_nil
  · rw [if_neg typed, if_neg typed]
    exact commanded_pure _

end Handlers

/-- A request does to the streams what it commands, whatever there is. -/
theorem processRequest_commanded {date : DateText} {posted : Option Response}
    (ends : Outcome (processRequest env date req) world posted after) :
    Commanded (commands env req world) world ((processRequest env date req).run world).state
      ((processRequest env date req).run world).events := by
  have untouched : Part.services ∉ (routed req).elim [] Handler.touches →
      Commanded none world ((processRequest env date req).run world).state ((processRequest env date req).run world).events :=
    fun outside => commanded_of_confined _ (processRequest_confined date req world) outside
  rw [commands]
  cases route : routed req with
  | none =>
    rw [route] at untouched
    exact untouched List.not_mem_nil
  | some handler =>
    obtain ⟨res, ran, -⟩ := (processRequest_outcome_iff route).mp ends
    have finished : ∀ command, Commanded command world ((handler.run env req (.new req.schemeVersion)).run world).state
        ((handler.run env req (.new req.schemeVersion)).run world).events →
        Commanded command world ((processRequest env date req).run world).state ((processRequest env date req).run world).events := by
      intro command followed
      rw [processRequest_eq route]
      exact followed.earlier [] ran.1 (confined_pure _ _) List.not_mem_nil
    rw [route] at untouched
    cases handler with
    | setup => exact finished _ (setupHandler_commanded ran)
    | teardown => exact finished _ (teardownHandler_commanded ran)
    | _ => exact untouched (by decide)

/-- Started and stopped alternate, beginning with started; the stream is left started or not. -/
inductive Alternating : List Phase → Bool → Prop where
  | quiet : Alternating [] false
  | start {phases : List Phase} (before : Alternating phases false) : Alternating (phases ++ [.started]) true
  | stop {phases : List Phase} (before : Alternating phases true) : Alternating (phases ++ [.stopped]) false

/-- What is left started is told by what has been told. -/
theorem Alternating.last {phases : List Phase} {running : Bool} (alternating : Alternating phases running) :
    running = decide (phases.getLast? = some .started) := by
  cases alternating with
  | quiet => rfl
  | start before => simp
  | stop before => simp

theorem Alternating.unique {phases : List Phase} {running other : Bool} (alternating : Alternating phases running) :
    Alternating phases other ↔ running = other :=
  ⟨fun same => alternating.last.trans same.last.symm, fun same => same ▸ alternating⟩

theorem alternating_concat_iff {phases : List Phase} {phase : Phase} {running : Bool} :
    Alternating (phases ++ [phase]) running ↔ Alternating phases (phase = .stopped) ∧ running = decide (phase = .started) := by
  constructor
  · intro alternating
    generalize whole : phases ++ [phase] = all at alternating
    cases alternating with
    | quiet => exact absurd whole (List.append_ne_nil_of_right_ne_nil _ (List.cons_ne_nil _ _))
    | start before =>
      obtain ⟨rfl, same⟩ := List.append_inj' whole rfl
      obtain rfl := List.head_eq_of_cons_eq same
      exact ⟨before, rfl⟩
    | stop before =>
      obtain ⟨rfl, same⟩ := List.append_inj' whole rfl
      obtain rfl := List.head_eq_of_cons_eq same
      exact ⟨before, rfl⟩
  · rintro ⟨before, rfl⟩
    cases phase with
    | started => exact .start before
    | stopped => exact .stop before

namespace Service

/-- What the mirroring handlers are told in a step. The destructor of a connection releases its handler and says nothing of streams. -/
def told (service : Service prims) : ServiceEvent → List (Nat × Stream × Phase)
  | .request id dispatch =>
    match service.members.find? id with
    | some ⟨conn, true⟩ =>
      ((service.process dispatch conn).events.filterMap Event.stream).map fun report => (id, report)
    | _ => []
  | _ => []

/-- The service as its mirroring handlers see it. -/
def reporting : Machine (Service prims) ServiceEvent (Nat × Stream × Phase) := fun service event =>
  (step service event).map fun (next, _) => (next, service.told event)

/-- Whether a stream service of a connection exists. -/
def streams (service : Service prims) (id : Nat) (stream : Stream) : Bool :=
  (service.members.find? id).any fun member => member.conn.streamService stream

/-- What has been told of a stream of a connection. -/
def phasesOf (id : Nat) (stream : Stream) (outputs : List (Nat × Stream × Phase)) : List Phase :=
  outputs.filterMap fun (teller, report) => if teller = id ∧ report.1 = stream then some report.2 else none

/-- Starts and stops of the streams of a connection alternate, and a stream is started just while its service exists. -/
def Matched (id : Nat) (service : Service prims) (outputs : List (Nat × Stream × Phase)) : Prop :=
  ∀ stream, Alternating (phasesOf id stream outputs) (service.streams id stream)

/-- What a request of a connection commands. -/
def commands (service : Service prims) (dispatch : Dispatch) (conn : Connection prims) : Option (Stream × Phase) :=
  Airplay.commands { dispatch.env with alive := service.alive } dispatch.req (service.world conn)

/-- With a handler to tell, a stream is set up where it does not exist and torn down where it does; without one, nothing is
told and nothing may change. -/
def Fits (conn : Connection prims) : Stream × Phase → Prop
  | (stream, .started) => conn.streamService stream = !conn.mirroringSessionHandler
  | (stream, .stopped) => conn.streamService stream = conn.mirroringSessionHandler

/-- What a connection is told to do with its streams fits what there is, and nothing is left for its destructor. -/
def Orderly (id : Nat) (service : Service prims) : ServiceEvent → Prop
  | .request requested dispatch => requested = id → ∀ conn, service.members.find? id = some ⟨conn, true⟩ →
      ∀ command, service.commands dispatch conn = some command → Fits conn command
  | .destroy destroyed => destroyed = id → ∀ conn, service.members.find? id = some ⟨conn, false⟩ →
      ∀ stream, conn.streamService stream = false
  | _ => True

section Step
variable {service next : Service prims} {id : Nat} {outputs sent : List (Nat × Stream × Phase)} {event : ServiceEvent}

theorem phasesOf_append (id : Nat) (stream : Stream) (first later : List (Nat × Stream × Phase)) :
    phasesOf id stream (first ++ later) = phasesOf id stream first ++ phasesOf id stream later := List.filterMap_append

theorem phasesOf_other {teller : Nat} (other : teller ≠ id) (stream : Stream) (reports : List (Stream × Phase)) :
    phasesOf id stream (reports.map fun report => (teller, report)) = [] := by
  refine List.filterMap_eq_nil_iff.mpr fun report member => ?_
  obtain ⟨inner, -, rfl⟩ := List.mem_map.mp member
  exact if_neg fun both => other both.1

theorem streams_of_find {member : Member prims} (found : service.members.find? id = some member) (stream : Stream) :
    service.streams id stream = member.conn.streamService stream := by rw [streams, found, Option.any_some]

theorem streams_of_insert (other : Nat) (member : Member prims) (stream : Stream)
    (same : next.members = service.members.insert other member) :
    next.streams id stream = if other = id then member.conn.streamService stream else service.streams id stream := by
  rw [streams, same, SortedMap.find?_insert]
  split_ifs <;> rfl

theorem phasesOf_reports (id : Nat) (stream : Stream) (command : Option (Stream × Phase)) (handled : Bool) :
    phasesOf id stream ((if handled = true then command.toList else []).map fun report => (id, report)) =
      match command with
      | none => []
      | some (meant, phase) => if handled = true ∧ meant = stream then [phase] else [] := by
  cases handled with
  | false => cases command <;> rfl
  | true =>
    cases command with
    | none => rfl
    | some report =>
      obtain ⟨meant, phase⟩ := report
      by_cases same : meant = stream
      · simp [phasesOf, same]
      · simp [phasesOf, same]

/-- What a command tells of its stream goes with what becomes of the service just when it fits. -/
theorem report_fits_iff {conn : Connection prims} {stream : Stream} {phase : Phase} {phases : List Phase}
    (matched : Alternating phases (conn.streamService stream)) :
    Alternating (phases ++ if conn.mirroringSessionHandler = true then [phase] else []) (phase = .started) ↔
      Fits conn (stream, phase) := by
  cases handled : conn.mirroringSessionHandler with
  | true =>
    rw [if_pos rfl, alternating_concat_iff, and_iff_left rfl, matched.unique]
    cases phase with
    | started => simp [Fits, handled]
    | stopped => simp [Fits, handled]
  | false =>
    rw [if_neg Bool.false_ne_true, List.append_nil, matched.unique]
    cases phase with
    | started => simp [Fits, handled]
    | stopped => simp [Fits, handled]

theorem command_fits_iff {conn : Connection prims} {command : Option (Stream × Phase)}
    (matched : ∀ stream, Alternating (phasesOf id stream outputs) (conn.streamService stream)) :
    (∀ stream, Alternating (phasesOf id stream outputs ++ phasesOf id stream
      ((if conn.mirroringSessionHandler = true then command.toList else []).map fun report => (id, report)))
        (commanded command stream (conn.streamService stream))) ↔ ∀ meant, command = some meant → Fits conn meant := by
  simp only [phasesOf_reports]
  cases command with
  | none =>
    refine iff_of_true (fun stream => ?_) fun meant impossible => nomatch impossible
    exact (List.append_nil (phasesOf id stream outputs)).symm ▸ matched stream
  | some report =>
    obtain ⟨meant, phase⟩ := report
    have here : _ ↔ Fits conn (meant, phase) := report_fits_iff (matched meant)
    constructor
    · intro all other same
      cases same
      have told := all meant
      simp only [commanded, and_true, if_pos] at told
      exact here.mp told
    · intro fits stream
      by_cases same : meant = stream
      · subst same
        simp only [commanded, and_true, if_pos]
        exact here.mpr (fits _ rfl)
      · simp only [commanded, if_neg same, if_neg fun both : _ ∧ _ => same both.2, List.append_nil]
        exact matched stream

theorem matched_step_iff (identified : Identified service) (matched : Matched id service outputs)
    (stepped : reporting service event = some (next, sent)) : Matched id next (outputs ++ sent) ↔ Orderly id service event := by
  obtain ⟨⟨left, shown⟩, taken, both⟩ := Option.map_eq_some_iff.mp stepped
  obtain ⟨rfl, rfl⟩ := Prod.mk.inj both
  simp only [Matched, phasesOf_append]
  cases taken_of_step taken with
  | accept sessionId server handler =>
    refine iff_of_true (fun stream => ?_) trivial
    rw [streams_of_insert _ _ _ rfl]
    refine (List.append_nil (phasesOf id stream outputs)).symm ▸ ?_
    split_ifs with same
    · have unborn : service.streams id stream = false := by
        cases found : service.members.find? id with
        | none => rw [streams, found, Option.any_none]
        | some member => exact absurd (identified id member found).2 (same ▸ Nat.lt_irrefl _)
      have silent := matched stream
      rw [unborn] at silent
      cases stream <;> exact silent
    · exact matched stream
  | @request requested dispatch conn posted found requests answered =>
    have followed : Commanded (service.commands dispatch conn) (service.world conn) (service.process dispatch conn).state
      (service.process dispatch conn).events := processRequest_commanded ⟨answered, rfl⟩
    have reports : service.told (.request requested dispatch) =
        (if conn.mirroringSessionHandler = true then (service.commands dispatch conn).toList else []).map
          fun report => (requested, report) := by
      simp only [told, found]
      exact congrArg _ followed.told
    rw [reports]
    by_cases same : requested = id
    · subst same
      have here : ∀ stream, Alternating (phasesOf requested stream outputs) (conn.streamService stream) :=
        fun stream => streams_of_find found stream ▸ matched stream
      have left : ∀ stream, (service.update requested (service.process dispatch conn).state).streams requested stream =
          commanded (service.commands dispatch conn) stream (conn.streamService stream) := by
        intro stream
        rw [streams_of_insert _ _ _ rfl, if_pos rfl]
        exact followed.services stream
      simp only [left]
      refine (command_fits_iff here).trans ⟨fun fits _ conn' found' => ?_, fun orderly => orderly rfl conn found⟩
      obtain ⟨rfl, -⟩ := Member.mk.inj (Option.some.inj (found.symm.trans found'))
      exact fits
    · refine iff_of_true (fun stream => ?_) fun meant => absurd meant same
      rw [phasesOf_other same, List.append_nil, streams_of_insert _ _ _ rfl, if_neg same]
      exact matched stream
  | @release released conn found =>
    refine iff_of_true (fun stream => ?_) trivial
    rw [streams_of_insert _ _ _ rfl]
    refine (List.append_nil (phasesOf id stream outputs)).symm ▸ ?_
    split_ifs with same
    · have here := streams_of_find (same ▸ found) stream
      exact here ▸ matched stream
    · exact matched stream
  | @destroy destroyed conn found =>
    have nothing : ∀ stream, phasesOf id stream (service.told (.destroy destroyed)) = [] := fun _ => rfl
    simp only [nothing, List.append_nil]
    by_cases same : destroyed = id
    · subst same
      have gone : ∀ stream, streams { service with
          members := service.members.erase destroyed
          eventConnections := conn.unregister service.eventConnections } destroyed stream = false := by
        intro stream
        rw [streams, SortedMap.find?_erase, if_pos rfl, Option.any_none]
      simp only [gone, (matched _).unique, streams_of_find found]
      refine ⟨fun idle _ conn' found' => ?_, fun orderly => orderly rfl conn found⟩
      obtain ⟨rfl, -⟩ := Member.mk.inj (Option.some.inj (found.symm.trans found'))
      exact idle
    · refine iff_of_true (fun stream => ?_) fun meant => absurd meant same
      have kept : streams { service with
          members := service.members.erase destroyed
          eventConnections := conn.unregister service.eventConnections } id stream = service.streams id stream := by
        rw [streams, SortedMap.find?_erase, if_neg same]
        rfl
      rw [kept]
      exact matched stream

end Step

/-- Wherever a run passes, identities are in order. -/
theorem reporting_identified {requestId : UInt32} {trace : List ServiceEvent} {service : Service prims}
    {outputs : List (Nat × Stream × Phase)} (ran : Machine.run reporting (start requestId) trace = some (service, outputs)) :
    Identified service := by
  refine Machine.run_invariant (fun state event next outputs identified stepped => ?_) (start_identified requestId) ran
  obtain ⟨⟨left, shown⟩, taken, both⟩ := Option.map_eq_some_iff.mp stepped
  obtain ⟨rfl, -⟩ := Prod.mk.inj both
  exact identified.step (taken_of_step taken)

end Service

/-- Over a run of the service, the starts and stops that a connection tells of agree with its stream services just when every
`SETUP` and `TEARDOWN` of a stream fits what there is, and no stream is left when the connection is destroyed. -/
theorem streams_matched_iff {requestId : UInt32} {trace : List ServiceEvent} {id : Nat} {service : Service prims}
    {outputs : List (Nat × Stream × Phase)}
    (ran : Machine.run Service.reporting (Service.start requestId) trace = some (service, outputs)) :
    Throughout Service.reporting (Service.start requestId : Service prims) trace (fun _ => Service.Matched id) ↔
      Allowed Service.reporting (Service.start requestId : Service prims) trace fun _ => Service.Orderly id := by
  refine throughout_iff_allowed ran (fun _ => .quiet) ?_
  intro earlier service sent event next shown reached matched stepped
  exact Service.matched_step_iff (Service.reporting_identified reached) matched stepped

/-- A mirroring request to a server whose application sets a mirroring handler when a session begins. -/
def mirroringRequest (method : String) (object : Object) : ServiceEvent :=
  .request 0 ⟨{ still with sessionHandler := some true }, someDate,
    { Request.new (ascii "RTSP/1.0") (ascii method) (ascii "/1") with
      contentType := APPLICATION_BINARY_PLIST
      content := toBytesArray still object }⟩

def sessionObject : Object :=
  dict [("eiv", .data (List.replicate 16 1)), ("ekey", .data (List.replicate 72 2)), ("timingPort", .integer 63254)]

def videoObject : Object := dict [("streams", .array [dict [("type", .integer video), ("streamConnectionID", .integer 7)]])]

/-- A client sets up its session and the video stream, makes requests, and disconnects. -/
def mirroring (requests : List ServiceEvent) : List ServiceEvent :=
  [.accept 7 default true, mirroringRequest "SETUP" sessionObject, mirroringRequest "SETUP" videoObject] ++ requests ++
    [.release 0, .destroy 0]

theorem streams_matched_torn_down :
    ∃ service outputs,
      Machine.run Service.reporting (Service.start 0 : Service default) (mirroring [mirroringRequest "TEARDOWN" videoObject]) =
        some (service, outputs) ∧
      (Throughout Service.reporting (Service.start 0 : Service default) (mirroring [mirroringRequest "TEARDOWN" videoObject])
        (fun _ => Service.Matched 0) ↔
          Allowed Service.reporting (Service.start 0 : Service default) (mirroring [mirroringRequest "TEARDOWN" videoObject])
            fun _ => Service.Orderly 0) := by
  have ended : (Machine.run Service.reporting (Service.start 0 : Service default)
      (mirroring [mirroringRequest "TEARDOWN" videoObject])).map (fun (_, outputs) => outputs) =
        some [(0, .video, .started), (0, .video, .stopped)] := by decide +kernel
  obtain ⟨⟨service, outputs⟩, ran, -⟩ := Option.map_eq_some_iff.mp ended
  exact ⟨service, outputs, ran, streams_matched_iff ran⟩

/-- Without a `TEARDOWN` the stream is never reported to have stopped. -/
theorem unstopped_video_unmatched :
    ¬ Throughout Service.reporting (Service.start 0 : Service default) (mirroring []) (fun _ => Service.Matched 0) := by
  intro throughout
  have ended : (Machine.run Service.reporting (Service.start 0 : Service default) (mirroring [])).map
      (fun (service, outputs) => (Service.phasesOf 0 .video outputs, service.streams 0 .video)) = some ([.started], false) := by
    decide +kernel
  obtain ⟨⟨service, outputs⟩, ran, seen⟩ := Option.map_eq_some_iff.mp ended
  obtain ⟨told, gone⟩ := Prod.mk.inj seen
  have matched := throughout (mirroring []) (List.prefix_refl _) service outputs ran .video
  rw [told, gone] at matched
  cases matched.last

end Apsdk.Airplay
