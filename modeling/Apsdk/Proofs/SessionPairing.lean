import Apsdk.Proofs.EventConnections
import Apsdk.Proofs.HandlerSafety

/-! Sessions begin in two handlers, whatever has begun before, and end in the
destructor. Begins and ends are paired as long as no request begins a session on
a connection that has one. -/

namespace Apsdk.Airplay
open Library Plist Traced Machine

variable {prims : Primitives} {env : Environment} {req : Request} {res answered : Response} {world after : World prims}

/-- The document of a `SETUP` for a session: no streams, but what `setup_handler` goes on to read. -/
def beginsMirroring (dataObj : Object) : Bool :=
  (dataObj.dictGetValue (ascii "streams")).isNull && (dataObj.dictGetValue (ascii "eiv")).dataGetValue.isSome &&
    (dataObj.dictGetValue (ascii "ekey")).dataGetValue.isSome && (dataObj.dictGetValue (ascii "timingPort")).integerGetValue.isSome

/-- The type of the session that a request begins, which depends on its body for a `SETUP`. -/
def begins (env : Environment) (req : Request) (world : World prims) : Option SessionType :=
  match routed req with
  | some .getServerInfo => some .casting
  | some .setup =>
    if req.contentType = APPLICATION_BINARY_PLIST ∧ (decoding env req world).value.toOption.any beginsMirroring = true then
      some .mirroring
    else none
  | _ => none

def observed (events : List Event) : List Observation := events.filterMap Event.observation

theorem observed_append (first later : List Event) : observed (first ++ later) = observed first ++ observed later :=
  List.filterMap_append

/-- What a computation leaves of a session, and reports of it, when it begins one of a type or none. -/
structure Begun (type : Option SessionType) (world after : World prims) (events : List Event) : Prop where
  left : after.conn.sessionType = type.getD world.conn.sessionType
  fixed : Part.fixed.view after = Part.fixed.view world
  reported : observed events = if type.isSome ∧ world.conn.handler = true then [Observation.onSessionBegin world.conn.sessionId] else []

theorem Begun.constant {type : Option SessionType} {events : List Event} (begun : Begun type world after events) :
    after.conn.handler = world.conn.handler ∧ after.conn.sessionId = world.conn.sessionId :=
  ⟨congrArg (fun fixed => fixed.2.2.1) begun.fixed, congrArg (fun fixed => fixed.2.1) begun.fixed⟩

theorem observed_of_silent {events : List Event} (silent : ∀ event ∈ events, ¬ Part.session.Shows event) : observed events = [] := by
  refine List.filterMap_eq_nil_iff.mpr fun event member => ?_
  have unseen := silent event member
  cases event with
  | call callback =>
    cases callback with
    | onSessionBegin sessionId => exact absurd trivial unseen
    | _ => rfl
  | _ => rfl

section Rules
variable {α β : Type} {first : Handling prims α} {next : α → Handling prims β} {type : Option SessionType}
  {value : α}

theorem begun_of_confined (touched : List Part) (confined : ConfinedAt (parts prims) touched first world)
    (outside : Part.session ∉ touched ∧ Part.fixed ∉ touched) :
    Begun none world (first.run world).state (first.run world).events :=
  ⟨congrArg Prod.fst (confined _ outside.1).1, (confined _ outside.2).1, observed_of_silent (confined _ outside.1).2⟩

theorem begun_pure (value : α) :
    Begun none world ((pure value : Handling prims α).run world).state ((pure value : Handling prims α).run world).events :=
  begun_of_confined [] (confined_pure value world) (by decide)

/-- Nothing begins in the first part. -/
theorem Begun.later (done : (first.run world).value = .ok value)
    (here : Begun none world (first.run world).state (first.run world).events)
    (begun : Begun type (first.run world).state ((next value).run (first.run world).state).state
      ((next value).run (first.run world).state).events) :
    Begun type world ((first >>= next).run world).state ((first >>= next).run world).events := by
  obtain ⟨handler, sessionId⟩ := here.constant
  rw [bind_of_ok done]
  refine ⟨?_, begun.fixed.trans here.fixed, ?_⟩
  · rw [begun.left, here.left]
    rfl
  · rw [observed_append, here.reported, begun.reported, handler, sessionId]
    rfl

/-- Nothing begins behind the first part. -/
theorem Begun.earlier (done : (first.run world).value = .ok value)
    (begun : Begun type world (first.run world).state (first.run world).events)
    (rest : Begun none (first.run world).state ((next value).run (first.run world).state).state
      ((next value).run (first.run world).state).events) :
    Begun type world ((first >>= next).run world).state ((first >>= next).run world).events := by
  rw [bind_of_ok done]
  refine ⟨rest.left.trans begun.left, rest.fixed.trans begun.fixed, ?_⟩
  rw [observed_append, rest.reported, begun.reported]
  exact List.append_nil _

end Rules

/-- What the application sets when it is told of a session. -/
def applicationSets (env : Environment) : Handling prims Unit :=
  match env.sessionHandler with
  | none => pure ()
  | some present => modifyConn fun conn => setCastingHandler present (setMirroringHandler present conn)

/-- The type is set before the application is told, and what the application sets then is kept by type. -/
theorem beginSession_begun (type : SessionType) (world : World prims) :
    ((beginSession env type).run world).value = .ok () ∧
      Begun (some type) world ((beginSession env type).run world).state ((beginSession env type).run world).events := by
  let opened := { world with conn := { world.conn with sessionType := type } }
  have ran : (beginSession env type).run world = (if world.conn.handler = true then (do
      call (.onSessionBegin world.conn.sessionId)
      applicationSets env) else pure ()).run opened := rfl
  rw [ran]
  cases told : world.conn.handler with
  | false =>
    rw [if_neg Bool.false_ne_true]
    refine ⟨rfl, rfl, rfl, ?_⟩
    rw [told, if_neg fun both => Bool.false_ne_true both.2]
    rfl
  | true =>
    rw [if_pos rfl]
    have reported : [Observation.onSessionBegin world.conn.sessionId] =
        if (some type).isSome ∧ world.conn.handler = true then [Observation.onSessionBegin world.conn.sessionId] else [] :=
      (if_pos ⟨rfl, told⟩).symm
    unfold applicationSets
    cases env.sessionHandler with
    | none => exact ⟨rfl, rfl, rfl, reported⟩
    | some present =>
      refine ⟨rfl, ?_, ?_, reported⟩
      · show (setCastingHandler present (setMirroringHandler present opened.conn)).sessionType = type
        simp only [setCastingHandler, setMirroringHandler]
        split_ifs <;> rfl
      · show Part.fixed.view { opened with conn := setCastingHandler present (setMirroringHandler present opened.conn) } = _
        simp only [setCastingHandler, setMirroringHandler]
        split_ifs <;> rfl

theorem getServerInfoHandler_begun :
    Begun (some .casting) world ((getServerInfoHandler env res).run world).state ((getServerInfoHandler env res).run world).events := by
  obtain ⟨done, begun⟩ := @beginSession_begun prims env .casting world
  exact begun.earlier done (begun_pure _)

theorem setupSession_begun {dataObj : Object} (streamless : (dataObj.dictGetValue (ascii "streams")).isNull = true) :
    Begun (if beginsMirroring dataObj = true then some .mirroring else none) world
      ((setupSession env res dataObj).run world).state ((setupSession env res dataObj).run world).events := by
  simp only [beginsMirroring, setupSession, streamless]
  cases (dataObj.dictGetValue (ascii "eiv")).dataGetValue with
  | none => exact begun_pure _
  | some iv =>
    cases (dataObj.dictGetValue (ascii "ekey")).dataGetValue with
    | none => exact begun_pure _
    | some key =>
      have keyed : ∀ world : World prims,
          ConfinedAt (parts prims) [.streamKeys] (modifyCrypto fun crypto => crypto.initClientAesInfo iv key) world :=
        fun world => modifyStreamKeys_confinedAt (List.mem_singleton_self _) (initClientAesInfo_changes _ _ _)
      cases (dataObj.dictGetValue (ascii "timingPort")).integerGetValue with
      | none =>
        refine begun_of_confined [.streamKeys] ?_ (by decide)
        exact (keyed world).bind fun _ _ => confined_pure _ _
      | some timingPort =>
        refine Begun.later rfl (begun_of_confined _ (keyed world) (by decide)) ?_
        obtain ⟨done, begun⟩ := @beginSession_begun prims env .mirroring
          ((modifyCrypto fun crypto => crypto.initClientAesInfo iv key).run world).state
        refine begun.earlier done (begun_of_confined [] ?_ (by decide))
        exact ((call_confined fun part _ => by cases part <;> exact id).bind fun _ => confined_pure _) _

theorem setupObject_begun (dataObj : Object) :
    Begun (if beginsMirroring dataObj = true then some .mirroring else none) world
      ((setupObject env res dataObj).run world).state ((setupObject env res dataObj).run world).events := by
  by_cases null : dataObj.isNull = true
  · have nothing : beginsMirroring dataObj = false := by
      cases dataObj with
      | null => rfl
      | _ => cases null
    rw [setupObject, if_pos null, nothing]
    exact begun_pure _
  · rw [setupObject, if_neg null]
    by_cases streamless : (dataObj.dictGetValue (ascii "streams")).isNull = true
    · rw [if_neg (not_not.mpr streamless)]
      exact setupSession_begun streamless
    · have nothing : beginsMirroring dataObj = false := by
        rw [beginsMirroring, eq_false_of_ne_true streamless]
        rfl
      rw [if_pos streamless, nothing]
      exact begun_of_confined [.streamKeys, .services] (setupStreams_confined (by decide) (by decide) _ world) (by decide)

theorem setupHandler_begun (ends : Outcome (setupHandler env req res) world answered after) :
    Begun (if req.contentType = APPLICATION_BINARY_PLIST ∧ (decoding env req world).value.toOption.any beginsMirroring = true then
      some .mirroring else none) world ((setupHandler env req res).run world).state ((setupHandler env req res).run world).events := by
  rw [setupHandler_eq] at ends ⊢
  by_cases typed : req.contentType = APPLICATION_BINARY_PLIST
  · rw [if_neg (not_not.mpr typed)] at ends ⊢
    obtain ⟨dataObj, between, ⟨decoded, -⟩, rest⟩ := outcome_bind_iff.mp ends
    have value : (decoding env req world).value = .ok dataObj := decoded
    rw [value]
    refine Begun.later decoded (begun_of_confined _ (objectFromBplist_confined (List.mem_singleton_self _) _) (by decide)) ?_
    simp only [typed, true_and, Except.toOption, Option.any_some]
    exact setupObject_begun dataObj
  · rw [if_pos typed, if_neg fun both => typed both.1]
    exact begun_pure _

/-- A request begins what it says, and leaves the session alone otherwise. -/
theorem processRequest_begun {date : DateText} {posted : Option Response}
    (ends : Outcome (processRequest env date req) world posted after) :
    Begun (begins env req world) world ((processRequest env date req).run world).state
      ((processRequest env date req).run world).events := by
  have unbegun : Part.session ∉ (routed req).elim [] Handler.touches →
      Begun none world ((processRequest env date req).run world).state ((processRequest env date req).run world).events :=
    fun outside => begun_of_confined _ (processRequest_confined date req world) ⟨outside, Service.fixed_untouched req⟩
  rw [begins]
  cases route : routed req with
  | none =>
    rw [route] at unbegun
    exact unbegun List.not_mem_nil
  | some handler =>
    obtain ⟨res, ran, -⟩ := (processRequest_outcome_iff route).mp ends
    -- Nothing is done behind the handler.
    have finished : ∀ type, Begun type world ((handler.run env req (.new req.schemeVersion)).run world).state
        ((handler.run env req (.new req.schemeVersion)).run world).events →
        Begun type world ((processRequest env date req).run world).state ((processRequest env date req).run world).events := by
      intro type begun
      rw [processRequest_eq route]
      exact begun.earlier ran.1 (begun_pure _)
    rw [route] at unbegun
    cases handler with
    | getServerInfo => exact finished _ getServerInfoHandler_begun
    | setup => exact finished _ (setupHandler_begun ran)
    | _ => exact unbegun (by decide)

/-- What is seen of one connection. -/
def observedOf (id : Nat) (outputs : List (Nat × Observation)) : List Observation :=
  (outputs.filter fun output => output.1 = id).map Prod.snd

theorem observedOf_append (id : Nat) (first later : List (Nat × Observation)) :
    observedOf id (first ++ later) = observedOf id first ++ observedOf id later := by
  simp [observedOf]

theorem observedOf_map (id other : Nat) (observations : List Observation) :
    observedOf id (observations.map fun observation => (other, observation)) = if other = id then observations else [] := by
  by_cases same : other = id
  · simp [observedOf, same, List.filter_map, Function.comp_def]
  · simp [observedOf, same, List.filter_map, Function.comp_def]

/-- Begins and ends alternate, an end is of the session that began, and the type does not change between them. -/
inductive Paired : List Observation → Prop where
  | done : Paired []
  | idle {type : SessionType} {later : List Observation} (rest : Paired later) : Paired (.sessionType type :: later)
  | session {sessionId : UInt64} {type : SessionType} {types : List SessionType} {later : List Observation}
    (same : ∀ other ∈ types, other = type) (rest : Paired later) :
    Paired (.onSessionBegin sessionId :: (types.map .sessionType ++ .onSessionEnd sessionId :: later))

def Observation.isBegin : Observation → Bool
  | .onSessionBegin _ => true
  | _ => false

def Observation.isEnd : Observation → Bool
  | .onSessionEnd _ => true
  | _ => false

theorem Paired.balanced {observations : List Observation} (paired : Paired observations) :
    observations.countP Observation.isBegin = observations.countP Observation.isEnd := by
  induction paired with
  | done => rfl
  | idle rest ih => simpa [Observation.isBegin, Observation.isEnd] using ih
  | @session sessionId type types later same rest ih =>
    have begins : (types.map Observation.sessionType).countP Observation.isBegin = 0 := by
      simp [List.countP_map, Function.comp_def, Observation.isBegin]
    have ends : (types.map Observation.sessionType).countP Observation.isEnd = 0 := by
      simp [List.countP_map, Function.comp_def, Observation.isEnd]
    simp [List.countP_cons, begins, ends, ih, Observation.isBegin, Observation.isEnd]

namespace Service

/-- What a request of a connection begins. -/
def begins (service : Service prims) (dispatch : Dispatch) (conn : Connection prims) : Option SessionType :=
  Airplay.begins { dispatch.env with alive := service.alive } dispatch.req (service.world conn)

/-- Where a request of a connection begins a session, no session has begun on it. -/
def Unbegun (id : Nat) (_ : List ServiceEvent) (service : Service prims) : ServiceEvent → Prop
  | .request requested dispatch => requested = id → ∀ conn, service.members.find? id = some ⟨conn, true⟩ →
      (service.begins dispatch conn).isSome = true → conn.sessionType = .unknown
  | _ => True

/-- What holds of a connection and of what has been seen of it. -/
def Holds (id : Nat) (holds : Connection prims → List Observation → Prop) (service : Service prims)
    (outputs : List (Nat × Observation)) : Prop :=
  Identified service ∧ (service.next ≤ id → observedOf id outputs = []) ∧
    ∀ member, service.members.find? id = some member → holds member.conn (observedOf id outputs)

section Life
variable {trace : List ServiceEvent} {allows : List ServiceEvent → Service prims → ServiceEvent → Prop}

/-- A property of a new connection that every request keeps holds of the connection wherever a run passes. -/
theorem holds_throughout (id : Nat) (holds : Connection prims → List Observation → Prop) {requestId : UInt32}
    (allowed : Allowed step (start requestId) trace allows)
    (accepted : ∀ sessionId server handler, holds (.new prims id sessionId server handler) [])
    (processed : ∀ earlier service dispatch conn posted seen, service.members.find? id = some ⟨conn, true⟩ →
      allows earlier service (.request id dispatch) → (service.process dispatch conn).value = .ok posted → holds conn seen →
      holds (service.process dispatch conn).state.conn (seen ++ (observed (service.process dispatch conn).events ++
        [.sessionType (service.process dispatch conn).state.conn.sessionType]))) :
    Throughout step (start requestId) trace fun _ service outputs => Holds id holds service outputs := by
  refine allowed.throughout ⟨start_identified requestId, fun _ => rfl, fun _ found => nomatch found⟩ ?_
  intro earlier service sent event next outputs ⟨identified, unborn, here⟩ allowed stepped
  have taken := taken_of_step stepped
  refine ⟨identified.step taken, ?_⟩
  rw [observedOf_append]
  cases taken with
  | accept sessionId server handler =>
    rw [show observedOf id [] = [] from rfl, List.append_nil]
    refine ⟨fun later => unborn (Nat.le_of_succ_le later), fun member found => ?_⟩
    rw [SortedMap.find?_insert] at found
    split_ifs at found with same
    · obtain rfl := Option.some.inj found
      rw [unborn same.le, same]
      exact accepted sessionId server handler
    · exact here member found
  | @request requested dispatch conn posted found requests answered =>
    rw [observedOf_map]
    by_cases same : requested = id
    · subst same
      rw [if_pos rfl]
      refine ⟨fun later => ?_, fun member found' => ?_⟩
      · exact absurd (identified requested _ found).2 (Nat.not_lt.mpr later)
      · rw [update, SortedMap.find?_insert, if_pos rfl] at found'
        obtain rfl := Option.some.inj found'
        exact processed earlier service dispatch conn posted _ found allowed answered (here _ found)
    · rw [if_neg same, List.append_nil]
      refine ⟨unborn, fun member found' => ?_⟩
      rw [update, SortedMap.find?_insert, if_neg same] at found'
      exact here member found'
  | @release released conn found =>
    rw [show observedOf id [] = [] from rfl, List.append_nil]
    refine ⟨unborn, fun member found' => ?_⟩
    rw [SortedMap.find?_insert] at found'
    split_ifs at found' with same
    · obtain rfl := Option.some.inj found'
      have before := here _ (same ▸ found)
      exact before
    · exact here member found'
  | @destroy destroyed conn found =>
    rw [observedOf_map]
    by_cases same : destroyed = id
    · subst same
      refine ⟨fun later => ?_, fun member found' => ?_⟩
      · exact absurd (identified destroyed _ found).2 (Nat.not_lt.mpr later)
      · rw [SortedMap.find?_erase, if_pos rfl] at found'
        cases found'
    · rw [if_neg same, List.append_nil]
      refine ⟨unborn, fun member found' => ?_⟩
      rw [SortedMap.find?_erase, if_neg same] at found'
      exact here member found'

end Life

theorem begins_ne_unknown {service : Service prims} {dispatch : Dispatch} {conn : Connection prims} {type : SessionType}
    (begun : service.begins dispatch conn = some type) : type ≠ .unknown := by
  rw [begins, Airplay.begins] at begun
  split at begun
  · cases begun
    decide
  · split_ifs at begun
    cases begun
    decide
  · cases begun

theorem process_begun {service : Service prims} {dispatch : Dispatch} {conn : Connection prims} {posted : Option Response}
    (answered : (service.process dispatch conn).value = .ok posted) :
    Begun (service.begins dispatch conn) (service.world conn) (service.process dispatch conn).state
      (service.process dispatch conn).events := processRequest_begun ⟨answered, rfl⟩

/-- Nothing has begun, or one session that goes on. -/
inductive Going (conn : Connection prims) : List Observation → Prop where
  | idle (before : List SessionType) (unknown : conn.sessionType = .unknown) : Going conn (before.map .sessionType)
  | session (before during : List SessionType) (known : conn.sessionType ≠ .unknown)
    (same : ∀ type ∈ during, type = conn.sessionType) :
    Going conn (before.map .sessionType ++ .onSessionBegin conn.sessionId :: during.map .sessionType)

section Request
variable {type : Option SessionType} {after : World prims} {events : List Event} {seen : List Observation}

/-- A request that begins nothing, or finds that nothing has begun. -/
theorem Going.request (going : Going world.conn seen) (begun : Begun type world after events) (handled : world.conn.handler = true)
    (allowed : type.isSome = true → world.conn.sessionType = .unknown) (known : ∀ begins, type = some begins → begins ≠ .unknown) :
    Going after.conn (seen ++ (observed events ++ [.sessionType after.conn.sessionType])) := by
  obtain ⟨-, sessionId⟩ := begun.constant
  cases type with
  | none =>
    have left : after.conn.sessionType = world.conn.sessionType := begun.left
    have reported : observed events = [] := begun.reported
    rw [reported, List.nil_append, left]
    cases going with
    | idle before unknown =>
      have longer : Going after.conn _ := .idle (before ++ [world.conn.sessionType]) (left.trans unknown)
      rwa [List.map_append] at longer
    | session before during known same =>
      have longer : Going after.conn _ := .session before (during ++ [world.conn.sessionType]) (left ▸ known) (by
        intro type member
        rcases List.mem_append.mp member with inside | last
        · exact (same type inside).trans left.symm
        · exact (List.mem_singleton.mp last).trans left.symm)
      rwa [List.map_append, sessionId, ← List.cons_append, ← List.append_assoc] at longer
  | some begins =>
    have left : after.conn.sessionType = begins := begun.left
    have reported : observed events = [.onSessionBegin world.conn.sessionId] := begun.reported.trans (if_pos ⟨rfl, handled⟩)
    rw [reported, left]
    cases going with
    | idle before unknown =>
      have opened : Going after.conn _ := .session before [begins] (left ▸ known begins rfl)
        fun type member => (List.mem_singleton.mp member).trans left.symm
      rwa [sessionId] at opened
    | session before during known' same => exact absurd (allowed rfl) known'

/-- The destructor ends what goes on. -/
theorem Going.paired {conn : Connection prims} (going : Going conn seen) (handled : conn.handler = true) :
    Paired (seen ++ conn.endSession) := by
  have idle : ∀ (before : List SessionType) {later : List Observation}, Paired later → Paired (before.map .sessionType ++ later) := by
    intro before later rest
    induction before with
    | nil => exact rest
    | cons type before ih => exact .idle ih
  cases going with
  | idle before unknown =>
    rw [Connection.endSession, unknown]
    exact idle before .done
  | session before during known same =>
    have ended : conn.endSession = [.onSessionEnd conn.sessionId] := by
      rw [Connection.endSession]
      cases type : conn.sessionType with
      | unknown => exact absurd type known
      | _ => exact if_pos handled
    rw [ended, List.append_assoc, List.cons_append]
    exact idle before (.session same .done)

/-- No session has ended, and one has begun just where the type is known. -/
structure Counted (conn : Connection prims) (seen : List Observation) : Prop where
  ends : seen.countP Observation.isEnd = 0
  begins : seen.countP Observation.isBegin = 0 ↔ conn.sessionType = .unknown

theorem Counted.request (counted : Counted world.conn seen) (begun : Begun type world after events) (handled : world.conn.handler = true)
    (known : ∀ begins, type = some begins → begins ≠ .unknown) :
    Counted after.conn (seen ++ (observed events ++ [.sessionType after.conn.sessionType])) := by
  cases type with
  | none =>
    have left : after.conn.sessionType = world.conn.sessionType := begun.left
    have reported : observed events = [] := begun.reported
    rw [reported, left]
    constructor
    · simp [List.countP_append, counted.ends, Observation.isEnd]
    · simp only [List.nil_append, List.countP_append, left, ← counted.begins]
      exact Iff.rfl
  | some begins =>
    have left : after.conn.sessionType = begins := begun.left
    have reported : observed events = [.onSessionBegin world.conn.sessionId] := begun.reported.trans (if_pos ⟨rfl, handled⟩)
    rw [reported, left]
    constructor
    · simp [List.countP_append, counted.ends, Observation.isEnd]
    · simp [List.countP_append, Observation.isBegin, left, known begins rfl]

end Request

theorem endSession_counts (conn : Connection prims) :
    conn.endSession.countP Observation.isBegin = 0 ∧ conn.endSession.countP Observation.isEnd ≤ 1 := by
  have one : ∀ handled : Bool,
      (if handled = true then [Observation.onSessionEnd conn.sessionId] else []).countP Observation.isBegin = 0 ∧
        (if handled = true then [Observation.onSessionEnd conn.sessionId] else []).countP Observation.isEnd ≤ 1 := by
    intro handled
    cases handled with
    | false => exact ⟨rfl, Nat.zero_le 1⟩
    | true => exact ⟨rfl, Nat.le_refl 1⟩
  rw [Connection.endSession]
  cases conn.sessionType with
  | unknown => exact ⟨rfl, Nat.zero_le 1⟩
  | mirroring => exact one conn.handler
  | casting => exact one conn.handler

theorem counted_throughout (requestId : UInt32) (id : Nat) (trace : List ServiceEvent) :
    Throughout step (start requestId : Service prims) trace fun _ service outputs =>
      Holds id (fun conn seen => conn.handler = true → Counted conn seen) service outputs := by
  have always : Allowed step (start requestId : Service prims) trace fun _ _ _ => True := fun _ _ _ _ _ _ => trivial
  refine holds_throughout id _ always (fun sessionId server handler _ => ⟨rfl, iff_of_true rfl rfl⟩) ?_
  intro earlier service dispatch conn posted seen found _ answered counted handled
  have begun := process_begun answered
  have same := begun.constant.1.symm.trans handled
  exact (counted same).request begun same fun _ => begins_ne_unknown

/-- A request that begins a session, with the handler of the service set, shows it. -/
theorem begins_shown {service next : Service prims} {id : Nat} {dispatch : Dispatch} {conn : Connection prims}
    {outputs : List (Nat × Observation)} (found : service.members.find? id = some ⟨conn, true⟩)
    (stepped : step service (.request id dispatch) = some (next, outputs)) (handled : conn.handler = true)
    (opened : (service.begins dispatch conn).isSome = true) :
    0 < (observedOf id outputs).countP Observation.isBegin := by
  cases taken_of_step stepped with
  | @request _ _ conn' posted found' requests answered =>
    obtain ⟨rfl, -⟩ := Member.mk.inj (Option.some.inj (found.symm.trans found'))
    have reported := (process_begun answered).reported.trans (if_pos ⟨opened, handled⟩)
    rw [observed] at reported
    rw [observedOf_map, if_pos rfl, reported]
    simp [Observation.isBegin]

end Service

/-- Over the life of a connection with a handler, begins and ends are paired just when every
request that begins a session finds that none has begun on the connection. -/
theorem session_paired_iff {requestId : UInt32} {trace : List ServiceEvent} {id : Nat} {service final : Service prims}
    {outputs last : List (Nat × Observation)} {conn : Connection prims} {alive : Bool}
    (ran : Machine.run Service.step (Service.start requestId) trace = some (service, outputs))
    (reached : service.members.find? id = some ⟨conn, alive⟩) (handled : conn.handler = true)
    (destroyed : Service.step service (.destroy id) = some (final, last)) :
    Paired (observedOf id (outputs ++ last)) ↔ Allowed Service.step (Service.start requestId : Service prims) trace (Service.Unbegun id) := by
  have ended : last = conn.endSession.map fun observation => (id, observation) := by
    cases Service.taken_of_step destroyed with
    | destroy found =>
      obtain ⟨rfl, -⟩ := Member.mk.inj (Option.some.inj (reached.symm.trans found))
      rfl
  rw [observedOf_append, ended, observedOf_map, if_pos rfl]
  constructor
  · intro paired earlier event part between sent before
    cases event with
    | request requested dispatch =>
      rintro rfl conn' found opened
      by_contra known
      obtain ⟨rest, rfl⟩ := part
      have counted := @Service.counted_throughout prims requestId requested
        (earlier ++ [.request requested dispatch] ++ rest)
      obtain ⟨next, sent', more, ranTo, further, rfl⟩ := run_append_eq_some.mp ran
      obtain ⟨between', before_sent, shown, before', stepped, rfl⟩ := run_concat_eq_some.mp ranTo
      obtain ⟨rfl, rfl⟩ := Prod.mk.inj (Option.some.inj (before.symm.trans before'))
      have earlier_counted := counted earlier ((List.prefix_append _ _).trans (List.prefix_append _ _)) _ _ before
      have handled' : conn'.handler = true := by
        have continued := run_cons_eq_some.mpr ⟨next, shown, more, stepped, further, rfl⟩
        exact (Service.handler_kept earlier_counted.1 continued found reached).symm.trans handled
      have first := (earlier_counted.2.2 _ found handled').begins.not.mpr known
      have second := Service.begins_shown found stepped handled' opened
      have ends := ((counted _ (List.prefix_refl _) _ _ ran).2.2 _ reached handled).ends
      have balanced := paired.balanced
      obtain ⟨noBegin, oneEnd⟩ := Service.endSession_counts conn
      simp only [observedOf_append, List.countP_append] at balanced ends
      omega
    | _ => trivial
  · intro allowed
    have going := Service.holds_throughout id (fun conn seen => conn.handler = true → Service.Going conn seen) allowed
      (fun sessionId server handler _ => .idle [] rfl) (by
        intro earlier between dispatch conn posted seen found unbegun answered going handled'
        have begun := Service.process_begun answered
        have same := begun.constant.1.symm.trans handled'
        exact (going same).request begun same (fun some => unbegun rfl conn found some) fun _ => Service.begins_ne_unknown)
    exact ((going trace (List.prefix_refl _) service outputs ran).2.2 _ reached handled).paired handled

/-- A `GET /server-info`. -/
def serverInfoRequest : Request := Request.new (ascii "HTTP/1.1") (ascii "GET") (ascii "/server-info")

/-- A connection with a handler that is asked for the server info a number of times, and then released. -/
def asked (times : Nat) : List ServiceEvent :=
  .accept 7 default true :: List.replicate times (.request 0 ⟨still, someDate, serverInfoRequest⟩) ++ [.release 0]

/-- What is left of the connection for its destructor. -/
theorem asked_ended (times : Nat) (outputs : List (Nat × Observation))
    (ended : (Machine.run Service.step (Service.start 0 : Service default) (asked times)).map (fun (service, outputs) =>
      ((service.members.find? 0).map (fun member => (member.alive, member.conn.handler, member.conn.endSession)), outputs)) =
      some (some (false, true, [.onSessionEnd 7]), outputs)) :
    ∃ service conn final, Machine.run Service.step (Service.start 0 : Service default) (asked times) = some (service, outputs) ∧
      service.members.find? 0 = some ⟨conn, false⟩ ∧ conn.handler = true ∧
        Service.step service (.destroy 0) = some (final, [(0, .onSessionEnd 7)]) := by
  obtain ⟨⟨service, outputs'⟩, ran, seen⟩ := Option.map_eq_some_iff.mp ended
  obtain ⟨left, rfl⟩ := Prod.mk.inj seen
  obtain ⟨⟨conn, alive⟩, found, values⟩ := Option.map_eq_some_iff.mp left
  obtain ⟨rfl, values⟩ := Prod.mk.inj values
  obtain ⟨handled, shown⟩ := Prod.mk.inj values
  let final := { service with
    members := service.members.erase 0
    eventConnections := conn.unregister service.eventConnections }
  refine ⟨service, conn, final, ran, found, handled, ?_⟩
  simp only [Service.step, found]
  rw [show conn.endSession = [.onSessionEnd 7] from shown]
  rfl

theorem session_paired_asked_once :
    ∃ service final outputs, Machine.run Service.step (Service.start 0 : Service default) (asked 1) = some (service, outputs) ∧
      Service.step service (.destroy 0) = some (final, [(0, .onSessionEnd 7)]) ∧
      (Paired (observedOf 0 (outputs ++ [(0, .onSessionEnd 7)])) ↔
        Allowed Service.step (Service.start 0 : Service default) (asked 1) (Service.Unbegun 0)) := by
  obtain ⟨service, conn, final, ran, found, handled, destroyed⟩ :=
    asked_ended 1 [(0, .onSessionBegin 7), (0, .sessionType .casting)] (by decide +kernel)
  exact ⟨service, final, _, ran, destroyed, session_paired_iff ran found handled destroyed⟩

/-- The session begins twice and ends once. -/
theorem asked_twice_unpaired :
    ∃ service conn final outputs, Machine.run Service.step (Service.start 0 : Service default) (asked 2) = some (service, outputs) ∧
      service.members.find? 0 = some ⟨conn, false⟩ ∧ conn.handler = true ∧
      Service.step service (.destroy 0) = some (final, [(0, .onSessionEnd 7)]) ∧
      ¬ Paired (observedOf 0 (outputs ++ [(0, .onSessionEnd 7)])) := by
  obtain ⟨service, conn, final, ran, found, handled, destroyed⟩ :=
    asked_ended 2 [(0, .onSessionBegin 7), (0, .sessionType .casting), (0, .onSessionBegin 7),
      (0, .sessionType .casting)] (by decide +kernel)
  refine ⟨service, conn, final, _, ran, found, handled, destroyed, fun paired => ?_⟩
  have balanced := paired.balanced
  revert balanced
  decide

end Apsdk.Airplay
