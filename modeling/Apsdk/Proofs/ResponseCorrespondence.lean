import Apsdk.Proofs.ComposedResponse
import Apsdk.Proofs.RouteLookup
import Mathlib.Data.List.Forall2

/-! Every request of a registered scheme is answered by one response, in the order
of the requests, with its version and its sequence number; the others by none. -/

namespace Apsdk
open Library

namespace Airplay
open Traced RequestRouteTable

variable {prims : Primitives}

/-- The schemes that routes are registered for. -/
def Registered (version : Bytes) : Prop := ascii "RTSP/" <+: version ∨ ascii "HTTP/" <+: version

instance (version : Bytes) : Decidable (Registered version) := inferInstanceAs (Decidable (_ ∨ _))

theorem schemes_known (scheme : Bytes) :
    (routeTable.find? scheme).isSome = true ↔ scheme = ascii "RTSP" ∨ scheme = ascii "HTTP" := by
  have schemes : routesTable.map RequestRoute.scheme =
      List.replicate 13 (ascii "RTSP") ++ List.replicate 12 (ascii "HTTP") := rfl
  have known := scheme_known routesTable scheme
  rw [← List.mem_map, schemes] at known
  rw [routeTable_eq, known]
  simp

theorem unknownScheme_iff (req : Request) :
    queryHandler routeTable req = .error .unknownScheme ↔ ¬ Registered req.schemeVersion := by
  have rtsp := @before_eq_iff 47 req.schemeVersion (ascii "RTSP") (by decide)
  have http := @before_eq_iff 47 req.schemeVersion (ascii "HTTP") (by decide)
  have plain : 47 ∉ ascii "RTSP" ∧ 47 ∉ ascii "HTTP" := by decide
  have known := schemes_known ((before 47 req.schemeVersion).getD [])
  rw [rtsp, http, and_iff_right plain.1, and_iff_right plain.2] at known
  have same : Registered req.schemeVersion ↔
      (routeTable.find? ((before 47 req.schemeVersion).getD [])).isSome = true := known.symm
  rw [same, queryHandler]
  cases found : routeTable.find? ((before 47 req.schemeVersion).getD []) with
  | none => simp
  | some methodPath =>
    simp only [Option.isSome_some, not_true_eq_false, iff_false]
    split
    · simp
    · split
      · simp
      · split <;> simp

section CommonHeader
variable (env : Environment) (date : DateText) (req : Request) (res : Response)

/-- The common headers leave the rest of the response alone. -/
theorem addCommonHeader_keeps :
    (addCommonHeader env date req res).schemeVersion = res.schemeVersion ∧
      (addCommonHeader env date req res).statusCode = res.statusCode ∧
      (addCommonHeader env date req res).content = res.content := by
  rw [addCommonHeader]
  cases req.headers.find? HEADER_CSEQ <;> split_ifs <;> exact ⟨rfl, rfl, rfl⟩

/-- The names of the common headers differ from that of the sequence number. -/
theorem common_ne_cseq : HEADER_DATE ≠ HEADER_CSEQ ∧ HEADER_SERVER ≠ HEADER_CSEQ ∧ HEADER_SESSION ≠ HEADER_CSEQ ∧
    HEADER_AUDIO_JACK_STATUS ≠ HEADER_CSEQ := by
  refine ⟨?_, ?_, ?_, ?_⟩ <;> decide

theorem addCommonHeader_cseq :
    (addCommonHeader env date req res).headers.find? HEADER_CSEQ =
      (req.headers.find? HEADER_CSEQ).or (res.headers.find? HEADER_CSEQ) := by
  obtain ⟨date_ne, server_ne, session_ne, audio_ne⟩ := common_ne_cseq
  rw [addCommonHeader]
  cases req.headers.find? HEADER_CSEQ <;> split_ifs <;>
    simp [Response.withHeader, Apsdk.Message.withHeader, date_ne, server_ne, session_ne, audio_ne]

end CommonHeader

theorem serialize_starts (res : Response) : res.schemeVersion <+: res.serialize := by
  refine ⟨CHAR_BLANK ++ printInt res.statusCode ++ CHAR_BLANK ++ res.statusText ++ RN_LINE_BREAK ++
    res.toMessage.serialize, ?_⟩
  simp only [Response.serialize, List.append_assoc]

/-- A response belongs to a request. -/
structure Answers (head : RequestHead) (res : Response) : Prop where
  version : res.schemeVersion = head.version
  starts : head.version <+: res.serialize
  cseq : res.headers.find? HEADER_CSEQ = lastValue HEADER_CSEQ head.lines

theorem Composed.no_cseq {version : Bytes} {res : Response} (composed : Composed version res) :
    res.headers.find? HEADER_CSEQ = none := by
  cases found : res.headers.find? HEADER_CSEQ with
  | none => rfl
  | some value => exact absurd (show HEADER_CSEQ ∈ reserved by decide) (composed.headers HEADER_CSEQ value found).2

/-- The request that a head and a body give, whatever the request object was before. -/
def requestOf (head : RequestHead) (req : Request) (body : Bytes) : Request := { head.parsed req with content := body }

theorem requestOf_header (head : RequestHead) (req : Request) (body name : Bytes) :
    (requestOf head req body).headers.find? name = lastValue name head.lines := by
  simp [requestOf, RequestHead.parsed, headerMap, lastValue]

theorem requestOf_plain (head : RequestHead) (req : Request) (body : Bytes) : Plain (requestOf head req body) := by
  intro name value found
  rw [requestOf_header] at found
  obtain ⟨line, -, same⟩ := List.mem_map.mp (SortedMap.mem_of_lastValue found)
  obtain ⟨-, rfl⟩ := Prod.mk.inj same
  exact line.plain

theorem Composed.answers {version : Bytes} {head : RequestHead} {req : Request} {body : Bytes} {res : Response}
    (composed : Composed version res) (same : version = head.version) (env : Environment) (date : DateText) :
    Answers head (addCommonHeader env date (requestOf head req body) res) := by
  have answered : (addCommonHeader env date (requestOf head req body) res).schemeVersion = head.version :=
    (addCommonHeader_keeps ..).1.trans (composed.version.trans same)
  refine ⟨answered, ?_, ?_⟩
  · rw [← answered]
    exact serialize_starts _
  · rw [addCommonHeader_cseq, requestOf_header, composed.no_cseq, Option.or_none]

/-- What is posted for a request: a response that has been composed and completed, or nothing. -/
structure Posts (env : Environment) (date : DateText) (req : Request) (posted : Option Response) : Prop where
  answered : Registered req.schemeVersion →
    ∃ res, Composed req.schemeVersion res ∧ posted = some (addCommonHeader env date req res)
  silent : ¬ Registered req.schemeVersion → posted = none

theorem processRequest_posts (env : Environment) (date : DateText) {req : Request} (plain : Plain req) :
    Returns (Posts env date req) (processRequest env date req : Handling prims (Option Response)) := by
  have opened := new_opened req.schemeVersion
  have known := unknownScheme_iff req
  have complete : Registered req.schemeVersion → ∀ {res : Response}, Composed req.schemeVersion res →
      Returns (Posts env date req) (pure (some (addCommonHeader env date req res)) : Handling prims (Option Response)) := by
    intro registered res composed
    apply returns_pure
    exact ⟨fun _ => ⟨res, composed, rfl⟩, fun unknown => absurd registered unknown⟩
  simp only [processRequest]
  cases routed : queryHandler routeTable req with
  | ok handler =>
    have registered : Registered req.schemeVersion := by
      by_contra unknown
      cases routed.symm.trans (known.mpr unknown)
    exact Returns.bind (handler.run_composes opened plain) fun res composed => complete registered composed
  | error error =>
    cases error with
    | unknownScheme =>
      apply returns_pure
      exact ⟨fun registered => absurd registered (known.mp routed), fun _ => rfl⟩
    | unknownMethod | unknownPath =>
      have registered : Registered req.schemeVersion := by
        by_contra unknown
        cases routed.symm.trans (known.mpr unknown)
      exact Returns.bind (returns_pure opened.ok.toSendable) fun res composed => complete registered composed

/-- A step processes the request of its message and gives out what is posted for it. -/
theorem step_posts {session next : Session prims} {message : Message} {posts : List Response}
    (ready : session.parser.state = .tokenStart) (taken : session.step message = some (next, posts)) :
    next.parser.state = .tokenStart ∧ ∃ posted, posts = posted.toList ∧
      ((processRequest message.env message.date (requestOf message.head session.request message.body)).run
        session.world).value = .ok posted := by
  obtain ⟨q, done, parsed⟩ := Parser.scanRequest_bytes ready session.request message.head
  simp only [Session.step, parsed, if_true] at taken
  split at taken
  next posted value =>
    obtain ⟨rfl, rfl⟩ := Prod.mk.inj (Option.some.inj taken)
    exact ⟨done, posted, rfl, value⟩
  next => cases taken

theorem step_answers {session next : Session prims} {message : Message} {posts : List Response}
    (ready : session.parser.state = .tokenStart) (taken : session.step message = some (next, posts)) :
    next.parser.state = .tokenStart ∧
      List.Forall₂ Answers ([message.head].filter fun head => Registered head.version) posts := by
  obtain ⟨again, posted, rfl, value⟩ := step_posts ready taken
  refine ⟨again, ?_⟩
  have outcome := processRequest_posts message.env message.date
    (requestOf_plain message.head session.request message.body) _ posted value
  by_cases registered : Registered message.head.version
  · obtain ⟨res, composed, rfl⟩ := outcome.answered registered
    simp only [List.filter_cons, registered, decide_true, if_true, List.filter_nil, Option.toList_some]
    exact .cons (composed.answers rfl message.env message.date) .nil
  · obtain rfl := outcome.silent registered
    simp only [List.filter_cons, registered, decide_false, Bool.false_eq_true, if_false, List.filter_nil, Option.toList_none]
    exact .nil

/-- The responses of a run answer the requests of registered schemes, one each, in order. -/
theorem posts_answer {session final : Session prims} {messages : List Message} {posts : List Response}
    (ready : session.parser.state = .tokenStart) (ran : Machine.run Session.step session messages = some (final, posts)) :
    List.Forall₂ Answers ((messages.map Message.head).filter fun head => Registered head.version) posts := by
  induction messages generalizing session posts with
  | nil =>
    obtain ⟨-, rfl⟩ : session = final ∧ [] = posts := by simpa using ran
    exact .nil
  | cons message later ih =>
    obtain ⟨next, first, rest, taken, continued, rfl⟩ := Machine.run_cons_eq_some.mp ran
    obtain ⟨again, answered⟩ := step_answers ready taken
    have split : (message :: later).map Message.head = [message.head] ++ later.map Message.head := rfl
    rw [split, List.filter_append]
    exact List.rel_append answered (ih again continued)

/-- An environment in which nothing is found or given. -/
def still : Environment where
  config := ⟨[], [], ascii "220.68", [], [], [], 2, 0, 0, 0, 0, 0, []⟩
  host := ⟨fun _ _ => true, fun pattern => pattern.zeroExtend 64⟩
  fuel := 8
  parser := ⟨fun _ => none, fun _ => none, fun _ => none, fun _ => none, fun _ => none⟩
  arithmetic := ⟨id, fun _ _ _ => 0, fun _ => 0, id⟩
  rewriting := ⟨fun _ => none, some⟩
  ports := ⟨0, 0, 0, 0, 0⟩
  playbackInfo := ⟨ascii "0", ascii "0", ascii "0", ascii "0"⟩
  alive := fun _ => true
  sessionHandler := none

def someDate : DateText := ⟨ascii "Thu Oct 25 12:00:00 2018 GMT", by decide +kernel⟩

/-- Parts of heads that are well formed. -/
theorem record_token : IsToken (ascii "RECORD") := ⟨by decide +kernel, by decide +kernel⟩

theorem stream_plain : ∀ byte ∈ ascii "/stream", byte ≠ 32 ∧ Parser.isChar byte = true ∧ Parser.isCtl byte = false := by decide +kernel

theorem rtsp_text : IsLineText (ascii "RTSP/1.0") := by decide +kernel

def recordHead : RequestHead where
  method := ascii "RECORD"
  uri := ascii "/stream"
  version := ascii "RTSP/1.0"
  lines := [⟨HEADER_CSEQ, ascii "7", ⟨by decide +kernel, by decide +kernel⟩, by decide +kernel⟩]
  token := record_token
  plain := stream_plain
  text := rtsp_text

def strangeHead : RequestHead := { recordHead with version := ascii "XTSP/1.0", text := by decide +kernel }

def newSession : Session default :=
  ⟨.fresh, .new [] [] [], ⟨.new default 1 7 default true, .new 0, .empty, 0⟩⟩

/-- The request of an unknown scheme between two others has no response. -/
theorem posts_answer_record :
    ∃ final posts, Machine.run Session.step newSession
      [⟨recordHead, [], still, someDate⟩, ⟨strangeHead, [], still, someDate⟩, ⟨recordHead, [], still, someDate⟩] =
        some (final, posts) ∧
      List.Forall₂ Answers [recordHead, recordHead] posts := by
  have returned : (Machine.run Session.step newSession
      [⟨recordHead, [], still, someDate⟩, ⟨strangeHead, [], still, someDate⟩, ⟨recordHead, [], still, someDate⟩]).isSome =
        true := by
    decide +kernel
  obtain ⟨⟨final, posts⟩, ran⟩ := Option.isSome_iff_exists.mp returned
  have registered : ([recordHead, strangeHead, recordHead].filter fun head => Registered head.version) =
      [recordHead, recordHead] := by
    have known : Registered recordHead.version ∧ ¬ Registered strangeHead.version := by decide +kernel
    simp [known.1, known.2]
  exact ⟨final, posts, ran, registered ▸ posts_answer rfl ran⟩

end Airplay
end Apsdk
