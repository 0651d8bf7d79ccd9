import Apsdk.Proofs.ResponseCorrespondence

/-! Responses as messages of their own. What is posted for a request parses back
unless the version of the request, which the response repeats, has a blank in it. -/

namespace Apsdk
open Library Apsdk.Parser

/-- The automaton for responses takes the head of a serialised response, with the status and
the headers that were set, and what follows is as long as the head says. -/
def Response.WellFormed (res : Response) : Prop :=
  ∀ p : Parser, p.state = .tokenStart → ∀ garbage : Nat, ∃ n q parsed,
    endOfFirst RNRN_LINE_BREAK res.serialize = some n ∧
      p.scanResponse { Response.new [] with contentLength := garbage } (res.serialize.take n) = (true, q, parsed) ∧
      parsed.statusCode = res.statusCode ∧ parsed.headers = res.toMessage.wireHeaders ∧
      (res.serialize.drop n).length = parsed.contentLength

theorem Response.Writable.wellFormed {res : Response} (writable : res.Writable)
    (length : res.contentLength = res.content.length) : res.WellFormed := by
  intro p ready garbage
  obtain ⟨head, serialized, line, back⟩ := writable.parsed garbage
  obtain ⟨q, -, scanned⟩ := scanResponse_bytes ready { Response.new [] with contentLength := garbage } head
  refine ⟨head.bytes.length, q, { res with headers := res.toMessage.wireHeaders, content := [] },
    serialized ▸ endOfFirst_append (head.block line) res.content, ?_, rfl, rfl, ?_⟩
  · rw [serialized, List.take_left, scanned, back]
  · rw [serialized, List.drop_left]
    exact length.symm

/-- A text in front of a byte that it lacks is in every prefix that has the byte. -/
theorem prefix_of_mem {byte : UInt8} {read first rest : Bytes} (short : read <+: first ++ rest) (member : byte ∈ read)
    (absent : byte ∉ first) : first <+: read := by
  apply List.prefix_of_prefix_length_le (List.prefix_append first rest) short
  by_contra longer
  have inside : read <+: first := List.prefix_of_prefix_length_le short (List.prefix_append first rest) (by omega)
  exact absent (inside.subset member)

/-- The words in front of the first stop are the same in two texts that go on alike. -/
theorem word_of_prefix {stop : UInt8} {word other rest later : Bytes} (absent : stop ∉ word) (absent' : stop ∉ other)
    (same : word ++ stop :: rest <+: other ++ stop :: later) : word = other ∧ rest <+: later := by
  obtain ⟨tail, whole⟩ := same
  rw [List.append_assoc, List.cons_append] at whole
  have words := congrArg (List.takeWhile (· ≠ stop)) whole
  rw [takeWhile_ne_append absent, takeWhile_ne_append absent'] at words
  subst words
  exact ⟨rfl, tail, List.tail_eq_of_cons_eq (List.append_cancel_left whole)⟩

theorem IsBlock.lineEnd_mem {data : Bytes} (block : IsBlock data) : 13 ∈ data :=
  block.ends.subset (List.mem_cons_self ..)

/-- Behind a blank in the version the parser expects the status code. -/
theorem Response.WellFormed.status {res : Response} (formed : res.WellFormed) (plain : IsLineText res.schemeVersion)
    {word code rest : Bytes} (noBlank : 32 ∉ word) (noBlank' : 32 ∉ code)
    (version : res.schemeVersion ++ [32] = word ++ 32 :: (code ++ 32 :: rest)) : res.statusCode = statusOfLong (strtol code) := by
  obtain ⟨n, q, parsed, found, accepted, status, -, -⟩ := formed .fresh rfl 0
  have block : IsBlock (res.serialize.take n) := endOfFirst_take found
  have starts : res.schemeVersion ++ [32] <+: res.serialize.take n := by
    have written : res.serialize = (res.schemeVersion ++ [32]) ++ (printInt res.statusCode ++ CHAR_BLANK ++
        res.statusText ++ RN_LINE_BREAK ++ res.toMessage.serialize) := by
      simp [Response.serialize, CHAR_BLANK]
    have short := List.take_prefix n res.serialize
    rw [written] at short ⊢
    apply prefix_of_mem short (written ▸ block.lineEnd_mem)
    simp [plain.lineEnd_not_mem]
  have headed := (scanResponse_accepts_iff rfl { Response.new [] with contentLength := 0 } block).mp
    (congrArg Prod.fst accepted)
  rcases headed with ⟨head, same⟩ | begun
  · obtain ⟨q', -, parsed'⟩ := scanResponse_bytes (p := .fresh) rfl { Response.new [] with contentLength := 0 } head
    have result : parsed = head.parsed { Response.new [] with contentLength := 0 } := by
      rw [same, parsed'] at accepted
      exact (Prod.mk.inj (Prod.mk.inj accepted).2).2.symm
    have blank : 32 ∉ head.version := fun member => (head.begins.plain 32 member).1 rfl
    have digits : 32 ∉ head.code := fun member => absurd (head.digits 32 member) (by decide)
    have line : word ++ 32 :: (code ++ 32 :: rest) <+:
        head.version ++ 32 :: (head.code ++ 32 :: (head.text ++ RN_LINE_BREAK ++ headerBlock head.lines)) := by
      rw [version, same, ResponseHead.bytes, ResponseHead.firstLine] at starts
      simpa using starts
    obtain ⟨-, follows⟩ := word_of_prefix noBlank blank line
    obtain ⟨rfl, -⟩ := word_of_prefix noBlank' digits follows
    rw [← status, result]
    rfl
  · have member : 32 ∈ res.serialize.take n := starts.subset (by simp)
    exact absurd rfl (begun.plain 32 member).1

namespace Airplay
open RequestRouteTable

variable {prims : Primitives} {kept other : List Bytes} {version : Bytes} {res : Response}

theorem Sendable.weaken (sendable : Sendable kept version res) (fewer : other ⊆ kept) : Sendable other version res where
  version := sendable.version
  status := sendable.status
  text := sendable.text
  headers := fun name value found => (sendable.headers name value found).imp_right fun free member => free (fewer member)
  type := sendable.type
  length := sendable.length

/-- The headers that are written for the fields of a message. -/
def fieldNames : List Bytes := [HEADER_CONTENT_LENGTH, HEADER_CONTENT_TYPE]

theorem fieldNames_reserved : fieldNames ⊆ reserved := by
  intro name member
  simp only [fieldNames, List.mem_cons, List.not_mem_nil, or_false] at member
  simp only [reserved, List.mem_cons]
  tauto

/-- The common headers may stand in a head, for what a request may have as its sequence number. -/
theorem Sendable.addCommonHeader (sendable : Sendable fieldNames version res) {env : Environment}
    (configured : IsValue env.config.serverVersion) (date : DateText) {req : Request} (plain : Plain req) :
    Sendable fieldNames version (addCommonHeader env date req res) := by
  have dateToken : IsToken HEADER_DATE := ⟨by decide +kernel, by decide +kernel⟩
  have serverToken : IsToken HEADER_SERVER := ⟨by decide +kernel, by decide +kernel⟩
  have sessionToken : IsToken HEADER_SESSION := ⟨by decide +kernel, by decide +kernel⟩
  have cseqToken : IsToken HEADER_CSEQ := ⟨by decide +kernel, by decide +kernel⟩
  have audioToken : IsToken HEADER_AUDIO_JACK_STATUS := ⟨by decide +kernel, by decide +kernel⟩
  have server : IsValue (ascii "AirTunes/" ++ env.config.serverVersion) := by
    have constant : IsValue (ascii "AirTunes/") := by decide +kernel
    exact List.forall_mem_append.mpr ⟨constant, configured⟩
  have opened := ((sendable.withHeader dateToken date.plain (by decide +kernel)).withHeader serverToken server
    (by decide +kernel)).withHeader sessionToken (show IsValue (ascii "CAFEBABE") by decide +kernel) (by decide +kernel)
  have audio : IsValue (ascii "Connected; type=digital") := by decide +kernel
  rw [Airplay.addCommonHeader]
  cases found : req.headers.find? HEADER_CSEQ with
  | none =>
    split_ifs
    · exact opened.withHeader audioToken audio (by decide +kernel)
    · exact opened
  | some cseq =>
    have numbered := opened.withHeader cseqToken (plain HEADER_CSEQ cseq found) (by decide +kernel)
    split_ifs
    · exact numbered.withHeader audioToken audio (by decide +kernel)
    · exact numbered

/-- A response may be written where its version may stand in a status line. -/
theorem Sendable.writable (sendable : Sendable fieldNames version res) (begins : IsVersion version) (line : 13 ∉ version)
    (fits : res.content.length < 2 ^ 63) : res.Writable where
  version := sendable.version ▸ begins
  line := sendable.version ▸ line
  status := by
    rcases sendable.status with same | same | same <;> rw [same] <;> decide
  text := sendable.text
  headed := by
    have absent : ∀ name ∈ fieldNames, res.headers.find? name = none := by
      intro name member
      cases found : res.headers.find? name with
      | none => rfl
      | some value => exact absurd member (sendable.headers name value found).2
    refine ⟨?_, absent _ (List.mem_cons_self ..), absent _ (List.mem_cons_of_mem _ (List.mem_cons_self ..)), sendable.type,
      sendable.length ▸ fits⟩
    rintro ⟨name, value⟩ member
    exact (sendable.headers name value ((SortedMap.mem_entries_iff _ name value).mp member)).1

theorem Registered.begins (registered : Registered version) (text : IsLineText version) (noBlank : 32 ∉ version) :
    IsVersion version := by
  refine ⟨?_, fun byte member => ⟨fun blank => noBlank (blank ▸ member), (text byte member).2⟩⟩
  rcases registered with ⟨rest, rfl⟩ | ⟨rest, rfl⟩
  · exact ⟨82, ascii "TSP/" ++ rest, rfl, by decide⟩
  · exact ⟨72, ascii "TTP/" ++ rest, rfl, by decide⟩

/-- Every response to a request with the version is well formed, whatever else is in the request and
whatever the connection is like. A content has at most as many bytes as a vector. -/
def Unbroken (prims : Primitives) (version : Bytes) : Prop :=
  ∀ (session next : Session prims) (message : Message) (posts : List Response) (res : Response),
    session.parser.state = .tokenStart → message.head.version = version → IsValue message.env.config.serverVersion →
    session.step message = some (next, posts) → res ∈ posts → res.content.length < 2 ^ 63 → res.WellFormed

theorem unbroken_of_noBlank (text : IsLineText version) (noBlank : 32 ∉ version) : Unbroken prims version := by
  rintro session next message posts res ready rfl configured taken member fits
  obtain ⟨-, posted, rfl, value⟩ := step_posts ready taken
  have plain := requestOf_plain message.head session.request message.body
  have outcome := processRequest_posts message.env message.date plain _ posted value
  by_cases registered : Registered message.head.version
  · obtain ⟨composed, sendable, rfl⟩ := outcome.answered registered
    obtain rfl : res = _ := List.mem_singleton.mp member
    have completed := (sendable.weaken fieldNames_reserved).addCommonHeader configured message.date plain
    have writable := completed.writable (registered.begins text noBlank) text.lineEnd_not_mem fits
    exact writable.wellFormed completed.length
  · obtain rfl := outcome.silent registered
    cases member

theorem queryHandler_eq {req : Request} (scheme : Bytes) (named : scheme ≠ []) (absent : 47 ∉ scheme)
    (starts : scheme ++ [47] <+: req.schemeVersion) :
    queryHandler routeTable req = queryHandler routeTable (.new (scheme ++ [47]) req.method req.uri) := by
  have here := (before_eq_iff named).mpr ⟨absent, starts⟩
  have there : (before 47 (scheme ++ [47])).getD [] = scheme := (before_eq_iff named).mpr ⟨absent, List.prefix_refl _⟩
  simp only [queryHandler, here, Request.new, Apsdk.Message.new, there]

theorem queryHandler_unknown {req : Request} (registered : Registered req.schemeVersion) (method : req.method = ascii "X")
    (uri : req.uri = ascii "/") : queryHandler routeTable req = .error .unknownMethod := by
  rcases registered with rtsp | http
  · rw [queryHandler_eq (ascii "RTSP") (by decide) (by decide) rtsp, method, uri]
    decide +kernel
  · rw [queryHandler_eq (ascii "HTTP") (by decide) (by decide) http, method, uri]
    decide +kernel

/-- The step for a request whose handler returns. -/
theorem step_of_value (session : Session prims) (message : Message) {posted : Option Response}
    (ready : session.parser.state = .tokenStart)
    (value : ((processRequest message.env message.date (requestOf message.head session.request message.body)).run
      session.world).value = .ok posted) : ∃ next, session.step message = some (next, posted.toList) := by
  obtain ⟨q, -, parsed⟩ := Parser.scanRequest_bytes ready session.request message.head
  refine ⟨⟨q, requestOf message.head session.request message.body, ((processRequest message.env message.date
    (requestOf message.head session.request message.body)).run session.world).state⟩, ?_⟩
  rw [requestOf] at value ⊢
  simp only [Session.step, parsed, value, if_true]

/-- A connection before its first request. -/
def firstSession (prims : Primitives) : Session prims :=
  ⟨.fresh, .new [] [] [], ⟨.new prims 1 7 default true, .new 0, .empty, 0⟩⟩

/-- A request without headers and without a body. -/
def bareMessage (text : IsLineText version) {method uri : Bytes} (token : IsToken method)
    (plain : ∀ byte ∈ uri, byte ≠ 32 ∧ isChar byte = true ∧ isCtl byte = false) : Message where
  head := ⟨method, uri, version, [], token, plain, text⟩
  body := []
  env := still
  date := someDate

/-- What comes back for a request without headers is well formed, where it is for every request. -/
theorem Unbroken.answer (unbroken : Unbroken prims version) (text : IsLineText version) (method uri : Bytes)
    (res : Response) (token : IsToken method) (plain : ∀ byte ∈ uri, byte ≠ 32 ∧ isChar byte = true ∧ isCtl byte = false)
    (handled : ∀ req : Request, req.schemeVersion = version → req.method = method → req.uri = uri → req.contentType = [] →
      ((processRequest still someDate req).run (firstSession prims).world).value =
        .ok (some (addCommonHeader still someDate req res)))
    (versioned : res.schemeVersion = version) (empty : res.content = []) :
    ∃ answer : Response, answer.WellFormed ∧ answer.schemeVersion = version ∧ answer.statusCode = res.statusCode := by
  let message := bareMessage text token plain
  let req := requestOf message.head (firstSession prims).request message.body
  refine ⟨addCommonHeader still someDate req res, ?_, (addCommonHeader_keeps ..).1.trans versioned, (addCommonHeader_keeps ..).2.1⟩
  obtain ⟨next, taken⟩ := step_of_value (firstSession prims) message rfl
    (handled req rfl rfl rfl rfl)
  have configured : IsValue still.config.serverVersion := by decide +kernel
  apply unbroken (firstSession prims) next message _ _ rfl rfl configured taken (List.mem_singleton_self _)
  rw [(addCommonHeader_keeps ..).2.2, empty]
  decide

theorem processRequest_handled {env : Environment} {date : DateText} {req : Request} {handler : Handler}
    {world : World prims} (routed : queryHandler routeTable req = .ok handler)
    (value : ((handler.run env req (.new req.schemeVersion) : Handling prims Response).run world).value = .ok res) :
    ((processRequest env date req).run world).value = .ok (some (addCommonHeader env date req res)) := by
  simp only [processRequest, routed]
  rw [Traced.bind_of_ok value]
  rfl

/-- An unknown method is answered with success. -/
theorem Unbroken.ok (unbroken : Unbroken prims version) (registered : Registered version) (text : IsLineText version) :
    ∃ answer : Response, answer.WellFormed ∧ answer.schemeVersion = version ∧ answer.statusCode = Apsdk.ok := by
  apply unbroken.answer text (ascii "X") (ascii "/") ((Response.new version).withStatus Apsdk.ok)
    ⟨by decide +kernel, by decide +kernel⟩ (by decide +kernel) _ rfl rfl
  rintro req rfl method uri -
  simp only [processRequest, queryHandler_unknown registered method uri]
  rfl

/-- A request to set up or to play without a property list is refused. -/
theorem Unbroken.bad (unbroken : Unbroken prims version) (registered : Registered version) (text : IsLineText version) :
    ∃ answer : Response, answer.WellFormed ∧ answer.schemeVersion = version ∧ answer.statusCode = badRequest := by
  rcases registered with rtsp | http
  · apply unbroken.answer text (ascii "SETUP") (ascii "*") ((Response.new version).withStatus badRequest)
      ⟨by decide +kernel, by decide +kernel⟩ (by decide +kernel) _ rfl rfl
    rintro req rfl method uri untyped
    have routed : queryHandler routeTable req = .ok .setup := by
      rw [queryHandler_eq (ascii "RTSP") (by decide) (by decide) rtsp, method, uri]
      decide +kernel
    apply processRequest_handled routed
    have other : req.contentType ≠ APPLICATION_BINARY_PLIST := by
      rw [untyped]
      decide
    simp only [Handler.run, setupHandler, other, if_true, ne_eq, not_false_eq_true]
    rfl
  · apply unbroken.answer text (ascii "POST") (ascii "/play") ((Response.new version).withStatus badRequest)
      ⟨by decide +kernel, by decide +kernel⟩ (by decide +kernel) _ rfl rfl
    rintro req rfl method uri untyped
    have routed : queryHandler routeTable req = .ok .postPlay := by
      rw [queryHandler_eq (ascii "HTTP") (by decide) (by decide) http, method, uri]
      decide +kernel
    apply processRequest_handled routed
    have other : ¬ equalNoCase [] APPLICATION_BINARY_PLIST ∧ ¬ equalNoCase [] TEXT_PARAMETERS ∧
        ¬ equalNoCase [] APPLICATION_OCTET_STREAM := by decide +kernel
    simp only [Handler.run, postPlayHandler, untyped, other, or_self]
    rfl

/-- The responses to the requests with a version are well formed just where the version has no blank. -/
theorem responses_wellFormed (registered : Registered version) (text : IsLineText version) :
    Unbroken prims version ↔ 32 ∉ version := by
  constructor
  · intro unbroken blank
    obtain ⟨word, behind, split, noBlank⟩ := List.eq_append_cons_of_mem blank
    obtain ⟨code, rest, split', noBlank'⟩ := List.eq_append_cons_of_mem (List.mem_append_right behind (List.mem_singleton_self 32))
    have whole : version ++ [32] = word ++ 32 :: (code ++ 32 :: rest) := by
      rw [← split', split]
      simp
    have reads : ∀ answer : Response, answer.WellFormed → answer.schemeVersion = version →
        answer.statusCode = statusOfLong (strtol code) := by
      rintro answer formed rfl
      exact formed.status text noBlank noBlank' whole
    obtain ⟨accepted, formed, versioned, success⟩ := unbroken.ok registered text
    obtain ⟨refused, formed', versioned', failure⟩ := unbroken.bad registered text
    have same : Apsdk.ok = badRequest := by
      rw [← success, ← failure, reads accepted formed versioned, reads refused formed' versioned']
    exact absurd same (by decide)
  · exact unbroken_of_noBlank text

/-- A version in two words. -/
def brokenHead : RequestHead where
  method := ascii "RECORD"
  uri := ascii "/stream"
  version := ascii "RTSP/1.0 x"
  lines := []
  token := record_token
  plain := stream_plain
  text := by decide +kernel

/-- The parser of responses refuses the answer, since the second word is no status code. -/
theorem brokenHead_answered :
    ∃ next res, (firstSession default).step ⟨brokenHead, [], still, someDate⟩ = some (next, [res]) ∧ ¬ res.WellFormed := by
  have refused : ((firstSession default).step ⟨brokenHead, [], still, someDate⟩).map (fun taken => taken.2.map fun res =>
      (endOfFirst RNRN_LINE_BREAK res.serialize).map fun n =>
        (Parser.fresh.scanResponse (.new []) (res.serialize.take n)).1) = some [some false] := by
    decide +kernel
  obtain ⟨⟨next, posts⟩, taken, single⟩ := Option.map_eq_some_iff.mp refused
  obtain ⟨res, rfl, parsed⟩ := List.map_eq_singleton_iff.mp single
  refine ⟨next, res, taken, fun formed => ?_⟩
  obtain ⟨n, q, result, found, accepted, -⟩ := formed .fresh rfl 0
  rw [found] at parsed
  have unlike : (Parser.fresh.scanResponse (.new []) (res.serialize.take n)).1 = false := Option.some.inj parsed
  exact Bool.false_ne_true (unlike.symm.trans (congrArg Prod.fst accepted))

theorem responses_wellFormed_sample : Unbroken default (ascii "RTSP/1.0") := by
  apply (responses_wellFormed (by decide +kernel) (by decide +kernel)).mpr
  decide +kernel

end Airplay

end Apsdk
