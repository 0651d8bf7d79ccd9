import Apsdk.Proofs.SerializedHead
import Apsdk.RequestRoutes

/-! What the handlers make of a response. Each of them changes it through the
functions of the message alone, and these keep it fit to be sent. -/

namespace Apsdk.Airplay
open Library Plist Traced

/-- The headers that stand for something else than the handler says. -/
def reserved : List Bytes := [HEADER_CONTENT_LENGTH, HEADER_CONTENT_TYPE, HEADER_CSEQ]

/-- A response for a version, whose headers leave some names alone. -/
structure Sendable (kept : List Bytes) (version : Bytes) (res : Response) : Prop where
  version : res.schemeVersion = version
  status : res.statusCode = switchingProtocols ∨ res.statusCode = ok ∨ res.statusCode = badRequest
  text : IsLineText res.statusText
  headers : ∀ name value, res.headers.find? name = some value → (IsToken name ∧ IsValue value) ∧ name ∉ kept
  type : IsValue res.contentType
  length : res.contentLength = res.content.length

/-- A response before the common headers are added. -/
abbrev Composed (version : Bytes) (res : Response) : Prop := Sendable reserved version res

/-- A response without a content. -/
structure Opened (version : Bytes) (res : Response) : Prop extends Sendable reserved version res where
  empty : res.content = []

/-- The values of the headers may be copied. -/
def Plain (req : Request) : Prop := ∀ name value, req.headers.find? name = some value → IsValue value

variable {kept : List Bytes} {version : Bytes} {res : Response}

theorem new_opened (version : Bytes) : Opened version (.new version) where
  version := rfl
  status := .inr (.inl rfl)
  text := by
    have plain : IsLineText (ascii "OK") := by decide +kernel
    exact plain
  headers := fun _ _ found => nomatch found
  type := fun _ member => nomatch member
  length := rfl
  empty := rfl

theorem Sendable.withStatus (sendable : Sendable kept version res) {code : Int}
    (known : code = switchingProtocols ∨ code = ok ∨ code = badRequest) : Sendable kept version (res.withStatus code) where
  version := sendable.version
  status := known
  text := by
    rcases known with rfl | rfl | rfl
    all_goals
      simp only [Response.withStatus]
      decide +kernel
  headers := sendable.headers
  type := sendable.type
  length := sendable.length

theorem Sendable.withContentType (sendable : Sendable kept version res) {type : Bytes} (plain : IsValue type) :
    Sendable kept version (res.withContentType type) :=
  ⟨sendable.version, sendable.status, sendable.text, sendable.headers, plain, sendable.length⟩

theorem Sendable.withHeader (sendable : Sendable kept version res) {name value : Bytes} (token : IsToken name)
    (plain : IsValue value) (free : name ∉ kept) : Sendable kept version (res.withHeader name value) := by
  refine ⟨sendable.version, sendable.status, sendable.text, ?_, sendable.type, sendable.length⟩
  intro other found same
  have inserted := (SortedMap.find?_insert res.headers name other value).symm.trans same
  split_ifs at inserted with this
  · obtain rfl := Option.some.inj inserted
    exact this ▸ ⟨⟨token, plain⟩, free⟩
  · exact sendable.headers other found inserted

theorem Sendable.withContentVector (sendable : Sendable kept version res) (data : Bytes) :
    Sendable kept version (res.withContentVector data) :=
  ⟨sendable.version, sendable.status, sendable.text, sendable.headers, sendable.type, rfl⟩

theorem Opened.withContentString (opened : Opened version res) (data : Bytes) :
    Composed version (res.withContentString data) := by
  refine ⟨opened.version, opened.status, opened.text, opened.headers, opened.type, ?_⟩
  have content : (res.withContentString data).content = res.content ++ data := rfl
  rw [content, opened.empty, List.nil_append]
  rfl

theorem Opened.withStatus (opened : Opened version res) {code : Int}
    (known : code = switchingProtocols ∨ code = ok ∨ code = badRequest) : Opened version (res.withStatus code) :=
  ⟨opened.toSendable.withStatus known, opened.empty⟩

theorem Opened.withContentType (opened : Opened version res) {type : Bytes} (plain : IsValue type) :
    Opened version (res.withContentType type) :=
  ⟨opened.toSendable.withContentType plain, opened.empty⟩

theorem Opened.withHeader (opened : Opened version res) {name value : Bytes} (token : IsToken name)
    (plain : IsValue value) (free : name ∉ reserved) : Opened version (res.withHeader name value) :=
  ⟨opened.toSendable.withHeader token plain free, opened.empty⟩

theorem Opened.ok (opened : Opened version res) : Opened version (res.withStatus ok) := opened.withStatus (.inr (.inl rfl))

theorem Opened.bad (opened : Opened version res) : Composed version (res.withStatus badRequest) :=
  opened.toSendable.withStatus (.inr (.inr rfl))

theorem isValue_types : IsValue APPLICATION_OCTET_STREAM ∧ IsValue APPLICATION_BINARY_PLIST ∧ IsValue TEXT_PARAMETERS ∧
    IsValue TEXT_APPLE_PLIST_XML := by
  refine ⟨?_, ?_, ?_, ?_⟩ <;> decide +kernel

section Handlers
variable {prims : Primitives} {env : Environment} {req : Request}

theorem Opened.octets (opened : Opened version res) :
    Opened version ((res.withStatus Apsdk.ok).withContentType APPLICATION_OCTET_STREAM) :=
  opened.ok.withContentType isValue_types.1

theorem Opened.plist (opened : Opened version res) :
    Opened version ((res.withStatus Apsdk.ok).withContentType APPLICATION_BINARY_PLIST) :=
  opened.ok.withContentType isValue_types.2.1

/-- Every response that a handling comes back with is fit to be sent. -/
abbrev Composes (version : Bytes) (handling : Handling prims Response) : Prop := Returns (Composed version) handling

theorem optionsHandler_composes (opened : Opened version res) : Composes version (optionsHandler res : Handling prims Response) := by
  apply returns_pure
  have public_ : IsToken (ascii "Public") := ⟨by decide +kernel, by decide +kernel⟩
  exact ((opened.ok.withHeader public_ (by decide +kernel) (by decide +kernel)).withContentType isValue_types.1).toSendable

theorem postPairSetupHandler_composes (opened : Opened version res) :
    Composes version (postPairSetupHandler req res : Handling prims Response) := by
  have answer : ∀ conn : Connection prims, Composed version
      (((res.withStatus ok).withContentType APPLICATION_OCTET_STREAM).withContentVector conn.crypto.server.edPublicKey) :=
    fun _ => opened.octets.toSendable.withContentVector _
  simp only [postPairSetupHandler]
  split
  · exact returns_bind fun _ => returns_bind fun _ => returns_bind fun conn => returns_pure (answer conn)
  · exact returns_bind fun conn => returns_pure (answer conn)

theorem postPairVerifyHandler_composes (opened : Opened version res) :
    Composes version (postPairVerifyHandler req res : Handling prims Response) := by
  simp only [postPairVerifyHandler]
  refine returns_bind fun isFirstFrame => ?_
  split
  · refine returns_bind fun _ => returns_bind fun _ => returns_bind fun _ => returns_bind fun _ => returns_bind fun _ => ?_
    exact returns_pure (opened.octets.toSendable.withContentVector _)
  · refine returns_bind fun _ => returns_bind fun _ => returns_bind fun _ => returns_pure ?_
    split
    · exact opened.ok.toSendable
    · exact opened.bad

theorem postFpSetupHandler_composes (opened : Opened version res) :
    Composes version (postFpSetupHandler req res : Handling prims Response) := by
  have finish : ∀ content, Composed version ((((((res.withStatus ok).withContentType
      APPLICATION_OCTET_STREAM).withContentVector content).withStatus ok).withContentType APPLICATION_OCTET_STREAM)) :=
    fun content => ((opened.octets.toSendable.withContentVector content).withStatus (.inr (.inl rfl))).withContentType
      isValue_types.1
  simp only [postFpSetupHandler]
  refine returns_bind fun supported => ?_
  split
  · refine returns_bind fun phase => ?_
    split
    · exact returns_bind fun _ => returns_bind fun _ => returns_pure (finish _)
    · split
      · exact returns_pure opened.octets.toSendable
      · split
        · exact returns_bind fun _ => returns_bind fun _ => returns_bind fun _ => returns_pure (finish _)
        · exact returns_pure opened.bad
  · exact returns_pure opened.octets.toSendable

theorem setupAudio_composes (opened : Opened version res) (streamObj : Object) :
    Composes version (setupAudio env res streamObj : Handling prims Response) := by
  simp only [setupAudio]
  split
  · exact returns_pure opened.bad
  · split
    · exact returns_pure opened.bad
    · exact returns_bind fun _ => returns_bind fun _ => returns_pure (opened.plist.toSendable.withContentVector _)

theorem setupVideo_composes (opened : Opened version res) (streamObj : Object) :
    Composes version (setupVideo env res streamObj : Handling prims Response) := by
  simp only [setupVideo]
  split
  · exact returns_pure opened.bad
  · refine returns_bind fun _ => returns_bind fun _ => returns_bind fun _ => ?_
    exact returns_pure (opened.plist.toSendable.withContentVector _)

theorem setupSession_composes (opened : Opened version res) (dataObj : Object) :
    Composes version (setupSession env res dataObj : Handling prims Response) := by
  simp only [setupSession]
  split
  · exact returns_pure opened.bad
  · split
    · exact returns_pure opened.bad
    · refine returns_bind fun _ => ?_
      split
      · exact returns_pure opened.bad
      · exact returns_bind fun _ => returns_bind fun _ => returns_pure (opened.plist.toSendable.withContentVector _)

theorem setupHandler_composes (opened : Opened version res) :
    Composes version (setupHandler env req res : Handling prims Response) := by
  simp only [setupHandler]
  split
  · exact returns_pure opened.bad
  · refine returns_bind fun dataObj => ?_
    split
    · exact returns_pure opened.bad
    · split
      · split
        · exact returns_pure opened.bad
        · split
          · exact returns_pure opened.bad
          · split
            · exact returns_pure opened.bad
            · split
              · exact setupAudio_composes opened _
              · split
                · exact setupVideo_composes opened _
                · exact returns_pure opened.bad
      · exact setupSession_composes opened _

theorem recordHandler_composes (opened : Opened version res) : Composes version (recordHandler res : Handling prims Response) := by
  have latency : IsToken (ascii "Audio-Latency") := ⟨by decide +kernel, by decide +kernel⟩
  refine returns_bind fun _ => returns_pure ?_
  exact (opened.ok.withHeader latency (by decide +kernel) (by decide +kernel)).toSendable

theorem setParameterHandler_composes (opened : Opened version res) :
    Composes version (setParameterHandler env req res : Handling prims Response) := by
  have done : Composes version (pure (res.withStatus ok) : Handling prims Response) := returns_pure opened.ok.toSendable
  simp only [setParameterHandler]
  split
  · split
    · exact returns_bind fun _ => done
    · split
      · exact returns_bind fun _ => done
      · exact done
  · split
    · exact returns_bind fun _ => done
    · split
      · exact returns_bind fun _ => done
      · exact done

theorem teardownHandler_composes (opened : Opened version res) :
    Composes version (teardownHandler env req res : Handling prims Response) := by
  have done : Composes version (pure (res.withStatus ok) : Handling prims Response) := returns_pure opened.ok.toSendable
  simp only [teardownHandler]
  split
  · exact returns_bind fun _ => returns_bind fun _ => done
  · exact done

theorem getServerInfoHandler_composes (opened : Opened version res) :
    Composes version (getServerInfoHandler env res : Handling prims Response) := by
  refine returns_bind fun _ => returns_pure ?_
  exact (opened.ok.ok.withContentType isValue_types.2.2.2).withContentString _

theorem Opened.copied (opened : Opened version res) (plain : Plain req) {name : Bytes} (token : IsToken name)
    (free : name ∉ reserved) :
    Opened version (match req.headers.find? name with | some value => res.withHeader name value | none => res) := by
  split
  next value found => exact opened.withHeader token (plain name value found) free
  next => exact opened

theorem postReverseHandler_composes (opened : Opened version res) (plain : Plain req) :
    Composes version (postReverseHandler req res : Handling prims Response) := by
  have connection : IsToken (ascii "Connection") := ⟨by decide +kernel, by decide +kernel⟩
  have upgrade : IsToken (ascii "Upgrade") := ⟨by decide +kernel, by decide +kernel⟩
  refine returns_bind fun _ => returns_bind fun _ => returns_pure ?_
  have copied := (opened.copied plain connection (by decide +kernel)).copied plain upgrade (by decide +kernel)
  exact (copied.withStatus (.inl rfl)).toSendable

theorem playLocation_composes (opened : Opened version res) (location : Bytes) :
    Composes version (playLocation env req res location : Handling prims Response) := by
  simp only [playLocation]
  split
  · exact returns_pure opened.bad
  · refine returns_bind fun _ => returns_bind fun _ => returns_bind fun _ => ?_
    split
    · exact returns_bind fun _ => returns_pure opened.ok.toSendable
    · exact returns_pure opened.ok.toSendable

theorem playObject_composes (opened : Opened version res) (dataObj : Object) :
    Composes version (playObject env req res dataObj : Handling prims Response) := by
  simp only [playObject]
  split
  · exact returns_pure opened.bad
  · refine returns_bind fun _ => ?_
    split
    · exact returns_pure opened.bad
    · exact returns_bind fun _ => playLocation_composes opened _

theorem postPlayHandler_composes (opened : Opened version res) :
    Composes version (postPlayHandler env req res : Handling prims Response) := by
  simp only [postPlayHandler]
  split
  · refine returns_bind fun dataObj => ?_
    split
    · exact returns_pure opened.bad
    · exact playObject_composes opened _
  · split
    · split
      · exact returns_bind fun _ => playLocation_composes opened _
      · exact playLocation_composes opened _
    · exact returns_pure opened.bad

theorem postScrubHandler_composes (opened : Opened version res) :
    Composes version (postScrubHandler env req res : Handling prims Response) := by
  simp only [postScrubHandler]
  split
  · exact returns_bind fun _ => returns_pure opened.ok.toSendable
  · exact returns_pure opened.ok.toSendable

theorem postRateHandler_composes (opened : Opened version res) :
    Composes version (postRateHandler env req res : Handling prims Response) := by
  simp only [postRateHandler]
  split
  · exact returns_bind fun _ => returns_pure opened.ok.toSendable
  · exact returns_pure opened.ok.toSendable

theorem Opened.error (opened : Opened version res) :
    Composed version (((res.withContentType TEXT_APPLE_PLIST_XML).withContentString
      ERROR_STATUS_RESPONSE).withStatus Apsdk.ok) :=
  ((opened.withContentType isValue_types.2.2.2).withContentString _).withStatus (.inr (.inl rfl))

theorem unhandledUrlResponse_composes (opened : Opened version res) (dataObj : Object) :
    Composes version (unhandledUrlResponse env req res dataObj : Handling prims Response) := by
  simp only [unhandledUrlResponse]
  split
  · exact returns_pure opened.bad
  · split
    · exact returns_pure opened.bad
    · refine returns_bind fun _ => returns_bind fun _ => ?_
      split
      · exact returns_bind fun _ => returns_bind fun _ => returns_pure opened.error
      · exact returns_pure opened.error

theorem postActionHandler_composes (opened : Opened version res) :
    Composes version (postActionHandler env req res : Handling prims Response) := by
  simp only [postActionHandler]
  refine returns_bind fun dataObj => ?_
  split
  · exact returns_pure opened.bad
  · split
    · exact returns_pure opened.bad
    · split
      · exact unhandledUrlResponse_composes opened _
      · exact returns_pure opened.ok.toSendable

theorem putSetPropertyHandler_composes (opened : Opened version res) :
    Composes version (putSetPropertyHandler env req res : Handling prims Response) := by
  simp only [putSetPropertyHandler]
  split
  · exact returns_bind fun _ => returns_pure opened.error
  · split
    · exact returns_pure opened.error
    · split
      · exact returns_pure opened.error
      · exact returns_pure opened.ok.toSendable

theorem Handler.run_composes (handler : Handler) (opened : Opened version res) (plain : Plain req) :
    Composes version (handler.run env req res : Handling prims Response) := by
  have done : Composes version (pure (res.withStatus ok) : Handling prims Response) := returns_pure opened.ok.toSendable
  cases handler with
  | options => exact optionsHandler_composes opened
  | postPairSetup => exact postPairSetupHandler_composes opened
  | postPairVerify => exact postPairVerifyHandler_composes opened
  | postFpSetup => exact postFpSetupHandler_composes opened
  | setup => exact setupHandler_composes opened
  | getInfo => exact returns_pure (opened.plist.toSendable.withContentVector _)
  | record => exact recordHandler_composes opened
  | getParameter => exact returns_pure ((opened.ok.withContentType isValue_types.2.2.1).withContentString _)
  | setParameter => exact setParameterHandler_composes opened
  | teardown => exact teardownHandler_composes opened
  | flush => exact returns_pure opened.plist.toSendable
  | getServerInfo => exact getServerInfoHandler_composes opened
  | postReverse => exact postReverseHandler_composes opened plain
  | postPlay => exact postPlayHandler_composes opened
  | postScrub => exact postScrubHandler_composes opened
  | postRate => exact postRateHandler_composes opened
  | postStop => exact returns_bind fun _ => returns_bind fun _ => done
  | postAction => exact postActionHandler_composes opened
  | getPlaybackInfo =>
    exact returns_bind fun _ => returns_pure ((opened.ok.withContentType isValue_types.2.2.2).withContentString _)
  | putSetProperty => exact putSetPropertyHandler_composes opened
  | postFeedback | postAudioMode | postFpSetup2 | postGetProperty => exact done

end Handlers
end Apsdk.Airplay
