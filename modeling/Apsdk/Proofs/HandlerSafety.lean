import Apsdk.Proofs.DecoderSafety
import Apsdk.Proofs.ResponseCorrespondence

/-! What a request must be like for its handler to keep to the body that it is given,
to the headers that are there and to the text that it cuts up. -/

namespace Apsdk.Airplay
open Library Plist Traced

/-- Bytes are read inside of the body, iterators refer to headers, and `std::out_of_range`
does not escape. The decoder must not run into undefined behaviour, since what it reads then is not known. -/
def Event.Safe : Event → Prop
  | .content offset count size => offset + count ≤ size
  | .iterator found => found = true
  | .escapes fault => fault ≠ .outOfRange
  | .decoder datalen event => event.Safe datalen false
  | .call _ => True

variable {prims : Primitives} {env : Environment} {req : Request} {res : Response} {world : World prims}

section Calls

theorem call_always (callback : Callback) : Always Event.Safe (call callback : Handling prims Unit) := always_emit trivial

theorem getConn_always : Always Event.Safe (getConn : Handling prims (Connection prims)) :=
  always_get.bind fun _ => always_pure _

theorem modifyConn_always (change : Connection prims → Connection prims) : Always Event.Safe (modifyConn change) :=
  always_modify _

theorem modifyCrypto_always (change : ApCrypto prims → ApCrypto prims) : Always Event.Safe (modifyCrypto change) :=
  modifyConn_always _

theorem callMirroring_always (callback : Callback) :
    Always Event.Safe (callMirroring callback : Handling prims Unit) := by
  refine getConn_always.bind fun conn => ?_
  split
  · exact call_always callback
  · exact always_pure ()

theorem callVideo_always (callback : UInt64 → Callback) : Always Event.Safe (callVideo callback : Handling prims Unit) := by
  refine getConn_always.bind fun conn => ?_
  split
  · exact call_always _
  · exact always_pure ()

theorem beginSession_always (type : SessionType) : Always Event.Safe (beginSession env type : Handling prims Unit) := by
  refine (modifyConn_always _).bind fun _ => getConn_always.bind fun conn => ?_
  split
  · refine (call_always _).bind fun _ => ?_
    split
    · exact always_pure ()
    · exact modifyConn_always _
  · exact always_pure ()

theorem sendAll_always (sent : List MediaDataStore.FcupRequest) : Always Event.Safe (sendAll sent : Handling prims Unit) := by
  induction sent with
  | nil => exact always_pure ()
  | cons fcup later ih => exact (call_always _).bind fun _ => ih

end Calls

section Content

theorem readContent_always {offset count : Nat} (inside : offset + count ≤ req.content.length) :
    Always Event.Safe (readContent req offset count : Handling prims Bytes) := fun _ => emits_checked.mpr inside

theorem postPairSetupHandler_always : Always Event.Safe (postPairSetupHandler req res : Handling prims Response) := by
  simp only [postPairSetupHandler]
  split
  next length =>
    refine (readContent_always (by omega)).bind fun ed => (modifyCrypto_always _).bind fun _ => ?_
    exact getConn_always.bind fun conn => always_pure _
  next => exact getConn_always.bind fun conn => always_pure _

/-- Both kinds of frames are read to the same end. -/
theorem postPairVerifyHandler_safe_iff :
    Emits Event.Safe (postPairVerifyHandler req res) world ↔ 68 ≤ req.content.length := by
  simp only [postPairVerifyHandler]
  constructor
  · intro safe
    obtain ⟨inside, later⟩ := emits_checked_bind.mp safe
    have rest := later inside
    split at rest
    · obtain ⟨curve, after⟩ := emits_checked_bind.mp rest
      have ed : 4 + 32 + 32 ≤ req.content.length := (emits_checked_bind.mp (after curve)).1
      omega
    · have encrypted : 4 + 64 ≤ req.content.length := (emits_checked_bind.mp rest).1
      omega
  · intro long
    refine emits_checked_bind.mpr ⟨show 0 + 1 ≤ req.content.length by omega, fun _ => ?_⟩
    split
    · refine ((readContent_always (by omega)).bind fun curve => (readContent_always (by omega)).bind fun ed => ?_) world
      refine (modifyCrypto_always _).bind fun _ => getConn_always.bind fun conn => ?_
      exact (modifyCrypto_always _).bind fun _ => always_pure _
    · refine ((readContent_always (by omega)).bind fun encrypted => getConn_always.bind fun conn => ?_) world
      exact (modifyCrypto_always _).bind fun _ => always_pure _

/-- The comparison runs into the end of a body that is a part of what is expected. -/
theorem matchContent_safe_iff (offset : Nat) (expected : Bytes) :
    Emits Event.Safe (matchContent req offset expected) world ↔
      expected <+: req.content.drop offset ∨ ¬ req.content.drop offset <+: expected := by
  induction expected generalizing offset with
  | nil => exact iff_of_true (emits_pure _) (.inl List.nil_prefix)
  | cons first later ih =>
    unfold matchContent
    rw [readContent, emits_checked_bind]
    by_cases inside : offset < req.content.length
    · rw [List.drop_eq_getElem_cons inside, List.cons_prefix_cons, List.cons_prefix_cons,
        and_iff_right (show Event.Safe (.content offset 1 req.content.length) from inside),
        forall_prop_of_true (show offset + 1 ≤ req.content.length from inside), List.take_succ_cons, List.take_zero]
      by_cases same : req.content[offset] = first
      · have single : [req.content[offset]] = [first] := by rw [same]
        rw [if_pos single, ih]
        simp [same]
      · have differ : [req.content[offset]] ≠ [first] := fun single => same (List.head_eq_of_cons_eq single)
        rw [if_neg differ]
        exact iff_of_true (emits_pure _) (.inr fun both => same both.1)
    · have empty : req.content.drop offset = [] := List.drop_eq_nil_of_le (Nat.not_lt.mp inside)
      refine iff_of_false (fun safe => inside safe.1) ?_
      simp [empty]

theorem matchContent_yields (offset : Nat) (expected : Bytes)
    (decided : expected <+: req.content.drop offset ∨ ¬ req.content.drop offset <+: expected) :
    Yields (matchContent req offset expected : Handling prims Bool) (decide (expected <+: req.content.drop offset)) := by
  induction expected generalizing offset with
  | nil => exact yields_pure true
  | cons first later ih =>
    have inside : offset < req.content.length := by
      by_contra outside
      simp [List.drop_eq_nil_of_le (Nat.not_lt.mp outside)] at decided
    refine (yields_checked (show offset + 1 ≤ req.content.length from inside)).bind ?_
    rw [List.drop_eq_getElem_cons inside] at decided ⊢
    rw [List.take_succ_cons, List.take_zero]
    simp only [List.cons_prefix_cons] at decided ⊢
    by_cases same : req.content[offset] = first
    · have single : [req.content[offset]] = [first] := by rw [same]
      rw [if_pos single]
      have rest := ih (offset + 1) (by tauto)
      simpa only [same, true_and] using rest
    · have differ : [req.content[offset]] ≠ [first] := fun single => same (List.head_eq_of_cons_eq single)
      rw [if_neg differ]
      have other : ¬ (first = req.content[offset] ∧ later <+: req.content.drop (offset + 1)) := fun both => same both.1.symm
      rw [decide_eq_false other]
      exact yields_pure false

/-- The signature with the version of FairPlay. -/
def fairPlay : Bytes := ascii "FPLY" ++ [3]

/-- Only the phase may lie behind the end of the body, and the first byte of the signature that is missing. -/
theorem postFpSetupHandler_safe_iff :
    Emits Event.Safe (postFpSetupHandler req res) world ↔
      7 ≤ req.content.length ∨ ¬ req.content.take 5 <+: fairPlay := by
  have signature : fairPlay.length = 5 := by decide
  simp only [postFpSetupHandler]
  rw [← fairPlay, emits_bind, matchContent_safe_iff, List.drop_zero]
  by_cases signed : fairPlay <+: req.content
  · have taken : req.content.take 5 = fairPlay := by
      rw [← signature]
      exact (List.prefix_iff_eq_take.mp signed).symm
    have decided : Yields (matchContent req 0 fairPlay : Handling prims Bool) true := by
      rw [← decide_eq_true signed]
      exact matchContent_yields 0 fairPlay (.inl signed)
    rw [taken, decided world]
    simp only [signed, true_or, true_and, Except.ok.injEq, forall_eq', if_true, List.prefix_refl, not_true_eq_false, or_false]
    rw [readContent, emits_checked_bind]
    refine ⟨fun safe => safe.1, fun long => ⟨long, fun _ => ?_⟩⟩
    split
    next first =>
      exact ((readContent_always (by omega)).bind fun _ => getConn_always.bind fun _ => always_pure _) _
    next =>
      split
      · exact emits_pure _
      · split
        next third =>
          refine ((readContent_always (by omega)).bind fun _ => getConn_always.bind fun _ => ?_) _
          exact (modifyCrypto_always _).bind fun _ => always_pure _
        next => exact emits_pure _
  · have short : ¬ req.content.take 5 <+: fairPlay ↔ ¬ req.content <+: fairPlay := by
      refine not_congr ⟨fun begins => ?_, fun begins => (List.take_prefix 5 _).trans begins⟩
      by_cases long : 5 ≤ req.content.length
      · have whole : req.content.take 5 = fairPlay :=
          begins.eq_of_length (by rw [List.length_take_of_le long, signature])
        exact absurd (whole ▸ List.take_prefix 5 req.content) signed
      · rwa [List.take_of_length_le (by omega)] at begins
    rw [short]
    by_cases part : req.content <+: fairPlay
    · have fits : req.content.length ≤ 5 := signature ▸ part.length_le
      refine iff_of_false (fun safe => safe.1.elim signed fun other => other part) fun either => ?_
      exact either.elim (fun long => by omega) fun other => other part
    · have decided : Yields (matchContent req 0 fairPlay : Handling prims Bool) false := by
        rw [← decide_eq_false signed]
        exact matchContent_yields 0 fairPlay (.inr part)
      refine iff_of_true ⟨.inr part, fun matched value => ?_⟩ (.inr part)
      cases (decided world).symm.trans value
      exact emits_pure _

end Content

/-- What the decoder is given of a body. -/
def document (req : Request) : Bytes := req.content.take (req.content.length % 2 ^ 32)

/-- The decoding of a body. -/
def decoding (env : Environment) (req : Request) (world : World prims) : Execution Plist.Event Nat Object :=
  (fromBplist env.host (document req) env.fuel).run world.allocations

/-- The trailer is safe, and so is every object that the decoder opens. -/
structure BodySafe (env : Environment) (req : Request) (world : World prims) : Prop where
  trailer : TrailerSafeFrom world.allocations env.host (document req)
  objects : ∀ dataidx, .object dataidx ∈ (decoding env req world).events →
    ObjectSafe (document req) (trailerOf (document req)).reflen false dataidx

section Documents

theorem objectFromBplist_safe_iff : Emits Event.Safe (objectFromBplist env req) world ↔ BodySafe env req world := by
  have cut : (document req).length = req.content.length % 2 ^ 32 := List.length_take_of_le (Nat.mod_le _ _)
  have inside : (document req).length < 2 ^ 32 := cut ▸ Nat.mod_lt _ (by decide)
  have decoder := fromBplist_safe_from env.host inside false env.fuel world.allocations
  have events : (fun event => Event.Safe (.decoder (req.content.length % 2 ^ 32) event)) =
      Plist.Event.Safe (document req).length false := by
    rw [cut]
    rfl
  rw [objectFromBplist, emits_zoom, events]
  refine decoder.trans ⟨fun safe => ⟨safe.1, fun dataidx member => safe.2 _ member⟩, fun safe => ⟨safe.trailer, ?_⟩⟩
  intro event member
  cases event with
  | object dataidx => exact safe.objects dataidx member
  | _ => trivial

/-- A handler that decodes its body and reads nothing more. -/
theorem objectFromBplist_bind_safe_iff {α : Type} {next : Object → Handling prims α}
    (later : ∀ dataObj, Always Event.Safe (next dataObj)) :
    Emits Event.Safe (objectFromBplist env req >>= next) world ↔ BodySafe env req world :=
  (emits_bind_of_later fun dataObj => later dataObj).trans objectFromBplist_safe_iff

theorem setupAudio_always (streamObj : Object) :
    Always Event.Safe (setupAudio env res streamObj : Handling prims Response) := by
  simp only [setupAudio]
  split
  · exact always_pure _
  · split
    · exact always_pure _
    · exact (modifyConn_always _).bind fun _ => (callMirroring_always _).bind fun _ => always_pure _

theorem setupVideo_always (streamObj : Object) :
    Always Event.Safe (setupVideo env res streamObj : Handling prims Response) := by
  simp only [setupVideo]
  split
  · exact always_pure _
  · refine (modifyCrypto_always _).bind fun _ => (callMirroring_always _).bind fun _ => ?_
    exact (modifyConn_always _).bind fun _ => always_pure _

theorem setupSession_always (dataObj : Object) :
    Always Event.Safe (setupSession env res dataObj : Handling prims Response) := by
  simp only [setupSession]
  split
  · exact always_pure _
  · split
    · exact always_pure _
    · refine (modifyCrypto_always _).bind fun _ => ?_
      split
      · exact always_pure _
      · exact (beginSession_always _).bind fun _ => (call_always _).bind fun _ => always_pure _

theorem setupHandler_safe_iff :
    Emits Event.Safe (setupHandler env req res) world ↔
      (req.contentType = APPLICATION_BINARY_PLIST → BodySafe env req world) := by
  simp only [setupHandler]
  split
  next other => exact iff_of_true (emits_pure _) fun same => absurd same other
  next same =>
    rw [forall_prop_of_true (not_not.mp same)]
    apply objectFromBplist_bind_safe_iff
    intro dataObj
    split
    · exact always_pure _
    · split
      · split
        · exact always_pure _
        · split
          · exact always_pure _
          · split
            · exact always_pure _
            · split
              · exact setupAudio_always _
              · split
                · exact setupVideo_always _
                · exact always_pure _
      · exact setupSession_always _

theorem teardownStream_always (dataObj : Object) :
    Always Event.Safe (teardownStream dataObj : Handling prims Unit) := by
  simp only [teardownStream]
  split
  · exact always_pure ()
  · split
    · exact (modifyConn_always _).bind fun _ => callMirroring_always _
    · split
      · exact (modifyConn_always _).bind fun _ => callMirroring_always _
      · exact always_pure ()

theorem teardownHandler_safe_iff :
    Emits Event.Safe (teardownHandler env req res) world ↔
      (req.contentType = APPLICATION_BINARY_PLIST → BodySafe env req world) := by
  simp only [teardownHandler]
  split
  next same =>
    rw [forall_prop_of_true same]
    apply objectFromBplist_bind_safe_iff
    exact fun dataObj => (teardownStream_always dataObj).bind fun _ => always_pure _
  next other => exact iff_of_true (emits_pure _) fun same => absurd same other

theorem playLocation_always (location : Bytes) :
    Always Event.Safe (playLocation env req res location : Handling prims Response) := by
  simp only [playLocation]
  split
  · exact always_pure _
  · refine always_get.bind fun _ => (always_modify _).bind fun _ => (sendAll_always _).bind fun _ => ?_
    split
    · exact (callVideo_always _).bind fun _ => always_pure _
    · exact always_pure _

theorem playObject_always (dataObj : Object) :
    Always Event.Safe (playObject env req res dataObj : Handling prims Response) := by
  simp only [playObject]
  split
  · exact always_pure _
  · refine (modifyConn_always _).bind fun _ => ?_
    split
    · exact always_pure _
    · exact (modifyConn_always _).bind fun _ => playLocation_always _

theorem postPlayHandler_safe_iff :
    Emits Event.Safe (postPlayHandler env req res) world ↔
      (equalNoCase req.contentType APPLICATION_BINARY_PLIST = true → BodySafe env req world) := by
  simp only [postPlayHandler]
  split
  next same =>
    rw [forall_prop_of_true same]
    apply objectFromBplist_bind_safe_iff
    intro dataObj
    split
    · exact always_pure _
    · exact playObject_always _
  next other =>
    refine iff_of_true ?_ fun same => absurd same other
    split
    · split
      · exact ((modifyConn_always _).bind fun _ => playLocation_always _) world
      · exact playLocation_always _ world
    · exact emits_pure _

theorem putSetPropertyHandler_safe_iff :
    Emits Event.Safe (putSetPropertyHandler env req res) world ↔
      (contains (ascii "actionAtItemEnd") req.uri = true → BodySafe env req world) := by
  simp only [putSetPropertyHandler]
  split
  next same =>
    rw [forall_prop_of_true same]
    exact objectFromBplist_bind_safe_iff fun _ => always_pure _
  next other =>
    refine iff_of_true ?_ fun same => absurd same other
    split
    · exact emits_pure _
    · split <;> exact emits_pure _

end Documents

section Actions

def withoutHosts (scheme uri : Bytes) : Bytes := replaceAll MediaDataStore.HOST_LIST [] (replaceAll [scheme] [] uri)

/-- A URI without the schemes and the hosts that are cut off for an application. -/
def bareUri : MediaDataStore.AppId → Bytes → Bytes
  | .youtube, uri => withoutHosts MediaDataStore.NFHLS_SCHEME (withoutHosts MediaDataStore.MLHLS_SCHEME uri)
  | .netflix, uri => withoutHosts MediaDataStore.NFHLS_SCHEME uri
  | .unknown, uri => uri

/-- Something is left of the URI of a playlist, unless the application is unknown or the rewriting has failed before. -/
def UriSafe (env : Environment) (store : MediaDataStore.Store) (uri data : Bytes) : Prop :=
  store.appId ≠ .unknown →
    MediaDataStore.Store.isPrimaryDataUri uri = true ∨ (env.rewriting.adjustSecondaryMediaData data).isSome = true →
    bareUri store.appId uri ≠ []

theorem extractNetflixPath_eq_none_iff (uri : Bytes) :
    MediaDataStore.Store.extractNetflixPath uri = none ↔ withoutHosts MediaDataStore.NFHLS_SCHEME uri = [] := by
  rw [MediaDataStore.Store.extractNetflixPath, ← withoutHosts]
  split <;> simp [*]

theorem extractUriPath_eq_none_iff (store : MediaDataStore.Store) (uri : Bytes) :
    store.extractUriPath uri = none ↔ store.appId ≠ .unknown ∧ bareUri store.appId uri = [] := by
  rw [MediaDataStore.Store.extractUriPath]
  cases store.appId with
  | youtube => exact (extractNetflixPath_eq_none_iff _).trans (and_iff_right (by decide)).symm
  | netflix => exact (extractNetflixPath_eq_none_iff _).trans (and_iff_right (by decide)).symm
  | unknown => simp

theorem processMediaData_outOfRange_iff (env : Environment) (store : MediaDataStore.Store) (connected : Bool) (uri data : Bytes) :
    (store.processMediaData env.rewriting connected uri data).2.2 = .error .outOfRange ↔ ¬ UriSafe env store uri data := by
  have path : ∀ store' : MediaDataStore.Store, store'.appId = store.appId →
      (store'.extractUriPath uri = none ↔ store.appId ≠ .unknown ∧ bareUri store.appId uri = []) := by
    intro store' same
    rw [extractUriPath_eq_none_iff, same]
  simp only [UriSafe, Classical.not_imp, not_not, MediaDataStore.Store.processMediaData]
  by_cases primary : MediaDataStore.Store.isPrimaryDataUri uri = true
  · let pushed := { store with uriStack := (MediaDataStore.Store.collectedUris env.rewriting data).reverse ++ store.uriStack }
    simp only [primary, if_true, true_or, true_and]
    rw [← path pushed rfl]
    cases pushed.extractUriPath uri with
    | none => simp
    | some path => simp
  · simp only [primary, false_or, Bool.false_eq_true, if_false]
    rw [and_left_comm, ← path store rfl]
    cases env.rewriting.adjustSecondaryMediaData data with
    | none => simp
    | some mediaData =>
      cases store.extractUriPath uri with
      | none => simp
      | some path => simp

/-- The answer that an action carries has a URI that may be cut up. -/
def ActionSafe (env : Environment) (store : MediaDataStore.Store) (dataObj : Object) : Prop :=
  ∀ type fcupUri fcupContent, (dataObj.dictGetValue (ascii "type")).stringGetValue = some type →
    equalNoCase type.bytes (ascii "unhandledURLResponse") = true →
    ((dataObj.dictGetValue (ascii "params")).dictGetValue (ascii "FCUP_Response_URL")).stringGetValue = some fcupUri →
    ((dataObj.dictGetValue (ascii "params")).dictGetValue (ascii "FCUP_Response_Data")).dataGetValue = some fcupContent →
    UriSafe env store fcupUri.bytes fcupContent

theorem processMediaData_safe_iff (uri data : Bytes) :
    Emits Event.Safe (processMediaData env uri data) world ↔ UriSafe env world.store uri data := by
  simp only [processMediaData]
  rw [emits_get_bind, emits_modify_bind]
  have fault := processMediaData_outOfRange_iff env world.store (connected env world world.store.sessionId) uri data
  rw [← not_iff_not, ← fault]
  cases result : (world.store.processMediaData env.rewriting (connected env world world.store.sessionId) uri data).2.2 with
  | error reason =>
    dsimp only
    rw [emits_emit_bind]
    cases reason with
    | outOfRange => simp [Event.Safe]
    | regexError => simp [Event.Safe, emits_stop]
  | ok location =>
    simp only [reduceCtorEq, iff_false, not_not]
    exact ((sendAll_always _).bind fun _ => always_pure location) _

theorem unhandledUrlResponse_safe_iff (dataObj : Object) :
    Emits Event.Safe (unhandledUrlResponse env req res dataObj) world ↔
      ∀ fcupUri fcupContent,
        ((dataObj.dictGetValue (ascii "params")).dictGetValue (ascii "FCUP_Response_URL")).stringGetValue = some fcupUri →
        ((dataObj.dictGetValue (ascii "params")).dictGetValue (ascii "FCUP_Response_Data")).dataGetValue = some fcupContent →
        UriSafe env world.store fcupUri.bytes fcupContent := by
  simp only [unhandledUrlResponse]
  cases uri : ((dataObj.dictGetValue (ascii "params")).dictGetValue (ascii "FCUP_Response_URL")).stringGetValue with
  | none => exact iff_of_true (emits_pure _) fun _ _ found => by cases found
  | some fcupUri =>
    cases content : ((dataObj.dictGetValue (ascii "params")).dictGetValue (ascii "FCUP_Response_Data")).dataGetValue with
    | none => exact iff_of_true (emits_pure _) fun _ _ _ found => by cases found
    | some fcupContent =>
      dsimp only
      rw [emits_bind_of_later, processMediaData_safe_iff]
      · constructor
        · rintro safe _ _ ⟨⟩ ⟨⟩
          exact safe
        · exact fun safe => safe fcupUri fcupContent rfl rfl
      · intro location
        refine getConn_always.bind fun conn => ?_
        split
        · exact (modifyConn_always _).bind fun _ => (callVideo_always _).bind fun _ => always_pure _
        · exact always_pure _

/-- Decoding leaves the store alone. -/
theorem postActionHandler_safe_iff :
    Emits Event.Safe (postActionHandler env req res) world ↔
      BodySafe env req world ∧
        ∀ dataObj, (decoding env req world).value = .ok dataObj → ActionSafe env world.store dataObj := by
  simp only [postActionHandler]
  rw [emits_bind, objectFromBplist_safe_iff]
  refine and_congr_right fun _ => forall_congr' fun dataObj => forall_congr' fun _ => ?_
  cases found : (dataObj.dictGetValue (ascii "type")).stringGetValue with
  | none =>
    refine iff_of_true ?_ fun type _ _ found' => by cases found.symm.trans found'
    split <;> exact emits_pure _
  | some type =>
    have present : ¬ dataObj.isNull = true := by
      intro null
      cases dataObj with
      | null => cases found
      | _ => cases null
    rw [if_neg present]
    dsimp only
    by_cases answered : equalNoCase type.bytes (ascii "unhandledURLResponse") = true
    · rw [if_pos answered, unhandledUrlResponse_safe_iff]
      constructor
      · intro safe type' uri content found' _ here there
        exact safe uri content here there
      · intro safe uri content here there
        exact safe type uri content found answered here there
    · rw [if_neg answered]
      refine iff_of_true (emits_pure _) fun type' _ _ found' answered' => ?_
      obtain rfl := Option.some.inj (found.symm.trans found')
      exact absurd answered' answered

theorem postReverseHandler_safe_iff :
    Emits Event.Safe (postReverseHandler req res) world ↔
      (req.headers.find? MediaDataStore.HEADER_APPLE_SESSION_ID).isSome = true := by
  simp only [postReverseHandler]
  refine (emits_bind_of_later fun session => ?_).trans emits_checked
  exact (always_modify _).bind fun _ => always_pure _

end Actions

section Others

theorem recordHandler_always : Always Event.Safe (recordHandler res : Handling prims Response) :=
  (call_always _).bind fun _ => always_pure _

theorem setParameterHandler_always : Always Event.Safe (setParameterHandler env req res : Handling prims Response) := by
  have done : Always Event.Safe (pure (res.withStatus ok) : Handling prims Response) := always_pure _
  simp only [setParameterHandler]
  split
  · split
    · exact (callMirroring_always _).bind fun _ => done
    · split
      · exact (callMirroring_always _).bind fun _ => done
      · exact done
  · split
    · exact (callMirroring_always _).bind fun _ => done
    · split
      · exact (callMirroring_always _).bind fun _ => done
      · exact done

theorem getServerInfoHandler_always : Always Event.Safe (getServerInfoHandler env res : Handling prims Response) :=
  (beginSession_always _).bind fun _ => always_pure _

theorem postScrubHandler_always : Always Event.Safe (postScrubHandler env req res : Handling prims Response) := by
  simp only [postScrubHandler]
  split
  · exact (callVideo_always _).bind fun _ => always_pure _
  · exact always_pure _

theorem postRateHandler_always : Always Event.Safe (postRateHandler env req res : Handling prims Response) := by
  simp only [postRateHandler]
  split
  · exact (callVideo_always _).bind fun _ => always_pure _
  · exact always_pure _

theorem postStopHandler_always : Always Event.Safe (postStopHandler res : Handling prims Response) :=
  (always_modify _).bind fun _ => (callVideo_always _).bind fun _ => always_pure _

theorem getPlaybackInfoHandler_always : Always Event.Safe (getPlaybackInfoHandler env res : Handling prims Response) :=
  (callVideo_always _).bind fun _ => always_pure _

end Others

/-- What a handler relies on without looking. -/
def Handler.Relies (env : Environment) (req : Request) (world : World prims) : Handler → Prop
  | .postPairVerify => 68 ≤ req.content.length
  | .postFpSetup => 7 ≤ req.content.length ∨ ¬ req.content.take 5 <+: fairPlay
  | .setup | .teardown => req.contentType = APPLICATION_BINARY_PLIST → BodySafe env req world
  | .postPlay => equalNoCase req.contentType APPLICATION_BINARY_PLIST = true → BodySafe env req world
  | .putSetProperty => contains (ascii "actionAtItemEnd") req.uri = true → BodySafe env req world
  | .postReverse => (req.headers.find? MediaDataStore.HEADER_APPLE_SESSION_ID).isSome = true
  | .postAction => BodySafe env req world ∧
      ∀ dataObj, (decoding env req world).value = .ok dataObj → ActionSafe env world.store dataObj
  | _ => True

/-- For every request and in every state, a handler is safe just where it has what it relies on. -/
theorem handlers_safe_iff (handler : Handler) (env : Environment) (req : Request) (res : Response) (world : World prims) :
    Emits Event.Safe (handler.run env req res) world ↔ handler.Relies env req world := by
  cases handler with
  | postPairVerify => exact postPairVerifyHandler_safe_iff
  | postFpSetup => exact postFpSetupHandler_safe_iff
  | setup => exact setupHandler_safe_iff
  | teardown => exact teardownHandler_safe_iff
  | postPlay => exact postPlayHandler_safe_iff
  | putSetProperty => exact putSetPropertyHandler_safe_iff
  | postReverse => exact postReverseHandler_safe_iff
  | postAction => exact postActionHandler_safe_iff
  | postPairSetup => exact iff_of_true (postPairSetupHandler_always world) trivial
  | record => exact iff_of_true (recordHandler_always world) trivial
  | setParameter => exact iff_of_true (setParameterHandler_always world) trivial
  | getServerInfo => exact iff_of_true (getServerInfoHandler_always world) trivial
  | postScrub => exact iff_of_true (postScrubHandler_always world) trivial
  | postRate => exact iff_of_true (postRateHandler_always world) trivial
  | postStop => exact iff_of_true (postStopHandler_always world) trivial
  | getPlaybackInfo => exact iff_of_true (getPlaybackInfoHandler_always world) trivial
  | options | getInfo | postFeedback | getParameter | flush | postAudioMode | postFpSetup2 | postGetProperty =>
    exact iff_of_true (emits_pure _) trivial

def pairVerifyHead : RequestHead where
  method := ascii "POST"
  uri := ascii "/pair-verify"
  version := ascii "RTSP/1.0"
  lines := []
  token := ⟨by decide +kernel, by decide +kernel⟩
  plain := by decide +kernel
  text := rtsp_text

/-- The kind of the frame is read from an empty body. -/
theorem pairVerify_reads_beyond :
    ¬ Emits Event.Safe (processRequest still someDate (requestOf pairVerifyHead newSession.request [])) newSession.world := by
  have routed : RequestRouteTable.queryHandler routeTable (requestOf pairVerifyHead newSession.request []) =
      .ok .postPairVerify := by
    decide +kernel
  simp only [processRequest, routed]
  intro safe
  have long : 68 ≤ (requestOf pairVerifyHead newSession.request []).content.length :=
    postPairVerifyHandler_safe_iff.mp (emits_bind.mp safe).1
  exact absurd long (by decide)

end Apsdk.Airplay
