import Apsdk.Proofs.HandlerFootprint
import Apsdk.Proofs.HandlerSafety

/-! Requests that are answered with a bad request. `setup_handler` takes over the keys
of a session before it looks for the timing port, and `post_play_handler` the playback
before it looks for the location and the session; otherwise a rejected request
changes nothing. -/

namespace Apsdk.Airplay
open Library Plist Traced

variable {prims : Primitives} {env : Environment} {req : Request} {res answered : Response} {world after : World prims}

/-- The keys and ciphers, the session, the playback and the store are what they were. -/
structure Unchanged (before after : World prims) : Prop where
  crypto : after.conn.crypto = before.conn.crypto
  sessionType : after.conn.sessionType = before.conn.sessionType
  playbackUuid : after.conn.playbackUuid = before.conn.playbackUuid
  startPosInMs : after.conn.startPosInMs = before.conn.startPosInMs
  appleSessionId : after.conn.appleSessionId = before.conn.appleSessionId
  store : after.store = before.store

/-- The keys of a `SETUP` are those that are there: the IV is missing or the same, and the key is missing or, on
a connection that is not verified, decrypts to the same. -/
def SameKeys (crypto : ApCrypto prims) (iv key : Bytes) : Prop :=
  (iv = [] ∨ crypto.clientAesIv = iv) ∧
    (key = [] ∨ crypto.pairVerifyed = false ∧ crypto.clientAesKey.take 16 = prims.fairplayDecrypt crypto.fpKeyMessage key)

theorem initClientAesInfo_eq (crypto : ApCrypto prims) (iv key : Bytes) :
    crypto.initClientAesInfo iv key =
      { crypto with
        clientAesIv := if iv = [] then crypto.clientAesIv else iv
        clientAesKey := if key = [] then crypto.clientAesKey else
          prims.fairplayDecrypt crypto.fpKeyMessage key ++ crypto.clientAesKey.drop 16 ++ if crypto.pairVerifyed = true then
            (prims.sha512 (prims.fairplayDecrypt crypto.fpKeyMessage key ++ crypto.sharedSecret.take 32)).take 16 else [] } := by
  have overwritten : (prims.fairplayDecrypt crypto.fpKeyMessage key ++ crypto.clientAesKey.drop 16).take 16 =
      prims.fairplayDecrypt crypto.fpKeyMessage key := by
    rw [List.take_append_of_le_length (prims.length_fairplayDecrypt ..).ge,
      List.take_of_length_le (prims.length_fairplayDecrypt ..).le]
  obtain ⟨verified, server, message, secret, aesKey, aesIv, ed, curve, pairing, stream⟩ := crypto
  by_cases given : iv = [] <;> by_cases keyed : key = [] <;> cases verified <;>
    simp [ApCrypto.initClientAesInfo, ApCrypto.fpDecrypt, given, keyed, overwritten]

theorem initClientAesInfo_eq_self_iff (crypto : ApCrypto prims) (iv key : Bytes) :
    crypto.initClientAesInfo iv key = crypto ↔ SameKeys crypto iv key := by
  have decrypted := prims.length_fairplayDecrypt crypto.fpKeyMessage key
  rw [initClientAesInfo_eq]
  obtain ⟨verified, server, message, secret, aesKey, aesIv, ed, curve, pairing, stream⟩ := crypto
  simp only [ApCrypto.mk.injEq, true_and, and_true, SameKeys]
  rw [and_comm]
  refine and_congr ?_ ?_
  · by_cases given : iv = []
    · simp [given]
    · simp [given, eq_comm]
  · by_cases keyed : key = []
    · simp [keyed]
    · rw [if_neg keyed, or_iff_right keyed]
      cases verified with
      | true =>
        refine iff_of_false (fun same => ?_) fun both => Bool.noConfusion both.1
        have length := congrArg List.length same
        have hashed : (prims.sha512 (prims.fairplayDecrypt message key ++ secret.take 32)).length = 64 := prims.length_sha512 _
        simp only [if_true, List.length_append, List.length_drop, List.length_take, hashed, decrypted] at length
        omega
      | false =>
        simp only [Bool.false_eq_true, if_false, List.append_nil, true_and]
        constructor
        · intro same
          rw [← same, List.take_append_of_le_length decrypted.ge, List.take_of_length_le decrypted.le]
        · intro same
          rw [← same, List.take_append_drop]

/-- A computation that ends with a bad request leaves the world alone. -/
def Clean (handling : Handling prims Response) : Prop :=
  ∀ world answered after, Outcome handling world answered after → answered.statusCode = badRequest → after = world

theorem clean_pure (answered : Response) : Clean (pure answered : Handling prims Response) :=
  fun _ _ _ ends _ => (outcome_pure_iff.mp ends).2

/-- A computation that never ends so. -/
theorem clean_of_ok {handling : Handling prims Response} (returns : Returns (fun res => res.statusCode = ok) handling) :
    Clean handling := by
  intro world answered after ends rejected
  have fine : answered.statusCode = ok := returns world answered ends.1
  rw [rejected] at fine
  cases fine

theorem setupAudio_clean (streamObj : Object) : Clean (setupAudio env res streamObj : Handling prims Response) := by
  simp only [setupAudio]
  split
  · exact clean_pure _
  · split
    · exact clean_pure _
    · exact clean_of_ok (returns_bind fun _ => returns_bind fun _ => returns_pure rfl)

theorem setupVideo_clean (streamObj : Object) : Clean (setupVideo env res streamObj : Handling prims Response) := by
  simp only [setupVideo]
  split
  · exact clean_pure _
  · exact clean_of_ok (returns_bind fun _ => returns_bind fun _ => returns_bind fun _ => returns_pure rfl)

theorem setupStreams_clean (streams : Object) : Clean (setupStreams env res streams : Handling prims Response) := by
  rw [setupStreams]
  split
  · exact clean_pure _
  · dsimp only
    split
    · exact clean_pure _
    · split
      · exact clean_pure _
      · split
        · exact setupAudio_clean _
        · split
          · exact setupVideo_clean _
          · exact clean_pure _

theorem playLocation_clean (location : Bytes) : Clean (playLocation env req res location : Handling prims Response) := by
  simp only [playLocation]
  split
  · exact clean_pure _
  · refine clean_of_ok (returns_bind fun world => returns_bind fun _ => returns_bind fun _ => ?_)
    split
    · exact returns_bind fun _ => returns_pure rfl
    · exact returns_pure rfl

/-- The keys that a rejected `SETUP` without streams leaves. -/
def keysLeft (dataObj : Object) (crypto : ApCrypto prims) : ApCrypto prims :=
  match (dataObj.dictGetValue (ascii "eiv")).dataGetValue, (dataObj.dictGetValue (ascii "ekey")).dataGetValue with
  | some iv, some key => crypto.initClientAesInfo iv key
  | _, _ => crypto

theorem keysLeft_eq_self_iff {dataObj : Object} (crypto : ApCrypto prims) :
    keysLeft dataObj crypto = crypto ↔
      ∀ iv key, (dataObj.dictGetValue (ascii "eiv")).dataGetValue = some iv →
        (dataObj.dictGetValue (ascii "ekey")).dataGetValue = some key → SameKeys crypto iv key := by
  rw [keysLeft]
  cases (dataObj.dictGetValue (ascii "eiv")).dataGetValue with
  | none => exact iff_of_true rfl fun _ _ found => nomatch found
  | some iv =>
    cases (dataObj.dictGetValue (ascii "ekey")).dataGetValue with
    | none => exact iff_of_true rfl fun _ _ _ found => nomatch found
    | some key =>
      refine (initClientAesInfo_eq_self_iff crypto iv key).trans ⟨?_, fun same => same iv key rfl rfl⟩
      rintro same _ _ ⟨⟩ ⟨⟩
      exact same

theorem setupSession_rejected {dataObj : Object} (ends : Outcome (setupSession env res dataObj) world answered after)
    (rejected : answered.statusCode = badRequest) :
    after = { world with conn := { world.conn with crypto := keysLeft dataObj world.conn.crypto } } := by
  simp only [setupSession] at ends
  rw [keysLeft]
  cases eiv : (dataObj.dictGetValue (ascii "eiv")).dataGetValue with
  | none =>
    simp only [eiv] at ends
    exact (outcome_pure_iff.mp ends).2
  | some iv =>
    simp only [eiv] at ends
    cases ekey : (dataObj.dictGetValue (ascii "ekey")).dataGetValue with
    | none =>
      simp only [ekey] at ends
      exact (outcome_pure_iff.mp ends).2
    | some key =>
      simp only [ekey] at ends
      have rest := outcome_modify_bind_iff.mp ends
      cases timing : (dataObj.dictGetValue (ascii "timingPort")).integerGetValue with
      | none =>
        simp only [timing] at rest
        exact (outcome_pure_iff.mp rest).2
      | some timingPort =>
        simp only [timing] at rest
        exact clean_of_ok (returns_bind fun _ => returns_bind fun _ => returns_pure rfl) _ _ _ rest rejected

/-- The playback that a rejected `POST /play` with a property list leaves. -/
def playbackLeft (env : Environment) (dataObj : Object) (conn : Connection prims) : Connection prims :=
  match (dataObj.dictGetValue (ascii "uuid")).stringGetValue, (dataObj.dictGetValue (ascii "Content-Location")).stringGetValue with
  | some id, some _ =>
    { conn with
      playbackUuid := id.bytes
      startPosInMs := env.arithmetic.milliseconds (((dataObj.dictGetValue (ascii "Start-Position-Seconds")).realGetValue).getD 0) }
  | some id, none => { conn with playbackUuid := id.bytes }
  | none, _ => conn

theorem playObject_rejected {dataObj : Object} (ends : Outcome (playObject env req res dataObj) world answered after)
    (rejected : answered.statusCode = badRequest) : after = { world with conn := playbackLeft env dataObj world.conn } := by
  simp only [playObject] at ends
  rw [playbackLeft]
  cases uuid : (dataObj.dictGetValue (ascii "uuid")).stringGetValue with
  | none =>
    simp only [uuid] at ends
    exact (outcome_pure_iff.mp ends).2
  | some id =>
    simp only [uuid] at ends
    have rest := outcome_modify_bind_iff.mp ends
    cases location : (dataObj.dictGetValue (ascii "Content-Location")).stringGetValue with
    | none =>
      simp only [location] at rest
      exact (outcome_pure_iff.mp rest).2
    | some text =>
      simp only [location] at rest
      exact playLocation_clean _ _ _ _ (outcome_modify_bind_iff.mp rest) rejected

/-- Decoding takes allocations only. -/
theorem objectFromBplist_outcome {dataObj : Object} (ends : Outcome (objectFromBplist env req) world dataObj after) :
    (decoding env req world).value = .ok dataObj ∧ after = { world with allocations := (decoding env req world).state } :=
  ⟨ends.1, ends.2.symm⟩

/-- The request has nothing new of what its handler takes over before it rejects it: the keys of a session that a `SETUP`
without streams carries, the playback of a `POST /play`. -/
def Spares (env : Environment) (req : Request) (world : World prims) : Handler → Prop
  | .setup => req.contentType = APPLICATION_BINARY_PLIST → ∀ dataObj iv key, (decoding env req world).value = .ok dataObj →
      (dataObj.dictGetValue (ascii "streams")).isNull = true → (dataObj.dictGetValue (ascii "eiv")).dataGetValue = some iv →
      (dataObj.dictGetValue (ascii "ekey")).dataGetValue = some key → SameKeys world.conn.crypto iv key
  | .postPlay =>
      if equalNoCase req.contentType APPLICATION_BINARY_PLIST = true then
        ∀ dataObj id, (decoding env req world).value = .ok dataObj → (dataObj.dictGetValue (ascii "uuid")).stringGetValue = some id →
          world.conn.playbackUuid = id.bytes ∧
            ((dataObj.dictGetValue (ascii "Content-Location")).stringGetValue.isSome = true → world.conn.startPosInMs =
              env.arithmetic.milliseconds (((dataObj.dictGetValue (ascii "Start-Position-Seconds")).realGetValue).getD 0))
      else if equalNoCase req.contentType TEXT_PARAMETERS = true ∨ equalNoCase req.contentType APPLICATION_OCTET_STREAM = true then
        ∀ location start, env.parser.getPlayParameters (cString req.content) = some (location, start) → world.conn.startPosInMs = start
      else True
  | _ => True

theorem unchanged_keys_iff {crypto : ApCrypto prims} {allocations : Nat} :
    Unchanged world { world with conn := { world.conn with crypto }, allocations } ↔ crypto = world.conn.crypto :=
  ⟨Unchanged.crypto, fun same => ⟨same, rfl, rfl, rfl, rfl, rfl⟩⟩

theorem setupHandler_spares_iff (ends : Outcome (setupHandler env req res) world answered after)
    (rejected : answered.statusCode = badRequest) : Unchanged world after ↔ Spares env req world .setup := by
  rw [setupHandler_eq] at ends
  by_cases typed : req.contentType = APPLICATION_BINARY_PLIST
  · rw [if_neg (not_not.mpr typed)] at ends
    obtain ⟨dataObj, between, decoded, rest⟩ := outcome_bind_iff.mp ends
    obtain ⟨value, rfl⟩ := objectFromBplist_outcome decoded
    simp only [Spares, typed, value, true_implies, Except.ok.injEq]
    rw [setupObject] at rest
    split at rest
    next null =>
      obtain ⟨-, rfl⟩ := outcome_pure_iff.mp rest
      refine iff_of_true ⟨rfl, rfl, rfl, rfl, rfl, rfl⟩ ?_
      rintro other iv key rfl - found
      cases dataObj with
      | null => cases found
      | _ => cases null
    next =>
      split at rest
      next streams =>
        obtain rfl := setupStreams_clean _ _ _ _ rest rejected
        refine iff_of_true ⟨rfl, rfl, rfl, rfl, rfl, rfl⟩ ?_
        rintro other iv key rfl streamless
        exact absurd streamless streams
      next streamless =>
        obtain rfl := setupSession_rejected rest rejected
        rw [unchanged_keys_iff, keysLeft_eq_self_iff]
        constructor
        · rintro same other iv key rfl -
          exact same iv key
        · exact fun same iv key => same dataObj iv key rfl (not_not.mp streamless)
  · rw [if_pos typed] at ends
    obtain ⟨-, rfl⟩ := outcome_pure_iff.mp ends
    exact iff_of_true ⟨rfl, rfl, rfl, rfl, rfl, rfl⟩ fun same => absurd same typed

theorem postPlayHandler_spares_iff (ends : Outcome (postPlayHandler env req res) world answered after)
    (rejected : answered.statusCode = badRequest) : Unchanged world after ↔ Spares env req world .postPlay := by
  simp only [postPlayHandler] at ends
  rw [Spares]
  split at ends
  next plist =>
    rw [if_pos plist]
    obtain ⟨dataObj, between, decoded, rest⟩ := outcome_bind_iff.mp ends
    obtain ⟨value, rfl⟩ := objectFromBplist_outcome decoded
    simp only [value, Except.ok.injEq]
    split at rest
    next null =>
      obtain ⟨-, rfl⟩ := outcome_pure_iff.mp rest
      refine iff_of_true ⟨rfl, rfl, rfl, rfl, rfl, rfl⟩ ?_
      rintro other id rfl found
      cases dataObj with
      | null => cases found
      | _ => cases null
    next =>
      obtain rfl := playObject_rejected rest rejected
      simp only [playbackLeft]
      constructor
      · rintro same other id rfl found
        cases location : (dataObj.dictGetValue (ascii "Content-Location")).stringGetValue with
        | none =>
          simp only [found, location] at same
          exact ⟨same.playbackUuid.symm, fun some => by cases some⟩
        | some text =>
          simp only [found, location] at same
          exact ⟨same.playbackUuid.symm, fun _ => same.startPosInMs.symm⟩
      · intro same
        cases uuid : (dataObj.dictGetValue (ascii "uuid")).stringGetValue with
        | none => exact ⟨rfl, rfl, rfl, rfl, rfl, rfl⟩
        | some id =>
          obtain ⟨here, start⟩ := same dataObj id rfl uuid
          cases location : (dataObj.dictGetValue (ascii "Content-Location")).stringGetValue with
          | none => exact ⟨rfl, rfl, here.symm, rfl, rfl, rfl⟩
          | some text =>
            rw [location] at start
            exact ⟨rfl, rfl, here.symm, (start rfl).symm, rfl, rfl⟩
  next other =>
    rw [if_neg other]
    split at ends
    next text =>
      rw [if_pos text]
      cases parameters : env.parser.getPlayParameters (cString req.content) with
      | none =>
        simp only [parameters] at ends
        obtain rfl := playLocation_clean _ _ _ _ ends rejected
        exact iff_of_true ⟨rfl, rfl, rfl, rfl, rfl, rfl⟩ fun _ _ found => by cases found
      | some pair =>
        obtain ⟨location, start⟩ := pair
        simp only [parameters] at ends
        obtain rfl := playLocation_clean _ _ _ _ (outcome_modify_bind_iff.mp ends) rejected
        constructor
        · rintro same _ _ ⟨⟩
          exact same.startPosInMs.symm
        · exact fun same => ⟨rfl, rfl, rfl, (same location start rfl).symm, rfl, rfl⟩
    next neither =>
      rw [if_neg neither]
      obtain ⟨-, rfl⟩ := outcome_pure_iff.mp ends
      exact iff_of_true ⟨rfl, rfl, rfl, rfl, rfl, rfl⟩ trivial

/-- An action that is rejected has only been decoded. -/
theorem postActionHandler_unchanged (ends : Outcome (postActionHandler env req res) world answered after)
    (rejected : answered.statusCode = badRequest) : Unchanged world after := by
  simp only [postActionHandler] at ends
  obtain ⟨dataObj, between, decoded, rest⟩ := outcome_bind_iff.mp ends
  obtain ⟨-, rfl⟩ := objectFromBplist_outcome decoded
  have clean : ∀ {handling : Handling prims Response}, Clean handling →
      Outcome handling { world with allocations := (decoding env req world).state } answered after → Unchanged world after := by
    intro handling clean ends
    obtain rfl := clean _ _ _ ends rejected
    exact ⟨rfl, rfl, rfl, rfl, rfl, rfl⟩
  split at rest
  · exact clean (clean_pure _) rest
  · split at rest
    · exact clean (clean_pure _) rest
    · split at rest
      · refine clean ?_ rest
        simp only [unhandledUrlResponse]
        split
        · exact clean_pure _
        · split
          · exact clean_pure _
          · refine clean_of_ok (returns_bind fun location => returns_bind fun conn => ?_)
            split
            · exact returns_bind fun _ => returns_bind fun _ => returns_pure rfl
            · exact returns_pure rfl
      · exact clean (clean_pure _) rest

/-- A `SETUP`, `POST /play` or `POST /action` that is answered with a bad request changes
nothing just where it brings nothing that its handler takes over before. -/
theorem rejected_unchanged_iff {handler : Handler} {date : DateText} {posted : Response}
    (named : handler ∈ [Handler.setup, .postPlay, .postAction]) (route : routed req = some handler)
    (ends : Outcome (processRequest env date req) world (some posted) after) (rejected : posted.statusCode = badRequest) :
    Unchanged world after ↔ Spares env req world handler := by
  obtain ⟨res, ran, same⟩ := (processRequest_outcome_iff route).mp ends
  obtain rfl := Option.some.inj same
  have answered : res.statusCode = badRequest := (addCommonHeader_keeps ..).2.1.symm.trans rejected
  cases handler with
  | setup => exact setupHandler_spares_iff ran answered
  | postPlay => exact postPlayHandler_spares_iff ran answered
  | postAction => exact iff_of_true (postActionHandler_unchanged ran answered) trivial
  | _ => exact absurd named (by decide)

/-- A `SETUP` with keys and no timing port. -/
def keysOnly : Request :=
  { Request.new (ascii "RTSP/1.0") (ascii "SETUP") (ascii "/1") with
    contentType := APPLICATION_BINARY_PLIST
    content := toBytesArray still (dict [("eiv", .data (List.replicate 16 1)), ("ekey", .data (List.replicate 72 2))]) }

theorem keysOnly_rejected :
    routed keysOnly = some .setup ∧ ∃ posted after,
      Outcome (processRequest still someDate keysOnly) newSession.world (some posted) after ∧ posted.statusCode = badRequest ∧
        after.conn.crypto.clientAesIv = List.replicate 16 1 := by
  refine ⟨by decide +kernel, ?_⟩
  let ran := (processRequest still someDate keysOnly).run newSession.world
  have ended : (ran.value.toOption.map (Option.map fun posted => posted.statusCode), ran.state.conn.crypto.clientAesIv) =
      (some (some badRequest), List.replicate 16 1) := by
    decide +kernel
  obtain ⟨value, left⟩ := Prod.mk.inj ended
  cases result : ran.value with
  | error reason =>
    rw [result] at value
    cases value
  | ok answer =>
    rw [result] at value
    obtain ⟨posted, rfl, status⟩ := Option.map_eq_some_iff.mp (Option.some.inj value)
    exact ⟨posted, ran.state, ⟨result, rfl⟩, status, left⟩

theorem rejected_unchanged_keysOnly :
    ∃ posted after, Outcome (processRequest still someDate keysOnly) newSession.world (some posted) after ∧
      (Unchanged newSession.world after ↔ Spares still keysOnly newSession.world .setup) := by
  obtain ⟨route, posted, after, ends, rejected, -⟩ := keysOnly_rejected
  exact ⟨posted, after, ends, rejected_unchanged_iff (by decide) route ends rejected⟩

/-- The keys are taken over all the same. -/
theorem rejected_setup_changes_keys :
    routed keysOnly = some .setup ∧ ∃ posted after,
      Outcome (processRequest still someDate keysOnly) newSession.world (some posted) after ∧ posted.statusCode = badRequest ∧
        ¬ Unchanged newSession.world after := by
  obtain ⟨route, posted, after, ends, rejected, left⟩ := keysOnly_rejected
  refine ⟨route, posted, after, ends, rejected, fun same => ?_⟩
  have iv := congrArg ApCrypto.clientAesIv same.crypto
  rw [left] at iv
  revert iv
  decide +kernel

end Apsdk.Airplay
