import Apsdk.Proofs.PairRequests

/-! When a client counts as verified. The flag is set with the first frame of
`/pair-verify`, before a signature has been seen. -/

namespace Apsdk.Airplay
open Library Library.Machine Traced

variable {prims : Primitives} {env : Environment} {req : Request}

/-- The keys that a signature is verified under, and the secret that it is encrypted with. -/
def agreed (crypto : ApCrypto prims) : Bytes × Bytes × Bytes :=
  (crypto.clientEdPublicKey, crypto.clientCurvePublicKey, crypto.sharedSecret)

namespace Service
variable (initial : Service prims)

/-- `verify_pair_signature` has returned true on a connection, under these keys. -/
def Verified (trace : List ServiceEvent) (id : Nat) (keys : Bytes × Bytes × Bytes) : Prop :=
  ∃ earlier dispatch service outputs conn signature, earlier ++ [.request id dispatch] <+: trace ∧
    run step initial earlier = some (service, outputs) ∧ service.members.find? id = some ⟨conn, true⟩ ∧
    pairing dispatch.req = some (.pairVerifySecond signature) ∧ (conn.crypto.verifyPairSignature signature).2 = true ∧
    agreed conn.crypto = keys

/-- Where a client counts as verified, it has proved its key. -/
def Proven (trace : List ServiceEvent) (service : Service prims) : Prop :=
  ∀ id member, service.members.find? id = some member → member.conn.crypto.pairVerifyed = true →
    Verified initial trace id (agreed member.conn.crypto)

/-- A first frame, and a key that comes after one, have been proved before. -/
def Recalls (trace : List ServiceEvent) (service : Service prims) : ServiceEvent → Prop
  | .request id dispatch => ∀ conn, service.members.find? id = some ⟨conn, true⟩ → conn.isReversed = false →
    match pairing dispatch.req with
    | some (.pairVerifyFirst keys) =>
      Verified initial trace id (keys.ed, keys.curve, prims.curve25519 conn.crypto.server.curvePrivateKey keys.curve)
    | some (.pairSetup ed) =>
      conn.crypto.pairVerifyed = true → Verified initial trace id (ed, conn.crypto.clientCurvePublicKey, conn.crypto.sharedSecret)
    | _ => True
  | _ => True

variable {initial} {trace : List ServiceEvent}

theorem Verified.later {id : Nat} {keys : Bytes × Bytes × Bytes} (verified : Verified initial trace id keys) (event : ServiceEvent) :
    Verified initial (trace ++ [event]) id keys := by
  obtain ⟨earlier, dispatch, service, outputs, conn, signature, part, rest⟩ := verified
  exact ⟨earlier, dispatch, service, outputs, conn, signature, part.trans (List.prefix_append _ _), rest⟩

/-- Nothing but a signature proves a key. -/
theorem Verified.earlier {id : Nat} {keys : Bytes × Bytes × Bytes} {dispatch : Dispatch}
    (verified : Verified initial (trace ++ [.request id dispatch]) id keys)
    (other : ∀ signature, pairing dispatch.req ≠ some (.pairVerifySecond signature)) : Verified initial trace id keys := by
  obtain ⟨earlier, dispatch', service, outputs, conn, signature, part, ran, found, second, rest⟩ := verified
  rcases List.prefix_concat_iff.mp part with whole | shorter
  · obtain ⟨-, last⟩ := List.append_inj' whole rfl
    cases last
    exact absurd second (other signature)
  · exact ⟨earlier, dispatch', service, outputs, conn, signature, shorter, ran, found, second, rest⟩

end Service

/-- The requests for pairing that reach `ap_crypto`. -/
theorem pairing_eq_some {handshake : HandshakeRequest} (pairs : pairing req = some handshake) :
    (∃ ed : Bytes, ed ≠ [] ∧ handshake = .pairSetup ed) ∨ (∃ keys, handshake = .pairVerifyFirst keys) ∨
      ∃ signature, handshake = .pairVerifySecond signature := by
  rw [pairing] at pairs
  split at pairs
  · split_ifs at pairs with length
    cases pairs
    exact .inl ⟨_, List.ne_nil_of_length_pos (by omega), rfl⟩
  · split_ifs at pairs
    · cases pairs
      exact .inr (.inl ⟨_, rfl⟩)
    · cases pairs
      exact .inr (.inr ⟨_, rfl⟩)
  · cases pairs

theorem postPairSetupHandler_answers (world : World prims) (res : Response) (length : req.content.length = 32) :
    ∃ answered after, Outcome (postPairSetupHandler req res) world answered after := by
  let crypto := world.conn.crypto.initClientPublicKeys [] ((req.content.drop 0).take 32)
  refine ⟨((res.withStatus ok).withContentType APPLICATION_OCTET_STREAM).withContentVector crypto.server.edPublicKey,
    world.withCrypto crypto, ?_⟩
  simp only [postPairSetupHandler, if_pos length, readContent]
  rw [outcome_checked_bind_iff]
  exact ⟨by omega, rfl, rfl⟩

/-- They are answered. -/
theorem pairing_answered (world : World prims) (date : DateText) (pairs : (pairing req).isSome = true) :
    ∃ posted, ((processRequest env date req).run world).value = .ok posted := by
  suffices answers : ∃ handler res after, routed req = some handler ∧
      Outcome (handler.run env req (.new req.schemeVersion)) world res after by
    obtain ⟨handler, res, after, route, ran⟩ := answers
    exact ⟨_, ((processRequest_outcome_iff route).mpr ⟨res, ran, rfl⟩).1⟩
  rw [pairing] at pairs
  split at pairs
  next route =>
    split_ifs at pairs with length
    obtain ⟨answered, after, ran⟩ := postPairSetupHandler_answers world (.new req.schemeVersion) length
    · exact ⟨_, answered, after, route, ran⟩
    · cases pairs
  next route =>
    split_ifs at pairs with long first
    · exact ⟨_, _, _, route, postPairVerifyHandler_first long first⟩
    · exact ⟨_, _, _, route, postPairVerifyHandler_second long (not_not.mp first)⟩
    · cases pairs
  next => cases pairs

namespace Service
variable {initial : Service prims} {trace : List ServiceEvent} {service next : Service prims} {event : ServiceEvent}
  {dispatch : Dispatch} {conn : Connection prims}

/-- The flag and the keys behind a request. -/
theorem process_agreed {posted : Option Response} (answered : (service.process dispatch conn).value = .ok posted) :
    (service.process dispatch conn).state.conn.crypto.pairVerifyed =
        ((pairing dispatch.req).elim conn.crypto (HandshakeRequest.apply conn.crypto)).pairVerifyed ∧
      agreed (service.process dispatch conn).state.conn.crypto =
        agreed ((pairing dispatch.req).elim conn.crypto (HandshakeRequest.apply conn.crypto)) := by
  have ended : Outcome (processRequest { dispatch.env with alive := service.alive } dispatch.date dispatch.req)
      (service.world conn) posted (service.process dispatch conn).state := ⟨answered, rfl⟩
  have view := processRequest_pairing ended
  exact ⟨congrArg Prod.fst view, congrArg (fun view => (view.2.2.1, view.2.2.2.1, view.2.1)) view⟩

theorem applied_setup (crypto : ApCrypto prims) {ed : Bytes} (given : ed ≠ []) :
    HandshakeRequest.apply crypto (.pairSetup ed) = { crypto with clientEdPublicKey := ed } := by
  simp only [HandshakeRequest.apply, ApCrypto.initClientPublicKeys]
  rw [if_neg (not_not.mpr rfl), if_pos given]

theorem agreed_first (crypto : ApCrypto prims) (keys : PairVerifyKeys) :
    agreed (HandshakeRequest.apply crypto (.pairVerifyFirst keys)) =
      (keys.ed, keys.curve, prims.curve25519 crypto.server.curvePrivateKey keys.curve) := by
  rw [HandshakeRequest.apply, initClientPublicKeys_keys]
  rfl

/-- The flag is never set back: after a request that is for pairing it was set before, or the request was a first frame. -/
theorem Proven.step (proven : Proven initial trace service) (recalls : Recalls initial trace service event)
    {outputs : List (Nat × Observation)} (taken : Taken service event next outputs) : Proven initial (trace ++ [event]) next := by
  intro id member found flag
  refine Verified.later ?_ _
  cases taken with
  | accept sessionId server handler =>
    rw [SortedMap.find?_insert] at found
    split_ifs at found with same
    · obtain rfl := Option.some.inj found
      cases flag
    · exact proven id member found flag
  | @request requested dispatch conn posted here requests answered =>
    rw [update, SortedMap.find?_insert] at found
    split_ifs at found with same
    · obtain rfl := Option.some.inj found
      subst same
      obtain ⟨flagged, keys⟩ := process_agreed answered
      have before := proven requested _ here
      have recalled := recalls conn here requests
      show Verified initial trace requested (agreed (service.process dispatch conn).state.conn.crypto)
      rw [keys]
      rw [flagged] at flag
      cases pairs : pairing dispatch.req with
      | none =>
        rw [pairs] at flag
        exact before flag
      | some handshake =>
        rw [pairs] at recalled flag
        obtain ⟨ed, given, rfl⟩ | ⟨keys, rfl⟩ | ⟨signature, rfl⟩ := pairing_eq_some pairs
        · rw [Option.elim_some, applied_setup _ given] at flag ⊢
          exact recalled flag
        · rw [Option.elim_some, agreed_first]
          exact recalled
        · exact before flag
    · exact proven id member found flag
  | @release released conn here =>
    rw [SortedMap.find?_insert] at found
    split_ifs at found with same
    · obtain rfl := Option.some.inj found
      exact proven id ⟨conn, true⟩ (same ▸ here) flag
    · exact proven id member found flag
  | destroy here =>
    rw [SortedMap.find?_erase] at found
    split_ifs at found
    exact proven id member found flag

/-- What a request recalls is what is proven behind it. -/
theorem recalls_of_proven {id : Nat} (found : service.members.find? id = some ⟨conn, true⟩) (requests : conn.isReversed = false)
    (proven : ∀ sent, Service.step service (.request id dispatch) = some (service.update id (service.process dispatch conn).state, sent) →
      Proven initial (trace ++ [.request id dispatch]) (service.update id (service.process dispatch conn).state)) :
    match pairing dispatch.req with
    | some (.pairVerifyFirst keys) =>
      Verified initial trace id (keys.ed, keys.curve, prims.curve25519 conn.crypto.server.curvePrivateKey keys.curve)
    | some (.pairSetup ed) =>
      conn.crypto.pairVerifyed = true → Verified initial trace id (ed, conn.crypto.clientCurvePublicKey, conn.crypto.sharedSecret)
    | _ => True := by
  have behind : (pairing dispatch.req).isSome = true →
      ((pairing dispatch.req).elim conn.crypto (HandshakeRequest.apply conn.crypto)).pairVerifyed = true →
      (∀ signature, pairing dispatch.req ≠ some (.pairVerifySecond signature)) →
      Verified initial trace id (agreed ((pairing dispatch.req).elim conn.crypto (HandshakeRequest.apply conn.crypto))) := by
    intro pairs flag other
    obtain ⟨posted, answered⟩ : ∃ posted, (service.process dispatch conn).value = .ok posted := pairing_answered _ _ pairs
    obtain ⟨sent, stepped⟩ := step_request found requests answered
    obtain ⟨flagged, keys⟩ := process_agreed answered
    have here : (service.update id (service.process dispatch conn).state).members.find? id =
        some ⟨(service.process dispatch conn).state.conn, true⟩ := (SortedMap.find?_insert ..).trans (if_pos rfl)
    rw [← keys]
    exact (proven sent stepped id _ here (flagged.trans flag)).earlier other
  cases pairs : pairing dispatch.req with
  | none => trivial
  | some handshake =>
    rw [pairs] at behind
    obtain ⟨ed, given, rfl⟩ | ⟨keys, rfl⟩ | ⟨signature, rfl⟩ := pairing_eq_some pairs
    · intro flag
      have kept := behind rfl
      rw [Option.elim_some, applied_setup _ given] at kept
      exact kept flag (fun _ => nofun)
    · have kept := behind rfl rfl (fun _ => nofun)
      rwa [Option.elim_some, agreed_first] at kept
    · trivial

end Service

/-- Wherever a run passes, every client that counts as verified has proved its key, just when
every first frame, and every key that comes by `/pair-setup` after one, has been proved before it comes. -/
theorem verified_throughout_iff (prims : Primitives) (requestId : UInt32) (trace : List ServiceEvent) :
    Throughout Service.step (Service.start requestId : Service prims) trace
        (fun earlier service _ => Service.Proven (Service.start requestId) earlier service) ↔
      Allowed Service.step (Service.start requestId : Service prims) trace (Service.Recalls (Service.start requestId)) := by
  constructor
  · intro throughout earlier event part service outputs ran
    cases event with
    | request id dispatch =>
      intro conn found requests
      refine Service.recalls_of_proven found requests fun sent stepped => ?_
      exact throughout.after part ran stepped
    | _ => trivial
  · intro allowed
    refine allowed.throughout (fun _ _ found => nomatch found) ?_
    intro earlier service sent event next outputs proven recalls stepped
    exact proven.step recalls (Service.taken_of_step stepped)

/-- A connection that has taken a first frame. -/
def firstFrameOnly : List ServiceEvent := [.accept 7 sampleServer true, .request 0 sampleFirst]

/-- The client counts as verified, and no signature has come. -/
theorem first_frame_not_proven :
    ¬ Throughout Service.step (Service.start 0 : Service samplePrimitives) firstFrameOnly
      (fun earlier service _ => Service.Proven (Service.start 0) earlier service) := by
  intro throughout
  have ended : ((run Service.step (Service.start 0 : Service samplePrimitives) firstFrameOnly).map fun result =>
      (result.1.members.find? 0).map fun member => member.conn.crypto.pairVerifyed) = some (some true) := by decide +kernel
  obtain ⟨⟨service, outputs⟩, ran, left⟩ := Option.map_eq_some_iff.mp ended
  obtain ⟨member, found, flag⟩ := Option.map_eq_some_iff.mp left
  obtain ⟨earlier, dispatch, -, -, -, signature, part, -, -, second, -⟩ :=
    throughout firstFrameOnly (List.prefix_refl _) service outputs ran 0 member found flag
  have only : dispatch = sampleFirst := by
    have requested : .request 0 dispatch ∈ firstFrameOnly := part.subset (List.mem_append_right _ List.mem_cons_self)
    simpa [firstFrameOnly] using requested
  subst only
  cases second

end Apsdk.Airplay
