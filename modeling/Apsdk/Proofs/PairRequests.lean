import Apsdk.Mirroring
import Apsdk.Proofs.CounterMode
import Apsdk.Proofs.ResponseCorrespondence
import Apsdk.Proofs.ServiceSteps

/-! The requests for pairing, as what they hand to `ap_crypto`. An honest client that
sends the two frames of `/pair-verify` is answered well, whatever came before. -/

namespace Apsdk.Airplay
open Library Traced

variable {prims : Primitives} {env : Environment} {req : Request} {res answered : Response} {world after : World prims}

/-- The keys behind the header of a first frame. -/
def frameKeys (content : Bytes) (long : 68 ≤ content.length) : PairVerifyKeys where
  curve := (content.drop 4).take 32
  ed := (content.drop (4 + 32)).take 32
  length_curve := List.length_take_of_le (by rw [List.length_drop]; omega)
  length_ed := List.length_take_of_le (by rw [List.length_drop]; omega)

/-- What a request for pairing hands to `ap_crypto`. -/
def pairing (req : Request) : Option HandshakeRequest :=
  match routed req with
  | some .postPairSetup => if req.content.length = 32 then some (.pairSetup req.content) else none
  | some .postPairVerify =>
    if long : 68 ≤ req.content.length then
      if req.content.take 1 ≠ [0] then some (.pairVerifyFirst (frameKeys req.content long))
      else some (.pairVerifySecond ((req.content.drop 4).take 64))
    else none
  | _ => none

def World.withCrypto (world : World prims) (crypto : ApCrypto prims) : World prims :=
  { world with conn := { world.conn with crypto } }

theorem postPairSetupHandler_outcome (ends : Outcome (postPairSetupHandler req res) world answered after) :
    after = world.withCrypto (if req.content.length = 32 then
      HandshakeRequest.apply world.conn.crypto (.pairSetup req.content) else world.conn.crypto) := by
  simp only [postPairSetupHandler] at ends
  split at ends
  next length =>
    rw [if_pos length]
    obtain ⟨-, rest⟩ := outcome_checked_bind_iff.mp ends
    have whole : (req.content.drop 0).take 32 = req.content := by rw [List.drop_zero, List.take_of_length_le length.le]
    rw [whole] at rest
    exact (outcome_pure_iff.mp rest).2
  next other =>
    rw [if_neg other]
    exact (outcome_pure_iff.mp ends).2

/-- The first frame of a client. -/
theorem postPairVerifyHandler_first (long : 68 ≤ req.content.length) (first : req.content.take 1 ≠ [0]) :
    Outcome (postPairVerifyHandler req res) world
      (((res.withStatus ok).withContentType APPLICATION_OCTET_STREAM).withContentVector
        (world.conn.crypto.server.curvePublicKey ++ ((world.conn.crypto.initClientPublicKeys (frameKeys req.content long).curve
          (frameKeys req.content long).ed).initPairVerifyAes.signPairSignature).2))
      (world.withCrypto (HandshakeRequest.apply world.conn.crypto (.pairVerifyFirst (frameKeys req.content long)))) := by
  simp only [postPairVerifyHandler, readContent]
  rw [outcome_checked_bind_iff]
  refine ⟨by omega, ?_⟩
  rw [List.drop_zero, if_pos first, outcome_checked_bind_iff]
  refine ⟨by omega, ?_⟩
  rw [outcome_checked_bind_iff]
  refine ⟨by omega, ?_, rfl⟩
  have server := (initClientPublicKeys_changes world.conn.crypto (frameKeys req.content long).curve
    (frameKeys req.content long).ed).server
  rw [← server]
  rfl

theorem postPairVerifyHandler_second (long : 68 ≤ req.content.length) (second : req.content.take 1 = [0]) :
    Outcome (postPairVerifyHandler req res) world
      (if (world.conn.crypto.verifyPairSignature ((req.content.drop 4).take 64)).2 = true then res.withStatus ok
        else res.withStatus badRequest)
      (world.withCrypto (HandshakeRequest.apply world.conn.crypto (.pairVerifySecond ((req.content.drop 4).take 64)))) := by
  simp only [postPairVerifyHandler, readContent]
  rw [outcome_checked_bind_iff]
  refine ⟨by omega, ?_⟩
  rw [List.drop_zero, if_neg (not_not.mpr second), outcome_checked_bind_iff]
  exact ⟨by omega, rfl, rfl⟩

/-- A frame that is answered has been read to its end. -/
theorem postPairVerifyHandler_long (ends : Outcome (postPairVerifyHandler req res) world answered after) :
    68 ≤ req.content.length := by
  simp only [postPairVerifyHandler, readContent] at ends
  obtain ⟨-, rest⟩ := outcome_checked_bind_iff.mp ends
  split at rest
  · obtain ⟨-, rest⟩ := outcome_checked_bind_iff.mp rest
    have inside := (outcome_checked_bind_iff.mp rest).1
    omega
  · have inside := (outcome_checked_bind_iff.mp rest).1
    omega

/-- What has been agreed in pairing, behind any request. -/
theorem processRequest_pairing {date : DateText} {posted : Option Response}
    (ends : Outcome (processRequest env date req) world posted after) :
    Part.pairing.view after =
      Part.pairing.view (world.withCrypto ((pairing req).elim world.conn.crypto (HandshakeRequest.apply world.conn.crypto))) := by
  have untouched : Part.pairing ∉ (routed req).elim [] Handler.touches →
      Part.pairing.view after = Part.pairing.view (world.withCrypto world.conn.crypto) := by
    intro outside
    rw [← ends.2]
    exact (processRequest_confined date req).view outside world
  rw [pairing]
  cases route : routed req with
  | none =>
    rw [route] at untouched
    exact untouched List.not_mem_nil
  | some handler =>
    obtain ⟨res, ran, -⟩ := (processRequest_outcome_iff route).mp ends
    rw [route] at untouched
    cases handler with
    | postPairSetup =>
      rw [postPairSetupHandler_outcome ran]
      dsimp only
      split_ifs <;> rfl
    | postPairVerify =>
      have long := postPairVerifyHandler_long ran
      by_cases first : req.content.take 1 ≠ [0]
      · obtain ⟨-, rfl⟩ := ran.unique (postPairVerifyHandler_first long first)
        simp only [dif_pos long, if_pos first]
        rfl
      · obtain ⟨-, rfl⟩ := ran.unique (postPairVerifyHandler_second long (not_not.mp first))
        simp only [dif_pos long, if_neg first]
        rfl
    | _ => exact untouched (by decide)

/-- The key pairs of a client. -/
structure Client where
  curvePublicKey : Bytes
  curvePrivateKey : Bytes
  edPublicKey : Bytes
  edPrivateKey : Bytes
  length_curve : curvePublicKey.length = 32
  length_ed : edPublicKey.length = 32

/-- The keys of both sides are key pairs: they agree on a secret, and a signature of the client is accepted. -/
structure Compatible (prims : Primitives) (client : Client) (server : ServerKeyChain) : Prop where
  agreement : prims.curve25519 client.curvePrivateKey server.curvePublicKey =
    prims.curve25519 server.curvePrivateKey client.curvePublicKey
  accepts : ∀ message, prims.ed25519Verify (prims.ed25519Sign message client.edPublicKey client.edPrivateKey) message
    client.edPublicKey = true
  length_signature : ∀ message publicKey privateKey, (prims.ed25519Sign message publicKey privateKey).length = 64
  length_server : server.curvePublicKey.length = 32

/-- The secret that the client arrives at. -/
def sharedSecret (prims : Primitives) (client : Client) (server : ServerKeyChain) : Bytes :=
  prims.curve25519 client.curvePrivateKey server.curvePublicKey

def pairAesKey (prims : Primitives) (secret : Bytes) : Bytes :=
  (prims.sha512 (ascii "Pair-Verify-AES-Key" ++ secret.take 32)).take 16

def pairAesIv (prims : Primitives) (secret : Bytes) : Bytes :=
  (prims.sha512 (ascii "Pair-Verify-AES-IV" ++ secret.take 32)).take 16

/-- The keystream that is derived from a shared secret. -/
def pairKeystream (prims : Primitives) (secret : Bytes) : Nat → UInt8 :=
  AesCtr128.keystream (prims.aes.setEncryptKey (pairAesKey prims secret)) (pairAesIv prims secret)

/-- `ap_crypto` between the two frames of a client: the signature of the server has used up the first 64 bytes. -/
structure Awaits (client : Client) (server : ServerKeyChain) (crypto : ApCrypto prims) : Prop where
  held : crypto.server = server
  curve : crypto.clientCurvePublicKey = client.curvePublicKey
  ed : crypto.clientEdPublicKey = client.edPublicKey
  cipher : AesCtr128.At (prims.aes.setEncryptKey (pairAesKey prims (sharedSecret prims client server)))
    (pairAesIv prims (sharedSecret prims client server)) crypto.pairVerifyAesCtr 64

namespace Client
variable (client : Client)

/-- The first frame, with the flag and the reserved bytes of its header. -/
def firstFrame (flag : UInt8) (reserved : Bytes) : Bytes := flag :: (reserved ++ (client.curvePublicKey ++ client.edPublicKey))

/-- The second frame: the signature, encrypted from the position 64 of the keystream on. -/
def secondFrame (prims : Primitives) (server : ServerKeyChain) (reserved : Bytes) : Bytes :=
  0 :: (reserved ++ xorStream (pairKeystream prims (sharedSecret prims client server)) 64
    (prims.ed25519Sign (client.curvePublicKey ++ server.curvePublicKey) client.edPublicKey client.edPrivateKey))

def keys : PairVerifyKeys := ⟨client.curvePublicKey, client.edPublicKey, client.length_curve, client.length_ed⟩

end Client

section Frames
variable {client : Client} {server : ServerKeyChain} {crypto : ApCrypto prims} {reserved : Bytes}

theorem keys_ne_nil (keys : PairVerifyKeys) : keys.curve ≠ [] ∧ keys.ed ≠ [] := by
  constructor
  · exact List.ne_nil_of_length_pos (by rw [keys.length_curve]; decide)
  · exact List.ne_nil_of_length_pos (by rw [keys.length_ed]; decide)

theorem initClientPublicKeys_keys (crypto : ApCrypto prims) (keys : PairVerifyKeys) :
    crypto.initClientPublicKeys keys.curve keys.ed =
      { crypto with clientCurvePublicKey := keys.curve, clientEdPublicKey := keys.ed } := by
  obtain ⟨curve, ed⟩ := keys_ne_nil keys
  rw [ApCrypto.initClientPublicKeys, if_pos curve, if_pos ed]

/-- The first frame: what is signed and how it is encrypted, and what is awaited then. -/
theorem Compatible.first (compatible : Compatible prims client server) (held : crypto.server = server) :
    (((crypto.initClientPublicKeys client.keys.curve client.keys.ed).initPairVerifyAes.signPairSignature).2 =
      xorStream (pairKeystream prims (sharedSecret prims client server)) 0
        (prims.ed25519Sign (server.curvePublicKey ++ client.curvePublicKey) server.edPublicKey server.edPrivateKey)) ∧
      Awaits client server (HandshakeRequest.apply crypto (.pairVerifyFirst client.keys)) := by
  have secret : prims.curve25519 server.curvePrivateKey client.curvePublicKey = sharedSecret prims client server :=
    compatible.agreement.symm
  have start := @AesCtr128.setKeyIv_at prims.aes (pairAesKey prims (sharedSecret prims client server))
    (pairAesIv prims (sharedSecret prims client server)) (List.length_take_of_le (by rw [prims.length_sha512]; decide))
  obtain ⟨encrypted, after⟩ := start.xcryptBuffer
    (prims.ed25519Sign (server.curvePublicKey ++ client.curvePublicKey) server.edPublicKey server.edPrivateKey)
  rw [compatible.length_signature] at after
  have whole : server.curvePublicKey.take 32 = server.curvePublicKey := List.take_of_length_le compatible.length_server.le
  have own : client.curvePublicKey.take 32 = client.curvePublicKey := List.take_of_length_le client.length_curve.le
  rw [HandshakeRequest.apply, initClientPublicKeys_keys]
  simp only [ApCrypto.initPairVerifyAes, ApCrypto.signPairSignature, Client.keys, secret, held, whole, own]
  exact ⟨encrypted, rfl, rfl, rfl, after⟩

/-- The signature of the client is the one that is awaited. -/
theorem Awaits.second (awaits : Awaits client server crypto) (compatible : Compatible prims client server) :
    (crypto.verifyPairSignature (xorStream (pairKeystream prims (sharedSecret prims client server)) 64
      (prims.ed25519Sign (client.curvePublicKey ++ server.curvePublicKey) client.edPublicKey client.edPrivateKey))).2 = true := by
  obtain ⟨decrypted, -⟩ := awaits.cipher.xcryptBuffer (xorStream (pairKeystream prims (sharedSecret prims client server)) 64
    (prims.ed25519Sign (client.curvePublicKey ++ server.curvePublicKey) client.edPublicKey client.edPrivateKey))
  rw [ApCrypto.verifyPairSignature]
  dsimp only
  rw [decrypted, ← pairKeystream, xorStream_xorStream, awaits.held, awaits.curve, awaits.ed]
  exact compatible.accepts _

theorem firstFrame_reads (client : Client) (flag : UInt8) (full : reserved.length = 3)
    (same : req.content = client.firstFrame flag reserved)
    (flagged : flag ≠ 0) : req.content.take 1 ≠ [0] ∧ ∃ long, frameKeys req.content long = client.keys := by
  have header : (flag :: reserved).length = 4 := congrArg Nat.succ full
  have split : req.content = (flag :: reserved) ++ (client.curvePublicKey ++ client.edPublicKey) := same
  have both : (flag :: reserved ++ client.curvePublicKey).length = 4 + 32 := by
    rw [List.length_append, header, client.length_curve]
  have long : 68 ≤ req.content.length := by
    rw [split, List.length_append, header, List.length_append, client.length_curve, client.length_ed]
  refine ⟨?_, long, ?_⟩
  · rw [same]
    intro zero
    exact flagged (List.head_eq_of_cons_eq zero)
  · rw [Client.keys, frameKeys, PairVerifyKeys.mk.injEq]
    constructor
    · rw [split, List.drop_left' header, List.take_left' client.length_curve]
    · rw [split, ← List.append_assoc, List.drop_left' both, List.take_of_length_le client.length_ed.le]

theorem secondFrame_reads (full : reserved.length = 3) (same : req.content = client.secondFrame prims server reserved)
    (compatible : Compatible prims client server) :
    req.content.take 1 = [0] ∧ 68 ≤ req.content.length ∧ (req.content.drop 4).take 64 =
      xorStream (pairKeystream prims (sharedSecret prims client server)) 64
        (prims.ed25519Sign (client.curvePublicKey ++ server.curvePublicKey) client.edPublicKey client.edPrivateKey) := by
  have header : (0 :: reserved : Bytes).length = 4 := congrArg Nat.succ full
  have split : req.content = (0 :: reserved) ++ xorStream (pairKeystream prims (sharedSecret prims client server)) 64
      (prims.ed25519Sign (client.curvePublicKey ++ server.curvePublicKey) client.edPublicKey client.edPrivateKey) := same
  have length : (xorStream (pairKeystream prims (sharedSecret prims client server)) 64
      (prims.ed25519Sign (client.curvePublicKey ++ server.curvePublicKey) client.edPublicKey client.edPrivateKey)).length = 64 :=
    (length_xorStream ..).trans (compatible.length_signature ..)
  refine ⟨by rw [same]; rfl, ?_, ?_⟩
  · rw [split, List.length_append, header, length]
  · rw [split, List.drop_left' header, List.take_of_length_le length.le]

end Frames

namespace Service

/-- A request of a connection is answered. -/
def Replies (service : Service prims) (id : Nat) (dispatch : Dispatch) (answer : Response) (next : Service prims) : Prop :=
  ∃ conn sent, service.members.find? id = some ⟨conn, true⟩ ∧ (service.process dispatch conn).value = .ok (some answer) ∧
    step service (.request id dispatch) = some (next, sent)

theorem step_request {service : Service prims} {id : Nat} {dispatch : Dispatch} {conn : Connection prims}
    {posted : Option Response} (found : service.members.find? id = some ⟨conn, true⟩) (requests : conn.isReversed = false)
    (answered : (service.process dispatch conn).value = .ok posted) :
    ∃ sent, step service (.request id dispatch) = some (service.update id (service.process dispatch conn).state, sent) := by
  simp only [step, found, requests, answered]
  exact ⟨_, rfl⟩

theorem replies_of_outcome {service : Service prims} {id : Nat} {dispatch : Dispatch} {conn : Connection prims} {handler : Handler}
    {res : Response} {after : World prims} (found : service.members.find? id = some ⟨conn, true⟩) (requests : conn.isReversed = false)
    (route : routed dispatch.req = some handler)
    (ends : Outcome (handler.run { dispatch.env with alive := service.alive } dispatch.req (.new dispatch.req.schemeVersion))
      (service.world conn) res after) :
    ∃ answer, service.Replies id dispatch answer (service.update id after) ∧ answer.statusCode = res.statusCode ∧
      answer.content = res.content := by
  have processed : Outcome (processRequest { dispatch.env with alive := service.alive } dispatch.date dispatch.req)
      (service.world conn) (some (addCommonHeader { dispatch.env with alive := service.alive } dispatch.date dispatch.req res)) after :=
    (processRequest_outcome_iff route).mpr ⟨res, ends, rfl⟩
  obtain ⟨value, rfl⟩ := processed
  obtain ⟨sent, stepped⟩ := step_request found requests value
  exact ⟨_, ⟨conn, sent, found, value, stepped⟩, (addCommonHeader_keeps ..).2⟩

/-- A request for pairing on a connection. -/
def Pairs (id : Nat) : ServiceEvent → Prop
  | .request requested dispatch =>
    requested = id ∧ (routed dispatch.req = some .postPairSetup ∨ routed dispatch.req = some .postPairVerify)
  | _ => False

/-- What a run without requests for pairing keeps. -/
theorem awaits_kept {client : Client} {server : ServerKeyChain} {service final : Service prims} {trace : List ServiceEvent}
    {outputs : List (Nat × Observation)} {id : Nat} {conn last : Connection prims} {alive living : Bool}
    (awaits : Awaits client server conn.crypto) (identified : Identified service) (unpaired : ∀ event ∈ trace, ¬ Pairs id event)
    (ran : Machine.run step service trace = some (final, outputs)) (found : service.members.find? id = some ⟨conn, alive⟩)
    (reached : final.members.find? id = some ⟨last, living⟩) : Awaits client server last.crypto := by
  have spared : ∀ part ∈ [Part.fixed, .pairing], ∀ event ∈ trace, LeavesAlone id part event := by
    intro part either event member
    cases event with
    | request requested dispatch =>
      rintro rfl
      have other : ¬ (routed dispatch.req = some .postPairSetup ∨ routed dispatch.req = some .postPairVerify) :=
        fun pairs => unpaired _ member ⟨rfl, pairs⟩
      cases route : routed dispatch.req with
      | none => exact List.not_mem_nil
      | some handler =>
        rw [route] at other
        rcases List.mem_cons.mp either with rfl | single
        · cases handler <;> decide
        · obtain rfl := List.mem_singleton.mp single
          cases handler with
          | postPairSetup => exact absurd (.inl rfl) other
          | postPairVerify => exact absurd (.inr rfl) other
          | _ => decide
    | _ => trivial
  have fixed := view_kept .fixed rfl (spared _ (by decide)) identified ran found reached
  have pairing := view_kept .pairing rfl (spared _ (by decide)) identified ran found reached
  have held : last.crypto.server = conn.crypto.server := congrArg (fun fixed => fixed.2.2.2) fixed
  have ed : last.crypto.clientEdPublicKey = conn.crypto.clientEdPublicKey := congrArg (fun pairing => pairing.2.2.1) pairing
  have curve : last.crypto.clientCurvePublicKey = conn.crypto.clientCurvePublicKey :=
    congrArg (fun pairing => pairing.2.2.2.1) pairing
  have cipher : last.crypto.pairVerifyAesCtr = conn.crypto.pairVerifyAesCtr := congrArg (fun pairing => pairing.2.2.2.2) pairing
  exact ⟨held.trans awaits.held, curve.trans awaits.curve, ed.trans awaits.ed, cipher ▸ awaits.cipher⟩

theorem run_identified {requestId : UInt32} {trace : List ServiceEvent} {service : Service prims} {outputs : List (Nat × Observation)}
    (ran : Machine.run step (start requestId) trace = some (service, outputs)) : Identified service :=
  Machine.run_invariant (fun _ _ _ _ identified stepped => identified.step (taken_of_step stepped)) (start_identified requestId) ran

end Service

/-- Whatever has been handled before, an honest client is answered well: the first frame with the
key of the server and its signature, and the next frame of the pairing, whatever comes between, as verified. -/
theorem pair_verify_completes {client : Client} {server : ServerKeyChain} (compatible : Compatible prims client server)
    {requestId : UInt32} {trace : List ServiceEvent} {service : Service prims} {outputs : List (Nat × Observation)}
    (ran : Machine.run Service.step (Service.start requestId) trace = some (service, outputs)) {id : Nat} {conn : Connection prims}
    (found : service.members.find? id = some ⟨conn, true⟩) (requests : conn.isReversed = false) (held : conn.crypto.server = server)
    {first : Dispatch} (route : routed first.req = some .postPairVerify) {flag : UInt8} (flagged : flag ≠ 0) {reserved : Bytes}
    (full : reserved.length = 3) (content : first.req.content = client.firstFrame flag reserved) :
    ∃ answer between, service.Replies id first answer between ∧ answer.statusCode = ok ∧
      answer.content = server.curvePublicKey ++ xorStream (pairKeystream prims (sharedSecret prims client server)) 0
        (prims.ed25519Sign (server.curvePublicKey ++ client.curvePublicKey) server.edPublicKey server.edPrivateKey) ∧
      ∀ (middle : List ServiceEvent) (later : Service prims) (others : List (Nat × Observation)) (conn' : Connection prims)
        (second : Dispatch) (reserved' : Bytes),
        Machine.run Service.step between middle = some (later, others) → (∀ event ∈ middle, ¬ Service.Pairs id event) →
        later.members.find? id = some ⟨conn', true⟩ → conn'.isReversed = false → routed second.req = some .postPairVerify →
        reserved'.length = 3 → second.req.content = client.secondFrame prims server reserved' →
        ∃ answer' final, later.Replies id second answer' final ∧ answer'.statusCode = ok := by
  obtain ⟨begins, long, keys⟩ := firstFrame_reads client flag full content flagged
  have own : (service.world conn).conn.crypto.server = server := held
  obtain ⟨signed, awaits⟩ := compatible.first own
  have ends := @postPairVerifyHandler_first prims first.req (.new first.req.schemeVersion) (service.world conn) long begins
  rw [keys, signed, own] at ends
  obtain ⟨answer, replies, status, answered⟩ := Service.replies_of_outcome found requests route ends
  refine ⟨answer, _, replies, status, ?_, ?_⟩
  · exact answered
  · intro middle later others conn' second reserved' continued unpaired reached requests' route' full' content'
    obtain ⟨-, sent, -, -, stepped⟩ := replies
    have identified := (Service.run_identified ran).step (Service.taken_of_step stepped)
    have between := (SortedMap.find?_insert service.members id id ⟨((service.world conn).withCrypto
      (HandshakeRequest.apply (service.world conn).conn.crypto (.pairVerifyFirst client.keys))).conn, true⟩).trans (if_pos rfl)
    obtain ⟨zero, long', signature⟩ := secondFrame_reads full' content' compatible
    have awaits' : Awaits client server (later.world conn').conn.crypto :=
      Service.awaits_kept awaits identified unpaired continued between reached
    have verified := awaits'.second compatible
    have ends' := @postPairVerifyHandler_second prims second.req (.new second.req.schemeVersion) (later.world conn') long' zero
    rw [signature, if_pos verified] at ends'
    obtain ⟨answer', replies', status', -⟩ := Service.replies_of_outcome reached requests' route' ends'
    exact ⟨answer', _, replies', status'⟩

def sampleClient : Client where
  curvePublicKey := beBytes 32 0xb1d177be2a99a78db8092a8b2b5ebeb354e2772e2dc3372958bdebc50fa43b41
  curvePrivateKey := beBytes 32 0x036308f720cb4d94ee27e4eb205510350596b9e8780d4d36d145714b46d3dd38
  edPublicKey := beBytes 32 0x3661239d9c739ad2eb59211a46e897180a4a7644c84d082c5e6a8450f3e21b4a
  edPrivateKey := beBytes 64
    0x0022ee7e0da69c04143e0f337f3549ae563f3731ad01d9753a21ec87524f265a0b1f718c45ab7732a60e53fac26fc6ca91eec226c220dbb75528e6ce5e3953d5
  length_curve := length_beBytes 32 _
  length_ed := length_beBytes 32 _

def sampleServer : ServerKeyChain where
  edPublicKey := beBytes 32 0xac1bac8b8ed3383dd1d70fd02d3eab26ce9fa061d4100c9123d965448b574631
  edPrivateKey := beBytes 64
    0x187e19b90ba5e87eba7d1d2420830b047cc0965af4e9c999bb687df80ac8a45ae3bb8310ae86d015c7431f3a6d96a470d1074776afd13c3b2698062b2cac45c2
  curvePublicKey := beBytes 32 0x91d29de6e8fd0eb7a8b3d2d037ee4aac5935b0b56d9d92158ed5c4ec203b8e3a
  curvePrivateKey := beBytes 32 0x044eb061606a3ebf3d2c05029d9d03dcbd3899e9e191ee13b3113cc2a1744d45

def sampleSecret : Bytes := beBytes 32 0x2e919fde58928a08b5eac5a624a97a1454dee938d4fc1bf17c7ffb2c1eceaa1f

def sampleSignature (message : Bytes) : Bytes := beBytes 64 (
  if message = sampleServer.curvePublicKey ++ sampleClient.curvePublicKey then
    0xd4c1018645ef6a0949204c782cc00e422b0f3ec74700cad32582afb63c26d56624852b4537daee6574beca238b11ba485f6ef2b752f47e49a870cefbb865e304
  else if message = sampleClient.curvePublicKey ++ sampleServer.curvePublicKey then
    0x240762db229c2f966aae38292c8303fc2426497d9956d8592829907bdd4fc6b2c17b83f2896af19c9f5b154cbf1109da8e4fbd83891a76e13cca489e40d1700a
  else 0)

def sampleHash (text : Bytes) : Bytes := beBytes 64 (
  if text = ascii "Pair-Verify-AES-Key" ++ sampleSecret then
    0x24c9926d5e26604f0fac0b98b5712e26f5e4c738a3907f48629fa4213bc80ea833b7a2c44707658bd09a81f3e5db781eb7d6f452604c2d63365d87e002de1ac9
  else if text = ascii "Pair-Verify-AES-IV" ++ sampleSecret then
    0xe60ae21ecdac8496810acb2983233eb58ccabdac46c8368e86b3c20e5cc77a6f272c2a4e5d9a4a790eb1e87adabb45aa750ba18b89279db72ca1fa937a2263c6
  else 0)

/-- The blocks of the keystream, by the counter. -/
def sampleBlock (counter : Bytes) : Bytes := beBytes 16 ([0x544f7a480300f1ab1a6210c787c5dba7,
  0xe4bfead1dc1ddf5168413d16a2f81262, 0x782c2649a4e87127a5941af105ed34ab, 0x2dc2111eb99ac393b53ee92a6173920a,
  0xffb3241b013c2d9113253c4b8bdcd066, 0x67cca298428d50012964e51d9ed66342, 0x00687dbfc4e2fbb13fe521a108f3840d,
  0xfe1b709cc80e8d6904d059662f568b79].getD (beValue counter - 0xe60ae21ecdac8496810acb2983233eb5) 0)

/-- X25519, Ed25519, SHA-512 and AES where the sample needs them. -/
def samplePrimitives : Primitives :=
  { (default : Primitives) with
    aes := ⟨Bytes, [], fun key => key, fun _ counter => sampleBlock counter⟩
    sha512 := sampleHash
    length_sha512 := fun _ => length_beBytes 64 _
    curve25519 := fun _ _ => sampleSecret
    ed25519Sign := fun message _ _ => sampleSignature message
    ed25519Verify := fun signature message _ => decide (signature = sampleSignature message) }

def pairVerifyRequest (content : Bytes) : Dispatch :=
  ⟨still, someDate, { Request.new (ascii "RTSP/1.0") (ascii "POST") (ascii "/pair-verify") with content }⟩

def sampleFirst : Dispatch := pairVerifyRequest (sampleClient.firstFrame 1 [0, 0, 0])

def sampleSecond : Dispatch := pairVerifyRequest (beBytes 4 0 ++ beBytes 64
  0xdbb446c023a00207798b0462a75fd39a43eaebe5dbdb8858014d75664399a5f0c113fe4d4d880a2da0be34edb7e28dd77054cd1f4114fb88381a11f86f87fb73)

theorem sample_compatible : Compatible samplePrimitives sampleClient sampleServer where
  agreement := rfl
  accepts := fun _ => decide_eq_true rfl
  length_signature := fun _ _ _ => length_beBytes 64 _
  length_server := length_beBytes 32 _

/-- A service with one connection. -/
def sampleAccepted : Service samplePrimitives :=
  { (Service.start 0 : Service samplePrimitives) with
    next := 1
    members := SortedMap.empty.insert 0 ⟨.new samplePrimitives 0 7 sampleServer true, true⟩ }

theorem pair_verify_completes_sample :
    ∃ (service between final : Service samplePrimitives) (answer answer' : Response),
      Machine.run Service.step (Service.start 0) [.accept 7 sampleServer true] = some (service, []) ∧
      service.Replies 0 sampleFirst answer between ∧ answer.statusCode = ok ∧
      answer.content = sampleServer.curvePublicKey ++ beBytes 64
        0x808e7bce46ef9ba253425cbfab05d5e5cfb0d4169b1d15824dc392a09edec7045ca90d0c93329f42d12ad0d28efc8ee372ace3a9eb6ebdda1d4e27d1d916710e ∧
      between.Replies 0 sampleSecond answer' final ∧ answer'.statusCode = ok := by
  have encrypted : sampleServer.curvePublicKey ++ xorStream (pairKeystream samplePrimitives
      (sharedSecret samplePrimitives sampleClient sampleServer)) 0 (sampleSignature (sampleServer.curvePublicKey ++
        sampleClient.curvePublicKey)) = sampleServer.curvePublicKey ++ beBytes 64
    0x808e7bce46ef9ba253425cbfab05d5e5cfb0d4169b1d15824dc392a09edec7045ca90d0c93329f42d12ad0d28efc8ee372ace3a9eb6ebdda1d4e27d1d916710e := by
    decide +kernel
  obtain ⟨answer, between, replies, status, content, completes⟩ := @pair_verify_completes samplePrimitives sampleClient
    sampleServer sample_compatible 0 [.accept 7 sampleServer true] sampleAccepted [] rfl 0 (.new samplePrimitives 0 7 sampleServer true)
    rfl rfl rfl sampleFirst rfl 1 (by decide) [0, 0, 0] rfl rfl
  have left : (Service.step sampleAccepted (.request 0 sampleFirst)).map (fun next => (next.1.members.find? 0).map
      fun member => (member.conn.isReversed, member.alive)) = some (some (false, true)) := by decide +kernel
  obtain ⟨-, sent, -, -, stepped⟩ := id replies
  rw [stepped] at left
  obtain ⟨⟨conn, alive⟩, reached, flags⟩ := Option.map_eq_some_iff.mp (Option.some.inj left)
  obtain ⟨requests, rfl⟩ := Prod.mk.inj flags
  obtain ⟨answer', final, replies', status'⟩ := completes [] between [] conn sampleSecond [0, 0, 0] rfl
    (fun event member => absurd member List.not_mem_nil) reached requests rfl rfl (by decide +kernel)
  exact ⟨_, between, final, answer, answer', rfl, replies, status, content.trans encrypted, replies', status'⟩

end Apsdk.Airplay
