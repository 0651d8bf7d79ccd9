import Apsdk.Mirroring

/-! `init_client_aes_info` overwrites the first 16 bytes of the client's key and
then appends to it. The stream keys are those of the latest handshake as long
as a key that has been set up is not set up again on a verified connection, and
the messages that it was derived from stay the latest ones. -/

namespace Apsdk
open Library

variable {prims : Primitives}

/-- The last requests of each kind that the stream keys can depend on. -/
structure Latest where
  pairVerify : Option PairVerifyKeys
  keyMessage : Option Bytes
  /-- The `eiv` and the `ekey`. -/
  setup : Option (Bytes × Bytes)

namespace Latest

def none : Latest := ⟨.none, .none, .none⟩

def after (latest : Latest) : HandshakeRequest → Latest
  | .pairSetup _ => latest
  | .pairVerifyFirst keys => { latest with pairVerify := some keys }
  | .pairVerifySecond _ => latest
  | .fpSetup _ => latest
  | .fpHandshake keymsg => { latest with keyMessage := some keymsg }
  | .setup eiv ekey => { latest with setup := some (eiv, ekey) }
  | .setupVideo _ => latest

def of (history : List HandshakeRequest) : Latest := history.foldl after none

/-- What a fresh connection sees. -/
def requests (latest : Latest) : List HandshakeRequest :=
  latest.pairVerify.toList.map .pairVerifyFirst ++ latest.keyMessage.toList.map .fpHandshake ++
    latest.setup.toList.map fun (eiv, ekey) => .setup eiv ekey

/-- A key has been set up. -/
def Keyed (latest : Latest) : Prop := ∃ eiv ekey, latest.setup = some (eiv, ekey) ∧ ekey ≠ []

/-- Behind a key nothing comes that it should have been derived from, and no further key on a verified connection. -/
def Allows (latest : Latest) : HandshakeRequest → Prop
  | .pairSetup _ => True
  | .pairVerifyFirst keys => latest.Keyed → latest.pairVerify.map PairVerifyKeys.curve = some keys.curve
  | .pairVerifySecond _ => True
  | .fpSetup _ => True
  | .fpHandshake keymsg => latest.Keyed → latest.keyMessage = some keymsg
  | .setup _ ekey => latest.Keyed → latest.pairVerify = .none ∧ ekey ≠ []
  | .setupVideo _ => True

/-- Every request of a history is allowed when it comes. -/
def Orderly : Latest → List HandshakeRequest → Prop
  | _, [] => True
  | latest, request :: later => latest.Allows request ∧ Orderly (latest.after request) later

theorem Orderly.of_append {latest : Latest} {earlier later : List HandshakeRequest}
    (orderly : Orderly latest (earlier ++ later)) : Orderly latest earlier := by
  induction earlier generalizing latest with
  | nil => trivial
  | cons request rest ih => exact ⟨orderly.1, ih orderly.2⟩

def message (latest : Latest) : Bytes := latest.keyMessage.getD (List.replicate 164 0)

def secret (prims : Primitives) (server : ServerKeyChain) (latest : Latest) : Bytes :=
  match latest.pairVerify with
  | .none => List.replicate 32 0
  | some keys => prims.curve25519 server.curvePrivateKey keys.curve

/-- The client's key as it follows from the latest requests alone. -/
def clientAesKey (prims : Primitives) (server : ServerKeyChain) (latest : Latest) : Bytes :=
  match latest.setup with
  | .none => List.replicate 16 0
  | some (_, ekey) =>
    if ekey = [] then List.replicate 16 0
    else
      let key := prims.fairplayDecrypt latest.message ekey
      if latest.pairVerify.isSome then key ++ (prims.sha512 (key ++ (latest.secret prims server).take 32)).take 16
      else key

/-- The object holds what the latest requests leave in it. -/
structure Agrees (server : ServerKeyChain) (crypto : ApCrypto prims) (latest : Latest) : Prop where
  keys : crypto.server = server
  verified : crypto.pairVerifyed = latest.pairVerify.isSome
  message : crypto.fpKeyMessage = latest.message
  secret : crypto.sharedSecret = latest.secret prims server
  key : crypto.clientAesKey = latest.clientAesKey prims server

theorem new_agrees (server : ServerKeyChain) : Agrees server (.new server : ApCrypto prims) none :=
  ⟨rfl, rfl, rfl, rfl, rfl⟩

variable {server : ServerKeyChain} {crypto : ApCrypto prims} {latest : Latest}

theorem clientAesKey_of_unkeyed (unkeyed : ¬ latest.Keyed) :
    latest.clientAesKey prims server = List.replicate 16 0 := by
  rw [clientAesKey]
  cases last : latest.setup with
  | none => rfl
  | some pair =>
    obtain ⟨eiv, ekey⟩ := pair
    have empty : ekey = [] := by
      by_contra keyed
      exact unkeyed ⟨eiv, ekey, last, keyed⟩
    exact if_pos empty

theorem length_clientAesKey (short : latest.Keyed → latest.pairVerify = .none) :
    (latest.clientAesKey prims server).length = 16 := by
  by_cases keyed : latest.Keyed
  · have unverified := short keyed
    obtain ⟨eiv, ekey, last, some_key⟩ := keyed
    rw [clientAesKey, last]
    simp only [if_neg some_key, unverified, Option.isSome_none, Bool.false_eq_true, if_false]
    exact prims.length_fairplayDecrypt latest.message ekey
  · rw [clientAesKey_of_unkeyed keyed, List.length_replicate]

/-- The key does not notice a message that it was not derived from. -/
theorem clientAesKey_congr {other : Latest} (setup : latest.setup = other.setup)
    (same : latest.Keyed → latest.message = other.message ∧ latest.secret prims server = other.secret prims server ∧
      latest.pairVerify.isSome = other.pairVerify.isSome) :
    latest.clientAesKey prims server = other.clientAesKey prims server := by
  by_cases keyed : latest.Keyed
  · obtain ⟨message, secret, verified⟩ := same keyed
    rw [clientAesKey, clientAesKey, setup, message, secret, verified]
  · have unkeyed : ¬ other.Keyed := fun ⟨eiv, ekey, last, some_key⟩ => keyed ⟨eiv, ekey, setup.trans last, some_key⟩
    rw [clientAesKey_of_unkeyed keyed, clientAesKey_of_unkeyed unkeyed]

theorem Agrees.pairVerifyFirst (agrees : Agrees server crypto latest) {keys : PairVerifyKeys}
    (allowed : latest.Allows (.pairVerifyFirst keys)) :
    Agrees server ((HandshakeRequest.pairVerifyFirst keys).apply crypto) (latest.after (.pairVerifyFirst keys)) := by
  have curve : keys.curve ≠ [] := by
    intro empty
    have full := keys.length_curve
    rw [empty] at full
    cases full
  have ed : keys.ed ≠ [] := by
    intro empty
    have full := keys.length_ed
    rw [empty] at full
    cases full
  have applied : (HandshakeRequest.pairVerifyFirst keys).apply crypto =
      { crypto with
        clientCurvePublicKey := keys.curve
        clientEdPublicKey := keys.ed
        sharedSecret := prims.curve25519 crypto.server.curvePrivateKey keys.curve
        pairVerifyed := true
        pairVerifyAesCtr := ((HandshakeRequest.pairVerifyFirst keys).apply crypto).pairVerifyAesCtr } := by
    simp only [HandshakeRequest.apply, ApCrypto.initClientPublicKeys, if_pos curve, if_pos ed,
      ApCrypto.initPairVerifyAes, ApCrypto.signPairSignature]
  rw [applied]
  refine ⟨agrees.keys, rfl, agrees.message, ?_, ?_⟩
  · rw [agrees.keys]
    rfl
  · refine agrees.key.trans (clientAesKey_congr rfl fun keyed => ?_)
    obtain ⟨last, verified, same⟩ := Option.map_eq_some_iff.mp (allowed keyed)
    refine ⟨rfl, ?_, ?_⟩
    · simp only [Latest.secret, after, verified, same]
    · simp only [after, verified, Option.isSome_some]

theorem Agrees.fpHandshake (agrees : Agrees server crypto latest) {keymsg : Bytes}
    (allowed : latest.Allows (.fpHandshake keymsg)) :
    Agrees server ((HandshakeRequest.fpHandshake keymsg).apply crypto) (latest.after (.fpHandshake keymsg)) := by
  refine ⟨agrees.keys, agrees.verified, rfl, agrees.secret, ?_⟩
  refine agrees.key.trans (clientAesKey_congr rfl fun keyed => ⟨?_, rfl, rfl⟩)
  rw [Latest.message, allowed keyed]
  rfl

theorem Agrees.setup (agrees : Agrees server crypto latest) {eiv ekey : Bytes}
    (allowed : latest.Allows (.setup eiv ekey)) :
    Agrees server ((HandshakeRequest.setup eiv ekey).apply crypto) (latest.after (.setup eiv ekey)) := by
  by_cases empty : ekey = []
  · have unkeyed : ¬ latest.Keyed := fun keyed => (allowed keyed).2 empty
    have applied : (HandshakeRequest.setup eiv ekey).apply crypto =
        { crypto with clientAesIv := ((HandshakeRequest.setup eiv ekey).apply crypto).clientAesIv } := by
      simp only [HandshakeRequest.apply, ApCrypto.initClientAesInfo, empty, ne_eq, not_true_eq_false, if_false]
      split_ifs <;> rfl
    rw [applied]
    refine ⟨agrees.keys, agrees.verified, agrees.message, agrees.secret, ?_⟩
    refine agrees.key.trans ((clientAesKey_of_unkeyed unkeyed).trans (Eq.symm (clientAesKey_of_unkeyed ?_)))
    rintro ⟨_, _, last, some_key⟩
    exact some_key ((Prod.mk.inj (Option.some.inj last)).2.symm.trans empty)
  · have overwritten : crypto.clientAesKey.drop 16 = [] := by
      rw [agrees.key]
      apply List.drop_of_length_le
      rw [length_clientAesKey fun keyed => (allowed keyed).1]
    have first : (prims.fairplayDecrypt crypto.fpKeyMessage ekey).take 16 = prims.fairplayDecrypt crypto.fpKeyMessage ekey :=
      List.take_of_length_le (Nat.le_of_eq (prims.length_fairplayDecrypt ..))
    have applied : (HandshakeRequest.setup eiv ekey).apply crypto =
        { crypto with
          clientAesIv := ((HandshakeRequest.setup eiv ekey).apply crypto).clientAesIv
          clientAesKey := (latest.after (.setup eiv ekey)).clientAesKey prims server } := by
      have key : (latest.after (.setup eiv ekey)).clientAesKey prims server =
          if crypto.pairVerifyed then
            prims.fairplayDecrypt crypto.fpKeyMessage ekey ++
              (prims.sha512 (prims.fairplayDecrypt crypto.fpKeyMessage ekey ++ crypto.sharedSecret.take 32)).take 16
          else prims.fairplayDecrypt crypto.fpKeyMessage ekey := by
        rw [agrees.verified, agrees.message, agrees.secret]
        simp only [clientAesKey, after, if_neg empty]
        rfl
      rw [key]
      simp only [HandshakeRequest.apply, ApCrypto.initClientAesInfo, ApCrypto.fpDecrypt, ne_eq, empty, not_false_eq_true, if_true]
      by_cases given : eiv = [] <;> by_cases verified : crypto.pairVerifyed = true <;>
        simp only [given, verified, overwritten, first, List.append_nil, not_true_eq_false, not_false_eq_true,
          Bool.false_eq_true, if_true, if_false]
    rw [applied]
    exact ⟨agrees.keys, agrees.verified, agrees.message, agrees.secret, rfl⟩

theorem Agrees.apply (agrees : Agrees server crypto latest) {request : HandshakeRequest}
    (allowed : latest.Allows request) : Agrees server (request.apply crypto) (latest.after request) := by
  cases request with
  | pairSetup ed =>
    simp only [HandshakeRequest.apply, ApCrypto.initClientPublicKeys, ne_eq, not_true_eq_false, if_false]
    split_ifs
    · exact agrees
    · exact ⟨agrees.keys, agrees.verified, agrees.message, agrees.secret, agrees.key⟩
  | pairVerifyFirst keys => exact agrees.pairVerifyFirst allowed
  | pairVerifySecond signature => exact ⟨agrees.keys, agrees.verified, agrees.message, agrees.secret, agrees.key⟩
  | fpSetup mode => exact agrees
  | fpHandshake keymsg => exact agrees.fpHandshake allowed
  | setup eiv ekey => exact agrees.setup allowed
  | setupVideo connectionId => exact ⟨agrees.keys, agrees.verified, agrees.message, agrees.secret, agrees.key⟩

theorem Agrees.run (agrees : Agrees server crypto latest) {history : List HandshakeRequest}
    (orderly : Orderly latest history) :
    Agrees server (history.foldl HandshakeRequest.apply crypto) (history.foldl Latest.after latest) := by
  induction history generalizing crypto latest with
  | nil => exact agrees
  | cons request later ih => exact ih (agrees.apply orderly.1) orderly.2

/-- A fresh connection that sees the latest requests is orderly, and has them as its latest. -/
theorem requests_orderly (latest : Latest) : Orderly none latest.requests ∧ of latest.requests = latest := by
  obtain ⟨pairVerify, keyMessage, setup⟩ := latest
  have unkeyed : ∀ pairVerify keyMessage, ¬ (⟨pairVerify, keyMessage, .none⟩ : Latest).Keyed :=
    fun _ _ ⟨_, _, last, _⟩ => nomatch last
  cases pairVerify <;> cases keyMessage <;> cases setup <;>
    simp [requests, Orderly, Allows, none, after, of, unkeyed]

end Latest

/-- The stream keys on every state of a history are those of a fresh connection
that saw only the latest requests. -/
def KeysOfLatest (prims : Primitives) (server : ServerKeyChain) (history : List HandshakeRequest) : Prop :=
  ∀ earlier, earlier <+: history → ∀ connectionId : UInt64,
    (cryptoAfter server earlier : ApCrypto prims).streamKeyIv connectionId =
      (cryptoAfter server (Latest.of earlier).requests : ApCrypto prims).streamKeyIv connectionId

theorem streamKeyIv_latest (prims : Primitives) (server : ServerKeyChain) (history : List HandshakeRequest)
    (orderly : Latest.Orderly .none history) : KeysOfLatest prims server history := by
  rintro earlier ⟨later, rfl⟩ connectionId
  have reached := (@Latest.new_agrees prims server).run orderly.of_append
  obtain ⟨fresh, same⟩ := (Latest.of earlier).requests_orderly
  have again := (@Latest.new_agrees prims server).run fresh
  have key : (cryptoAfter server earlier : ApCrypto prims).clientAesKey =
      (cryptoAfter server (Latest.of earlier).requests : ApCrypto prims).clientAesKey := by
    calc (cryptoAfter server earlier : ApCrypto prims).clientAesKey
      _ = (Latest.of earlier).clientAesKey prims server := reached.key
      _ = (Latest.of (Latest.of earlier).requests).clientAesKey prims server := by rw [same]
      _ = _ := again.key.symm
  simp only [ApCrypto.streamKeyIv, key]

def pairVerifyKeys : PairVerifyKeys :=
  ⟨List.replicate 32 1, List.replicate 32 2, List.length_replicate, List.length_replicate⟩

/-- A pair-verify, a FairPlay message and a `SETUP`, each once. -/
def handshake : List HandshakeRequest :=
  [.pairVerifyFirst pairVerifyKeys, .fpHandshake (List.replicate 164 3), .setup (List.replicate 16 4) (List.replicate 72 5)]

theorem streamKeyIv_latest_handshake : KeysOfLatest default default (handshake ++ [.setupVideo 7]) := by
  apply streamKeyIv_latest
  have unkeyed : ∀ pairVerify keyMessage, ¬ (⟨pairVerify, keyMessage, none⟩ : Latest).Keyed :=
    fun _ _ ⟨_, _, last, _⟩ => nomatch last
  simp [handshake, Latest.Orderly, Latest.Allows, Latest.none, Latest.after, unkeyed]

/-- The same `SETUP` a second time changes the keys of the stream. -/
theorem repeated_setup_changes_keys :
    ¬ ∀ (prims : Primitives) (server : ServerKeyChain) (history : List HandshakeRequest), KeysOfLatest prims server history := by
  intro same
  have keys := same default default (handshake ++ [.setup (List.replicate 16 4) (List.replicate 72 5)]) _ (List.prefix_refl _) 7
  revert keys
  decide +kernel

end Apsdk
