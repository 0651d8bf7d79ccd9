import Apsdk.ApCrypto
import Apsdk.VideoStream

/-! A mirroring session. The requests of the control connection change the keys
in `ap_crypto`; the video connection decrypts with the same object. -/

namespace Apsdk
open Library

/-- The keys behind the header of the first frame of `/pair-verify`. -/
structure PairVerifyKeys where
  curve : Bytes
  ed : Bytes
  length_curve : curve.length = 32
  length_ed : ed.length = 32

/-- The requests that reach `crypto_`, with what they hand to it. -/
inductive HandshakeRequest where
  | pairSetup (ed : Bytes)
  | pairVerifyFirst (keys : PairVerifyKeys)
  | pairVerifySecond (signature : Bytes)
  | fpSetup (mode : UInt8)
  | fpHandshake (keymsg : Bytes)
  /-- A `SETUP` with an `eiv` and an `ekey`. -/
  | setup (eiv ekey : Bytes)
  /-- A `SETUP` of a video stream, with its `streamConnectionID`. -/
  | setupVideo (connectionId : UInt64)

variable {prims : Primitives}

def HandshakeRequest.apply (crypto : ApCrypto prims) : HandshakeRequest → ApCrypto prims
  | .pairSetup ed => crypto.initClientPublicKeys [] ed
  | .pairVerifyFirst keys => ((crypto.initClientPublicKeys keys.curve keys.ed).initPairVerifyAes.signPairSignature).1
  | .pairVerifySecond signature => (crypto.verifyPairSignature signature).1
  | .fpSetup _ => crypto
  | .fpHandshake keymsg => (crypto.fpHandshake keymsg).1
  | .setup eiv ekey => crypto.initClientAesInfo eiv ekey
  | .setupVideo connectionId => crypto.initVideoStreamAesCtr connectionId

/-- What a history of requests leaves in the object that a connection is constructed with. -/
def cryptoAfter (server : ServerKeyChain) (history : List HandshakeRequest) : ApCrypto prims :=
  history.foldl HandshakeRequest.apply (.new server)

/-- `crypto_` as the video stream uses it. -/
def videoCipher (prims : Primitives) : VideoStream.Cipher := ⟨ApCrypto prims, ApCrypto.decryptVideoFrame⟩

namespace Mirroring

inductive Event where
  | control (request : HandshakeRequest)
  | stream (event : VideoStream.Event)

/-- The two connections have a thread each; these are the runs in which no event falls into another. -/
def step : Machine (VideoStream.Connection (videoCipher prims)) Event VideoStream.Effect
  | conn, .control request => some ({ conn with crypto := @HandshakeRequest.apply prims conn.crypto request }, [])
  | conn, .stream event => conn.step event

end Mirroring
end Apsdk
