import Apsdk.Library.StreamCipher
import Apsdk.Library.Text

/-! The keys of a connection: what the handshakes leave in `ap_crypto`, and the
cipher of the video stream that is set up from it. -/

namespace Apsdk
open Library

/-- AES behind its key schedule. -/
structure BlockCipher where
  Key : Type
  /-- A key schedule of zeros. -/
  blank : Key
  setEncryptKey : Bytes → Key
  encrypt : Key → Bytes → Bytes

def AES_BLOCK_SIZE : Nat := 16

def getU32 (counter : Bytes) (offset : Nat) : Nat := beValue ((counter.drop offset).take 4)

def putU32 (counter : Bytes) (offset value : Nat) : Bytes :=
  counter.take offset ++ beBytes 4 value ++ counter.drop (offset + 4)

/-- The words of the counter from the lowest one on; a word that overflows carries into the next. -/
def aesCtr128Inc (counter : Bytes) : Bytes :=
  let c := (getU32 counter 12 + 1) % 2 ^ 32
  let counter := putU32 counter 12 c
  if c ≠ 0 then counter
  else
    let c := (getU32 counter 8 + 1) % 2 ^ 32
    let counter := putU32 counter 8 c
    if c ≠ 0 then counter
    else
      let c := (getU32 counter 4 + 1) % 2 ^ 32
      let counter := putU32 counter 4 c
      if c ≠ 0 then counter
      else
        let c := (getU32 counter 0 + 1) % 2 ^ 32
        putU32 counter 0 c

/-- `ap_aes_ctr128`. -/
structure AesCtr128 (aes : BlockCipher) where
  ctx : aes.Key
  number : Nat
  iv : Bytes
  ec : Bytes

namespace AesCtr128
variable {aes : BlockCipher}

def reset : AesCtr128 aes := ⟨aes.blank, 0, List.replicate 16 0, List.replicate 16 0⟩

def setKeyIv (key iv : Bytes) : AesCtr128 aes :=
  { (reset : AesCtr128 aes) with ctx := aes.setEncryptKey key, iv := iv.take 16 }

/-- One round of the loop of `AES_ctr128_encrypt`, and the byte that it combines with the input. -/
def next (ctr : AesCtr128 aes) : AesCtr128 aes × UInt8 :=
  let ctr := if ctr.number = 0 then { ctr with ec := aes.encrypt ctr.ctx ctr.iv, iv := aesCtr128Inc ctr.iv } else ctr
  ({ ctr with number := (ctr.number + 1) % AES_BLOCK_SIZE }, ctr.ec.getD ctr.number 0)

/-- `AES_ctr128_encrypt` over a buffer in place. -/
def xcryptBuffer (ctr : AesCtr128 aes) (buffer : Bytes) : AesCtr128 aes × Bytes := xcrypt next ctr buffer

end AesCtr128

/-- What `ap_crypto` takes from elsewhere. `sha512_final` writes 64 bytes, `fairplay_decrypt` 16. -/
structure Primitives where
  aes : BlockCipher
  sha512 : Bytes → Bytes
  length_sha512 : ∀ text, (sha512 text).length = 64
  /-- A shared secret from a private and a public key. -/
  curve25519 : Bytes → Bytes → Bytes
  ed25519Sign : Bytes → Bytes → Bytes → Bytes
  ed25519Verify : Bytes → Bytes → Bytes → Bool
  fairplaySetup : UInt8 → Bytes
  fairplayHandshake : Bytes → Bytes
  /-- A key from the key message and the encrypted key. -/
  fairplayDecrypt : Bytes → Bytes → Bytes
  length_fairplayDecrypt : ∀ message key, (fairplayDecrypt message key).length = 16

/-- Blocks that stay as they are, hashes of the length alone. -/
instance : Inhabited Primitives where
  default := {
    aes := ⟨Bytes, [], fun key => key, fun _ block => block⟩
    sha512 := fun text => leBytes 64 text.length
    length_sha512 := fun text => length_leBytes 64 text.length
    curve25519 := fun _ publicKey => publicKey
    ed25519Sign := fun _ _ _ => List.replicate 64 0
    ed25519Verify := fun _ _ _ => true
    fairplaySetup := fun _ => List.replicate 142 0
    fairplayHandshake := fun _ => List.replicate 32 0
    fairplayDecrypt := fun _ key => leBytes 16 (leValue key)
    length_fairplayDecrypt := fun _ key => length_leBytes 16 (leValue key) }

structure ServerKeyChain where
  edPublicKey : Bytes
  edPrivateKey : Bytes
  curvePublicKey : Bytes
  curvePrivateKey : Bytes
deriving Inhabited

structure ApCrypto (prims : Primitives) where
  pairVerifyed : Bool
  server : ServerKeyChain
  fpKeyMessage : Bytes
  sharedSecret : Bytes
  clientAesKey : Bytes
  clientAesIv : Bytes
  clientEdPublicKey : Bytes
  clientCurvePublicKey : Bytes
  pairVerifyAesCtr : AesCtr128 prims.aes
  mirrorStreamAesCtr : AesCtr128 prims.aes

namespace ApCrypto
variable {prims : Primitives}

/-- A constructed `ap_crypto`. -/
def new (server : ServerKeyChain) : ApCrypto prims where
  pairVerifyed := false
  server := server
  fpKeyMessage := List.replicate 164 0
  sharedSecret := List.replicate 32 0
  clientAesKey := List.replicate 16 0
  clientAesIv := List.replicate 16 0
  clientEdPublicKey := List.replicate 32 0
  clientCurvePublicKey := List.replicate 32 0
  pairVerifyAesCtr := .reset
  mirrorStreamAesCtr := .reset

/-- An absent key comes as a null pointer with length 0. -/
def initClientPublicKeys (crypto : ApCrypto prims) (curve ed : Bytes) : ApCrypto prims :=
  let crypto := if curve ≠ [] then { crypto with clientCurvePublicKey := curve } else crypto
  if ed ≠ [] then { crypto with clientEdPublicKey := ed } else crypto

def initPairVerifyAes (crypto : ApCrypto prims) : ApCrypto prims :=
  let sharedSecret := prims.curve25519 crypto.server.curvePrivateKey crypto.clientCurvePublicKey
  let aesKey := (prims.sha512 (ascii "Pair-Verify-AES-Key" ++ sharedSecret.take 32)).take 16
  let aesIv := (prims.sha512 (ascii "Pair-Verify-AES-IV" ++ sharedSecret.take 32)).take 16
  { crypto with sharedSecret, pairVerifyAesCtr := .setKeyIv aesKey aesIv, pairVerifyed := true }

def signPairSignature (crypto : ApCrypto prims) : ApCrypto prims × Bytes :=
  let message := crypto.server.curvePublicKey.take 32 ++ crypto.clientCurvePublicKey.take 32
  let signature := prims.ed25519Sign message crypto.server.edPublicKey crypto.server.edPrivateKey
  let (pairVerifyAesCtr, signature) := crypto.pairVerifyAesCtr.xcryptBuffer signature
  ({ crypto with pairVerifyAesCtr }, signature)

def verifyPairSignature (crypto : ApCrypto prims) (encrypted : Bytes) : ApCrypto prims × Bool :=
  let (pairVerifyAesCtr, signature) := crypto.pairVerifyAesCtr.xcryptBuffer encrypted
  ({ crypto with pairVerifyAesCtr },
    prims.ed25519Verify signature (crypto.clientCurvePublicKey ++ crypto.server.curvePublicKey) crypto.clientEdPublicKey)

def fpSetup (_crypto : ApCrypto prims) (mode : UInt8) : Bytes := prims.fairplaySetup mode

/-- The message of phase 3; what is answered depends on its last 20 bytes. -/
def fpHandshake (crypto : ApCrypto prims) (keymsg : Bytes) : ApCrypto prims × Bytes :=
  ({ crypto with fpKeyMessage := keymsg }, prims.fairplayHandshake (keymsg.drop 144))

/-- Writes the key over the first 16 bytes of `client_aes_key_`. -/
def fpDecrypt (crypto : ApCrypto prims) (key : Bytes) : ApCrypto prims :=
  { crypto with clientAesKey := prims.fairplayDecrypt crypto.fpKeyMessage key ++ crypto.clientAesKey.drop 16 }

def initClientAesInfo (crypto : ApCrypto prims) (iv key : Bytes) : ApCrypto prims :=
  let crypto := if iv ≠ [] then { crypto with clientAesIv := iv } else crypto
  if key ≠ [] then
    let crypto := crypto.fpDecrypt key
    if crypto.pairVerifyed then
      let hash := prims.sha512 (crypto.clientAesKey.take 16 ++ crypto.sharedSecret.take 32)
      -- The key grows by 16 bytes each time.
      { crypto with clientAesKey := crypto.clientAesKey ++ hash.take 16 }
    else crypto
  else crypto

/-- The key and the IV of a stream. -/
def streamKeyIv (crypto : ApCrypto prims) (videoStreamId : UInt64) : Bytes × Bytes :=
  let id := decimal videoStreamId.toNat
  ((prims.sha512 (ascii "AirPlayStreamKey" ++ id ++ crypto.clientAesKey)).take 16,
    (prims.sha512 (ascii "AirPlayStreamIV" ++ id ++ crypto.clientAesKey)).take 16)

def initVideoStreamAesCtr (crypto : ApCrypto prims) (videoStreamId : UInt64) : ApCrypto prims :=
  let (aesKey, aesIv) := crypto.streamKeyIv videoStreamId
  { crypto with mirrorStreamAesCtr := .setKeyIv aesKey aesIv }

def decryptVideoFrame (crypto : ApCrypto prims) (frame : Bytes) : ApCrypto prims × Bytes :=
  let (mirrorStreamAesCtr, frame) := crypto.mirrorStreamAesCtr.xcryptBuffer frame
  ({ crypto with mirrorStreamAesCtr }, frame)

end ApCrypto
end Apsdk
