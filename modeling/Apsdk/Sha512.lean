import Apsdk.Library.Sha512

/-! SHA-512 in `third-party/ed25519`: a context that takes data in any portions, and eight rounds
at a time over registers that change their parts. -/

namespace Apsdk.Sha512
open Library

abbrev U64 := BitVec 64

def K : List Nat :=
  [0x428a2f98d728ae22, 0x7137449123ef65cd, 0xb5c0fbcfec4d3b2f, 0xe9b5dba58189dbbc, 0x3956c25bf348b538,
   0x59f111f1b605d019, 0x923f82a4af194f9b, 0xab1c5ed5da6d8118, 0xd807aa98a3030242, 0x12835b0145706fbe,
   0x243185be4ee4b28c, 0x550c7dc3d5ffb4e2, 0x72be5d74f27b896f, 0x80deb1fe3b1696b1, 0x9bdc06a725c71235,
   0xc19bf174cf692694, 0xe49b69c19ef14ad2, 0xefbe4786384f25e3, 0x0fc19dc68b8cd5b5, 0x240ca1cc77ac9c65,
   0x2de92c6f592b0275, 0x4a7484aa6ea6e483, 0x5cb0a9dcbd41fbd4, 0x76f988da831153b5, 0x983e5152ee66dfab,
   0xa831c66d2db43210, 0xb00327c898fb213f, 0xbf597fc7beef0ee4, 0xc6e00bf33da88fc2, 0xd5a79147930aa725,
   0x06ca6351e003826f, 0x142929670a0e6e70, 0x27b70a8546d22ffc, 0x2e1b21385c26c926, 0x4d2c6dfc5ac42aed,
   0x53380d139d95b3df, 0x650a73548baf63de, 0x766a0abb3c77b2a8, 0x81c2c92e47edaee6, 0x92722c851482353b,
   0xa2bfe8a14cf10364, 0xa81a664bbc423001, 0xc24b8b70d0f89791, 0xc76c51a30654be30, 0xd192e819d6ef5218,
   0xd69906245565a910, 0xf40e35855771202a, 0x106aa07032bbd1b8, 0x19a4c116b8d2d0c8, 0x1e376c085141ab53,
   0x2748774cdf8eeb99, 0x34b0bcb5e19b48a8, 0x391c0cb3c5c95a63, 0x4ed8aa4ae3418acb, 0x5b9cca4f7763e373,
   0x682e6ff3d6b2b8a3, 0x748f82ee5defb2fc, 0x78a5636f43172f60, 0x84c87814a1f0ab72, 0x8cc702081a6439ec,
   0x90befffa23631e28, 0xa4506cebde82bde9, 0xbef9a3f7b2c67915, 0xc67178f2e372532b, 0xca273eceea26619c,
   0xd186b8c721c0c207, 0xeada7dd6cde0eb1e, 0xf57d4f7fee6ed178, 0x06f067aa72176fba, 0x0a637dc5a2c898a6,
   0x113f9804bef90dae, 0x1b710b35131c471b, 0x28db77f523047d84, 0x32caab7b40c72493, 0x3c9ebe0a15c9bebc,
   0x431d67c49c100d4c, 0x4cc5d4becb3e42b6, 0x597f299cfc657e2a, 0x5fcb6fab3ad6faec, 0x6c44198c4a475817]

def u8 (value : U64) : UInt8 := UInt8.ofNat value.toNat

/-- `ROR64c`, for constants below 64. -/
def ror64c (x : U64) (y : Nat) : U64 := (x >>> (y % 64)) ||| (x <<< (64 - y % 64))

def store64h (x : U64) : Bytes :=
  [u8 ((x >>> 56) &&& 255), u8 ((x >>> 48) &&& 255), u8 ((x >>> 40) &&& 255), u8 ((x >>> 32) &&& 255),
    u8 ((x >>> 24) &&& 255), u8 ((x >>> 16) &&& 255), u8 ((x >>> 8) &&& 255), u8 (x &&& 255)]

def load64h (buf : Bytes) (offset : Nat) : U64 :=
  let byte (i : Nat) : U64 := BitVec.ofNat 64 (buf.getD (offset + i) 0).toNat
  ((byte 0 &&& 255) <<< 56) ||| ((byte 1 &&& 255) <<< 48) ||| ((byte 2 &&& 255) <<< 40) ||| ((byte 3 &&& 255) <<< 32) |||
    ((byte 4 &&& 255) <<< 24) ||| ((byte 5 &&& 255) <<< 16) ||| ((byte 6 &&& 255) <<< 8) ||| (byte 7 &&& 255)

def ch (x y z : U64) : U64 := z ^^^ (x &&& (y ^^^ z))

def maj (x y z : U64) : U64 := ((x ||| y) &&& z) ||| (x &&& y)

def sigma0 (x : U64) : U64 := ror64c x 28 ^^^ ror64c x 34 ^^^ ror64c x 39

def sigma1 (x : U64) : U64 := ror64c x 14 ^^^ ror64c x 18 ^^^ ror64c x 41

def gamma0 (x : U64) : U64 := ror64c x 1 ^^^ ror64c x 8 ^^^ (x >>> 7)

def gamma1 (x : U64) : U64 := ror64c x 19 ^^^ ror64c x 61 ^^^ (x >>> 6)

/-- The eight words of `state`, or of `S`. -/
structure State where
  s0 : U64
  s1 : U64
  s2 : U64
  s3 : U64
  s4 : U64
  s5 : U64
  s6 : U64
  s7 : U64
deriving DecidableEq

/-- `sha512_context`. -/
structure Context where
  length : U64
  state : State
  curlen : Nat
  buf : Bytes
deriving DecidableEq

section Compress

/-- `RND`: what it leaves in `d` and in `h`. -/
def rnd (a b c d e f g h k w : U64) : U64 × U64 :=
  let t0 := h + sigma1 e + ch e f g + k + w
  let t1 := sigma0 a + maj a b c
  (d + t0, t0 + t1)

/-- The body of the loop over the rounds, with the constants and the words of its eight rounds. -/
def eightRounds (s : State) (k w : Nat → U64) : State :=
  let (d, h) := rnd s.s0 s.s1 s.s2 s.s3 s.s4 s.s5 s.s6 s.s7 (k 0) (w 0)
  let s := { s with s3 := d, s7 := h }
  let (d, h) := rnd s.s7 s.s0 s.s1 s.s2 s.s3 s.s4 s.s5 s.s6 (k 1) (w 1)
  let s := { s with s2 := d, s6 := h }
  let (d, h) := rnd s.s6 s.s7 s.s0 s.s1 s.s2 s.s3 s.s4 s.s5 (k 2) (w 2)
  let s := { s with s1 := d, s5 := h }
  let (d, h) := rnd s.s5 s.s6 s.s7 s.s0 s.s1 s.s2 s.s3 s.s4 (k 3) (w 3)
  let s := { s with s0 := d, s4 := h }
  let (d, h) := rnd s.s4 s.s5 s.s6 s.s7 s.s0 s.s1 s.s2 s.s3 (k 4) (w 4)
  let s := { s with s7 := d, s3 := h }
  let (d, h) := rnd s.s3 s.s4 s.s5 s.s6 s.s7 s.s0 s.s1 s.s2 (k 5) (w 5)
  let s := { s with s6 := d, s2 := h }
  let (d, h) := rnd s.s2 s.s3 s.s4 s.s5 s.s6 s.s7 s.s0 s.s1 (k 6) (w 6)
  let s := { s with s5 := d, s1 := h }
  let (d, h) := rnd s.s1 s.s2 s.s3 s.s4 s.s5 s.s6 s.s7 s.s0 (k 7) (w 7)
  { s with s4 := d, s0 := h }

/-- The loop, with how often it still goes round. -/
def compressLoop (w : List U64) : Nat → Nat → State → State
  | 0, _, s => s
  | n + 1, i, s =>
    compressLoop w n (i + 8) (eightRounds s (fun j => BitVec.ofNat 64 (K.getD (i + j) 0)) (fun j => w.getD (i + j) 0))

/-- The loop that fills `W` behind the words of the block. -/
def fillW : Nat → List U64 → List U64
  | 0, w => w
  | n + 1, w =>
    let i := w.length
    fillW n (w ++ [gamma1 (w.getD (i - 2) 0) + w.getD (i - 7) 0 + gamma0 (w.getD (i - 15) 0) + w.getD (i - 16) 0])

/-- `sha512_compress`. -/
def sha512Compress (state : State) (buf : Bytes) : State :=
  let w := fillW 64 ((List.range 16).map fun i => load64h buf (8 * i))
  let s := compressLoop w 10 0 state
  ⟨state.s0 + s.s0, state.s1 + s.s1, state.s2 + s.s2, state.s3 + s.s3, state.s4 + s.s4, state.s5 + s.s5, state.s6 + s.s6,
    state.s7 + s.s7⟩

end Compress

/-- `sha512_init`, over a context that holds anything. -/
def sha512Init (md : Context) : Context :=
  { md with
    curlen := 0
    length := 0
    state := ⟨0x6a09e667f3bcc908, 0xbb67ae8584caa73b, 0x3c6ef372fe94f82b, 0xa54ff53a5f1d36f1, 0x510e527fade682d1,
      0x9b05688c2b3e6c1f, 0x1f83d9abfb41bd6b, 0x5be0cd19137e2179⟩ }

/-- Bytes that are written into `buf` from an index on. -/
def fillBuf (buf : Bytes) (offset : Nat) (bytes : Bytes) : Bytes := buf.take offset ++ bytes ++ buf.drop (offset + bytes.length)

/-- The loop of `sha512_update`, at most so many times round. -/
def updateLoop : Nat → Context → Bytes → Context
  | 0, md, _ => md
  | fuel + 1, md, input =>
    if input = [] then md
    else if md.curlen = 0 ∧ 128 ≤ input.length then
      updateLoop fuel { md with state := sha512Compress md.state (input.take 128), length := md.length + 128 * 8 } (input.drop 128)
    else
      let n := min input.length (128 - md.curlen)
      let md := { md with buf := fillBuf md.buf md.curlen (input.take n), curlen := md.curlen + n }
      if md.curlen = 128 then
        updateLoop fuel { md with state := sha512Compress md.state md.buf, length := md.length + 8 * 128, curlen := 0 } (input.drop n)
      else updateLoop fuel md (input.drop n)

/-- `sha512_update`, with its status. -/
def sha512Update (md : Context) (input : Bytes) : Int × Context :=
  if 128 < md.curlen then (1, md) else (0, updateLoop (input.length + 1) md input)

/-- `sha512_final`, with what it writes to `out`. -/
def sha512Final (md : Context) : Int × Bytes :=
  if 128 ≤ md.curlen then (1, [])
  else
    let md := { md with length := md.length + BitVec.ofNat 64 md.curlen * 8 }
    let md := { md with buf := fillBuf md.buf md.curlen [0x80], curlen := md.curlen + 1 }
    let md :=
      if 112 < md.curlen then
        let buf := fillBuf md.buf md.curlen (List.replicate (128 - md.curlen) 0)
        { md with buf, state := sha512Compress md.state buf, curlen := 0 }
      else md
    let buf := fillBuf md.buf md.curlen (List.replicate (120 - md.curlen) 0)
    let buf := fillBuf buf 120 (store64h md.length)
    let s := sha512Compress md.state buf
    (0, [s.s0, s.s1, s.s2, s.s3, s.s4, s.s5, s.s6, s.s7].flatMap store64h)

/-- `sha512`, with what the context on its stack holds at first. -/
def sha512 (ctx : Context) (message : Bytes) : Int × Bytes :=
  let (ret, ctx) := sha512Update (sha512Init ctx) message
  if ret ≠ 0 then (ret, []) else sha512Final ctx

/-- Data that comes in portions; the calls stop at the first one that fails. -/
def updates : Context → List Bytes → Int × Context
  | md, [] => (0, md)
  | md, input :: later =>
    let (err, md) := sha512Update md input
    if err ≠ 0 then (err, md) else updates md later

end Apsdk.Sha512
