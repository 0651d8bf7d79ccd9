import Apsdk.Library.BlockHash

/-! SHA-512 as it is specified: the constants are digits of roots of primes, a round moves
the registers on by one, and a message is filled up to whole blocks. -/

namespace Library.Sha512

abbrev Word := BitVec 64

section Constants

/-- The root of a number, rounded down, from its highest bits on. -/
def rootFrom (power target : Nat) : Nat → Nat → Nat
  | 0, root => root
  | bits + 1, root => rootFrom power target bits (if (root + 2 ^ bits) ^ power ≤ target then root + 2 ^ bits else root)

/-- The first 64 bits of the fraction of a root; the root is below 32. -/
def rootFraction (power prime : Nat) : Nat := rootFrom power (prime * 2 ^ (64 * power)) 69 0 % 2 ^ 64

/-- The first eighty primes. -/
def primes : List Nat :=
  [2, 3, 5, 7, 11, 13, 17, 19, 23, 29, 31, 37, 41, 43, 47, 53, 59, 61, 67, 71, 73, 79, 83, 89, 97, 101, 103, 107, 109, 113,
   127, 131, 137, 139, 149, 151, 157, 163, 167, 173, 179, 181, 191, 193, 197, 199, 211, 223, 227, 229, 233, 239, 241, 251,
   257, 263, 269, 271, 277, 281, 283, 293, 307, 311, 313, 317, 331, 337, 347, 349, 353, 359, 367, 373, 379, 383, 389, 397,
   401, 409]

def roundConstants : List Word := primes.map fun prime => BitVec.ofNat 64 (rootFraction 3 prime)

end Constants

section Functions

def ch (x y z : Word) : Word := (x &&& y) ^^^ (~~~x &&& z)

def maj (x y z : Word) : Word := (x &&& y) ^^^ (x &&& z) ^^^ (y &&& z)

def bigSigma0 (x : Word) : Word := x.rotateRight 28 ^^^ x.rotateRight 34 ^^^ x.rotateRight 39

def bigSigma1 (x : Word) : Word := x.rotateRight 14 ^^^ x.rotateRight 18 ^^^ x.rotateRight 41

def smallSigma0 (x : Word) : Word := x.rotateRight 1 ^^^ x.rotateRight 8 ^^^ (x >>> 7)

def smallSigma1 (x : Word) : Word := x.rotateRight 19 ^^^ x.rotateRight 61 ^^^ (x >>> 6)

end Functions

structure Registers where
  a : Word
  b : Word
  c : Word
  d : Word
  e : Word
  f : Word
  g : Word
  h : Word
deriving DecidableEq, Repr

def Registers.add (first second : Registers) : Registers :=
  ⟨first.a + second.a, first.b + second.b, first.c + second.c, first.d + second.d, first.e + second.e, first.f + second.f,
    first.g + second.g, first.h + second.h⟩

def initial : Registers :=
  let word (prime : Nat) : Word := BitVec.ofNat 64 (rootFraction 2 prime)
  ⟨word 2, word 3, word 5, word 7, word 11, word 13, word 17, word 19⟩

/-- A round, with its constant and its word of the message. -/
def round (r : Registers) (constant word : Word) : Registers :=
  let t1 := r.h + bigSigma1 r.e + ch r.e r.f r.g + constant + word
  let t2 := bigSigma0 r.a + maj r.a r.b r.c
  ⟨t1 + t2, r.a, r.b, r.c, r.d + t1, r.e, r.f, r.g⟩

def rounds : Registers → List (Word × Word) → Registers
  | r, [] => r
  | r, (constant, word) :: later => rounds (round r constant word) later

/-- A word of the schedule, from those before it. -/
def nextWord (words : List Word) : Word :=
  smallSigma1 (words.getD (words.length - 2) 0) + words.getD (words.length - 7) 0 +
    smallSigma0 (words.getD (words.length - 15) 0) + words.getD (words.length - 16) 0

def schedule : Nat → List Word → List Word
  | 0, words => words
  | more + 1, words => schedule more (words ++ [nextWord words])

/-- The words of a block, most significant byte first. -/
def words : Nat → Bytes → List Word
  | 0, _ => []
  | n + 1, data => BitVec.ofNat 64 (beValue (data.take 8)) :: words n (data.drop 8)

def compress (r : Registers) (block : Bytes) : Registers :=
  r.add (rounds r (roundConstants.zip (schedule 64 (words 16 block))))

/-- A one bit, zeros, and the length in bits fill the last block. -/
def pad (message : Bytes) : Bytes :=
  message ++ [0x80] ++ List.replicate ((128 - (message.length + 17) % 128) % 128) 0 ++ beBytes 16 (8 * message.length)

def Registers.bytes (r : Registers) : Bytes :=
  [r.a, r.b, r.c, r.d, r.e, r.f, r.g, r.h].flatMap fun word => beBytes 8 word.toNat

def digest (message : Bytes) : Bytes := (BlockHash.absorb compress 128 initial (pad message)).bytes

end Library.Sha512
