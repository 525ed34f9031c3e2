/-!
# Content hashes

The first 64 bits of the SHA-256 digest of a text. Names that carry such a hash depend on nothing
but the text, so they stay the same from one generation to the next.
-/

namespace RadioBroker.ContentHash

/-- The additive constants of the 64 rounds. -/
def roundConstants : List UInt32 :=
  [0x428a2f98, 0x71374491, 0xb5c0fbcf, 0xe9b5dba5, 0x3956c25b, 0x59f111f1, 0x923f82a4, 0xab1c5ed5,
   0xd807aa98, 0x12835b01, 0x243185be, 0x550c7dc3, 0x72be5d74, 0x80deb1fe, 0x9bdc06a7, 0xc19bf174,
   0xe49b69c1, 0xefbe4786, 0x0fc19dc6, 0x240ca1cc, 0x2de92c6f, 0x4a7484aa, 0x5cb0a9dc, 0x76f988da,
   0x983e5152, 0xa831c66d, 0xb00327c8, 0xbf597fc7, 0xc6e00bf3, 0xd5a79147, 0x06ca6351, 0x14292967,
   0x27b70a85, 0x2e1b2138, 0x4d2c6dfc, 0x53380d13, 0x650a7354, 0x766a0abb, 0x81c2c92e, 0x92722c85,
   0xa2bfe8a1, 0xa81a664b, 0xc24b8b70, 0xc76c51a3, 0xd192e819, 0xd6990624, 0xf40e3585, 0x106aa070,
   0x19a4c116, 0x1e376c08, 0x2748774c, 0x34b0bcb5, 0x391c0cb3, 0x4ed8aa4a, 0x5b9cca4f, 0x682e6ff3,
   0x748f82ee, 0x78a5636f, 0x84c87814, 0x8cc70208, 0x90befffa, 0xa4506ceb, 0xbef9a3f7, 0xc67178f2]

/-- The eight words a digest is accumulated in. -/
structure Digest where
  (a b c d e f g h : UInt32)
deriving DecidableEq

/-- The digest before any block. -/
def initial : Digest :=
  ⟨0x6a09e667, 0xbb67ae85, 0x3c6ef372, 0xa54ff53a, 0x510e527f, 0x9b05688c, 0x1f83d9ab, 0x5be0cd19⟩

/-- Adds two digests word by word. -/
def Digest.add (s t : Digest) : Digest :=
  ⟨s.a + t.a, s.b + t.b, s.c + t.c, s.d + t.d, s.e + t.e, s.f + t.f, s.g + t.g, s.h + t.h⟩

/-- Turns a word right by `amount` bits, for an amount between 1 and 31. -/
def rotateRight (word amount : UInt32) : UInt32 :=
  (word >>> amount) ||| (word <<< (32 - amount))

/-- The word that follows a window of sixteen schedule words. -/
def nextWord (window : List UInt32) : UInt32 :=
  let early := window.getD 1 0
  let late := window.getD 14 0
  let low := rotateRight early 7 ^^^ rotateRight early 18 ^^^ (early >>> 3)
  let high := rotateRight late 17 ^^^ rotateRight late 19 ^^^ (late >>> 10)
  window.getD 0 0 + low + window.getD 9 0 + high

/-- One round with the schedule word `word`. -/
def mix (s : Digest) (constant word : UInt32) : Digest :=
  let turnedE := rotateRight s.e 6 ^^^ rotateRight s.e 11 ^^^ rotateRight s.e 25
  let choice := (s.e &&& s.f) ^^^ (~~~s.e &&& s.g)
  let first := s.h + turnedE + choice + constant + word
  let turnedA := rotateRight s.a 2 ^^^ rotateRight s.a 13 ^^^ rotateRight s.a 22
  let majority := (s.a &&& s.b) ^^^ (s.a &&& s.c) ^^^ (s.b &&& s.c)
  ⟨first + (turnedA + majority), s.a, s.b, s.c, s.d + first, s.e, s.f, s.g⟩

/-- All rounds over one block of sixteen words. -/
def absorb (digest : Digest) (block : List UInt32) : Digest :=
  let step := fun (state : Digest × List UInt32) (constant : UInt32) =>
    (mix state.1 constant (state.2.getD 0 0), state.2.drop 1 ++ [nextWord state.2])
  digest.add (roundConstants.foldl step (digest, block)).1

/-- Four bytes, the most significant first, as a word. -/
def wordOfBytes (a b c d : UInt8) : UInt32 :=
  (a.toUInt32 <<< 24) ||| (b.toUInt32 <<< 16) ||| (c.toUInt32 <<< 8) ||| d.toUInt32

/-- The words of a sequence of bytes whose length is a multiple of four. -/
def wordsOfBytes : List UInt8 → List UInt32
  | a :: b :: c :: d :: rest => wordOfBytes a b c d :: wordsOfBytes rest
  | _ => []

/-- The bytes with a one bit, zeros and their length in bits behind them, up to full blocks. -/
def pad (bytes : List UInt8) : List UInt8 :=
  let zeros := (119 - bytes.length % 64) % 64
  let bits := bytes.length * 8
  let size := [56, 48, 40, 32, 24, 16, 8, 0].map fun shift => (bits >>> shift).toUInt8
  bytes ++ [0x80] ++ List.replicate zeros 0 ++ size

/-- Absorbs words block by block. -/
def absorbAll (digest : Digest) (words : List UInt32) : Digest :=
  if words.length < 16 then digest
  else absorbAll (absorb digest (words.take 16)) (words.drop 16)
termination_by words.length
decreasing_by simp; omega

/-- The SHA-256 digest of a sequence of bytes. -/
def sha256 (bytes : List UInt8) : Digest :=
  absorbAll initial (wordsOfBytes (pad bytes))

/-- The first eight bytes of the digest of `text`, the most significant first. -/
def hash64 (text : String) : UInt64 :=
  let digest := sha256 text.toUTF8.toList
  (digest.a.toUInt64 <<< 32) ||| digest.b.toUInt64

/-- The `width` lowest hexadecimal digits of a number, with lowercase letters. -/
def hexDigits (width number : Nat) : String :=
  String.ofList ((List.range width).reverse.map fun place =>
    Nat.digitChar (number >>> (4 * place) % 16))

end RadioBroker.ContentHash
