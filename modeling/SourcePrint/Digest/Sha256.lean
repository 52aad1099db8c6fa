import SourcePrint.Text.Hex

namespace SourcePrint.Digest

/-- The eight words that a block is mixed into. -/
structure Sha256State where
  a : UInt32
  b : UInt32
  c : UInt32
  d : UInt32
  e : UInt32
  f : UInt32
  g : UInt32
  h : UInt32
  deriving DecidableEq, Repr

namespace Sha256State

/-- Fractional parts of the square roots of the first eight primes. -/
def initial : Sha256State :=
  ⟨0x6a09e667, 0xbb67ae85, 0x3c6ef372, 0xa54ff53a, 0x510e527f, 0x9b05688c, 0x1f83d9ab, 0x5be0cd19⟩

def add (s t : Sha256State) : Sha256State :=
  ⟨s.a + t.a, s.b + t.b, s.c + t.c, s.d + t.d, s.e + t.e, s.f + t.f, s.g + t.g, s.h + t.h⟩

def words (s : Sha256State) : List UInt32 := [s.a, s.b, s.c, s.d, s.e, s.f, s.g, s.h]

end Sha256State

/-- Fractional parts of the cube roots of the first sixty-four primes. -/
def roundConstants : List UInt32 :=
  [0x428a2f98, 0x71374491, 0xb5c0fbcf, 0xe9b5dba5, 0x3956c25b, 0x59f111f1, 0x923f82a4, 0xab1c5ed5,
   0xd807aa98, 0x12835b01, 0x243185be, 0x550c7dc3, 0x72be5d74, 0x80deb1fe, 0x9bdc06a7, 0xc19bf174,
   0xe49b69c1, 0xefbe4786, 0x0fc19dc6, 0x240ca1cc, 0x2de92c6f, 0x4a7484aa, 0x5cb0a9dc, 0x76f988da,
   0x983e5152, 0xa831c66d, 0xb00327c8, 0xbf597fc7, 0xc6e00bf3, 0xd5a79147, 0x06ca6351, 0x14292967,
   0x27b70a85, 0x2e1b2138, 0x4d2c6dfc, 0x53380d13, 0x650a7354, 0x766a0abb, 0x81c2c92e, 0x92722c85,
   0xa2bfe8a1, 0xa81a664b, 0xc24b8b70, 0xc76c51a3, 0xd192e819, 0xd6990624, 0xf40e3585, 0x106aa070,
   0x19a4c116, 0x1e376c08, 0x2748774c, 0x34b0bcb5, 0x391c0cb3, 0x4ed8aa4a, 0x5b9cca4f, 0x682e6ff3,
   0x748f82ee, 0x78a5636f, 0x84c87814, 0x8cc70208, 0x90befffa, 0xa4506ceb, 0xbef9a3f7, 0xc67178f2]

def rotateRight (x n : UInt32) : UInt32 := (x >>> n) ||| (x <<< (32 - n))

def bigSigma0 (x : UInt32) : UInt32 := rotateRight x 2 ^^^ rotateRight x 13 ^^^ rotateRight x 22

def bigSigma1 (x : UInt32) : UInt32 := rotateRight x 6 ^^^ rotateRight x 11 ^^^ rotateRight x 25

def smallSigma0 (x : UInt32) : UInt32 := rotateRight x 7 ^^^ rotateRight x 18 ^^^ (x >>> 3)

def smallSigma1 (x : UInt32) : UInt32 := rotateRight x 17 ^^^ rotateRight x 19 ^^^ (x >>> 10)

def choose (x y z : UInt32) : UInt32 := (x &&& y) ^^^ (~~~x &&& z)

def majority (x y z : UInt32) : UInt32 := (x &&& y) ^^^ (x &&& z) ^^^ (y &&& z)

/-- Extends the message schedule by one word. -/
def extendSchedule (w : Array UInt32) (i : Nat) : Array UInt32 :=
  w.push (smallSigma1 (w.getD (i - 2) 0) + w.getD (i - 7) 0 + smallSigma0 (w.getD (i - 15) 0) +
    w.getD (i - 16) 0)

/-- Sixteen words of the block and the forty-eight that follow from them. -/
def schedule (block : List UInt32) : Array UInt32 :=
  (List.range' 16 48).foldl extendSchedule block.toArray

def round (s : Sha256State) (input : UInt32 × UInt32) : Sha256State :=
  let t1 := s.h + bigSigma1 s.e + choose s.e s.f s.g + input.1 + input.2
  let t2 := bigSigma0 s.a + majority s.a s.b s.c
  ⟨t1 + t2, s.a, s.b, s.c, s.d + t1, s.e, s.f, s.g⟩

def compress (s : Sha256State) (block : List UInt32) : Sha256State :=
  s.add ((roundConstants.zip (schedule block).toList).foldl round s)

/-- The bytes of a number, most significant first. -/
def bigEndian (width : Nat) (n : Nat) : List UInt8 :=
  (List.range width).map fun i => UInt8.ofNat (n >>> (8 * (width - 1 - i)))

/-- The message, a one bit, zeros up to eight bytes short of a block, and the length in bits. -/
def pad (message : List UInt8) : List UInt8 :=
  let zeros := (119 - message.length % 64) % 64
  message ++ 0x80 :: List.replicate zeros 0 ++ bigEndian 8 (8 * message.length)

def wordOfBytes (a b c d : UInt8) : UInt32 :=
  (a.toUInt32 <<< 24) ||| (b.toUInt32 <<< 16) ||| (c.toUInt32 <<< 8) ||| d.toUInt32

/-- Four bytes a word, behind `done`, last word first. -/
def wordsAfter (done : List UInt32) : List UInt8 → List UInt32
  | a :: b :: c :: d :: rest => wordsAfter (wordOfBytes a b c d :: done) rest
  | _ => done.reverse

/-- Mixes in one block of sixteen words after the other. -/
def mixBlocks (s : Sha256State) (words : List UInt32) : Sha256State :=
  let block := words.take 16
  if block.length < 16 then s else mixBlocks (compress s block) (words.drop 16)
termination_by words.length
decreasing_by
  rename_i h
  simp only [List.length_take, List.length_drop, block] at h ⊢
  omega

def sha256 (message : List UInt8) : List UInt8 :=
  (mixBlocks .initial (wordsAfter [] (pad message))).words.flatMap fun w => bigEndian 4 w.toNat

/-- Two hexadecimal digits a byte, in lower case. -/
def hex (bytes : List UInt8) : String :=
  String.ofList
    (bytes.flatMap fun b => [Text.hexDigit (b.toNat / 16), Text.hexDigit (b.toNat % 16)])

def textBytes (text : String) : List UInt8 := text.toByteArray.data.toList

def sha256Hex (text : String) : String := hex (sha256 (textBytes text))

/-- The version, a zero byte and the text, so that equal texts of two versions differ. -/
def versioned (version : UInt32) (text : String) : List UInt8 :=
  bigEndian 4 version.toNat ++ 0 :: textBytes text

def versionedHex (version : UInt32) (text : String) : String :=
  hex (sha256 (versioned version text))

end SourcePrint.Digest
