/-! The SHA-256 digest of a row of bytes. -/
namespace TemplateCompiler

/-- The eight words that the blocks of a message are mixed into. -/
structure Digest where
  a : UInt32
  b : UInt32
  c : UInt32
  d : UInt32
  e : UInt32
  f : UInt32
  g : UInt32
  h : UInt32
  deriving DecidableEq, Repr

namespace Digest

/-- The words before the first block. -/
def initial : Digest where
  a := 0x6a09e667
  b := 0xbb67ae85
  c := 0x3c6ef372
  d := 0xa54ff53a
  e := 0x510e527f
  f := 0x9b05688c
  g := 0x1f83d9ab
  h := 0x5be0cd19

def words (x : Digest) : List UInt32 := [x.a, x.b, x.c, x.d, x.e, x.f, x.g, x.h]

/-- Add two digests word by word. -/
def add (x y : Digest) : Digest where
  a := x.a + y.a
  b := x.b + y.b
  c := x.c + y.c
  d := x.d + y.d
  e := x.e + y.e
  f := x.f + y.f
  g := x.g + y.g
  h := x.h + y.h

/-- One constant for each of the 64 rounds. -/
def roundConstants : List UInt32 :=
  [0x428a2f98, 0x71374491, 0xb5c0fbcf, 0xe9b5dba5, 0x3956c25b, 0x59f111f1, 0x923f82a4, 0xab1c5ed5,
   0xd807aa98, 0x12835b01, 0x243185be, 0x550c7dc3, 0x72be5d74, 0x80deb1fe, 0x9bdc06a7, 0xc19bf174,
   0xe49b69c1, 0xefbe4786, 0x0fc19dc6, 0x240ca1cc, 0x2de92c6f, 0x4a7484aa, 0x5cb0a9dc, 0x76f988da,
   0x983e5152, 0xa831c66d, 0xb00327c8, 0xbf597fc7, 0xc6e00bf3, 0xd5a79147, 0x06ca6351, 0x14292967,
   0x27b70a85, 0x2e1b2138, 0x4d2c6dfc, 0x53380d13, 0x650a7354, 0x766a0abb, 0x81c2c92e, 0x92722c85,
   0xa2bfe8a1, 0xa81a664b, 0xc24b8b70, 0xc76c51a3, 0xd192e819, 0xd6990624, 0xf40e3585, 0x106aa070,
   0x19a4c116, 0x1e376c08, 0x2748774c, 0x34b0bcb5, 0x391c0cb3, 0x4ed8aa4a, 0x5b9cca4f, 0x682e6ff3,
   0x748f82ee, 0x78a5636f, 0x84c87814, 0x8cc70208, 0x90befffa, 0xa4506ceb, 0xbef9a3f7, 0xc67178f2]

def rotateRight (x amount : UInt32) : UInt32 := (x >>> amount) ||| (x <<< (32 - amount))

/-- One round with one word of the schedule. -/
def mix (x : Digest) (word constant : UInt32) : Digest :=
  let s1 := rotateRight x.e 6 ^^^ rotateRight x.e 11 ^^^ rotateRight x.e 25
  let choice := (x.e &&& x.f) ^^^ (~~~x.e &&& x.g)
  let t1 := x.h + s1 + choice + constant + word
  let s0 := rotateRight x.a 2 ^^^ rotateRight x.a 13 ^^^ rotateRight x.a 22
  let majority := (x.a &&& x.b) ^^^ (x.a &&& x.c) ^^^ (x.b &&& x.c)
  ⟨t1 + (s0 + majority), x.a, x.b, x.c, x.d + t1, x.e, x.f, x.g⟩

/-- Add words to a schedule, each from four that came before it. -/
def extend : Nat → Array UInt32 → Array UInt32
  | 0, schedule => schedule
  | more + 1, schedule =>
    let back (distance : Nat) := schedule.getD (schedule.size - distance) 0
    let s0 := rotateRight (back 15) 7 ^^^ rotateRight (back 15) 18 ^^^ (back 15 >>> 3)
    let s1 := rotateRight (back 2) 17 ^^^ rotateRight (back 2) 19 ^^^ (back 2 >>> 10)
    extend more (schedule.push (back 16 + s0 + back 7 + s1))

/-- Mix one block of sixteen words into the digest. -/
def absorb (x : Digest) (block : List UInt32) : Digest :=
  let rounds := (extend 48 block.toArray).toList.zip roundConstants
  x.add (rounds.foldl (fun x (word, constant) => x.mix word constant) x)

/-- Four bytes as a word, the first one in the highest place. -/
def wordsOfBytes : List UInt8 → List UInt32
  | w :: x :: y :: z :: rest =>
    ((w.toUInt32 <<< 24) ||| (x.toUInt32 <<< 16) ||| (y.toUInt32 <<< 8) ||| z.toUInt32) ::
      wordsOfBytes rest
  | _ => []

/-- A message, a one bit, zeros up to a whole number of blocks, and the length in bits. -/
def pad (message : List UInt8) : List UInt8 :=
  let zeros := (119 - message.length % 64) % 64
  let bits := message.length * 8
  let size := [56, 48, 40, 32, 24, 16, 8, 0].map fun place => UInt8.ofNat (bits >>> place)
  message ++ [0x80] ++ List.replicate zeros 0 ++ size

/-- Mix all blocks in turn. -/
def absorbAll (x : Digest) (schedule : List UInt32) : Digest :=
  if schedule.isEmpty then x
  else absorbAll (x.absorb (schedule.take 16)) (schedule.drop 16)
termination_by schedule.length
decreasing_by
  cases schedule with
  | nil => simp_all
  | cons => simp only [List.length_drop, List.length_cons]; omega

def ofBytes (message : List UInt8) : Digest := initial.absorbAll (wordsOfBytes (pad message))

/-- A word as eight hexadecimal digits in lower case. -/
def wordHexadecimal (word : UInt32) : List Char :=
  [28, 24, 20, 16, 12, 8, 4, 0].map fun place => Nat.digitChar ((word.toNat >>> place) % 16)

end Digest
end TemplateCompiler
