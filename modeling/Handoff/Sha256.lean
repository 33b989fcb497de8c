/-!
# SHA-256

The digest of FIPS 180-4: eight words for any bytes, however many.  The bytes are filled
up to whole blocks of sixteen words, and every block is mixed into the words in 64 rounds.
-/

namespace Handoff

namespace Sha256

/-- Eight words: the state between two rounds, and in the end the digest. -/
structure Words where
  a : UInt32
  b : UInt32
  c : UInt32
  d : UInt32
  e : UInt32
  f : UInt32
  g : UInt32
  h : UInt32
  deriving DecidableEq

def initial : Words :=
  ⟨0x6a09e667, 0xbb67ae85, 0x3c6ef372, 0xa54ff53a, 0x510e527f, 0x9b05688c, 0x1f83d9ab, 0x5be0cd19⟩

def constants : List UInt32 :=
  [0x428a2f98, 0x71374491, 0xb5c0fbcf, 0xe9b5dba5, 0x3956c25b, 0x59f111f1, 0x923f82a4, 0xab1c5ed5,
    0xd807aa98, 0x12835b01, 0x243185be, 0x550c7dc3, 0x72be5d74, 0x80deb1fe, 0x9bdc06a7, 0xc19bf174,
    0xe49b69c1, 0xefbe4786, 0x0fc19dc6, 0x240ca1cc, 0x2de92c6f, 0x4a7484aa, 0x5cb0a9dc, 0x76f988da,
    0x983e5152, 0xa831c66d, 0xb00327c8, 0xbf597fc7, 0xc6e00bf3, 0xd5a79147, 0x06ca6351, 0x14292967,
    0x27b70a85, 0x2e1b2138, 0x4d2c6dfc, 0x53380d13, 0x650a7354, 0x766a0abb, 0x81c2c92e, 0x92722c85,
    0xa2bfe8a1, 0xa81a664b, 0xc24b8b70, 0xc76c51a3, 0xd192e819, 0xd6990624, 0xf40e3585, 0x106aa070,
    0x19a4c116, 0x1e376c08, 0x2748774c, 0x34b0bcb5, 0x391c0cb3, 0x4ed8aa4a, 0x5b9cca4f, 0x682e6ff3,
    0x748f82ee, 0x78a5636f, 0x84c87814, 0x8cc70208, 0x90befffa, 0xa4506ceb, 0xbef9a3f7, 0xc67178f2]

def rotate (word count : UInt32) : UInt32 :=
  (word >>> count) ||| (word <<< (32 - count))

/-- The words of a block, the last first, followed by as many more as there are rounds left. -/
def extend : Nat → List UInt32 → List UInt32
  | 0, words => words
  | count + 1, words =>
      let near := words.getD 1 0
      let far := words.getD 14 0
      let nearMix := rotate near 17 ^^^ rotate near 19 ^^^ (near >>> 10)
      let farMix := rotate far 7 ^^^ rotate far 18 ^^^ (far >>> 3)
      extend count ((nearMix + words.getD 6 0 + farMix + words.getD 15 0) :: words)

def Words.round (s : Words) (constant word : UInt32) : Words :=
  let choice := (s.e &&& s.f) ^^^ (~~~s.e &&& s.g)
  let majority := (s.a &&& s.b) ^^^ (s.a &&& s.c) ^^^ (s.b &&& s.c)
  let lower := rotate s.e 6 ^^^ rotate s.e 11 ^^^ rotate s.e 25
  let upper := rotate s.a 2 ^^^ rotate s.a 13 ^^^ rotate s.a 22
  let first := s.h + lower + choice + constant + word
  ⟨first + upper + majority, s.a, s.b, s.c, s.d + first, s.e, s.f, s.g⟩

def Words.add (s t : Words) : Words :=
  ⟨s.a + t.a, s.b + t.b, s.c + t.c, s.d + t.d, s.e + t.e, s.f + t.f, s.g + t.g, s.h + t.h⟩

def Words.mix (s : Words) (block : List UInt32) : Words :=
  let words := (extend 48 block.reverse).reverse
  s.add ((constants.zip words).foldl (fun t pair => t.round pair.1 pair.2) s)

def wordsOf : List UInt8 → List UInt32
  | a :: b :: c :: d :: rest =>
      (a.toUInt32 <<< 24 ||| b.toUInt32 <<< 16 ||| c.toUInt32 <<< 8 ||| d.toUInt32) :: wordsOf rest
  | _ => []

/-- How many blocks so many bytes fill, with the byte and the eight bytes after them. -/
def blockCount (size : Nat) : Nat := (size + 72) / 64

/-- What the bytes are filled up with: a bit, zeros, and the number of their bits. -/
def filling (size : Nat) : List UInt8 :=
  (0x80 : UInt8) :: List.replicate (64 * blockCount size - size - 9) 0 ++
    (List.range 8).map fun i => UInt8.ofNat ((8 * size) >>> (8 * (7 - i)))

def mixAll : Nat → Words → List UInt32 → Words
  | 0, s, _ => s
  | count + 1, s, words => mixAll count (s.mix (words.take 16)) (words.drop 16)

def digest (content : ByteArray) : Words :=
  mixAll (blockCount content.size) initial
    (wordsOf (content.data.toList ++ filling content.size))

/-- The digest of three letters, as the standard gives it. -/
example : digest "abc".toUTF8 = ⟨0xba7816bf, 0x8f01cfea, 0x414140de, 0x5dae2223, 0xb00361a3,
    0x96177a9c, 0xb410ff61, 0xf20015ad⟩ := by decide +kernel

end Sha256

end Handoff
