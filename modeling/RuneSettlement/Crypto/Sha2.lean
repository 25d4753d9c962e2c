import RuneSettlement.Bytes

/-!
# SHA-256 and SHA-512

Both hashes run one construction over words of 32 and of 64 bits. A `Variant` holds what tells them
apart: the starting chain, the round constants and the rotation amounts. The constants are the
fractional parts of the square and cube roots of the first primes.
-/

namespace RuneSettlement.Sha2

structure Variant (w : Nat) where
  initial : List (BitVec w)
  constants : List (BitVec w)
  bigSigma0 : Nat × Nat × Nat
  bigSigma1 : Nat × Nat × Nat
  /-- Two rotations and a shift. -/
  smallSigma0 : Nat × Nat × Nat
  smallSigma1 : Nat × Nat × Nat

structure Chain (w : Nat) where
  (a b c d e f g h : BitVec w)

variable {w : Nat}

def rotateThrice (amounts : Nat × Nat × Nat) (x : BitVec w) : BitVec w :=
  x.rotateRight amounts.1 ^^^ x.rotateRight amounts.2.1 ^^^ x.rotateRight amounts.2.2

def rotateAndShift (amounts : Nat × Nat × Nat) (x : BitVec w) : BitVec w :=
  x.rotateRight amounts.1 ^^^ x.rotateRight amounts.2.1 ^^^ x >>> amounts.2.2

/-- The word in place `i` of a list, zero beyond its end. -/
def wordAt (ws : List (BitVec w)) (i : Nat) : BitVec w := ws.getD i 0#w

def Chain.ofList (ws : List (BitVec w)) : Chain w :=
  ⟨wordAt ws 0, wordAt ws 1, wordAt ws 2, wordAt ws 3, wordAt ws 4, wordAt ws 5, wordAt ws 6,
    wordAt ws 7⟩

def Chain.toList (s : Chain w) : List (BitVec w) := [s.a, s.b, s.c, s.d, s.e, s.f, s.g, s.h]

def Chain.add (s t : Chain w) : Chain w :=
  ⟨s.a + t.a, s.b + t.b, s.c + t.c, s.d + t.d, s.e + t.e, s.f + t.f, s.g + t.g, s.h + t.h⟩

/-- One message word more, in front of the words so far, the latest first. -/
def extend (v : Variant w) (latestFirst : List (BitVec w)) : List (BitVec w) :=
  (rotateAndShift v.smallSigma1 (wordAt latestFirst 1) + wordAt latestFirst 6 +
    rotateAndShift v.smallSigma0 (wordAt latestFirst 14) + wordAt latestFirst 15) :: latestFirst

/-- The message words of a block of sixteen, one for each round. -/
def schedule (v : Variant w) (block : List (BitVec w)) : List (BitVec w) :=
  (Nat.repeat (extend v) (v.constants.length - 16) block.reverse).reverse

def round (v : Variant w) (s : Chain w) (input : BitVec w × BitVec w) : Chain w :=
  let choice := (s.e &&& s.f) ^^^ (~~~s.e &&& s.g)
  let majority := (s.a &&& s.b) ^^^ (s.a &&& s.c) ^^^ (s.b &&& s.c)
  let t1 := s.h + rotateThrice v.bigSigma1 s.e + choice + input.1 + input.2
  let t2 := rotateThrice v.bigSigma0 s.a + majority
  ⟨t1 + t2, s.a, s.b, s.c, s.d + t1, s.e, s.f, s.g⟩

def absorb (v : Variant w) (s : Chain w) (block : List (BitVec w)) : Chain w :=
  s.add ((v.constants.zip (schedule v block)).foldl (round v) s)

/-- Cuts a list into pieces of `size`, from the front; a shorter rest is dropped. -/
def pieces {α : Type} (size : Nat) (xs : List α) : List (List α) :=
  (List.range (xs.length / size)).map fun i => (xs.drop (size * i)).take size

/-- The bytes after a message of `length` bytes: a one bit, zeros, and the length in bits. -/
def padding (w length : Nat) : Bytes :=
  let block := 2 * w
  let zeros := (2 * block - 1 - w / 4 - length % block) % block
  128 :: List.replicate zeros 0 ++ Bytes.ofNatBE (w / 4) (8 * length)

def wordOfBytes (w : Nat) (bytes : Bytes) : BitVec w :=
  BitVec.ofNat w (Bytes.toNatLE bytes.reverse)

def digest (v : Variant w) (message : Bytes) : Bytes :=
  let words := (pieces (w / 8) (message ++ padding w message.length)).map (wordOfBytes w)
  let chain := (pieces 16 words).foldl (absorb v) (.ofList v.initial)
  chain.toList.flatMap fun x => Bytes.ofNatBE (w / 8) x.toNat

def v256 : Variant 32 where
  initial := [
    0x6a09e667, 0xbb67ae85, 0x3c6ef372, 0xa54ff53a,
    0x510e527f, 0x9b05688c, 0x1f83d9ab, 0x5be0cd19]
  constants := [
    0x428a2f98, 0x71374491, 0xb5c0fbcf, 0xe9b5dba5, 0x3956c25b, 0x59f111f1, 0x923f82a4, 0xab1c5ed5,
    0xd807aa98, 0x12835b01, 0x243185be, 0x550c7dc3, 0x72be5d74, 0x80deb1fe, 0x9bdc06a7, 0xc19bf174,
    0xe49b69c1, 0xefbe4786, 0x0fc19dc6, 0x240ca1cc, 0x2de92c6f, 0x4a7484aa, 0x5cb0a9dc, 0x76f988da,
    0x983e5152, 0xa831c66d, 0xb00327c8, 0xbf597fc7, 0xc6e00bf3, 0xd5a79147, 0x06ca6351, 0x14292967,
    0x27b70a85, 0x2e1b2138, 0x4d2c6dfc, 0x53380d13, 0x650a7354, 0x766a0abb, 0x81c2c92e, 0x92722c85,
    0xa2bfe8a1, 0xa81a664b, 0xc24b8b70, 0xc76c51a3, 0xd192e819, 0xd6990624, 0xf40e3585, 0x106aa070,
    0x19a4c116, 0x1e376c08, 0x2748774c, 0x34b0bcb5, 0x391c0cb3, 0x4ed8aa4a, 0x5b9cca4f, 0x682e6ff3,
    0x748f82ee, 0x78a5636f, 0x84c87814, 0x8cc70208, 0x90befffa, 0xa4506ceb, 0xbef9a3f7, 0xc67178f2]
  bigSigma0 := (2, 13, 22)
  bigSigma1 := (6, 11, 25)
  smallSigma0 := (7, 18, 3)
  smallSigma1 := (17, 19, 10)

def v512 : Variant 64 where
  initial := [
    0x6a09e667f3bcc908, 0xbb67ae8584caa73b, 0x3c6ef372fe94f82b, 0xa54ff53a5f1d36f1,
    0x510e527fade682d1, 0x9b05688c2b3e6c1f, 0x1f83d9abfb41bd6b, 0x5be0cd19137e2179]
  constants := [
    0x428a2f98d728ae22, 0x7137449123ef65cd, 0xb5c0fbcfec4d3b2f, 0xe9b5dba58189dbbc,
    0x3956c25bf348b538, 0x59f111f1b605d019, 0x923f82a4af194f9b, 0xab1c5ed5da6d8118,
    0xd807aa98a3030242, 0x12835b0145706fbe, 0x243185be4ee4b28c, 0x550c7dc3d5ffb4e2,
    0x72be5d74f27b896f, 0x80deb1fe3b1696b1, 0x9bdc06a725c71235, 0xc19bf174cf692694,
    0xe49b69c19ef14ad2, 0xefbe4786384f25e3, 0x0fc19dc68b8cd5b5, 0x240ca1cc77ac9c65,
    0x2de92c6f592b0275, 0x4a7484aa6ea6e483, 0x5cb0a9dcbd41fbd4, 0x76f988da831153b5,
    0x983e5152ee66dfab, 0xa831c66d2db43210, 0xb00327c898fb213f, 0xbf597fc7beef0ee4,
    0xc6e00bf33da88fc2, 0xd5a79147930aa725, 0x06ca6351e003826f, 0x142929670a0e6e70,
    0x27b70a8546d22ffc, 0x2e1b21385c26c926, 0x4d2c6dfc5ac42aed, 0x53380d139d95b3df,
    0x650a73548baf63de, 0x766a0abb3c77b2a8, 0x81c2c92e47edaee6, 0x92722c851482353b,
    0xa2bfe8a14cf10364, 0xa81a664bbc423001, 0xc24b8b70d0f89791, 0xc76c51a30654be30,
    0xd192e819d6ef5218, 0xd69906245565a910, 0xf40e35855771202a, 0x106aa07032bbd1b8,
    0x19a4c116b8d2d0c8, 0x1e376c085141ab53, 0x2748774cdf8eeb99, 0x34b0bcb5e19b48a8,
    0x391c0cb3c5c95a63, 0x4ed8aa4ae3418acb, 0x5b9cca4f7763e373, 0x682e6ff3d6b2b8a3,
    0x748f82ee5defb2fc, 0x78a5636f43172f60, 0x84c87814a1f0ab72, 0x8cc702081a6439ec,
    0x90befffa23631e28, 0xa4506cebde82bde9, 0xbef9a3f7b2c67915, 0xc67178f2e372532b,
    0xca273eceea26619c, 0xd186b8c721c0c207, 0xeada7dd6cde0eb1e, 0xf57d4f7fee6ed178,
    0x06f067aa72176fba, 0x0a637dc5a2c898a6, 0x113f9804bef90dae, 0x1b710b35131c471b,
    0x28db77f523047d84, 0x32caab7b40c72493, 0x3c9ebe0a15c9bebc, 0x431d67c49c100d4c,
    0x4cc5d4becb3e42b6, 0x597f299cfc657e2a, 0x5fcb6fab3ad6faec, 0x6c44198c4a475817]
  bigSigma0 := (28, 34, 39)
  bigSigma1 := (14, 18, 41)
  smallSigma0 := (1, 8, 7)
  smallSigma1 := (19, 61, 6)

def sha256 (message : Bytes) : Bytes := digest v256 message

def sha512 (message : Bytes) : Bytes := digest v512 message

@[simp] theorem length_sha256 (message : Bytes) : (sha256 message).length = 32 := by
  simp [sha256, digest, Chain.toList]

@[simp] theorem length_sha512 (message : Bytes) : (sha512 message).length = 64 := by
  simp [sha512, digest, Chain.toList]

end RuneSettlement.Sha2
