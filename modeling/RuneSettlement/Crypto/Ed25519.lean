import RuneSettlement.Crypto.Sha2

/-!
# Ed25519 signatures

Keys and signatures on the curve `-x² + y² = 1 + d x² y²` over the integers modulo `2²⁵⁵ - 19`, with
SHA-512. A signature `R ‖ S` is accepted when `S` is below the order of the base point and
`[S] B - [k] A` has exactly the encoding `R`, where `A` is the public key and `k` the hash of
`R ‖ A ‖ message`.
-/

namespace RuneSettlement.Ed25519

def fieldPrime : Nat := Nat.pow 2 255 - 19

/-- The order of the base point. -/
def order : Nat := Nat.pow 2 252 + 27742317777372353535851937790883648493

def curveD : Nat := 37095705934669439343138083508754565189542113879843219016388785533085940283555

/-- A square root of minus one. -/
def imaginary : Nat := 19681161376707505956807079304988542015446066515923890162744021073123829784752

def neg (a : Nat) : Nat := (fieldPrime - a % fieldPrime) % fieldPrime

def sub (a b : Nat) : Nat := (a + neg b) % fieldPrime

def mul (a b : Nat) : Nat := a * b % fieldPrime

/-- The binary digits of a number below `2²⁵⁶`, the most significant first. -/
def bits (n : Nat) : List Bool := (List.range 256).reverse.map n.testBit

def pow (a exponent : Nat) : Nat :=
  (bits exponent).foldl (fun r bit => if bit then mul (mul r r) a else mul r r) 1

def inverse (a : Nat) : Nat := pow a (fieldPrime - 2)

/-- A curve point `(x / z, y / z)`, with `t z = x y`. -/
structure Point where
  (x y z t : Nat)

namespace Point

def ofAffine (x y : Nat) : Point := ⟨x, y, 1, mul x y⟩

def identity : Point := ofAffine 0 1

def base : Point :=
  ofAffine 15112221349535400772501151409588531511454012693041857206046113283949847762202
    46316835694926478169428394003475163141307993866256225615783033603165251855960

def negate (a : Point) : Point := ⟨neg a.x, a.y, a.z, neg a.t⟩

/-- The sum of two points, which may be equal: the formula has no exceptions on this curve. -/
def add (a b : Point) : Point :=
  let r := mul (sub a.y a.x) (sub b.y b.x)
  let s := mul (a.y + a.x) (b.y + b.x)
  let t := mul (mul a.t (2 * curveD)) b.t
  let u := mul a.z (2 * b.z)
  let e := sub s r
  let f := sub u t
  let g := u + t
  let h := s + r
  ⟨mul e f, mul g h, mul f g, mul e h⟩

/-- The sum of `n` copies of a point, for `n` below `2²⁵⁶`. -/
def multiply (n : Nat) (a : Point) : Point :=
  (bits n).foldl (fun r bit => if bit then add (add r r) a else add r r) identity

/-- 32 bytes: `y`, and the parity of `x` in the highest bit. -/
def encode (a : Point) : Bytes :=
  let inv := inverse a.z
  let y := mul a.y inv
  Bytes.ofNatLE 32 (if mul a.x inv % 2 = 1 then y + Nat.pow 2 255 else y)

/-- A square root of `u / v`, if there is one. -/
def sqrtRatio? (u v : Nat) : Option Nat :=
  let v3 := mul (mul v v) v
  let root := mul (mul u v3) (pow (mul u (mul (mul v3 v3) v)) ((fieldPrime - 5) / 8))
  let check := mul v (mul root root)
  if check = u then some root
  else if check = neg u then some (mul root imaginary)
  else none

/-- Reads 32 bytes. The number `y` is taken modulo the field prime; where `x` is zero its parity bit
is ignored. -/
def decode? (bytes : Bytes) : Option Point := do
  let n := Bytes.toNatLE bytes
  let y := n % Nat.pow 2 255 % fieldPrime
  let x ← sqrtRatio? (sub (mul y y) 1) ((mul curveD (mul y y) + 1) % fieldPrime)
  return ofAffine (if decide (x % 2 = 1) = n.testBit 255 then x else neg x) y

end Point

/-- The secret scalar: a multiple of eight with its highest bit at place 254. -/
def secretScalar (hash : Bytes) : Nat :=
  let n := Bytes.toNatLE (hash.take 32) % Nat.pow 2 254
  n - n % 8 + Nat.pow 2 254

def publicKey (secret : Bytes) : Bytes :=
  (Point.multiply (secretScalar (Sha2.sha512 secret)) .base).encode

/-- The hash of some bytes as a number modulo the order of the base point. -/
def hashScalar (bytes : Bytes) : Nat := Bytes.toNatLE (Sha2.sha512 bytes) % order

def sign (secret message : Bytes) : Bytes :=
  let hash := Sha2.sha512 secret
  let r := hashScalar (hash.drop 32 ++ message)
  let nonce := (Point.multiply r .base).encode
  let k := hashScalar (nonce ++ publicKey secret ++ message)
  nonce ++ Bytes.ofNatLE 32 ((r + k * secretScalar hash) % order)

def verify (key message signature : Bytes) : Bool :=
  let nonce := signature.take 32
  let s := Bytes.toNatLE (signature.drop 32)
  match Point.decode? key with
  | some a =>
    decide (signature.length = 64 ∧ s < order) &&
      let k := hashScalar (nonce ++ key ++ message)
      decide (((Point.multiply s .base).add (a.negate.multiply k)).encode = nonce)
  | none => false

end RuneSettlement.Ed25519
