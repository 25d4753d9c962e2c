import RuneSettlement.Crypto.Ed25519
import RuneSettlement.Config
import RuneSettlement.Text.Hex

/-!
# Pool keys

A key ring derives all keys of pools from one seed. A derivation path names a child secret, the hash
of the seed, a tag and the components with their lengths. The tweaked secret hashes the child with
its public key; the address is the hash of the tweaked public key, and spends are signed with the
tweaked secret.
-/

namespace RuneSettlement

structure KeyRing where
  seed : FixedBytes 32
  /-- What every address starts with. -/
  addressPrefix : String
  deriving DecidableEq

namespace KeyRing

def derivationTag : Bytes := utf8 "runepool:key:v1:"

def tweakTag : Bytes := utf8 "TapTweak"

/-- A component after its length in eight bytes, the least significant first. -/
def framed (component : Bytes) : Bytes := Bytes.ofNatLE 8 component.length ++ component

/-- What is hashed to the child secret of a path. -/
def childInput (seed : FixedBytes 32) (path : DerivationPath) : Bytes :=
  seed.toList ++ derivationTag ++ path.flatMap framed

def childSecret (ring : KeyRing) (path : DerivationPath) : Bytes :=
  Sha2.sha256 (childInput ring.seed path)

def tweak (secret : Bytes) : Bytes :=
  Sha2.sha256 (secret ++ tweakTag ++ Ed25519.publicKey secret)

def tweakedSecret (ring : KeyRing) (path : DerivationPath) : Bytes := tweak (ring.childSecret path)

def derive (ring : KeyRing) (path : DerivationPath) : PoolKeys :=
  let tweaked := Ed25519.publicKey (ring.tweakedSecret path)
  { untweaked := Hex.encode (Ed25519.publicKey (ring.childSecret path))
    tweaked := Hex.encode tweaked
    path
    address := ring.addressPrefix ++ Hex.encode ((Sha2.sha256 tweaked).take 20) }

def sign (ring : KeyRing) (path : DerivationPath) (message : Bytes) : Bytes :=
  Ed25519.sign (ring.tweakedSecret path) message

/-- Checks a signature against a tweaked public key in hexadecimal. -/
def verifySignature (tweaked : String) (message signature : Bytes) : Outcome Unit := do
  let key ← Outcome.ofOption .keyFailure (Hex.decodeFixed? 32 tweaked)
  if Ed25519.verify key.toList message signature then return else .error .keyFailure

end KeyRing

def Config.keyRing (c : Config) : Outcome KeyRing := do
  return ⟨← c.seed, c.addressPrefix⟩

end RuneSettlement
