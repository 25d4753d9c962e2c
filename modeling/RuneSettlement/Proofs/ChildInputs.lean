import Mathlib.Algebra.GroupWithZero.Nat
import RuneSettlement.KeyRing

/-!
# What is hashed to a child secret

The child secret of a derivation path is the hash of one byte string, in which every component
stands after its length. So a component can be told from whatever follows it
(`KeyRing.framed_append_inj`), and the string tells the seed and the path: two keys of different
seeds or paths are the same only where two different byte strings have the same hash
(`KeyRing.childSecret_unambiguous`).
-/

namespace RuneSettlement

namespace Bytes

lemma toNatLE_ofNatLE (count n : Nat) : toNatLE (ofNatLE count n) = n % 256 ^ count := by
  induction count generalizing n with
  | zero => rw [Nat.pow_zero, Nat.mod_one, ofNatLE, toNatLE, List.foldr_nil]
  | succ count ih =>
    have hdigit : (UInt8.ofNat (n % 256)).toNat = n % 256 := by
      apply UInt8.toNat_ofNat_of_lt'
      exact Nat.mod_lt n (by decide)
    have hdigits : toNatLE (ofNatLE (count + 1) n) =
        (UInt8.ofNat (n % 256)).toNat + 256 * toNatLE (ofNatLE count (n / 256)) := rfl
    rw [hdigits, hdigit, ih, Nat.pow_succ, Nat.mul_comm (256 ^ count), Nat.mod_mul]

/-- Numbers that fit are told apart by their digits. -/
lemma ofNatLE_inj {count m n : Nat} (hm : m < 256 ^ count) (hn : n < 256 ^ count)
    (h : ofNatLE count m = ofNatLE count n) : m = n := by
  have hnumber := congrArg toNatLE h
  rwa [toNatLE_ofNatLE, toNatLE_ofNatLE, Nat.mod_eq_of_lt hm, Nat.mod_eq_of_lt hn] at hnumber

end Bytes

/-- Two different messages with the same hash. -/
def Sha2.Collide (message other : Bytes) : Prop := message ≠ other ∧ sha256 message = sha256 other

namespace KeyRing

/-- The length of every component fits the eight bytes it is written in. -/
def Framable (path : DerivationPath) : Prop := ∀ component ∈ path, component.length < 2 ^ 64

instance (path : DerivationPath) : Decidable (Framable path) :=
  inferInstanceAs (Decidable (∀ component ∈ path, component.length < 2 ^ 64))

lemma framed_ne_nil (component : Bytes) : framed component ≠ [] := by
  intro h
  have hlength := congrArg List.length h
  rw [framed, List.length_append, Bytes.length_ofNatLE, List.length_nil] at hlength
  omega

/-- A component is told from what follows it, even if that imitates a length. -/
lemma framed_append_inj {component other rest rest' : Bytes}
    (hcomponent : component.length < 2 ^ 64) (hother : other.length < 2 ^ 64)
    (h : framed component ++ rest = framed other ++ rest') : component = other ∧ rest = rest' := by
  unfold framed at h
  rw [List.append_assoc, List.append_assoc] at h
  have hwidth : (Bytes.ofNatLE 8 component.length).length =
      (Bytes.ofNatLE 8 other.length).length := by
    rw [Bytes.length_ofNatLE, Bytes.length_ofNatLE]
  obtain ⟨hdigits, hbytes⟩ := List.append_inj h hwidth
  have hlength : component.length = other.length := by
    apply Bytes.ofNatLE_inj _ _ hdigits
    · omega
    · omega
  exact List.append_inj hbytes hlength

lemma flatMap_framed_inj {path path' : DerivationPath} (hpath : Framable path)
    (hpath' : Framable path') (h : path.flatMap framed = path'.flatMap framed) : path = path' := by
  induction path generalizing path' with
  | nil =>
    cases path' with
    | nil => rfl
    | cons other others =>
      rw [List.flatMap_nil, List.flatMap_cons] at h
      exact absurd (List.append_eq_nil_iff.1 h.symm).1 (framed_ne_nil other)
  | cons component components ih =>
    cases path' with
    | nil =>
      rw [List.flatMap_nil, List.flatMap_cons] at h
      exact absurd (List.append_eq_nil_iff.1 h).1 (framed_ne_nil component)
    | cons other others =>
      obtain ⟨hfirst, hrest⟩ := List.forall_mem_cons.1 hpath
      obtain ⟨hfirst', hrest'⟩ := List.forall_mem_cons.1 hpath'
      rw [List.flatMap_cons, List.flatMap_cons] at h
      obtain ⟨rfl, hothers⟩ := framed_append_inj hfirst hfirst' h
      rw [ih hrest hrest' hothers]

/-- The seed and the tag have fixed lengths, so what is left is the path. -/
lemma childInput_eq_iff {seed seed' : FixedBytes 32} {path path' : DerivationPath}
    (hpath : Framable path) (hpath' : Framable path') :
    childInput seed path = childInput seed' path' ↔ seed = seed' ∧ path = path' := by
  constructor
  · intro h
    unfold childInput at h
    rw [List.append_assoc, List.append_assoc] at h
    have hwidth : seed.toList.length = seed'.toList.length := by
      rw [seed.length_toList, seed'.length_toList]
    obtain ⟨hseed, htagged⟩ := List.append_inj h hwidth
    have hcomponents := List.append_cancel_left htagged
    constructor
    · cases seed
      cases seed'
      cases hseed
      rfl
    · exact flatMap_framed_inj hpath hpath' hcomponents
  · rintro ⟨rfl, rfl⟩
    rfl

/-- What is hashed to a child secret tells the seed and the path. So two child secrets are the same
just where seed and path are, or where the hash has a collision. -/
theorem childSecret_unambiguous (ring ring' : KeyRing) {path path' : DerivationPath}
    (hpath : Framable path) (hpath' : Framable path') :
    (childInput ring.seed path = childInput ring'.seed path' ↔
      ring.seed = ring'.seed ∧ path = path') ∧
    (ring.childSecret path = ring'.childSecret path' ↔
      (ring.seed = ring'.seed ∧ path = path') ∨
        Sha2.Collide (childInput ring.seed path) (childInput ring'.seed path')) := by
  have hinput : childInput ring.seed path = childInput ring'.seed path' ↔
      ring.seed = ring'.seed ∧ path = path' := childInput_eq_iff hpath hpath'
  refine ⟨hinput, ?_⟩
  rw [← hinput]
  unfold childSecret Sha2.Collide
  constructor
  · intro hsecret
    by_cases hsame : childInput ring.seed path = childInput ring'.seed path'
    · exact .inl hsame
    · exact .inr ⟨hsame, hsecret⟩
  · rintro (hsame | ⟨-, hhash⟩)
    · rw [hsame]
    · exact hhash

/-- A component that ends in the length and the bytes of another is not two components. -/
theorem childSecret_unambiguous_sample :
    let ring : KeyRing := ⟨.take 32 [], "tb1p"⟩
    let split : DerivationPath := [utf8 "A", [], utf8 "B"]
    let joined : DerivationPath := [utf8 "A" ++ framed [] ++ framed (utf8 "B")]
    Framable split ∧ Framable joined ∧
      childInput ring.seed split ≠ childInput ring.seed joined ∧
      (ring.childSecret split = ring.childSecret joined →
        Sha2.Collide (childInput ring.seed split) (childInput ring.seed joined)) := by
  intro ring split joined
  have hsplit : Framable split := by decide +kernel
  have hjoined : Framable joined := by decide +kernel
  have hdiffers : ¬(ring.seed = ring.seed ∧ split = joined) := by decide +kernel
  obtain ⟨hinput, hsecret⟩ := childSecret_unambiguous ring ring hsplit hjoined
  refine ⟨hsplit, hjoined, ?_, ?_⟩
  · intro hsame
    exact hdiffers (hinput.1 hsame)
  · intro hsame
    exact (hsecret.1 hsame).resolve_left hdiffers

end KeyRing

end RuneSettlement
