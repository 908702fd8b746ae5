import Mathlib.Algebra.Group.Nat.Defs
import Mathlib.Data.List.Forall2

/-!
# Fields of bits in a word

A shape gives for each field its lowest bit and its width. `pack` ORs values into a word, each shifted to its field, and
`read` reads the fields of a word. Values that fit fields apart from each other are read back (`read_pack`), so no two
lists of such values have the same word (`pack_injective`).
-/

namespace BitFields

/-- The lowest bit and the width of a field. -/
structure Field where
  shift : Nat
  width : Nat
  deriving DecidableEq, Repr

/-- The word of some values, each shifted to its field. -/
def pack : List Field → List Nat → Nat
  | f :: fs, v :: vs => v <<< f.shift ||| pack fs vs
  | _, _ => 0

/-- The value of a field. -/
def Field.read (f : Field) (x : Nat) : Nat := (x >>> f.shift) % 2 ^ f.width

/-- The values of the fields of a word. -/
def read (fs : List Field) (x : Nat) : List Nat := fs.map fun f => f.read x

/-- Two fields have no bit in common. -/
def Apart (f g : Field) : Prop := f.shift + f.width ≤ g.shift ∨ g.shift + g.width ≤ f.shift

instance : DecidableRel Apart := fun _ _ => inferInstanceAs (Decidable (_ ∨ _))

/-- Every value fits its field. -/
def Fits (fs : List Field) (vs : List Nat) : Prop := List.Forall₂ (fun f v => v < 2 ^ f.width) fs vs

theorem Field.read_or (f : Field) (x y : Nat) : f.read (x ||| y) = f.read x ||| f.read y := by
  rw [read, Nat.shiftRight_or_distrib, Nat.or_mod_two_pow]
  rfl

/-- A field reads what was shifted to it. -/
theorem Field.read_shiftLeft {f : Field} {v : Nat} (h : v < 2 ^ f.width) : f.read (v <<< f.shift) = v := by
  rw [read, Nat.shiftLeft_shiftRight, Nat.mod_eq_of_lt h]

theorem Field.testBit_read (f : Field) (x i : Nat) :
    (f.read x).testBit i = (decide (i < f.width) && x.testBit (f.shift + i)) := by
  rw [read, Nat.testBit_mod_two_pow, Nat.testBit_shiftRight]

/-- A field reads nothing of what was shifted to a field apart from it. -/
theorem Field.read_shiftLeft_of_apart {f g : Field} (hfg : Apart f g) {v : Nat} (h : v < 2 ^ g.width) :
    f.read (v <<< g.shift) = 0 := by
  apply Nat.eq_of_testBit_eq
  intro i
  rw [testBit_read, Nat.testBit_shiftLeft, Nat.zero_testBit]
  rcases hfg with hle | hle
  · -- the other field starts above the last bit
    by_cases hi : i < f.width
    · simp [show ¬g.shift ≤ f.shift + i by omega]
    · simp [hi]
  · have hlt : v < 2 ^ (f.shift + i - g.shift) :=
      Nat.lt_of_lt_of_le h (Nat.pow_le_pow_right Nat.two_pos (by omega))
    rw [Nat.testBit_lt_two_pow hlt, Bool.and_false, Bool.and_false]

/-- A field reads nothing of values in fields apart from it. -/
theorem Field.read_pack_of_apart {f : Field} {fs : List Field} {vs : List Nat} (hfit : Fits fs vs)
    (hf : ∀ g ∈ fs, Apart f g) : f.read (pack fs vs) = 0 := by
  induction hfit with
  | nil => simp [pack, read]
  | @cons g v fs vs hv _ ih =>
    rw [pack, read_or, read_shiftLeft_of_apart (hf g List.mem_cons_self) hv,
      ih fun g' hg' => hf g' (List.mem_cons_of_mem _ hg')]
    rfl

theorem Apart.symm {f g : Field} (h : Apart f g) : Apart g f := Or.symm h

/-- **Values that fit fields apart from each other are read back.** -/
theorem read_pack {fs : List Field} {vs : List Nat} (hapart : fs.Pairwise Apart) (hfit : Fits fs vs) :
    read fs (pack fs vs) = vs := by
  induction hfit with
  | nil => rfl
  | @cons f v fs vs hv hfit ih =>
    obtain ⟨hf, hapart⟩ := List.pairwise_cons.mp hapart
    have hhead : f.read (v <<< f.shift ||| pack fs vs) = v := by
      rw [Field.read_or, Field.read_shiftLeft hv, Field.read_pack_of_apart hfit hf, Nat.or_zero]
    have htail : read fs (v <<< f.shift ||| pack fs vs) = read fs (pack fs vs) := by
      apply List.map_congr_left
      intro g hg
      rw [Field.read_or, Field.read_shiftLeft_of_apart (hf g hg).symm hv, Nat.zero_or]
    rw [pack, read, List.map_cons, hhead, ← read, htail, ih hapart]

/-- **No two lists of values have the same word.** -/
theorem pack_injective {fs : List Field} {vs vs' : List Nat} (hapart : fs.Pairwise Apart) (hfit : Fits fs vs)
    (hfit' : Fits fs vs') (h : pack fs vs = pack fs vs') : vs = vs' := by
  rw [← read_pack hapart hfit, h, read_pack hapart hfit']

end BitFields
