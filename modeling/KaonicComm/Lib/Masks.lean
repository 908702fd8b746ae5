import Mathlib.Data.Nat.Bitwise
import Mathlib.Data.Nat.Log
import Mathlib.Data.Set.Function

/-!
# Numbers OR-ed into a mask

A number OR-ed into a mask is known as far as the bits that the mask leaves clear (`or_left_inj_iff`). The numbers from
`1` to `n` stay apart in a mask whose lowest bit is clear exactly when it leaves clear every bit whose value is below
`n` (`or_injOn_iff`).
-/

namespace Masks

/-- What is OR-ed into a mask is known as far as its bits are clear. -/
theorem or_left_inj_iff (m a b : Nat) :
    m ||| a = m ||| b ↔ ∀ k, m.testBit k = false → a.testBit k = b.testBit k := by
  constructor
  · intro h k hk
    have hbit := congrArg (·.testBit k) h
    simpa [Nat.testBit_or, hk] using hbit
  · intro h
    apply Nat.eq_of_testBit_eq
    intro k
    rw [Nat.testBit_or, Nat.testBit_or]
    cases hk : m.testBit k with
    | true => rfl
    | false => rw [h k hk]

/-- Numbers from `1` to `2 ^ w` are told apart by their lowest `w` bits. -/
theorem eq_of_testBit {w a b : Nat} (ha : 0 < a ∧ a ≤ 2 ^ w) (hb : 0 < b ∧ b ≤ 2 ^ w)
    (h : ∀ k < w, a.testBit k = b.testBit k) : a = b := by
  have hmod : a % 2 ^ w = b % 2 ^ w := by
    apply Nat.eq_of_testBit_eq
    intro k
    rw [Nat.testBit_mod_two_pow, Nat.testBit_mod_two_pow]
    by_cases hk : k < w
    · rw [h k hk]
    · simp [hk]
  -- only `2 ^ w` itself has the residue `0`
  rcases Nat.lt_or_eq_of_le ha.2 with hlt | rfl
  · rcases Nat.lt_or_eq_of_le hb.2 with hlt' | rfl
    · rwa [Nat.mod_eq_of_lt hlt, Nat.mod_eq_of_lt hlt'] at hmod
    · rw [Nat.mod_eq_of_lt hlt, Nat.mod_self] at hmod
      exact absurd hmod (Nat.ne_of_gt ha.1)
  · rcases Nat.lt_or_eq_of_le hb.2 with hlt' | rfl
    · rw [Nat.mod_eq_of_lt hlt', Nat.mod_self] at hmod
      exact absurd hmod.symm (Nat.ne_of_gt hb.1)
    · rfl

/-- **The numbers up to `n` stay apart exactly when the mask leaves clear the bits below `n`.** -/
theorem or_injOn_iff {m : Nat} (hm : m.testBit 0 = false) (n : Nat) :
    Set.InjOn (m ||| ·) {a | 0 < a ∧ a ≤ n} ↔ ∀ k, 2 ^ k < n → m.testBit k = false := by
  constructor
  · intro h k hk
    by_contra hset
    have hset : m.testBit k = true := by simpa using hset
    have hpos : 0 < k := by
      rcases Nat.eq_zero_or_pos k with rfl | hpos
      · rw [hm] at hset
        cases hset
      · exact hpos
    -- `1` and `2 ^ k + 1` differ in the bit `k` alone
    have hone : m ||| 1 = m ||| (2 ^ k + 1) := by
      rw [or_left_inj_iff]
      intro j hj
      have hjk : k ≠ j := fun e => by rw [e, hj] at hset; cases hset
      have hor := Nat.two_pow_add_eq_or_of_lt (Nat.one_lt_two_pow (Nat.ne_of_gt hpos)) 1
      rw [Nat.mul_one] at hor
      rw [hor, Nat.testBit_or, Nat.testBit_two_pow_of_ne hjk, Bool.false_or]
    have heq := h ⟨Nat.one_pos, Nat.le_of_lt (Nat.lt_of_le_of_lt Nat.one_le_two_pow hk)⟩ ⟨Nat.succ_pos _, hk⟩ hone
    have hpow : 0 < 2 ^ k := Nat.two_pow_pos k
    omega
  · intro h a ha b hb hab
    refine eq_of_testBit (w := Nat.clog 2 n) ⟨ha.1, ?_⟩ ⟨hb.1, ?_⟩ fun k hk => ?_
    · exact Nat.le_trans ha.2 (Nat.le_pow_clog Nat.one_lt_two n)
    · exact Nat.le_trans hb.2 (Nat.le_pow_clog Nat.one_lt_two n)
    · exact (or_left_inj_iff m a b).mp hab k (h k ((Nat.lt_clog_iff_pow_lt Nat.one_lt_two).mp hk))

end Masks
