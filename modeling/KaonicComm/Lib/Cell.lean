import Mathlib.Logic.Function.Basic

/-!
# A scratch cell shared by several parties

A party puts a value into the cell, relies on it for a while and then releases it; nothing stops another party from
putting its own value meanwhile. The cell is sound while every party that relies on it finds its own value there
(`Sound`). Putting a value keeps it sound exactly when nobody else relies on another value (`sound_put`).
-/

/-- A cell, and the value each party still relies on. -/
structure Cell (ι β : Type*) where
  value : β
  held : ι → Option β

namespace Cell

variable {ι β : Type*}

/-- Every party that relies on the cell finds its own value. -/
def Sound (c : Cell ι β) : Prop := ∀ i v, c.held i = some v → c.value = v

variable [DecidableEq ι]

/-- Party `i` puts `v` and relies on it. -/
def put (c : Cell ι β) (i : ι) (v : β) : Cell ι β := ⟨v, Function.update c.held i (some v)⟩

/-- Party `i` does not rely on the cell any more. -/
def release (c : Cell ι β) (i : ι) : Cell ι β := ⟨c.value, Function.update c.held i none⟩

theorem put_held_self (c : Cell ι β) (i : ι) (v : β) : (c.put i v).held i = some v := Function.update_self ..

theorem put_held_of_ne (c : Cell ι β) {i j : ι} (v : β) (h : j ≠ i) : (c.put i v).held j = c.held j :=
  Function.update_of_ne h ..

theorem release_held_self (c : Cell ι β) (i : ι) : (c.release i).held i = none := Function.update_self ..

theorem release_held_of_ne (c : Cell ι β) {i j : ι} (h : j ≠ i) : (c.release i).held j = c.held j :=
  Function.update_of_ne h ..

/-- **Putting a value is safe exactly when nobody else relies on another one.** -/
theorem sound_put {c : Cell ι β} {i : ι} {v : β} :
    (c.put i v).Sound ↔ ∀ j, j ≠ i → ∀ w, c.held j = some w → w = v := by
  constructor
  · intro h j hj w hw
    exact (h j w (by rw [put_held_of_ne c v hj]; exact hw)).symm
  · intro h j w hw
    by_cases hj : j = i
    · rw [hj, put_held_self] at hw
      exact Option.some.inj hw
    · rw [put_held_of_ne c v hj] at hw
      exact (h j hj w hw).symm

theorem Sound.release {c : Cell ι β} (h : c.Sound) (i : ι) : (c.release i).Sound := by
  intro j w hw
  by_cases hj : j = i
  · rw [hj, release_held_self] at hw
    cases hw
  · rw [release_held_of_ne c hj] at hw
    exact h j w hw

end Cell
