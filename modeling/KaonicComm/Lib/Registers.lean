import Mathlib.Logic.Function.Basic

/-!
# Register files

A device is a function from registers to values. `writeAll` makes a list of writes in their order, `lastWrite` is what a
list of writes leaves in a register (`writeAll_apply`), and `Holds` says that a device has what a list of writes leaves,
wherever it was before (`holds_writeAll`). After the same writes two devices have the same in a register exactly when
they wrote it or it was the same before (`writeAll_eq_iff`), and writes to the same registers, once to each, are the
same if they leave the same (`eq_of_lastWrite`).
-/

namespace Registers

variable {ρ β : Type*} [DecidableEq ρ]

/-- One write. -/
def write (regs : ρ → β) (w : ρ × β) : ρ → β := Function.update regs w.1 w.2

/-- Writes in their order. -/
def writeAll (regs : ρ → β) (ws : List (ρ × β)) : ρ → β := ws.foldl write regs

/-- The value that a list of writes leaves in a register. -/
def lastWrite (r : ρ) : List (ρ × β) → Option β
  | [] => none
  | w :: ws => (lastWrite r ws).or (if w.1 = r then some w.2 else none)

/-- The device has what the writes leave. -/
def Holds (regs : ρ → β) (ws : List (ρ × β)) : Prop := ∀ r v, lastWrite r ws = some v → regs r = v

theorem writeAll_append (regs : ρ → β) (ws vs : List (ρ × β)) :
    writeAll regs (ws ++ vs) = writeAll (writeAll regs ws) vs := List.foldl_append

/-- A register after some writes. -/
theorem writeAll_apply (regs : ρ → β) (ws : List (ρ × β)) (r : ρ) :
    writeAll regs ws r = (lastWrite r ws).getD (regs r) := by
  induction ws generalizing regs with
  | nil => rfl
  | cons w ws ih =>
    show writeAll (write regs w) ws r = _
    rw [ih, lastWrite]
    cases lastWrite r ws with
    | some v => rfl
    | none =>
      by_cases hr : w.1 = r
      · subst hr
        simp [write]
      · simp [write, hr, Function.update_of_ne (Ne.symm hr)]

/-- **The writes hold after they were made.** -/
theorem holds_writeAll (regs : ρ → β) (ws : List (ρ × β)) : Holds (writeAll regs ws) ws := by
  intro r v h
  rw [writeAll_apply, h, Option.getD_some]

/-- What the second of two lists of writes does not leave is left by the first one. -/
theorem lastWrite_append (r : ρ) (ws vs : List (ρ × β)) :
    lastWrite r (ws ++ vs) = (lastWrite r vs).or (lastWrite r ws) := by
  induction ws with
  | nil => exact (Option.or_none).symm
  | cons w ws ih => rw [List.cons_append, lastWrite, ih, lastWrite, Option.or_assoc]

theorem lastWrite_eq_none_iff (r : ρ) (ws : List (ρ × β)) : lastWrite r ws = none ↔ r ∉ ws.map Prod.fst := by
  induction ws with
  | nil => exact iff_of_true rfl List.not_mem_nil
  | cons w ws ih =>
    rw [lastWrite, Option.or_eq_none_iff, ih, List.map_cons, List.mem_cons, not_or, and_comm]
    refine and_congr_left fun _ => ?_
    by_cases hr : w.1 = r
    · simp [hr]
    · simp [hr, Ne.symm hr]

/-- Writes to the same registers that make the same device leave the same in every register. -/
theorem lastWrite_eq_of_writeAll {regs : ρ → β} {ws vs : List (ρ × β)} (hregs : ws.map Prod.fst = vs.map Prod.fst)
    (h : writeAll regs ws = writeAll regs vs) (r : ρ) : lastWrite r ws = lastWrite r vs := by
  have hr := congrFun h r
  rw [writeAll_apply, writeAll_apply] at hr
  have hnone : lastWrite r ws = none ↔ lastWrite r vs = none := by
    rw [lastWrite_eq_none_iff, lastWrite_eq_none_iff, hregs]
  cases hw : lastWrite r ws with
  | none => exact (hnone.mp hw).symm
  | some v =>
    cases hv : lastWrite r vs with
    | none => rw [hnone.mpr hv] at hw; cases hw
    | some u =>
      rw [hw, hv] at hr
      exact congrArg some hr

/-- **Writes to the same registers, once to each, are the same if they leave the same.** -/
theorem eq_of_lastWrite {ws : List (ρ × β)} : ∀ {vs : List (ρ × β)}, ws.map Prod.fst = vs.map Prod.fst →
    (ws.map Prod.fst).Nodup → (∀ r, lastWrite r ws = lastWrite r vs) → ws = vs := by
  induction ws with
  | nil =>
    intro vs hregs _ _
    exact (List.map_eq_nil_iff.mp hregs.symm).symm
  | cons w ws ih =>
    intro vs hregs hnodup h
    obtain _ | ⟨v, vs⟩ := vs
    · cases hregs
    obtain ⟨hhead, htail⟩ := List.cons.inj hregs
    obtain ⟨hw, hnodup⟩ := List.nodup_cons.mp hnodup
    have hnone := (lastWrite_eq_none_iff w.1 ws).mpr hw
    have hnone' : lastWrite w.1 vs = none := (lastWrite_eq_none_iff w.1 vs).mpr (htail ▸ hw)
    have hvalue : w.2 = v.2 := by
      have := h w.1
      rw [lastWrite, lastWrite, hnone, hnone', if_pos rfl, if_pos hhead.symm] at this
      exact Option.some.inj this
    have hrest : ws = vs := by
      refine ih htail hnodup fun r => ?_
      have hr := h r
      rw [lastWrite, lastWrite] at hr
      by_cases hwr : w.1 = r
      · rw [← hwr, hnone, hnone']
      · rwa [if_neg hwr, if_neg (hhead ▸ hwr), Option.or_none, Option.or_none] at hr
    rw [hrest, Prod.ext hhead hvalue]

/-- **The same writes to two devices** show what they had before in the registers that were not written. -/
theorem writeAll_eq_iff (regs regs' : ρ → β) (ws : List (ρ × β)) (r : ρ) :
    writeAll regs ws r = writeAll regs' ws r ↔ (lastWrite r ws = none → regs r = regs' r) := by
  rw [writeAll_apply, writeAll_apply]
  cases lastWrite r ws with
  | none => simp
  | some v => simp

end Registers
