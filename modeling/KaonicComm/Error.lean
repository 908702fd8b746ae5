/-!
# `error`

The result of the calls of the radio and of the serial port. A sum of errors is ok exactly when all of them are
(`ErrorCode.plus_eq_ok_iff`).
-/

namespace KaonicComm

/-- `error_code`. -/
inductive ErrorCode where
  | ok
  | fail
  | invalidArg
  | preconditionFailed
  | timeout
  | notReady
  deriving DecidableEq, Repr

/-- `error::from_rc`. -/
def ErrorCode.fromRc (rc : Int) : ErrorCode := if rc < 0 then .fail else .ok

/-- `error::operator+=`. -/
def ErrorCode.plus (a b : ErrorCode) : ErrorCode := if a ≠ .ok ∨ b ≠ .ok then .fail else a

theorem ErrorCode.fromRc_eq_ok_iff (rc : Int) : fromRc rc = .ok ↔ 0 ≤ rc := by
  unfold fromRc
  split
  · rename_i h
    exact ⟨fun he => (by cases he), fun hrc => absurd h (Int.not_lt.mpr hrc)⟩
  · rename_i h
    exact ⟨fun _ => Int.not_lt.mp h, fun _ => rfl⟩

/-- **An error is not lost by adding others.** -/
theorem ErrorCode.plus_eq_ok_iff (a b : ErrorCode) : plus a b = .ok ↔ a = .ok ∧ b = .ok := by
  cases a <;> cases b <;> decide

end KaonicComm
