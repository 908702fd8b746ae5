import Mathlib.Data.List.Nodup
import Mathlib.Data.List.Perm.Subperm

/-!
# The descriptor table of a process

A table gives each open descriptor its owner. `openLowest` takes the lowest free number, as `open` does, and `close`
frees a number, whoever opened it.

- `owner_lowestFree`: the number that `openLowest` takes is free, so a descriptor that is open keeps its owner
  (`owner_openLowest_of_owned`);
- `owner_close`: closing frees a number and no other.
-/

namespace Descriptors

variable {ω : Type*}

/-- The open descriptors, each with its owner. -/
structure Table (ω : Type*) where
  entries : List (Nat × ω)
  deriving DecidableEq, Repr

namespace Table

/-- The owner of a descriptor, `none` if it is not open. -/
def owner (t : Table ω) (n : Nat) : Option ω := t.entries.lookup n

/-- The lowest number that is free. One of the first numbers is, as there are only so many entries. -/
def lowestFree (t : Table ω) : Nat :=
  ((List.range (t.entries.length + 1)).find? fun n => (t.owner n).isNone).getD 0

/-- `open`. -/
def openLowest (t : Table ω) (who : ω) : Table ω := ⟨(t.lowestFree, who) :: t.entries⟩

/-- `close`; it does nothing to a number that is not open. -/
def close (t : Table ω) (n : Nat) : Table ω := ⟨t.entries.filter fun e => e.1 != n⟩

theorem owner_cons (e : Nat × ω) (es : List (Nat × ω)) (n : Nat) :
    owner ⟨e :: es⟩ n = if n = e.1 then some e.2 else owner ⟨es⟩ n := by
  obtain ⟨m, who⟩ := e
  by_cases hn : n = m
  · simp [owner, hn]
  · simp [owner, List.lookup_cons, hn, beq_false_of_ne hn]

/-- An open descriptor is that of an entry. -/
theorem mem_of_owner {n : Nat} {es : List (Nat × ω)} (h : owner ⟨es⟩ n ≠ none) : n ∈ es.map Prod.fst := by
  induction es with
  | nil => exact absurd rfl h
  | cons e es ih =>
    rw [owner_cons] at h
    by_cases hn : n = e.1
    · exact List.mem_cons.mpr (Or.inl hn)
    · rw [if_neg hn] at h
      exact List.mem_cons_of_mem _ (ih h)

theorem find_lowestFree (t : Table ω) :
    (List.range (t.entries.length + 1)).find? (fun n => (t.owner n).isNone) = some t.lowestFree := by
  cases h : (List.range (t.entries.length + 1)).find? fun n => (t.owner n).isNone with
  | some n => rw [lowestFree, h, Option.getD_some]
  | none =>
    -- otherwise there are more numbers than entries
    have hsub : List.range (t.entries.length + 1) ⊆ t.entries.map Prod.fst := by
      intro n hn
      have howner := List.find?_eq_none.mp h n hn
      exact mem_of_owner (by simpa using howner)
    have hlen := (List.nodup_range.subperm hsub).length_le
    rw [List.length_range, List.length_map] at hlen
    omega

/-- **The number that `openLowest` takes is free.** -/
theorem owner_lowestFree (t : Table ω) : t.owner t.lowestFree = none := by
  have h := List.find?_some t.find_lowestFree
  simpa using h

theorem owner_openLowest (t : Table ω) (who : ω) (n : Nat) :
    (t.openLowest who).owner n = if n = t.lowestFree then some who else t.owner n := owner_cons _ _ _

/-- A descriptor that is open keeps its owner. -/
theorem owner_openLowest_of_owned {t : Table ω} {who who' : ω} {n : Nat} (h : t.owner n = some who') :
    (t.openLowest who).owner n = some who' := by
  rw [owner_openLowest, if_neg, h]
  rintro rfl
  rw [owner_lowestFree] at h
  cases h

/-- **Closing frees a number and no other.** -/
theorem owner_close (t : Table ω) (m n : Nat) : (t.close n).owner m = if m = n then none else t.owner m := by
  obtain ⟨es⟩ := t
  induction es with
  | nil => exact (ite_self _).symm
  | cons e es ih =>
    have hclose : close ⟨e :: es⟩ n = if e.1 = n then close ⟨es⟩ n else ⟨e :: (close ⟨es⟩ n).entries⟩ := by
      by_cases he : e.1 = n <;> simp [close, he]
    rw [hclose, owner_cons]
    by_cases he : e.1 = n
    · rw [if_pos he, ih, he]
      split <;> rfl
    · rw [if_neg he, owner_cons, show owner ⟨(close ⟨es⟩ n).entries⟩ m = (close ⟨es⟩ n).owner m from rfl, ih]
      by_cases hm : m = n
      · rw [if_pos hm, if_pos hm, if_neg fun h => he (h.symm.trans hm)]
      · rw [if_neg hm, if_neg hm]

end Table

end Descriptors
