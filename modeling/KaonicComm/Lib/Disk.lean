import Mathlib.Data.Prod.Basic
import Mathlib.Logic.Function.Basic

/-!
# Paths and the files behind them

A path names a file. `unlink` takes the name away, and whoever has the file open goes on with it; a file that is made
under the name later is another one. So a file stands at a place, which is its path and the number of files that had
this name before.

- `files_put_place`, `files_unlink`: what the paths name after a file was put in its place and after `unlink`;
- `All`: what holds of every file, also of those without a name, and is kept by both (`All.put`, `All.unlink`).
-/

/-- How often each path was taken away, and the file at each place. -/
structure Disk (P F : Type*) where
  unlinked : P → Nat
  file : P × Nat → Option F

namespace Disk

variable {P F : Type*}

/-- A disk with these files. -/
def ofFiles (fs : P → Option F) : Disk P F where
  unlinked := fun _ => 0
  file := fun a => if a.2 = 0 then fs a.1 else none

/-- The place that a path names. -/
def place (d : Disk P F) (p : P) : P × Nat := (p, d.unlinked p)

/-- The files by their paths. -/
def files (d : Disk P F) : P → Option F := fun p => d.file (d.place p)

@[simp] theorem files_ofFiles (fs : P → Option F) : (ofFiles fs).files = fs := by
  funext p
  simp [files, ofFiles, place]

/-- What holds of every file. -/
def All (Q : P → F → Prop) (d : Disk P F) : Prop := ∀ a f, d.file a = some f → Q a.1 f

variable {Q : P → F → Prop} {d : Disk P F}

theorem all_ofFiles {fs : P → Option F} (h : ∀ p f, fs p = some f → Q p f) : All Q (ofFiles fs) := by
  intro a f hf
  simp only [ofFiles] at hf
  split at hf
  · exact h a.1 f hf
  · cases hf

theorem All.files (h : All Q d) {p : P} {f : F} (hf : d.files p = some f) : Q p f := h (d.place p) f hf

variable [DecidableEq P]

/-- The disk with a file at a place. -/
def put (d : Disk P F) (a : P × Nat) (f : F) : Disk P F := { d with file := Function.update d.file a (some f) }

/-- `unlink`. -/
def unlink (d : Disk P F) (p : P) : Disk P F where
  unlinked := Function.update d.unlinked p (d.unlinked p + 1)
  file := Function.update d.file (p, d.unlinked p + 1) none

@[simp] theorem place_put (d : Disk P F) (a : P × Nat) (f : F) (p : P) : (d.put a f).place p = d.place p := rfl

/-- **A file that is put where a path is gets its name.** -/
theorem files_put_place (d : Disk P F) (p : P) (f : F) :
    (d.put (d.place p) f).files = Function.update d.files p (some f) := by
  funext q
  by_cases hq : q = p
  · subst hq
    rw [Function.update_self]
    exact Function.update_self ..
  · rw [Function.update_of_ne hq]
    exact Function.update_of_ne (fun h => hq (congrArg Prod.fst h)) ..

/-- **`unlink` takes one name away.** -/
theorem files_unlink (d : Disk P F) (p : P) : (d.unlink p).files = Function.update d.files p none := by
  funext q
  by_cases hq : q = p
  · subst hq
    have hplace : (d.unlink q).place q = (q, d.unlinked q + 1) := by
      simp [place, unlink]
    rw [Function.update_self, files, hplace]
    exact Function.update_self ..
  · have hplace : (d.unlink p).place q = d.place q := by
      simp [place, unlink, hq]
    rw [Function.update_of_ne hq, files, hplace]
    exact Function.update_of_ne (fun h => hq (congrArg Prod.fst h)) ..

theorem All.put (h : All Q d) {a : P × Nat} {f : F} (hf : Q a.1 f) : All Q (d.put a f) := by
  intro a' f' hf'
  by_cases ha : a' = a
  · subst ha
    have hf' : Function.update d.file a' (some f) a' = some f' := hf'
    rw [Function.update_self, Option.some.injEq] at hf'
    exact hf' ▸ hf
  · have hf' : Function.update d.file a (some f) a' = some f' := hf'
    rw [Function.update_of_ne ha] at hf'
    exact h a' f' hf'

theorem All.unlink (h : All Q d) (p : P) : All Q (d.unlink p) := by
  intro a f hf
  have hf : Function.update d.file (p, d.unlinked p + 1) none a = some f := hf
  by_cases ha : a = (p, d.unlinked p + 1)
  · rw [ha, Function.update_self] at hf
    cases hf
  · rw [Function.update_of_ne ha] at hf
    exact h a f hf

end Disk
