import Mathlib.Algebra.BigOperators.Group.List.Basic
import Mathlib.Algebra.GroupWithZero.Nat
import Mathlib.Order.Basic

/-!
# Runs of a partial step function

A system is a step function `step : σ → α → Option σ`: the action carries every choice that the environment or the
scheduler makes, and `none` says that the action is not enabled. A run is a list of actions (`run`), so a statement
about every list of actions is a statement about every interleaving.

- `Along step P s as`: every action of the run meets `P` in the state in which it is taken. Conditions on the steps
  of a run are stated this way.
- `observed step obs s as`: what the actions of the run show in the states in which they are taken.
- `run_inv`: what every step meeting the condition keeps holds after every run meeting it.
- `run_iff`: what a step keeps exactly when it meets the condition holds after exactly the runs that meet it.
- `run_potential`, `run_count`, `run_log`: what the steps of a run spend is paid by what they earn, and what they add
  is counted, or is the log.
- `run_refines`: where every step is matched by a run of another system, so is every run.
-/

namespace Runs

variable {σ α : Type*}

/-- Taking a list of actions, one after the other; `none` when one of them is not enabled. -/
def run (step : σ → α → Option σ) : σ → List α → Option σ
  | s, [] => some s
  | s, a :: as => (step s a).bind fun s' => run step s' as

/-- Every action of the run meets `P` in the state in which it is taken. -/
def Along (step : σ → α → Option σ) (P : σ → α → Prop) : σ → List α → Prop
  | _, [] => True
  | s, a :: as => P s a ∧ ∀ s', step s a = some s' → Along step P s' as

variable {step : σ → α → Option σ} {P Q : σ → α → Prop}

theorem run_cons {s s' : σ} {a : α} {as : List α} :
    run step s (a :: as) = some s' ↔ ∃ t, step s a = some t ∧ run step t as = some s' := by
  simp only [run, Option.bind_eq_some_iff]

theorem run_append (s : σ) (as bs : List α) :
    run step s (as ++ bs) = (run step s as).bind fun s' => run step s' bs := by
  induction as generalizing s with
  | nil => rfl
  | cons a as ih =>
    simp only [List.cons_append, run, Option.bind_assoc]
    cases step s a with
    | none => rfl
    | some t => exact ih t

/-- The last action of a run. -/
theorem run_concat {s s' : σ} {as : List α} {a : α} :
    run step s (as ++ [a]) = some s' ↔ ∃ t, run step s as = some t ∧ step t a = some s' := by
  rw [run_append, Option.bind_eq_some_iff]
  simp only [run, Option.bind_fun_some]

/-- A run that is known step by step. -/
theorem Along.cons {s t : σ} {a : α} {as : List α} (hP : P s a) (ht : step s a = some t) (h : Along step P t as) :
    Along step P s (a :: as) := by
  refine ⟨hP, fun s' hs => ?_⟩
  rw [ht] at hs
  cases hs
  exact h

/-- A condition that can be decided in each state can be decided along a run. -/
instance Along.decidable [∀ s a, Decidable (P s a)] : ∀ (s : σ) (as : List α), Decidable (Along step P s as)
  | _, [] => isTrue trivial
  | s, a :: as =>
    match h : step s a with
    | none => decidable_of_iff (P s a) ⟨fun hP => ⟨hP, fun s' hs => by rw [h] at hs; cases hs⟩, And.left⟩
    | some t =>
      have := Along.decidable t as
      decidable_of_iff (P s a ∧ Along step P t as) ⟨fun hP => .cons hP.1 h hP.2, fun hP => ⟨hP.1, hP.2 t h⟩⟩

/-- Two conditions on one run. -/
theorem Along.and {as : List α} : ∀ {s : σ}, Along step P s as → Along step Q s as →
    Along step (fun s a => P s a ∧ Q s a) s as := by
  induction as with
  | nil => exact fun _ _ => trivial
  | cons a as ih => exact fun hP hQ => ⟨⟨hP.1, hQ.1⟩, fun t ht => ih (hP.2 t ht) (hQ.2 t ht)⟩

/-- A run in two parts. -/
theorem Along.append {as bs : List α} : ∀ {s : σ}, Along step P s as →
    (∀ t, run step s as = some t → Along step P t bs) → Along step P s (as ++ bs) := by
  induction as with
  | nil => exact fun _ h => h _ rfl
  | cons a as ih =>
    exact fun h hb => ⟨h.1, fun t ht => ih (h.2 t ht) fun u hu => hb u (run_cons.mpr ⟨t, ht, hu⟩)⟩

/-- A condition that follows from another one in the states that it keeps. -/
theorem Along.of_inv {I : σ → Prop} (hstep : ∀ s a s', I s → P s a → step s a = some s' → I s')
    (hQ : ∀ s a, I s → P s a → Q s a) {as : List α} : ∀ {s : σ}, I s → Along step P s as → Along step Q s as := by
  induction as with
  | nil => exact fun _ _ => trivial
  | cons a as ih => exact fun hI h => ⟨hQ _ _ hI h.1, fun s' hs => ih (hstep _ _ _ hI h.1 hs) (h.2 s' hs)⟩

/-- A condition on the actions alone. -/
theorem along_of_forall {as : List α} (h : ∀ s, ∀ a ∈ as, P s a) : ∀ s, Along step P s as := by
  induction as with
  | nil => exact fun _ => trivial
  | cons a as ih =>
    exact fun s => ⟨h s a List.mem_cons_self, fun s' _ => ih (fun t b hb => h t b (List.mem_cons_of_mem _ hb)) s'⟩

/-- What the actions of a run show in the states in which they are taken, in their order. -/
def observed {β : Type*} (step : σ → α → Option σ) (obs : σ → α → List β) : σ → List α → List β
  | _, [] => []
  | s, a :: as =>
    obs s a ++
      match step s a with
      | none => []
      | some t => observed step obs t as

theorem observed_cons {β : Type*} {obs : σ → α → List β} {s t : σ} {a : α} {as : List α} (h : step s a = some t) :
    observed step obs s (a :: as) = obs s a ++ observed step obs t as := by
  rw [observed, h]

theorem observed_append {β : Type*} {obs : σ → α → List β} {as bs : List α} : ∀ {s t : σ}, run step s as = some t →
    observed step obs s (as ++ bs) = observed step obs s as ++ observed step obs t bs := by
  induction as with
  | nil =>
    intro s t h
    cases h
    rfl
  | cons a as ih =>
    intro s t h
    obtain ⟨u, hu, h⟩ := run_cons.mp h
    rw [List.cons_append, observed_cons hu, observed_cons hu, ih h, List.append_assoc]

/-- **What every step meeting the condition keeps holds after every run meeting it.** -/
theorem run_inv {I : σ → Prop} (hstep : ∀ s a s', I s → P s a → step s a = some s' → I s') {as : List α} :
    ∀ {s s' : σ}, I s → Along step P s as → run step s as = some s' → I s' := by
  induction as with
  | nil =>
    intro s s' hI _ h
    cases h
    exact hI
  | cons a as ih =>
    intro s s' hI hP h
    obtain ⟨t, ht, h⟩ := run_cons.mp h
    exact ih (hstep s a t hI hP.1 ht) (hP.2 t ht) h

/-- What every step keeps holds after every run. -/
theorem run_keeps {I : σ → Prop} (hstep : ∀ s a s', I s → step s a = some s' → I s') {s s' : σ} {as : List α}
    (hI : I s) (h : run step s as = some s') : I s' :=
  run_inv (P := fun _ _ => True) (fun s a s' hI _ => hstep s a s' hI) hI (along_of_forall (fun _ _ _ => trivial) s) h

/-- What the actions of one kind add. -/
theorem sum_weight (p : α → Bool) (n : Nat) (as : List α) :
    (as.map fun a => if p a then n else 0).sum = n * as.countP p := by
  induction as with
  | nil => rfl
  | cons a as ih =>
    rw [List.map_cons, List.sum_cons, ih, List.countP_cons]
    split
    · rw [Nat.mul_add, Nat.mul_one, Nat.add_comm]
    · rw [Nat.zero_add, Nat.add_zero]

/-- **A potential pays for a run**: where each step spends at most what it finds and earns, so does the run. -/
theorem run_potential {pot : σ → Nat} {spends earns : α → Nat}
    (hstep : ∀ s a s', P s a → step s a = some s' → pot s' + spends a ≤ pot s + earns a) {as : List α} :
    ∀ {s s' : σ}, Along step P s as → run step s as = some s' →
      pot s' + (as.map spends).sum ≤ pot s + (as.map earns).sum := by
  induction as with
  | nil =>
    intro s s' _ h
    cases h
    exact Nat.le_refl _
  | cons a as ih =>
    intro s s' hP h
    obtain ⟨t, ht, h⟩ := run_cons.mp h
    have hfirst := hstep s a t hP.1 ht
    have hrest := ih (hP.2 t ht) h
    simp only [List.map_cons, List.sum_cons]
    omega

/-- What each step adds adds up over a run. -/
theorem run_count {f : σ → Nat} {adds : α → Nat}
    (hstep : ∀ s a s', P s a → step s a = some s' → f s' = f s + adds a) {as : List α} :
    ∀ {s s' : σ}, Along step P s as → run step s as = some s' → f s' = f s + (as.map adds).sum := by
  induction as with
  | nil =>
    intro s s' _ h
    cases h
    rfl
  | cons a as ih =>
    intro s s' hP h
    obtain ⟨t, ht, h⟩ := run_cons.mp h
    have hfirst := hstep s a t hP.1 ht
    have hrest := ih (hP.2 t ht) h
    simp only [List.map_cons, List.sum_cons]
    omega

/-- What each step appends is appended by a run. -/
theorem run_log {β : Type*} {log : σ → List β} {adds : α → List β}
    (hstep : ∀ s a s', step s a = some s' → log s' = log s ++ adds a) {as : List α} :
    ∀ {s s' : σ}, run step s as = some s' → log s' = log s ++ as.flatMap adds := by
  induction as with
  | nil =>
    intro s s' h
    cases h
    exact (List.append_nil _).symm
  | cons a as ih =>
    intro s s' h
    obtain ⟨t, ht, h⟩ := run_cons.mp h
    rw [ih h, hstep s a t ht, List.flatMap_cons, List.append_assoc]

/-- **Where every step is matched by a run of another system, so is every run.** -/
theorem run_refines {τ β : Type*} {other : τ → β → Option τ} {R : σ → τ → Prop}
    (hstep : ∀ s a s' t, R s t → step s a = some s' → ∃ bs t', run other t bs = some t' ∧ R s' t') {as : List α} :
    ∀ {s s' : σ} {t : τ}, R s t → run step s as = some s' → ∃ bs t', run other t bs = some t' ∧ R s' t' := by
  induction as with
  | nil =>
    intro s s' t hR h
    cases h
    exact ⟨[], t, rfl, hR⟩
  | cons a as ih =>
    intro s s' t hR h
    obtain ⟨s₁, hs₁, h⟩ := run_cons.mp h
    obtain ⟨bs, t₁, ht₁, hR₁⟩ := hstep s a s₁ t hR hs₁
    obtain ⟨bs', t', ht', hR'⟩ := ih hR₁ h
    refine ⟨bs ++ bs', t', ?_, hR'⟩
    rw [run_append, ht₁]
    exact ht'

/-- **What a step keeps exactly when it meets the condition holds after exactly the runs that meet it.** -/
theorem run_iff {I K : σ → Prop} (hstep : ∀ s a s', I s → step s a = some s' → I s')
    (hK : ∀ s a s', I s → step s a = some s' → (K s' ↔ K s ∧ P s a)) {as : List α} :
    ∀ {s s' : σ}, I s → run step s as = some s' → (K s' ↔ K s ∧ Along step P s as) := by
  induction as with
  | nil =>
    intro s s' _ h
    cases h
    exact (and_iff_left trivial).symm
  | cons a as ih =>
    intro s s' hI h
    obtain ⟨t, ht, h⟩ := run_cons.mp h
    rw [ih (hstep s a t hI ht) h, hK s a t hI ht, and_assoc]
    refine and_congr_right fun _ => and_congr_right fun _ => ?_
    constructor
    · intro hP s' hs'
      rw [ht] at hs'
      cases hs'
      exact hP
    · exact fun hP => hP t ht

end Runs
