import KaonicComm.Lib.Runs
import Mathlib.Data.Finset.Erase
import Mathlib.Data.Finset.Insert
import Mathlib.Logic.Function.Basic
import Mathlib.Logic.Relation
import Mathlib.Order.WellFounded

/-!
# Threads with locks

A program (`Program`) gives the moves of a thread: it takes a lock, releases one, calls an object that a lock guards
(an event, with the answer of the object), or does something of its own. Any number of threads take their moves in any
order (`step`). An object answers as its history allows (`admits`); who holds which lock at a place of the program is
the annotation `holds`, which `Disciplined` checks move by move, with the order in which locks are taken.

- `owned_run`: a lock belongs to the thread whose place holds it.
- `progress`: a thread that is not at rest waits, over the owners of locks, for a thread that can take a step.
- `sections_run`: the history of an object consists of whole critical sections, each of one thread, and of the section
  that the owner of the lock has begun.
-/

namespace Locks

open Runs

variable {T L P E C : Type*}

/-- A move of a thread, to the place `next`. -/
inductive Move (L P E : Type*) where
  | acquire (l : L) (next : P)
  | release (l : L) (next : P)
  /-- The object under `l` is called and answers. -/
  | event (l : L) (e : E) (next : P)
  | skip (next : P)

/-- Where a move leads. -/
def Move.target : Move L P E → P
  | .acquire _ q | .release _ q | .event _ _ q | .skip q => q

/-- The lock that a move is about. -/
def Move.lock : Move L P E → Option L
  | .acquire l _ | .release l _ | .event l _ _ => some l
  | .skip _ => none

/-- A program with places `P`, in which a choice of `C` picks the move. -/
structure Program (L P E C : Type*) where
  next : P → C → Option (Move L P E)
  /-- The object under a lock can answer with an event after a history. -/
  admits : L → List E → E → Bool
  /-- The locks that are held at a place. -/
  holds : P → Finset L

/-- Where the threads stand, who owns the locks, and what was done under each of them (ghost). -/
structure State (T L P E : Type*) where
  pc : T → P
  owner : L → Option T
  log : L → List (T × E)

/-- No lock is taken. -/
def init (pc : T → P) : State T L P E where
  pc := pc
  owner := fun _ => none
  log := fun _ => []

/-- What an object has answered. -/
def State.history (s : State T L P E) (l : L) : List E := (s.log l).map Prod.snd

section

variable [DecidableEq T] [DecidableEq L]

/-- Thread `t` takes a move. -/
def take (prog : Program L P E C) (s : State T L P E) (t : T) : Move L P E → Option (State T L P E)
  | .acquire l q =>
    if s.owner l = none then
      some { s with pc := Function.update s.pc t q, owner := Function.update s.owner l (some t) }
    else none
  | .release l q => some { s with pc := Function.update s.pc t q, owner := Function.update s.owner l none }
  | .event l e q =>
    if prog.admits l (s.history l) e then
      some { s with pc := Function.update s.pc t q, log := Function.update s.log l (s.log l ++ [(t, e)]) }
    else none
  | .skip q => some { s with pc := Function.update s.pc t q }

/-- One thread takes the move that its choice picks. -/
def step (prog : Program L P E C) (s : State T L P E) (a : T × C) : Option (State T L P E) :=
  (prog.next (s.pc a.1) a.2).bind (take prog s a.1)

variable {prog : Program L P E C} {s s' : State T L P E} {t : T} {l : L} {q : P}

theorem step_iff {c : C} :
    step prog s (t, c) = some s' ↔ ∃ m, prog.next (s.pc t) c = some m ∧ take prog s t m = some s' :=
  Option.bind_eq_some_iff

theorem take_acquire (h : take prog s t (.acquire l q) = some s') : s.owner l = none ∧
    s' = { s with pc := Function.update s.pc t q, owner := Function.update s.owner l (some t) } := by
  simp only [take] at h
  split at h <;> cases h
  exact ⟨‹_›, rfl⟩

theorem take_event {e : E} (h : take prog s t (.event l e q) = some s') : prog.admits l (s.history l) e = true ∧
    s' = { s with pc := Function.update s.pc t q, log := Function.update s.log l (s.log l ++ [(t, e)]) } := by
  simp only [take] at h
  split at h <;> cases h
  exact ⟨‹_›, rfl⟩

/-- What a move leaves: the places of the other threads, and the owner and the history of every other lock. -/
theorem take_frame {m : Move L P E} (h : take prog s t m = some s') :
    s'.pc = Function.update s.pc t m.target ∧
      ∀ k, m.lock ≠ some k → s'.owner k = s.owner k ∧ s'.log k = s.log k := by
  cases m with
  | acquire l q =>
    obtain ⟨-, rfl⟩ := take_acquire h
    exact ⟨rfl, fun k hk => ⟨Function.update_of_ne (by rintro rfl; exact hk rfl) _ _, rfl⟩⟩
  | release l q =>
    cases h
    exact ⟨rfl, fun k hk => ⟨Function.update_of_ne (by rintro rfl; exact hk rfl) _ _, rfl⟩⟩
  | event l e q =>
    obtain ⟨-, rfl⟩ := take_event h
    exact ⟨rfl, fun k hk => ⟨rfl, Function.update_of_ne (by rintro rfl; exact hk rfl) _ _⟩⟩
  | skip q =>
    cases h
    exact ⟨rfl, fun k _ => ⟨rfl, rfl⟩⟩

/-! ## Owners -/

variable {R : Type*} [Preorder R]

/-- What a move from `p` does to the locks that are held; locks are taken in increasing order. -/
def Fits (holds : P → Finset L) (rank : L → R) (p : P) : Move L P E → Prop
  | .acquire l q => (∀ k ∈ holds p, rank k < rank l) ∧ holds q = insert l (holds p)
  | .release l q => l ∈ holds p ∧ holds q = (holds p).erase l
  | .event l _ q => l ∈ holds p ∧ holds q = holds p
  | .skip q => holds q = holds p

/-- Every move does to the locks what the annotation says. -/
def Disciplined (prog : Program L P E C) (rank : L → R) : Prop :=
  ∀ p c m, prog.next p c = some m → Fits prog.holds rank p m

/-- A lock belongs to the thread whose place holds it. -/
def Owned (prog : Program L P E C) (s : State T L P E) : Prop :=
  ∀ l t, s.owner l = some t ↔ l ∈ prog.holds (s.pc t)

variable {rank : L → R}

omit [DecidableEq T] [DecidableEq L] in
theorem owned_init {pc : T → P} (h : ∀ t, prog.holds (pc t) = ∅) : Owned prog (init pc) := by
  intro l t
  rw [init, h t]
  simp

omit [DecidableEq L] in
/-- A thread that keeps its locks, while no owner changes. -/
theorem Owned.same (hs : Owned prog s) (hpc : s'.pc = Function.update s.pc t q) (howner : s'.owner = s.owner)
    (hholds : prog.holds q = prog.holds (s.pc t)) : Owned prog s' := by
  intro k u
  rw [howner, hpc, hs k u]
  by_cases hu : u = t
  · rw [hu, Function.update_self, hholds]
  · rw [Function.update_of_ne hu]

theorem Owned.acquire (hs : Owned prog s) (hfree : s.owner l = none) (hpc : s'.pc = Function.update s.pc t q)
    (howner : s'.owner = Function.update s.owner l (some t)) (hholds : prog.holds q = insert l (prog.holds (s.pc t))) :
    Owned prog s' := by
  intro k u
  rw [howner, hpc]
  by_cases hu : u = t
  · subst hu
    rw [Function.update_self, hholds, Finset.mem_insert, ← hs k u]
    by_cases hk : k = l
    · simp [hk]
    · rw [Function.update_of_ne hk]
      exact (or_iff_right hk).symm
  · rw [Function.update_of_ne hu, ← hs k u]
    by_cases hk : k = l
    · subst hk
      rw [Function.update_self, hfree]
      simp [Ne.symm hu]
    · rw [Function.update_of_ne hk]

theorem Owned.release (hs : Owned prog s) (hl : l ∈ prog.holds (s.pc t)) (hpc : s'.pc = Function.update s.pc t q)
    (howner : s'.owner = Function.update s.owner l none) (hholds : prog.holds q = (prog.holds (s.pc t)).erase l) :
    Owned prog s' := by
  have hown := (hs l t).mpr hl
  intro k u
  rw [howner, hpc]
  by_cases hk : k = l
  · subst hk
    rw [Function.update_self]
    by_cases hu : u = t
    · rw [hu, Function.update_self, hholds]
      simp
    · rw [Function.update_of_ne hu, ← hs k u, hown]
      simp [Ne.symm hu]
  · rw [Function.update_of_ne hk, hs k u]
    by_cases hu : u = t
    · rw [hu, Function.update_self, hholds, Finset.mem_erase]
      exact (and_iff_right hk).symm
    · rw [Function.update_of_ne hu]

/-- **Every move keeps the owners.** -/
theorem owned_step (hd : Disciplined prog rank) (hs : Owned prog s) {a : T × C} (h : step prog s a = some s') :
    Owned prog s' := by
  obtain ⟨t, c⟩ := a
  obtain ⟨m, hnext, htake⟩ := step_iff.mp h
  have hfits := hd _ _ _ hnext
  cases m with
  | acquire l q =>
    obtain ⟨hfree, rfl⟩ := take_acquire htake
    exact hs.acquire hfree rfl rfl hfits.2
  | release l q =>
    cases htake
    exact hs.release hfits.1 rfl rfl hfits.2
  | event l e q =>
    obtain ⟨-, rfl⟩ := take_event htake
    exact hs.same rfl rfl hfits.2
  | skip q =>
    cases htake
    exact hs.same rfl rfl hfits

/-- **In every run a lock belongs to the thread whose place holds it.** -/
theorem owned_run (hd : Disciplined prog rank) {pc : T → P} (hpc : ∀ t, prog.holds (pc t) = ∅) {as : List (T × C)}
    (h : run (step prog) (init pc) as = some s) : Owned prog s :=
  run_keeps (fun _ _ _ hs hstep => owned_step hd hs hstep) (owned_init hpc) h

/-! ## Waiting -/

/-- Thread `t` is about to take a lock that `u` owns. -/
def Waits (prog : Program L P E C) (s : State T L P E) (t u : T) : Prop :=
  ∃ c l q, prog.next (s.pc t) c = some (.acquire l q) ∧ s.owner l = some u

/-- A move that needs no lock, after the given histories. -/
def Free (prog : Program L P E C) (history : L → List E) : Move L P E → Prop
  | .acquire _ _ => False
  | .event l e _ => prog.admits l (history l) e = true
  | .release _ _ | .skip _ => True

/-- A place where the thread takes a lock or goes on without one, whatever happened so far. -/
def Goes (prog : Program L P E C) (p : P) : Prop :=
  (∃ c l q, prog.next p c = some (.acquire l q)) ∨
    ∀ history : L → List E, ∃ c m, prog.next p c = some m ∧ Free prog history m

theorem take_free {m : Move L P E} (h : Free prog s.history m) : ∃ s', take prog s t m = some s' := by
  cases m with
  | acquire l q => exact h.elim
  | release l q | skip q => exact ⟨_, rfl⟩
  | event l e q => exact ⟨_, if_pos h⟩

/-- Along the owners the locks that are waited for increase, so the waiting ends. -/
theorem progress_acquire [WellFoundedGT R] (hd : Disciplined prog rank) (hs : Owned prog s)
    (hgoes : ∀ p, prog.holds p ≠ ∅ → Goes prog p) (l : L) : ∀ t c q, prog.next (s.pc t) c = some (.acquire l q) →
      ∃ u c' s', Relation.ReflTransGen (Waits prog s) t u ∧ step prog s (u, c') = some s' := by
  induction hr : rank l using WellFoundedGT.induction generalizing l with
  | ind r ih =>
    intro t c q hnext
    cases howner : s.owner l with
    | none => exact ⟨t, c, _, .refl, step_iff.mpr ⟨_, hnext, if_pos howner⟩⟩
    | some u =>
      have hu : l ∈ prog.holds (s.pc u) := (hs l u).mp howner
      have hwait : Waits prog s t u := ⟨c, l, q, hnext, howner⟩
      rcases hgoes (s.pc u) (Finset.ne_empty_of_mem hu) with ⟨c', k, q', hk⟩ | hfree
      · have hlt : rank l < rank k := (hd _ _ _ hk).1 l hu
        obtain ⟨v, c'', s', hchain, hstep⟩ := ih (rank k) (hr ▸ hlt) k rfl u c' q' hk
        exact ⟨v, c'', s', .head hwait hchain, hstep⟩
      · obtain ⟨c', m, hm, hfree⟩ := hfree s.history
        obtain ⟨s', hs'⟩ := take_free (t := u) hfree
        exact ⟨u, c', s', .single hwait, step_iff.mpr ⟨m, hm, hs'⟩⟩

/-- **No deadlock**: a thread that is not at rest waits, over the owners of locks, for a thread that can take a step. -/
theorem progress [WellFoundedGT R] (hd : Disciplined prog rank) (hs : Owned prog s)
    (hgoes : ∀ p, prog.holds p ≠ ∅ → Goes prog p) (ht : Goes prog (s.pc t)) :
    ∃ u c s', Relation.ReflTransGen (Waits prog s) t u ∧ step prog s (u, c) = some s' := by
  rcases ht with ⟨c, l, q, hnext⟩ | hfree
  · exact progress_acquire hd hs hgoes l t c q hnext
  · obtain ⟨c, m, hm, hfree⟩ := hfree s.history
    obtain ⟨s', hs'⟩ := take_free (t := t) hfree
    exact ⟨t, c, s', .refl, step_iff.mpr ⟨m, hm, hs'⟩⟩

end

/-! ## Critical sections -/

/-- A thread at a place has `l`, and since it took it the object has answered `es`. -/
inductive Inside (prog : Program L P E C) (l : L) : P → List E → Prop
  | acquire {p q : P} {c : C} : prog.next p c = some (.acquire l q) → Inside prog l q []
  | event {p q : P} {c : C} {es : List E} {e : E} :
    Inside prog l p es → prog.next p c = some (.event l e q) → Inside prog l q (es ++ [e])
  | other {p : P} {c : C} {m : Move L P E} {es : List E} :
    Inside prog l p es → prog.next p c = some m → m.lock ≠ some l → Inside prog l m.target es

/-- What the object answers from taking `l` to releasing it. -/
def Section (prog : Program L P E C) (l : L) (es : List E) : Prop :=
  ∃ p c q, Inside prog l p es ∧ prog.next p c = some (.release l q)

/-- Sections one after the other. -/
def flatten (sections : List (T × List E)) : List (T × E) := sections.flatMap fun x => x.2.map (x.1, ·)

theorem flatten_append (xs ys : List (T × List E)) : flatten (xs ++ ys) = flatten xs ++ flatten ys :=
  List.flatMap_append

theorem flatten_singleton (t : T) (es : List E) : flatten [(t, es)] = es.map (t, ·) := List.flatMap_singleton ..

/-- The history of the object under `l`: whole sections, and what the owner has done so far. -/
def Sections (prog : Program L P E C) (l : L) (s : State T L P E) : Prop :=
  ∃ done : List (T × List E), (∀ x ∈ done, Section prog l x.2) ∧
    (s.owner l = none → s.log l = flatten done) ∧
    ∀ t, s.owner l = some t → ∃ es, Inside prog l (s.pc t) es ∧ s.log l = flatten done ++ es.map (t, ·)

/-- The object answers as its history allows. -/
def Admitted (prog : Program L P E C) (l : L) (es : List E) : Prop :=
  ∀ es₁ e es₂, es = es₁ ++ e :: es₂ → prog.admits l es₁ e = true

theorem Admitted.left {prog : Program L P E C} {l : L} {es es' : List E} (h : Admitted prog l (es ++ es')) :
    Admitted prog l es := by
  rintro es₁ e es₂ rfl
  exact h es₁ e (es₂ ++ es') (by simp)

theorem Admitted.concat {prog : Program L P E C} {l : L} {es : List E} {e : E} (h : Admitted prog l es)
    (he : prog.admits l es e = true) : Admitted prog l (es ++ [e]) := by
  intro es₁ e' es₂ heq
  rcases List.eq_nil_or_concat es₂ with rfl | ⟨es₃, e₃, rfl⟩
  · obtain ⟨rfl, hlast⟩ := List.append_inj' heq rfl
    cases hlast
    exact he
  · rw [List.concat_eq_append, ← List.cons_append, ← List.append_assoc] at heq
    obtain ⟨rfl, -⟩ := List.append_inj' heq rfl
    exact h es₁ e' es₃ rfl

section

variable [DecidableEq T] [DecidableEq L] {prog : Program L P E C} {s s' : State T L P E} {t : T} {l : L} {q : P}
  {R : Type*} [Preorder R] {rank : L → R}

omit [DecidableEq T] [DecidableEq L] in
theorem sections_init (pc : T → P) (l : L) : Sections prog l (init pc) := ⟨[], nofun, fun _ => rfl, nofun⟩

/-- A move that is not about `l`. -/
theorem Sections.other (hs : Sections prog l s) {c : C} {m : Move L P E} (hnext : prog.next (s.pc t) c = some m)
    (hm : m.lock ≠ some l) (h : take prog s t m = some s') : Sections prog l s' := by
  obtain ⟨done, hdone, hfree, hheld⟩ := hs
  obtain ⟨hpc, hkeep⟩ := take_frame h
  obtain ⟨howner, hlog⟩ := hkeep l hm
  rw [Sections, howner, hlog, hpc]
  refine ⟨done, hdone, hfree, fun u hu => ?_⟩
  obtain ⟨es, hin, hes⟩ := hheld u hu
  refine ⟨es, ?_, hes⟩
  by_cases hut : u = t
  · subst hut
    rw [Function.update_self]
    exact hin.other hnext hm
  · rw [Function.update_of_ne hut]
    exact hin

theorem Sections.acquire (hs : Sections prog l s) {c : C} (hnext : prog.next (s.pc t) c = some (.acquire l q))
    (hfree : s.owner l = none) : Sections prog l
      { s with pc := Function.update s.pc t q, owner := Function.update s.owner l (some t) } := by
  obtain ⟨done, hdone, hlog, -⟩ := hs
  simp only [Sections, Function.update_self]
  refine ⟨done, hdone, nofun, fun u hu => ?_⟩
  cases hu
  rw [Function.update_self]
  exact ⟨[], .acquire hnext, by rw [hlog hfree, List.map_nil, List.append_nil]⟩

theorem Sections.release (hs : Sections prog l s) {c : C} (hnext : prog.next (s.pc t) c = some (.release l q))
    (howner : s.owner l = some t) : Sections prog l
      { s with pc := Function.update s.pc t q, owner := Function.update s.owner l none } := by
  obtain ⟨done, hdone, -, hheld⟩ := hs
  obtain ⟨es, hin, hlog⟩ := hheld t howner
  simp only [Sections, Function.update_self]
  refine ⟨done ++ [(t, es)], fun x hx => ?_, fun _ => ?_, nofun⟩
  · rcases List.mem_append.mp hx with hx | hx
    · exact hdone x hx
    · cases List.mem_singleton.mp hx
      exact ⟨_, c, q, hin, hnext⟩
  · rw [hlog, flatten_append, flatten_singleton]

theorem Sections.event (hs : Sections prog l s) {c : C} {e : E} (hnext : prog.next (s.pc t) c = some (.event l e q))
    (howner : s.owner l = some t) : Sections prog l
      { s with pc := Function.update s.pc t q, log := Function.update s.log l (s.log l ++ [(t, e)]) } := by
  obtain ⟨done, hdone, -, hheld⟩ := hs
  obtain ⟨es, hin, hlog⟩ := hheld t howner
  simp only [Sections, Function.update_self, howner]
  refine ⟨done, hdone, nofun, fun u hu => ?_⟩
  cases hu
  rw [Function.update_self]
  exact ⟨es ++ [e], hin.event hnext, by rw [hlog, List.map_append, List.append_assoc, List.map_singleton]⟩

/-- Every move keeps the sections. -/
theorem sections_step (hd : Disciplined prog rank) (ho : Owned prog s) (hs : Sections prog l s) {a : T × C}
    (h : step prog s a = some s') : Sections prog l s' := by
  obtain ⟨t, c⟩ := a
  obtain ⟨m, hnext, htake⟩ := step_iff.mp h
  by_cases hm : m.lock = some l
  · have hfits := hd _ _ _ hnext
    cases m with
    | acquire k q =>
      cases hm
      obtain ⟨hfree, rfl⟩ := take_acquire htake
      exact hs.acquire hnext hfree
    | release k q =>
      cases hm
      cases htake
      exact hs.release hnext ((ho l t).mpr hfits.1)
    | event k e q =>
      cases hm
      obtain ⟨-, rfl⟩ := take_event htake
      exact hs.event hnext ((ho l t).mpr hfits.1)
    | skip q => cases hm
  · exact hs.other hnext hm htake

/-- **The history of an object consists of whole critical sections, and of the one that the owner has begun.** -/
theorem sections_run (hd : Disciplined prog rank) {pc : T → P} (hpc : ∀ t, prog.holds (pc t) = ∅) {as : List (T × C)}
    (h : run (step prog) (init pc) as = some s) (l : L) : Sections prog l s := by
  refine (run_keeps (I := fun s => Owned prog s ∧ Sections prog l s) (fun s a s' hs hstep => ?_)
    ⟨owned_init hpc, sections_init pc l⟩ h).2
  exact ⟨owned_step hd hs.1 hstep, sections_step hd hs.1 hs.2 hstep⟩

/-- Every move keeps the objects within what they can answer. -/
theorem admitted_step (hs : ∀ l, Admitted prog l (s.history l)) {a : T × C} (h : step prog s a = some s') (l : L) :
    Admitted prog l (s'.history l) := by
  obtain ⟨t, c⟩ := a
  obtain ⟨m, -, htake⟩ := step_iff.mp h
  by_cases hm : m.lock = some l
  · cases m with
    | acquire k q =>
      obtain ⟨-, rfl⟩ := take_acquire htake
      exact hs l
    | release k q =>
      cases htake
      exact hs l
    | event k e q =>
      cases hm
      obtain ⟨hadmits, rfl⟩ := take_event htake
      simp only [State.history, Function.update_self, List.map_append, List.map_singleton]
      exact (hs l).concat hadmits
    | skip q => cases hm
  · rw [State.history, ((take_frame htake).2 l hm).2]
    exact hs l

/-- In every run the objects answer as their histories allow. -/
theorem admitted_run {pc : T → P} {as : List (T × C)} (h : run (step prog) (init pc) as = some s) (l : L) :
    Admitted prog l (s.history l) :=
  run_keeps (I := fun s => ∀ l, Admitted prog l (s.history l)) (fun _ _ _ hs hstep => admitted_step hs hstep)
    (fun l es₁ e es₂ heq => by simp [State.history, init] at heq) h l

end

end Locks
