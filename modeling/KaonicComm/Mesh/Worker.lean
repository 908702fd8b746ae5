import KaonicComm.Lib.Runs

/-!
# `radio_network::start`, `stop` and the update thread

`start` creates the thread that runs `update` and only then stores `true` to `_running`; the thread leaves its loop at
the first test that reads `false`. A test between the two ends the thread before its first update, and `start` returns
`ok` all the same (`start_loses_worker`). While no test falls between them, the thread lives from `start` to `stop`
(`worker_alive`). After `stop` no thread runs, in every run (`stopped_inv`).
-/

namespace KaonicComm.Worker

open Runs

/-- Where the controlling thread stands. -/
inductive Ctrl where
  | idle
  /-- In `start`, after the load of `false`. -/
  | creating
  /-- In `start`, after the creation of the thread. -/
  | storing
  /-- In `stop`, after the load of `true`. -/
  | clearing
  /-- In `stop`, after the store of `false`. -/
  | joining
  /-- `std::terminate`: a joinable `std::thread` was assigned to. -/
  | terminated
  deriving DecidableEq, Repr

/-- Where a thread that runs `update` stands. -/
inductive Pc where
  /-- Before the test of `_running`. -/
  | testing
  /-- In `network::update` or the sleep after it. -/
  | updating
  | left
  deriving DecidableEq, Repr

/-- The members of `radio_network` and the threads. -/
structure State where
  running : Bool
  /-- `_update_thread`: the number of the thread it can join. -/
  updateThread : Option Nat
  /-- All threads created so far. -/
  workers : List Pc
  ctrl : Ctrl
  /-- The last `start` returned `ok` and no later `stop` has begun (ghost). -/
  up : Bool
  /-- The last `stop` returned `ok` and no later `start` has passed its test (ghost). -/
  down : Bool
  deriving DecidableEq, Repr

def init : State where
  running := false
  updateThread := none
  workers := []
  ctrl := .idle
  up := false
  down := false

/-- One atomic step of the controlling thread or of a worker. -/
inductive Act where
  /-- `start` loads `_running`; it returns `precondition_failed` on `true`. -/
  | start
  | createThread
  | storeTrue
  /-- `stop` loads `_running`; it returns `precondition_failed` on `false`. -/
  | stop
  | storeFalse
  | join
  /-- Thread `w` tests `_running`. -/
  | test (w : Nat)
  /-- Thread `w` ends an update. -/
  | update (w : Nat)
  deriving DecidableEq, Repr

/-- The steps of the controlling thread and the workers. -/
def step (s : State) : Act → Option State
  | .start =>
    if s.ctrl = .idle then
      if s.running then some s else some { s with ctrl := .creating, down := false }
    else none
  | .createThread =>
    if s.ctrl = .creating then
      match s.updateThread with
      | some _ => some { s with ctrl := .terminated }
      | none =>
        some { s with
          ctrl := .storing
          updateThread := some s.workers.length
          workers := s.workers ++ [.testing] }
    else none
  | .storeTrue => if s.ctrl = .storing then some { s with ctrl := .idle, running := true, up := true } else none
  | .stop =>
    if s.ctrl = .idle then
      if s.running then some { s with ctrl := .clearing, up := false } else some { s with up := false }
    else none
  | .storeFalse => if s.ctrl = .clearing then some { s with ctrl := .joining, running := false } else none
  | .join =>
    if s.ctrl = .joining then
      match s.updateThread with
      | none => some { s with ctrl := .idle, down := true }
      | some w =>
        if s.workers[w]? = some .left then some { s with ctrl := .idle, updateThread := none, down := true } else none
    else none
  | .test w =>
    if s.ctrl ≠ .terminated ∧ s.workers[w]? = some .testing then
      some { s with workers := s.workers.set w (if s.running then .updating else .left) }
    else none
  | .update w =>
    if s.ctrl ≠ .terminated ∧ s.workers[w]? = some .updating then
      some { s with workers := s.workers.set w .testing }
    else none

/-- Thread `w` was created and has not left its loop. -/
def Alive (s : State) (w : Nat) : Prop := ∃ pc, s.workers[w]? = some pc ∧ pc ≠ .left

/-- Between `start` and `stop` a thread runs; after `stop` none does. -/
def WorkerAlive (s : State) : Prop :=
  (s.up = true → ∃ w, Alive s w) ∧ (s.down = true → ∀ w, ¬Alive s w)

/-- When no thread tests `_running` between its creation and the store of `true`. -/
def Undisturbed (s : State) : Act → Prop
  | .test _ => s.ctrl ≠ .storing
  | _ => True

/-! ## The threads -/

/-- A new thread lives, and so do the others. -/
theorem alive_append {s s' : State} (h : s'.workers = s.workers ++ [.testing]) (w : Nat) :
    Alive s' w ↔ Alive s w ∨ w = s.workers.length := by
  simp only [Alive, h]
  rcases Nat.lt_trichotomy w s.workers.length with hw | hw | hw
  · rw [List.getElem?_append_left hw]
    exact ⟨Or.inl, fun h => h.resolve_right (by omega)⟩
  · subst hw
    refine ⟨fun _ => Or.inr rfl, fun _ => ⟨.testing, ?_, nofun⟩⟩
    rw [List.getElem?_append_right (Nat.le_refl _), Nat.sub_self]
    rfl
  · have hnone : (s.workers ++ [Pc.testing])[w]? = none :=
      List.getElem?_eq_none (by rw [List.length_append, List.length_singleton]; omega)
    have hnone' : s.workers[w]? = none := List.getElem?_eq_none (Nat.le_of_lt hw)
    simp only [hnone, hnone']
    refine ⟨fun ⟨_, h, _⟩ => (nomatch h), ?_⟩
    rintro (⟨_, h, _⟩ | h)
    · cases h
    · omega

/-- A thread that moves on to `pc`. -/
theorem alive_set {s s' : State} {v : Nat} {pc : Pc} (hv : Alive s v) (h : s'.workers = s.workers.set v pc)
    (w : Nat) : Alive s' w ↔ if w = v then pc ≠ .left else Alive s w := by
  simp only [Alive, h]
  by_cases hw : w = v
  · subst hw
    obtain ⟨old, hold, -⟩ := hv
    have hlt : w < s.workers.length := (List.getElem?_eq_some_iff.mp hold).1
    simp [List.getElem?_set_self hlt]
  · rw [List.getElem?_set_ne (Ne.symm hw), if_neg hw]

/-- A thread that does not leave changes nothing. -/
theorem alive_move {s s' : State} {v : Nat} {pc : Pc} (hv : Alive s v) (h : s'.workers = s.workers.set v pc)
    (hpc : pc ≠ .left) (w : Nat) : Alive s' w ↔ Alive s w := by
  rw [alive_set hv h]
  split
  · rename_i hw
    exact ⟨fun _ => hw ▸ hv, fun _ => hpc⟩
  · rfl

/-! ## What holds in every run -/

/-- The controlling thread owns the only thread that may be alive, and `_running` says whether it has one. -/
structure Owned (s : State) : Prop where
  owner : ∀ w, Alive s w → s.updateThread = some w
  up : s.up = true → s.ctrl = .idle ∧ s.running = true
  down : s.down = true → s.updateThread = none
  idle : s.ctrl = .idle → s.running = s.updateThread.isSome
  creating : s.ctrl = .creating → s.running = false ∧ s.updateThread = none ∧ s.down = false
  storing : s.ctrl = .storing → s.running = false ∧ s.updateThread.isSome = true
  clearing : s.ctrl = .clearing → s.running = true ∧ s.updateThread.isSome = true
  joining : s.ctrl = .joining → s.running = false ∧ s.updateThread.isSome = true
  lives : s.ctrl ≠ .terminated

theorem owned_init : Owned init where
  owner w h := by
    obtain ⟨pc, h, -⟩ := h
    simp [init] at h
  up := nofun
  down _ := rfl
  idle _ := rfl
  creating := nofun
  storing := nofun
  clearing := nofun
  joining := nofun
  lives := nofun

/-- A step that only moves a thread. -/
theorem Owned.move {s : State} (hs : Owned s) {v : Nat} {pc : Pc} (hv : Alive s v) :
    Owned { s with workers := s.workers.set v pc } where
  owner w hw := by
    have hw := (alive_set hv rfl w).mp hw
    by_cases h : w = v
    · exact h ▸ hs.owner v hv
    · rw [if_neg h] at hw
      exact hs.owner w hw
  up := hs.up
  down := hs.down
  idle := hs.idle
  creating := hs.creating
  storing := hs.storing
  clearing := hs.clearing
  joining := hs.joining
  lives := hs.lives

/-- **Every step keeps the ownership of the thread.** -/
theorem owned_step {s s' : State} {a : Act} (hs : Owned s) (h : step s a = some s') : Owned s' := by
  cases a with
  | start =>
    simp only [step] at h
    split at h
    · rename_i hc
      split at h
      · cases h
        exact hs
      · rename_i hr
        have hr : s.running = false := Bool.eq_false_iff.mpr hr
        have hnone : s.updateThread = none := by
          have hi := hs.idle hc
          rw [hr] at hi
          simpa using hi.symm
        cases h
        refine ⟨hs.owner, fun hu => ?_, nofun, nofun, fun _ => ⟨hr, hnone, rfl⟩, nofun, nofun, nofun, nofun⟩
        rw [(hs.up hu).2] at hr
        cases hr
    · cases h
  | createThread =>
    simp only [step] at h
    split at h
    · rename_i hc
      obtain ⟨hr, hnone, hd⟩ := hs.creating hc
      rw [hnone] at h
      cases h
      refine ⟨fun w hw => ?_, fun hu => ?_, fun hd' => ?_, nofun, nofun, fun _ => ⟨hr, rfl⟩, nofun, nofun, nofun⟩
      · rcases (alive_append rfl w).mp hw with hw | rfl
        · have := hs.owner w hw
          rw [hnone] at this
          cases this
        · rfl
      · have := (hs.up hu).1
        rw [hc] at this
        cases this
      · rw [hd] at hd'
        cases hd'
    · cases h
  | storeTrue =>
    simp only [step] at h
    split at h
    · rename_i hc
      obtain ⟨-, hsome⟩ := hs.storing hc
      cases h
      exact ⟨hs.owner, fun _ => ⟨rfl, rfl⟩, hs.down, fun _ => hsome.symm, nofun, nofun, nofun, nofun, nofun⟩
    · cases h
  | stop =>
    simp only [step] at h
    split at h
    · rename_i hc
      have hi := hs.idle hc
      split at h
      · rename_i hr
        rw [hr] at hi
        cases h
        exact ⟨hs.owner, nofun, hs.down, nofun, nofun, nofun, fun _ => ⟨hr, hi.symm⟩, nofun, nofun⟩
      · cases h
        exact ⟨hs.owner, nofun, hs.down, hs.idle, hs.creating, hs.storing, hs.clearing, hs.joining, hs.lives⟩
    · cases h
  | storeFalse =>
    simp only [step] at h
    split at h
    · rename_i hc
      obtain ⟨-, hsome⟩ := hs.clearing hc
      cases h
      refine ⟨hs.owner, fun hu => ?_, hs.down, nofun, nofun, nofun, nofun, fun _ => ⟨rfl, hsome⟩, nofun⟩
      have := (hs.up hu).1
      rw [hc] at this
      cases this
    · cases h
  | join =>
    simp only [step] at h
    split at h
    · rename_i hc
      obtain ⟨hr, hsome⟩ := hs.joining hc
      split at h
      · rename_i hnone
        rw [hnone] at hsome
        cases hsome
      · rename_i v hv
        split at h
        · rename_i hleft
          cases h
          refine ⟨fun w hw => ?_, fun hu => ?_, fun _ => rfl, fun _ => hr, nofun, nofun, nofun, nofun, nofun⟩
          · -- the only thread that could be alive has left
            obtain ⟨pc, hpc, hne⟩ := hw
            have hvw := hs.owner w ⟨pc, hpc, hne⟩
            rw [hv] at hvw
            cases hvw
            rw [hleft] at hpc
            cases hpc
            exact absurd rfl hne
          · have := (hs.up hu).1
            rw [hc] at this
            cases this
        · cases h
    · cases h
  | test w =>
    simp only [step] at h
    split at h
    · rename_i hw
      cases h
      exact hs.move ⟨_, hw.2, nofun⟩
    · cases h
  | update w =>
    simp only [step] at h
    split at h
    · rename_i hw
      cases h
      exact hs.move ⟨_, hw.2, nofun⟩
    · cases h

theorem owned_run {as : List Act} {s : State} (h : run step init as = some s) : Owned s :=
  run_keeps (fun _ _ _ hs hstep => owned_step hs hstep) owned_init h

/-- **After `stop` no thread runs**, and `start` never assigns to a joinable thread, in every run. -/
theorem stopped_inv {as : List Act} {s : State} (h : run step init as = some s) :
    (s.down = true → ∀ w, ¬Alive s w) ∧ s.ctrl ≠ .terminated := by
  have hs := owned_run h
  refine ⟨fun hd w hw => ?_, hs.lives⟩
  have := hs.owner w hw
  rw [hs.down hd] at this
  cases this

/-! ## What holds in undisturbed runs -/

/-- While `start` is about to store `true`, and while `_running` is `true`, a thread is alive. -/
def Attended (s : State) : Prop := s.ctrl = .storing ∨ s.running = true → ∃ w, Alive s w

/-- **Undisturbed steps keep a thread alive.** -/
theorem attended_step {s s' : State} {a : Act} (ho : Owned s) (hs : Attended s) (hu : Undisturbed s a)
    (h : step s a = some s') : Attended s' := by
  cases a with
  | start =>
    simp only [step] at h
    split at h
    · split at h <;> cases h
      · exact hs
      · exact fun hc => hs (Or.inr (hc.resolve_left nofun))
    · cases h
  | createThread =>
    simp only [step] at h
    split at h
    · rename_i hc
      rw [(ho.creating hc).2.1] at h
      cases h
      exact fun _ => ⟨_, (alive_append rfl _).mpr (Or.inr rfl)⟩
    · cases h
  | storeTrue =>
    simp only [step] at h
    split at h
    · rename_i hc
      cases h
      exact fun _ => hs (Or.inl hc)
    · cases h
  | stop =>
    simp only [step] at h
    split at h
    · split at h <;> cases h
      · exact fun hc => hs (Or.inr (hc.resolve_left nofun))
      · exact hs
    · cases h
  | storeFalse =>
    simp only [step] at h
    split at h
    · cases h
      rintro (hc | hc) <;> cases hc
    · cases h
  | join =>
    simp only [step] at h
    split at h
    · rename_i hc
      have hr := (ho.joining hc).1
      -- `_running` stays `false`
      have hs' : s'.ctrl ≠ .storing ∧ s'.running = false := by
        split at h
        · cases h
          exact ⟨nofun, hr⟩
        · split at h <;> cases h
          exact ⟨nofun, hr⟩
      rintro (hc' | hc')
      · exact absurd hc' hs'.1
      · rw [hs'.2] at hc'
        cases hc'
    · cases h
  | test w =>
    simp only [step] at h
    split at h
    · rename_i hw
      cases h
      intro hc
      have hr : s.running = true := hc.resolve_left hu
      obtain ⟨v, hv⟩ := hs hc
      exact ⟨v, (alive_move ⟨_, hw.2, nofun⟩ rfl (by simp [hr]) v).mpr hv⟩
    · cases h
  | update w =>
    simp only [step] at h
    split at h
    · rename_i hw
      cases h
      intro hc
      obtain ⟨v, hv⟩ := hs hc
      exact ⟨v, (alive_move ⟨_, hw.2, nofun⟩ rfl (by decide : Pc.testing ≠ .left) v).mpr hv⟩
    · cases h

/-- **In undisturbed runs the worker stays alive between `start` and `stop`**, and no worker runs after `stop`. -/
theorem worker_alive {as : List Act} {s : State} (hu : Along step Undisturbed init as)
    (h : run step init as = some s) : WorkerAlive s := by
  have hs : Owned s ∧ Attended s :=
    run_inv (I := fun s => Owned s ∧ Attended s)
      (fun _ _ _ hs hP hstep => ⟨owned_step hs.1 hstep, attended_step hs.1 hs.2 hP hstep⟩)
      ⟨owned_init, fun hc => by rcases hc with hc | hc <;> cases hc⟩ hu h
  exact ⟨fun hup => hs.2 (Or.inr (hs.1.up hup).2), (stopped_inv h).1⟩

/-- Start, two updates, stop, and start again. -/
def startStop : List Act :=
  [.start, .createThread, .storeTrue, .test 0, .update 0, .start, .test 0, .stop, .storeFalse, .update 0, .test 0,
    .join, .start, .createThread, .storeTrue]

theorem undisturbed_startStop : Along step Undisturbed init startStop := by
  simp [startStop, Along, step, init, Undisturbed]

theorem worker_alive_startStop : ∃ s, run step init startStop = some s ∧ s.up = true ∧ WorkerAlive s :=
  have h : run step init startStop = some ((run step init startStop).get rfl) := rfl
  ⟨_, h, rfl, worker_alive undisturbed_startStop h⟩

/-- The new thread tests `_running` before `start` stores `true`: it leaves, and `start` returns `ok`. -/
theorem start_loses_worker : ¬∀ as s, run step init as = some s → WorkerAlive s := by
  intro h
  obtain ⟨w, pc, hpc, hne⟩ := (h [.start, .createThread, .test 0, .storeTrue] _ rfl).1 rfl
  match w with
  | 0 =>
    cases hpc
    exact absurd rfl hne
  | _ + 1 => cases hpc

end KaonicComm.Worker
