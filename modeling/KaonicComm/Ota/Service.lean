import KaonicComm.Ota.Concurrent
import Mathlib.Data.List.Perm.Basic

/-!
# What becomes of uploads and of the service

Every upload has an end: it takes at most 22 steps, not counting the writes within a copy, it can always take the next
one, and without kills each request is answered once (`requests_answered`). The updater stops the service before it
touches the image and starts it afterwards; the last command of a run is a stop only while this is under way, or after a
step that abandoned it with no start since (`last_stop_iff`): a kill, or an exception between the two commands.
-/

namespace KaonicComm.Ota

open Runs

/-! ## Uploads end -/

/-- The most steps that an upload takes from here. -/
def Pc.left : Pc → Nat
  | .stop => 22
  | .testBackup => 21
  | .unlinkBackup => 20
  | .copyBackup => 19
  | .copyApp => 18
  | .chmodApp => 17
  | .launch => 16
  | .poll k => k + 5
  | .finalPoll => 4
  | .testRestore | .copyHash => 3
  | .restore | .copyVersion => 2
  | .relaunch => 1

/-- The most steps that all uploads take. -/
def State.left (s : State) : Nat := (s.uploads.map fun job => job.pc.left).sum

def Act.isUpload : Act → Bool
  | .upload .. => true
  | _ => false

def Act.isRequest : Act → Bool
  | .request _ => true
  | _ => false

section

variable {c : Cryptography} {s s' : State}

/-- A step of an upload leads nearer to its end. -/
theorem next_left {fs fs' : Files} {job : Job} {active : Bool} {pc : Pc}
    (h : job.next fs active = (fs', .next pc)) : pc.left < job.pc.left := by
  obtain ⟨package, pc₀⟩ := job
  cases pc₀ with
  | stop | copyApp | launch | copyHash =>
    cases h
    simp [Pc.left]
  | relaunch => cases h
  | testBackup | unlinkBackup | copyBackup | chmodApp | finalPoll | testRestore | restore | copyVersion =>
    simp only [Job.next] at h
    split at h <;> cases h <;> simp [Pc.left]
  | poll left =>
    cases left with
    | zero =>
      cases h
      simp [Pc.left]
    | succ left =>
      simp only [Job.next] at h
      split at h <;> cases h <;> simp only [Pc.left] <;> omega

theorem left_pos (pc : Pc) : 0 < pc.left := by
  cases pc with
  | poll k => exact Nat.succ_pos _
  | _ => decide

/-- The uploads but one, and that one. -/
theorem left_eq {s : State} {i : Nat} {job : Job} (h : s.uploads[i]? = some job) :
    s.left = job.pc.left + ((s.uploads.eraseIdx i).map fun job => job.pc.left).sum := by
  obtain ⟨hlt, rfl⟩ := List.getElem?_eq_some_iff.mp h
  exact (((List.getElem_cons_eraseIdx_perm hlt).map fun job => job.pc.left).sum_eq).symm

theorem left_set {s : State} {i : Nat} (hlt : i < s.uploads.length) (job : Job) :
    ((s.uploads.set i job).map fun job => job.pc.left).sum =
      job.pc.left + ((s.uploads.eraseIdx i).map fun job => job.pc.left).sum :=
  ((List.set_perm_cons_eraseIdx hlt job).map fun job => job.pc.left).sum_eq

/-- **Every step of an upload is paid for.** -/
theorem left_step {a : Act} (h : step c s a = some s') :
    s'.left + (if a.isUpload then 1 else 0) ≤ s.left + if a.isRequest then 22 else 0 := by
  cases a with
  | start =>
    obtain ⟨-, rfl⟩ := step_start h
    exact Nat.le_refl _
  | server =>
    rw [State.left, (serverNext_frame h).2.1]
    exact Nat.le_refl _
  | serverWrite k =>
    obtain ⟨backup, -, -, -, rfl⟩ := step_serverWrite h
    exact Nat.le_refl _
  | request r =>
    obtain ⟨-, ⟨a, -, rfl⟩ | ⟨p, -, rfl⟩⟩ := step_request h
    · exact Nat.le_add_right _ _
    · simp [State.left, Act.isRequest, Act.isUpload, Pc.left]
  | upload i active =>
    obtain ⟨job, files, hjob, ⟨pc, hnext, rfl⟩ | ⟨a, -, rfl⟩⟩ := step_upload h
    · have hleft := next_left hnext
      have hset := left_set (List.getElem?_eq_some_iff.mp hjob).1 { job with pc }
      have heq := left_eq hjob
      simp only [State.left, Act.isRequest, Act.isUpload, if_true, Bool.false_eq_true, if_false] at heq hset ⊢
      omega
    · have hpos := left_pos job.pc
      have heq := left_eq hjob
      simp only [State.left, Act.isRequest, Act.isUpload, if_true, Bool.false_eq_true, if_false] at heq ⊢
      omega
  | write i k =>
    obtain ⟨job, src, dst, -, -, -, rfl⟩ := step_write h
    exact Nat.le_refl _
  | kill =>
    cases step_kill h
    exact Nat.zero_le _

/-- An upload can always take its next step. -/
theorem upload_steps {i : Nat} (hi : i < s.uploads.length) (active : Bool) :
    ∃ s', step c s (.upload i active) = some s' := by
  simp only [step, List.getElem?_eq_getElem hi]
  split <;> exact ⟨_, rfl⟩

/-- The main thread answers nothing. -/
theorem serverNext_answers (h : serverNext s = some s') : s'.answers = s.answers := by
  unfold serverNext at h
  cases hv : s.server with
  | down | serving =>
    rw [hv] at h
    cases h
  | validating =>
    rw [hv] at h
    cases h
    unfold validateAppFile
    split
    · rfl
    · split
      · rfl
      · split
        · rfl
        · split <;> rfl
  | stopping | testBackup | launching | validated =>
    rw [hv] at h
    cases h
    rfl
  | restoring =>
    rw [hv] at h
    cases hb : s.files .backup with
    | none | some backup =>
      rw [hb] at h
      cases h
      rfl

/-- A request is answered or becomes an upload, and an upload ends with its answer. -/
theorem answers_step {a : Act} (hk : a ≠ .kill) (h : step c s a = some s') :
    s'.answers.length + s'.uploads.length =
      s.answers.length + s.uploads.length + if a.isRequest then 1 else 0 := by
  cases a with
  | start =>
    obtain ⟨-, rfl⟩ := step_start h
    rfl
  | server =>
    rw [serverNext_answers h, (serverNext_frame h).2.1]
    rfl
  | serverWrite k =>
    obtain ⟨backup, -, -, -, rfl⟩ := step_serverWrite h
    rfl
  | request r =>
    obtain ⟨-, ⟨a, -, rfl⟩ | ⟨p, -, rfl⟩⟩ := step_request h
    · simp only [List.length_append, List.length_singleton, Act.isRequest, if_true]
      omega
    · simp only [List.length_append, List.length_singleton, Act.isRequest, if_true]
      omega
  | upload i active =>
    obtain ⟨job, files, hjob, ⟨pc, -, rfl⟩ | ⟨a, -, rfl⟩⟩ := step_upload h
    · simp only [List.length_set, Act.isRequest, Bool.false_eq_true, if_false, Nat.add_zero]
    · have hlt := (List.getElem?_eq_some_iff.mp hjob).1
      simp only [List.length_append, List.length_singleton, List.length_eraseIdx_of_lt hlt, Act.isRequest,
        Bool.false_eq_true, if_false]
      omega
  | write i k =>
    obtain ⟨job, src, dst, -, -, -, rfl⟩ := step_write h
    rfl
  | kill => exact absurd rfl hk

/-- **Uploads end and requests are answered**: the uploads of a run take at most 22 steps for each request, each of them
can take its next step, and without kills the answers are as many as the requests that are not at work any more. The
writes of a copy that is under way (`Act.write`) do not count. -/
theorem requests_answered {as : List Act} (h : run (step c) s as = some s') :
    s'.left + as.countP Act.isUpload ≤ s.left + 22 * as.countP Act.isRequest ∧
      (∀ i < s'.uploads.length, ∀ active, ∃ t, step c s' (.upload i active) = some t) ∧
      (.kill ∉ as → s'.answers.length + s'.uploads.length =
        s.answers.length + s.uploads.length + as.countP Act.isRequest) := by
  refine ⟨?_, fun i hi active => upload_steps hi active, fun hk => ?_⟩
  · have hpot := run_potential (fun _ _ _ _ hstep => left_step hstep)
      (along_of_forall (P := fun _ _ => True) (fun _ _ _ => trivial) s) h
    rw [sum_weight, sum_weight, Nat.one_mul] at hpot
    exact hpot
  · have halong : Along (step c) (fun _ a => a ≠ .kill) s as :=
      along_of_forall (fun _ a ha => ne_of_mem_of_not_mem ha hk) s
    have hcount := run_count (f := fun s => s.answers.length + s.uploads.length)
      (fun _ _ _ hP hstep => answers_step hP hstep) halong h
    rw [sum_weight, Nat.one_mul] at hcount
    exact hcount

end

/-! ## The commands to the service -/

/-- `stop_kaonic_commd` and `launch_kaonic_commd`. -/
inductive Command where
  | stop
  | start
  deriving DecidableEq, Repr

/-- The command of an upload's next step. -/
def Pc.command : Pc → Option Command
  | .stop => some .stop
  | .launch | .relaunch => some .start
  | _ => none

/-- The command of the main thread's next step. -/
def Server.command : Server → Option Command
  | .stopping => some .stop
  | .launching => some .start
  | _ => none

/-- The command that a step gives. -/
def command (s : State) : Act → Option Command
  | .server => s.server.command
  | .upload i _ => s.uploads[i]?.bind fun job => job.pc.command
  | _ => none

/-- The commands of a run. -/
def commands (c : Cryptography) : State → List Act → List Command
  | _, [] => []
  | s, a :: as => (command s a).toList ++ (step c s a).elim [] fun s' => commands c s' as

/-- Between the stop and the start of an upload. -/
def Pc.stopped : Pc → Bool
  | .testBackup | .unlinkBackup | .copyBackup | .copyApp | .chmodApp | .launch => true
  | _ => false

/-- Between the stop and the start of `validate_app_file`. -/
def Server.stopped : Server → Bool
  | .testBackup | .restoring | .launching => true
  | _ => false

/-- The service is stopped for some upload, or for the restoration. -/
def Stopped (s : State) : Prop := (∃ job ∈ s.uploads, job.pc.stopped = true) ∨ s.server.stopped = true

/-- A step that ends this without the start: a kill, or an exception. -/
def Abandons (s : State) : Act → Prop
  | .kill => Stopped s
  | .upload i active =>
    ∃ job files a, s.uploads[i]? = some job ∧ job.pc.stopped = true ∧ job.next s.files active = (files, .answer a)
  | .server => s.server = .restoring ∧ s.files .backup = none
  | _ => False

section

variable {c : Cryptography} {s s' : State}

theorem commands_append {as bs : List Act} : ∀ {s t : State}, run (step c) s as = some t →
    commands c s (as ++ bs) = commands c s as ++ commands c t bs := by
  induction as with
  | nil =>
    intro s t h
    cases h
    rfl
  | cons a as ih =>
    intro s t h
    obtain ⟨u, hu, h⟩ := run_cons.mp h
    simp only [List.cons_append, commands, hu, Option.elim_some, ih h, List.append_assoc]

theorem commands_singleton (a : Act) (s : State) : commands c s [a] = (command s a).toList := by
  simp only [commands]
  cases step c s a <;> simp

/-- After the stop the service is stopped for the one who stopped it. -/
theorem stopped_of_stop {a : Act} (h : step c s a = some s') (ha : command s a = some .stop) : Stopped s' := by
  cases a with
  | server =>
    have h : serverNext s = some s' := h
    have hv : s.server = .stopping := by
      cases hv : s.server with
      | stopping => rfl
      | down | validating | testBackup | restoring | launching | validated | serving => simp [command, hv,
          Server.command] at ha
    simp only [serverNext, hv, Option.some.injEq] at h
    subst h
    exact Or.inr rfl
  | upload i active =>
    obtain ⟨job, files, hjob, hnext⟩ := step_upload h
    obtain ⟨package, pc⟩ := job
    have hpc : pc = .stop := by
      simp only [command, hjob, Option.bind_some] at ha
      unfold Pc.command at ha
      split at ha <;> cases ha
      rfl
    subst hpc
    rcases hnext with ⟨pc, hnext, rfl⟩ | ⟨a, hnext, rfl⟩
    · cases hnext
      have hlt := (List.getElem?_eq_some_iff.mp hjob).1
      exact Or.inl ⟨_, List.mem_set hlt _, rfl⟩
    · cases hnext
  | start | serverWrite k | request r | write i k | kill => cases ha

/-- An upload for which the service is stopped stays so until its start, or abandons it. -/
theorem next_stopped {fs fs' : Files} {job : Job} {active : Bool} {o : Outcome} (hpc : job.pc.stopped = true)
    (hcmd : job.pc.command = none) (h : job.next fs active = (fs', o)) :
    (∃ a, o = .answer a) ∨ ∃ pc, o = .next pc ∧ pc.stopped = true := by
  obtain ⟨package, pc⟩ := job
  cases pc with
  | testBackup =>
    simp only [Job.next] at h
    split at h <;> cases h <;> exact Or.inr ⟨_, rfl, rfl⟩
  | unlinkBackup | copyBackup | chmodApp =>
    simp only [Job.next] at h
    split at h <;> cases h
    · first | exact Or.inl ⟨_, rfl⟩ | exact Or.inr ⟨_, rfl, rfl⟩
    · exact Or.inr ⟨_, rfl, rfl⟩
  | copyApp =>
    cases h
    exact Or.inr ⟨_, rfl, rfl⟩
  | launch => cases hcmd
  | stop | poll left | finalPoll | copyHash | copyVersion | testRestore | restore | relaunch => cases hpc

/-- A step of the main thread in a restoration. -/
theorem serverNext_stopped (hv : s.server.stopped = true) (hcmd : s.server.command = none)
    (h : serverNext s = some s') : Stopped s' ∨ Abandons s .server := by
  unfold serverNext at h
  cases hserver : s.server with
  | testBackup =>
    rw [hserver] at h
    cases h
    left
    right
    show (if s.files .backup = none then Server.launching else Server.restoring).stopped = true
    split <;> rfl
  | restoring =>
    rw [hserver] at h
    cases hb : s.files .backup with
    | none => exact Or.inr ⟨hserver, hb⟩
    | some backup =>
      rw [hb] at h
      cases h
      exact Or.inl (Or.inr rfl)
  | launching =>
    rw [hserver] at hcmd
    cases hcmd
  | down | validating | stopping | validated | serving =>
    rw [hserver] at hv
    cases hv

/-- **A stopped service stays so for the one who stopped it, until the start or an abandonment.** -/
theorem stopped_step {a : Act} (hs : Stopped s) (hcmd : command s a = none) (h : step c s a = some s') :
    Stopped s' ∨ Abandons s a := by
  cases a with
  | kill => exact Or.inr hs
  | server =>
    rcases hs with ⟨job, hjob, hpc⟩ | hv
    · exact Or.inl (Or.inl ⟨job, by rw [(serverNext_frame h).2.1]; exact hjob, hpc⟩)
    · exact serverNext_stopped hv hcmd h
  | start =>
    obtain ⟨hdown, rfl⟩ := step_start h
    rcases hs with hjob | hv
    · exact Or.inl (Or.inl hjob)
    · rw [hdown] at hv
      cases hv
  | serverWrite k =>
    obtain ⟨backup, -, -, -, rfl⟩ := step_serverWrite h
    exact Or.inl hs
  | write i k =>
    obtain ⟨job, src, dst, -, -, -, rfl⟩ := step_write h
    exact Or.inl hs
  | request r =>
    obtain ⟨-, ⟨a, -, rfl⟩ | ⟨p, -, rfl⟩⟩ := step_request h
    · exact Or.inl hs
    · rcases hs with ⟨job, hjob, hpc⟩ | hv
      · exact Or.inl (Or.inl ⟨job, List.mem_append_left _ hjob, hpc⟩)
      · exact Or.inl (Or.inr hv)
  | upload i active =>
    obtain ⟨job', files, hjob', hnext⟩ := step_upload h
    rcases hs with ⟨job, hjob, hpc⟩ | hv
    · obtain ⟨j, hj⟩ := List.mem_iff_getElem?.mp hjob
      by_cases hji : j = i
      · -- its own step
        subst hji
        have heq : job = job' := Option.some.inj (hj.symm.trans hjob')
        subst heq
        have hcmd : job.pc.command = none := by simpa only [command, hj, Option.bind_some] using hcmd
        rcases hnext with ⟨pc, hnext, rfl⟩ | ⟨a, hnext, rfl⟩
        · rcases next_stopped hpc hcmd hnext with ⟨a, ho⟩ | ⟨pc', ho, hpc'⟩
          · cases ho
          · cases ho
            exact Or.inl (Or.inl ⟨_, List.mem_set (List.getElem?_eq_some_iff.mp hj).1 _, hpc'⟩)
        · exact Or.inr ⟨job, files, a, hj, hpc, hnext⟩
      · -- the step of another upload
        rcases hnext with ⟨pc, -, rfl⟩ | ⟨a, -, rfl⟩
        · refine Or.inl (Or.inl ⟨job, List.mem_of_getElem? (i := j) ?_, hpc⟩)
          rw [List.getElem?_set_ne (Ne.symm hji)]
          exact hj
        · exact Or.inl (Or.inl ⟨job, List.mem_eraseIdx_iff_getElem?.mpr ⟨j, hji, hj⟩, hpc⟩)
    · rcases hnext with ⟨pc, -, rfl⟩ | ⟨a, -, rfl⟩
      · exact Or.inl (Or.inr hv)
      · exact Or.inl (Or.inr hv)

/-- The last command is a stop that some step of the run abandoned, and no start followed. -/
def Abandoned (c : Cryptography) (s : State) (as : List Act) : Prop :=
  ∃ as₁ a as₂ t, as = as₁ ++ a :: as₂ ∧ run (step c) s as₁ = some t ∧
    (commands c s as₁).getLast? = some .stop ∧ Abandons t a ∧ .start ∉ commands c t (a :: as₂)

/-- One more step without a start. -/
theorem Abandoned.concat {as : List Act} {a : Act} {t : State} (h : Abandoned c s as)
    (hrun : run (step c) s as = some t) (ha : command t a ≠ some .start) : Abandoned c s (as ++ [a]) := by
  obtain ⟨as₁, b, as₂, u, rfl, hu, hlast, habandons, hstart⟩ := h
  refine ⟨as₁, b, as₂ ++ [a], u, by simp, hu, hlast, habandons, ?_⟩
  rw [run_append, hu, Option.bind_some] at hrun
  rw [← List.cons_append, commands_append hrun, commands_singleton, List.mem_append, not_or]
  exact ⟨hstart, fun hmem => ha (Option.mem_toList.mp hmem)⟩

/-- After an abandonment without a start the last command is still a stop. -/
theorem Abandoned.last {as : List Act} (h : Abandoned c s as) : (commands c s as).getLast? = some .stop := by
  obtain ⟨as₁, a, as₂, t, rfl, ht, hlast, -, hstart⟩ := h
  rw [commands_append ht, List.getLast?_append, hlast]
  cases hrest : (commands c t (a :: as₂)).getLast? with
  | none => rfl
  | some cmd =>
    cases cmd with
    | stop => rfl
    | start => exact absurd (List.mem_of_getLast? hrest) hstart

/-- The last command is a stop only while the service is stopped for someone, or after an abandonment. -/
theorem stopped_of_last {as : List Act} (h : run (step c) s as = some s')
    (hlast : (commands c s as).getLast? = some .stop) : Stopped s' ∨ Abandoned c s as := by
  induction as using List.reverseRecOn generalizing s' with
  | nil => cases hlast
  | append_singleton as a ih =>
    obtain ⟨t, ht, hstep⟩ := run_concat.mp h
    rw [commands_append ht, commands_singleton] at hlast
    cases hcmd : command t a with
    | none =>
      rw [hcmd, Option.toList_none, List.append_nil] at hlast
      rcases ih ht hlast with hs | habandoned
      · rcases stopped_step hs hcmd hstep with hs' | habandons
        · exact Or.inl hs'
        · refine Or.inr ⟨as, a, [], t, rfl, ht, hlast, habandons, ?_⟩
          rw [commands_singleton, hcmd]
          exact List.not_mem_nil
      · exact Or.inr (habandoned.concat ht (by rw [hcmd]; nofun))
    | some cmd =>
      rw [hcmd, Option.toList_some, List.getLast?_concat] at hlast
      cases hlast
      exact Or.inl (stopped_of_stop hstep hcmd)

/-- **When nobody has the service stopped, the last command is a stop exactly after an abandonment with no start
since.** -/
theorem last_stop_iff {as : List Act} (h : run (step c) s as = some s') (hidle : ¬Stopped s') :
    (commands c s as).getLast? = some .stop ↔ Abandoned c s as :=
  ⟨fun hlast => (stopped_of_last h hlast).resolve_left hidle, Abandoned.last⟩

end

/-- A kill right after the stop of an upload: the next start finds the image of the hash file and starts nothing. -/
def killedAfterStop : List Act :=
  [.request (.zip (.extracted archive)), .upload 0 false, .kill, .start, .server, .server]

theorem last_stop_killedAfterStop : ∃ s, run (step oneKey) server killedAfterStop = some s ∧ ¬Stopped s ∧
    s.server = .serving ∧
    ((commands oneKey server killedAfterStop).getLast? = some .stop ↔ Abandoned oneKey server killedAfterStop) := by
  have hrun : (run (step oneKey) server killedAfterStop).map (fun s => (s.uploads, s.server)) =
      some ([], .serving) := by
    decide +kernel
  obtain ⟨s, hs, heq⟩ := Option.map_eq_some_iff.mp hrun
  obtain ⟨hu, hv⟩ := Prod.mk.inj heq
  have hidle : ¬Stopped s := by
    rintro (⟨job, hjob, -⟩ | h)
    · rw [hu] at hjob
      cases hjob
    · rw [hv] at h
      cases h
  exact ⟨s, hs, hidle, hv, last_stop_iff hs hidle⟩

theorem requests_answered_oneByOne : ∃ s, run (step oneKey) server oneByOne = some s ∧
    s.left + oneByOne.countP Act.isUpload ≤ server.left + 22 * oneByOne.countP Act.isRequest ∧
    (∀ i < s.uploads.length, ∀ active, ∃ t, step oneKey s (.upload i active) = some t) ∧
    (.kill ∉ oneByOne → s.answers.length + s.uploads.length =
      server.answers.length + server.uploads.length + oneByOne.countP Act.isRequest) := by
  obtain ⟨s, hs, -⟩ := Option.map_eq_some_iff.mp run_oneByOne.1
  exact ⟨s, hs, requests_answered hs⟩

end KaonicComm.Ota
