import KaonicComm.Ota.Crash

/-!
# One upload from its request to its answer

`uploadOtaOn` is `upload_ota` with the files that it finds and the outcomes of its health polls, in the order of the
source; `runs_uploadOtaOn` says that the device takes these steps when the upload is alone.

An upload that is not answered with success has changed nothing exactly when its package was refused, or is rolled back
over an application that was installed before, or when the copy of its version fails after an upload of what was
installed (`failure_harmless_iff`). Commits follow an uninterrupted health check exactly when the service does not come
back after the first poll that fails, and the version is a file if none fails (`committed_after_check_iff`).
-/

namespace KaonicComm.Ota

open Runs

/-! ## `upload_ota` -/

/-- What `upload_ota` does after its checks. -/
inductive Op where
  | stopKaonicCommd
  | backupCurrent
  | copyApp
  | chmodApp
  | launchKaonicCommd
  | isKaonicRunning (active : Bool)
  | copyHash
  | copyVersion
  | restoreBackup
  deriving DecidableEq, Repr

/-- How an upload ends: the files, the answer, and what was done. -/
structure Result where
  files : Files
  answer : Answer
  ops : List Op

/-- `backup_current`. -/
def backupCurrent (fs : Files) : Files :=
  let fs := if fs .backup = none then fs else fs.unlink .backup
  match fs .app with
  | none => fs
  | some app => fs.copy2 app .backup

/-- The polls of the check loop, of which there are at most so many; `active` gives the outcomes of
`is_kaonic_running`, counted from `k`. -/
def checkLoop (active : Nat → Bool) : Nat → Nat → List Bool
  | _, 0 => []
  | k, left + 1 => if active k then true :: checkLoop active (k + 1) left else [false]

/-- The outcome of the poll after the loop. -/
def finalPoll (active : Nat → Bool) : Bool := active (checkLoop active 0 10).length

/-- The answer to a success. -/
def success : Answer := .detail "Update successful" 200

/-- The files before the health polls, with the image that may be executed. -/
def installed (fs : Files) (p : Package) : Files :=
  let fs := backupCurrent fs
  let fs := fs.copy2 { data := p.app } .app
  -- `stat` finds the file of the copy
  fs.copy2 { data := p.app, exec := true } .app

/-- `upload_ota` after its checks. -/
def installPackage (active : Nat → Bool) (fs : Files) (p : Package) : Result :=
  let fs := installed fs p
  let polls := checkLoop active 0 10 ++ [finalPoll active]
  let ops := [.stopKaonicCommd, .backupCurrent, .copyApp, .chmodApp, .launchKaonicCommd] ++ polls.map .isKaonicRunning
  if finalPoll active then
    let fs := fs.copy2 { data := p.hash } .hash
    match p.version with
    | .file version =>
      { files := fs.copy2 { data := version } .version, answer := success, ops := ops ++ [.copyHash, .copyVersion] }
    | _ => { files := fs, answer := .raised, ops := ops ++ [.copyHash] }
  else
    { files := restoreBackup fs, answer := .detail "Failed to start new app, rollback done" 500
      ops := ops ++ [.restoreBackup, .launchKaonicCommd] }

/-- `upload_ota`. -/
def uploadOtaOn (c : Cryptography) (verifyKey : Option (List UInt8)) (active : Nat → Bool) (fs : Files) (r : Request) :
    Result :=
  match uploadOta c verifyKey r with
  | .error answer => { files := fs, answer, ops := [] }
  | .ok p => installPackage active fs p

/-! ## The steps of the device -/

section

variable {p : Package} {fs fs' fs'' : Files}

/-- What a step learns from `is_kaonic_running`, if it calls it. -/
def Pc.polled (active : Bool) : Pc → List Bool
  | .poll (_ + 1) | .finalPoll => [active]
  | _ => []

/-- Steps of an upload lead from one place to another, with these outcomes of the health polls on the way. -/
inductive Leads (p : Package) : Files → Pc → List Bool → Files → Outcome → Prop
  | step {fs fs' : Files} {pc : Pc} {o : Outcome} (active : Bool) (h : Job.next fs ⟨p, pc⟩ active = (fs', o)) :
      Leads p fs pc (pc.polled active) fs' o
  | trans {fs fs' fs'' : Files} {pc pc' : Pc} {polls polls' : List Bool} {o : Outcome} :
      Leads p fs pc polls fs' (.next pc') → Leads p fs' pc' polls' fs'' o → Leads p fs pc (polls ++ polls') fs'' o

/-- A device with one upload at work, or after its answer. -/
def State.after (s : State) (p : Package) (fs : Files) : Outcome → State
  | .next pc => { s with files := fs, uploads := [⟨p, pc⟩] }
  | .answer a => { s with files := fs, uploads := [], answers := s.answers ++ [a] }

/-- What an upload learns from `is_kaonic_running` in a step of the device. -/
def State.polled (s : State) : Act → List Bool
  | .upload i active => (s.uploads[i]?).elim [] fun job => job.pc.polled active
  | .start | .server | .serverWrite _ | .request _ | .write _ _ | .kill => []

/-- **The device takes the steps of an upload that is alone**, with its polls. -/
theorem runs_of_leads {pc : Pc} {polls : List Bool} {o : Outcome} (h : Leads p fs pc polls fs' o) (c : Cryptography)
    (s : State) : ∃ as : List Act, (∀ a ∈ as, ∃ active, a = .upload 0 active) ∧
      run (step c) (s.after p fs (.next pc)) as = some (s.after p fs' o) ∧
      observed (step c) State.polled (s.after p fs (.next pc)) as = polls := by
  induction h with
  | @step fs fs' pc o active h =>
    have hstep : step c (s.after p fs (.next pc)) (.upload 0 active) = some (s.after p fs' o) := by
      cases o with
      | next pc' => simp only [Ota.step, State.after, List.getElem?_cons_zero, h, List.set_cons_zero]
      | answer a => simp only [Ota.step, State.after, List.getElem?_cons_zero, h, List.eraseIdx_cons_zero]
    refine ⟨[.upload 0 active], fun a ha => ⟨active, List.mem_singleton.mp ha⟩, run_cons.mpr ⟨_, hstep, rfl⟩, ?_⟩
    rw [observed_cons hstep]
    exact List.append_nil _
  | trans _ _ ih ih' =>
    obtain ⟨as, has, hrun, hpolls⟩ := ih
    obtain ⟨bs, hbs, hrun', hpolls'⟩ := ih'
    refine ⟨as ++ bs, fun a ha => ?_, ?_, ?_⟩
    · rcases List.mem_append.mp ha with ha | ha
      · exact has a ha
      · exact hbs a ha
    · rw [run_append, hrun]
      exact hrun'
    · rw [observed_append hrun, hpolls, hpolls']

theorem leads_copyBackup (p : Package) (fs : Files) : Leads p fs .copyBackup []
    (match fs .app with | none => fs | some app => fs.copy2 app .backup) (.next .copyApp) := by
  refine Leads.step false ?_
  cases h : fs .app <;> simp only [Job.next, h]

/-- `backup_current`. -/
theorem leads_backupCurrent (p : Package) (fs : Files) :
    Leads p fs .testBackup [] (backupCurrent fs) (.next .copyApp) := by
  unfold backupCurrent
  cases h : fs .backup with
  | none =>
    have htest : Leads p fs .testBackup [] fs (.next .copyBackup) := by
      refine Leads.step false ?_
      simp only [Job.next, h, if_true]
    simp only [if_true]
    exact htest.trans (leads_copyBackup p fs)
  | some backup =>
    have htest : Leads p fs .testBackup [] fs (.next .unlinkBackup) := by
      refine Leads.step false ?_
      simp [Job.next, h]
    have hunlink : Leads p fs .unlinkBackup [] (fs.unlink .backup) (.next .copyBackup) := by
      refine Leads.step false ?_
      simp only [Job.next, h]
    have hne : ¬some backup = none := fun he => (by cases he)
    simp only [if_neg hne]
    exact htest.trans (hunlink.trans (leads_copyBackup p _))

/-- The check loop. -/
theorem leads_checkLoop (p : Package) (fs : Files) (active : Nat → Bool) (k left : Nat) :
    Leads p fs (.poll left) (checkLoop active k left) fs (.next .finalPoll) := by
  induction left generalizing k with
  | zero => exact Leads.step false rfl
  | succ left ih =>
    unfold checkLoop
    cases h : active k with
    | false => exact Leads.step false rfl
    | true =>
      have hpoll : Leads p fs (.poll (left + 1)) [true] fs (.next (.poll left)) := Leads.step true rfl
      exact hpoll.trans (ih (k + 1))

theorem leads_restoreBackup (p : Package) (fs : Files) : Leads p fs .testRestore [] (restoreBackup fs)
    (.answer (.detail "Failed to start new app, rollback done" 500)) := by
  have hrelaunch : ∀ fs : Files, Leads p fs .relaunch [] fs
      (.answer (.detail "Failed to start new app, rollback done" 500)) := fun fs => Leads.step false rfl
  unfold restoreBackup
  cases h : fs .backup with
  | none =>
    have htest : Leads p fs .testRestore [] fs (.next .relaunch) := by
      refine Leads.step false ?_
      simp only [Job.next, h, if_true]
    exact htest.trans (hrelaunch fs)
  | some backup =>
    have htest : Leads p fs .testRestore [] fs (.next .restore) := by
      refine Leads.step false ?_
      simp [Job.next, h]
    have hcopy : Leads p fs .restore [] (fs.copy2 backup .app) (.next .relaunch) := by
      refine Leads.step false ?_
      simp only [Job.next, h]
    exact htest.trans (hcopy.trans (hrelaunch _))

/-- From the stop of the service to the health polls. -/
theorem leads_installed (p : Package) (fs : Files) : Leads p fs .stop [] (installed fs p) (.next (.poll 10)) := by
  have hstop : Leads p fs .stop [] fs (.next .testBackup) := Leads.step false rfl
  have hcopy : Leads p (backupCurrent fs) .copyApp [] ((backupCurrent fs).copy2 { data := p.app } .app)
      (.next .chmodApp) := Leads.step false rfl
  have hchmod : Leads p ((backupCurrent fs).copy2 { data := p.app } .app) .chmodApp [] (installed fs p)
      (.next .launch) := by
    refine Leads.step false ?_
    simp only [Job.next, copy2_self]
    rfl
  have hlaunch : Leads p (installed fs p) .launch [] (installed fs p) (.next (.poll 10)) := Leads.step false rfl
  exact hstop.trans ((leads_backupCurrent p fs).trans (hcopy.trans (hchmod.trans hlaunch)))

/-- **`upload_ota` takes the steps of an upload**, with the polls of its loop and the final one. -/
theorem leads_installPackage (active : Nat → Bool) (fs : Files) (p : Package) :
    Leads p fs .stop (checkLoop active 0 10 ++ [finalPoll active]) (installPackage active fs p).files
      (.answer (installPackage active fs p).answer) := by
  have hloop := (leads_installed p fs).trans (leads_checkLoop p (installed fs p) active 0 10)
  rw [List.nil_append] at hloop
  refine hloop.trans ?_
  unfold installPackage
  cases hpoll : finalPoll active with
  | false =>
    have hfinal : Leads p (installed fs p) .finalPoll [false] (installed fs p) (.next .testRestore) :=
      Leads.step false rfl
    exact hfinal.trans (leads_restoreBackup p (installed fs p))
  | true =>
    have hfinal : Leads p (installed fs p) .finalPoll [true] (installed fs p) (.next .copyHash) := Leads.step true rfl
    have hhash : Leads p (installed fs p) .copyHash [] ((installed fs p).copy2 { data := p.hash } .hash)
        (.next .copyVersion) := Leads.step false rfl
    refine hfinal.trans (hhash.trans (Leads.step false ?_))
    cases hversion : p.version with
    | absent | directory => simp only [Job.next, hversion, if_true]
    | file version =>
      simp only [Job.next, hversion, if_true]
      rfl

/-- **`upload_ota` is a run of the device.** A request that is accepted on a device that serves and has no other upload
leads to the files and the answer of `upload_ota`, with the outcomes of its health polls. -/
theorem runs_uploadOtaOn {c : Cryptography} {s : State} {r : Request} {p : Package} (hserver : s.server = .serving)
    (huploads : s.uploads = []) (hp : uploadOta c s.verifyKey r = .ok p) (active : Nat → Bool) :
    ∃ as s', (∀ a ∈ as, ∃ active, a = .upload 0 active) ∧ run (step c) s (.request r :: as) = some s' ∧
      observed (step c) State.polled s (.request r :: as) = checkLoop active 0 10 ++ [finalPoll active] ∧
      s'.files = (uploadOtaOn c s.verifyKey active s.files r).files ∧
      s'.answers = s.answers ++ [(uploadOtaOn c s.verifyKey active s.files r).answer] := by
  have hrequest : step c s (.request r) =
      some (State.after { s with verified := s.verified ++ [p.app] } p s.files (.next .stop)) := by
    simp only [step, hserver, hp, huploads, if_true, State.after, List.nil_append]
  obtain ⟨as, has, hrun, hpolls⟩ := runs_of_leads (leads_installPackage active s.files p) c
    { s with verified := s.verified ++ [p.app] }
  refine ⟨as, _, has, run_cons.mpr ⟨_, hrequest, hrun⟩, (observed_cons hrequest).trans hpolls, ?_, ?_⟩
  · simp only [State.after, uploadOtaOn, hp]
  · simp only [State.after, uploadOtaOn, hp]

/-! ## What it leaves -/

/-- The backup is what was installed, or nothing if nothing was. -/
theorem backupCurrent_backup (fs : Files) : backupCurrent fs .backup = fs .app := by
  unfold backupCurrent
  by_cases hbackup : fs .backup = none
  · simp only [if_pos hbackup]
    cases happ : fs .app with
    | none => exact hbackup
    | some app => exact copy2_self ..
  · have happ' : fs.unlink .backup .app = fs .app := unlink_ne (by decide)
    simp only [if_neg hbackup, happ']
    cases happ : fs .app with
    | none => exact Function.update_self ..
    | some app => exact copy2_self ..

theorem backupCurrent_ne (fs : Files) {q : Path} (hq : q ≠ .backup) : backupCurrent fs q = fs q := by
  unfold backupCurrent
  by_cases hbackup : fs .backup = none
  · simp only [if_pos hbackup]
    cases happ : fs .app with
    | none => rfl
    | some app => exact copy2_ne hq
  · have happ' : fs.unlink .backup .app = fs .app := unlink_ne (by decide)
    simp only [if_neg hbackup, happ']
    cases happ : fs .app with
    | none => exact unlink_ne hq
    | some app => exact (copy2_ne hq).trans (unlink_ne hq)

theorem installed_app (fs : Files) (p : Package) : installed fs p .app = some { data := p.app, exec := true } :=
  copy2_self ..

theorem installed_ne (fs : Files) (p : Package) {q : Path} (hq : q ≠ .app) :
    installed fs p q = backupCurrent fs q := by
  rw [installed, copy2_ne hq, copy2_ne hq]

/-- A restoration gives back what was installed, and nothing else changes. -/
theorem restoreBackup_installed (fs : Files) (p : Package) :
    restoreBackup (installed fs p) .app = some ((fs .app).getD { data := p.app, exec := true }) ∧
      ∀ q, q ≠ .app → restoreBackup (installed fs p) q = backupCurrent fs q := by
  have hbackup : installed fs p .backup = fs .app := (installed_ne fs p (by decide)).trans (backupCurrent_backup fs)
  unfold restoreBackup
  rw [hbackup]
  cases happ : fs .app with
  | none => exact ⟨installed_app fs p, fun q hq => installed_ne fs p hq⟩
  | some app => exact ⟨copy2_self .., fun q hq => (copy2_ne hq).trans (installed_ne fs p hq)⟩

/-! ## Health polls -/

/-- The poll `k` is the first to fail. -/
def FailsFirst (active : Nat → Bool) (k : Nat) : Prop := (∀ j < k, active j = true) ∧ active k = false

/-- The service runs when it is asked for the last time: after ten polls that succeed, or after the first that fails. -/
def RunsAtLast (active : Nat → Bool) : Prop :=
  (∀ j < 11, active j = true) ∨ ∃ k < 10, FailsFirst active k ∧ active (k + 1) = true

/-- The check loop polls until its count is used up, or until the first failure. -/
theorem checkLoop_eq (active : Nat → Bool) (k left : Nat) :
    (∀ j < left, active (k + j) = true) ∧ checkLoop active k left = List.replicate left true ∨
      ∃ i < left, (∀ j < i, active (k + j) = true) ∧ active (k + i) = false ∧
        checkLoop active k left = List.replicate i true ++ [false] := by
  induction left generalizing k with
  | zero => exact Or.inl ⟨fun j hj => absurd hj j.not_lt_zero, rfl⟩
  | succ left ih =>
    unfold checkLoop
    cases hk : active k with
    | false => exact Or.inr ⟨0, left.succ_pos, fun j hj => absurd hj j.not_lt_zero, hk, rfl⟩
    | true =>
      have hsucc : ∀ n, (∀ j < n, active (k + 1 + j) = true) → ∀ j < n + 1, active (k + j) = true := by
        intro n hn j hj
        cases j with
        | zero => exact hk
        | succ j =>
          rw [Nat.add_comm j 1, ← Nat.add_assoc]
          exact hn j (by omega)
      simp only [if_true]
      rcases ih (k + 1) with ⟨hall, heq⟩ | ⟨i, hi, hbefore, hfail, heq⟩
      · exact Or.inl ⟨hsucc left hall, by rw [heq, List.replicate_succ]⟩
      · refine Or.inr ⟨i + 1, by omega, hsucc i hbefore, ?_, by rw [heq, List.replicate_succ, List.cons_append]⟩
        rw [← hfail, Nat.add_assoc, Nat.add_comm 1 i]

/-- **The polls of an upload**: eleven, of which the first ten succeed, or those up to the first failure and one
more. -/
theorem polls_eq (active : Nat → Bool) :
    (∀ j < 10, active j = true) ∧
        checkLoop active 0 10 ++ [finalPoll active] = List.replicate 10 true ++ [active 10] ∨
      ∃ k < 10, FailsFirst active k ∧
        checkLoop active 0 10 ++ [finalPoll active] = List.replicate k true ++ [false, active (k + 1)] := by
  rcases checkLoop_eq active 0 10 with ⟨hall, heq⟩ | ⟨k, hk, hbefore, hfail, heq⟩
  · simp only [Nat.zero_add] at hall
    refine Or.inl ⟨hall, ?_⟩
    rw [finalPoll, heq, List.length_replicate]
  · simp only [Nat.zero_add] at hbefore hfail
    refine Or.inr ⟨k, hk, ⟨hbefore, hfail⟩, ?_⟩
    rw [finalPoll, heq, List.length_append, List.length_replicate, List.append_assoc]
    rfl

theorem FailsFirst.unique {active : Nat → Bool} {k k' : Nat} (h : FailsFirst active k) (h' : FailsFirst active k') :
    k = k' := by
  rcases Nat.lt_trichotomy k k' with hlt | heq | hlt
  · exact absurd (h'.1 k hlt) (by rw [h.2]; decide)
  · exact heq
  · exact absurd (h.1 k' hlt) (by rw [h'.2]; decide)

/-- Whether no poll of an upload fails. -/
theorem forall_polls_iff (active : Nat → Bool) :
    (∀ b ∈ checkLoop active 0 10 ++ [finalPoll active], b = true) ↔ ∀ j < 11, active j = true := by
  rcases polls_eq active with ⟨hall, heq⟩ | ⟨k, hk, hfirst, heq⟩
  · rw [heq]
    constructor
    · intro h j hj
      rcases Nat.lt_succ_iff_lt_or_eq.mp hj with hlt | rfl
      · exact hall j hlt
      · exact h _ (List.mem_append_right _ List.mem_cons_self)
    · intro h b hb
      rcases List.mem_append.mp hb with hb | hb
      · exact List.eq_of_mem_replicate hb
      · rw [List.mem_singleton.mp hb]
        exact h 10 (by decide)
  · rw [heq]
    constructor
    · intro h
      exact absurd (h false (List.mem_append_right _ List.mem_cons_self)) (by decide)
    · intro h
      exact absurd (h k (by omega)) (by rw [hfirst.2]; decide)

/-- Whether the last poll of an upload succeeds. -/
theorem finalPoll_iff (active : Nat → Bool) : finalPoll active = true ↔ RunsAtLast active := by
  have hlast : ∀ l : List Bool, ∀ b, checkLoop active 0 10 ++ [finalPoll active] = l ++ [b] → finalPoll active = b :=
    fun l b h => List.singleton_inj.mp (List.append_inj' h rfl).2
  rcases polls_eq active with ⟨hall, heq⟩ | ⟨k, hk, hfirst, heq⟩
  · rw [hlast _ _ heq]
    constructor
    · intro h
      refine Or.inl fun j hj => ?_
      rcases Nat.lt_succ_iff_lt_or_eq.mp hj with hlt | rfl
      · exact hall j hlt
      · exact h
    · rintro (h | ⟨k, hk, hfirst, -⟩)
      · exact h 10 (by decide)
      · exact absurd (hall k hk) (by rw [hfirst.2]; decide)
  · rw [hlast (List.replicate k true ++ [false]) (active (k + 1)) (by rw [heq, List.append_assoc]; rfl)]
    constructor
    · intro h
      exact Or.inr ⟨k, hk, hfirst, h⟩
    · rintro (h | ⟨k', -, hfirst', h⟩)
      · exact h (k + 1) (by omega)
      · rwa [hfirst.unique hfirst']

/-! ## Failures -/

/-- The application, its hash and its version are as before. -/
structure Unchanged (fs fs' : Files) : Prop where
  app : fs' .app = fs .app
  hash : fs' .hash = fs .hash
  version : fs' .version = fs .version

/-- If there was a backup, a copy of an image that was on the device is still there. -/
def KeepsImage (fs fs' : Files) : Prop :=
  fs .backup ≠ none → ∃ q ∈ [Path.app, .backup], ∃ q' ∈ [Path.app, .backup], ∃ f, fs q = some f ∧ fs' q' = some f

/-- An upload that does not answer a success changes nothing. -/
def FailureHarmless (c : Cryptography) (verifyKey : Option (List UInt8)) (active : Nat → Bool) (fs : Files)
    (r : Request) : Prop :=
  (uploadOtaOn c verifyKey active fs r).answer ≠ success →
    Unchanged fs (uploadOtaOn c verifyKey active fs r).files ∧ KeepsImage fs (uploadOtaOn c verifyKey active fs r).files

/-- The failures that leave traces: a rollback where nothing was installed, and a version that cannot be copied, unless
image and hash were those of the package before. -/
def LeavesTraces (active : Nat → Bool) (fs : Files) (p : Package) : Prop :=
  ¬RunsAtLast active ∧ fs .app = none ∨
    RunsAtLast active ∧ (∀ version, p.version ≠ .file version) ∧
      ¬(fs .app = some { data := p.app, exec := true } ∧ fs .hash = some { data := p.hash })

theorem files_of_rollback {active : Nat → Bool} (hpoll : finalPoll active = false) (fs : Files) (p : Package) :
    (installPackage active fs p).files = restoreBackup (installed fs p) := by
  simp only [installPackage, hpoll, Bool.false_eq_true, if_false]

/-- The rollback. -/
theorem unchanged_of_rollback {active : Nat → Bool} (hpoll : finalPoll active = false) (fs : Files) (p : Package) :
    Unchanged fs (installPackage active fs p).files ↔ fs .app ≠ none := by
  obtain ⟨happ, hother⟩ := restoreBackup_installed fs p
  rw [files_of_rollback hpoll]
  constructor
  · intro h hnone
    have happ' := h.app
    rw [happ, hnone] at happ'
    cases happ'
  · intro h
    obtain ⟨app, hsome⟩ := Option.ne_none_iff_exists'.mp h
    refine ⟨?_, ?_, ?_⟩
    · rw [happ, hsome, Option.getD_some]
    · rw [hother _ (by decide), backupCurrent_ne fs (by decide)]
    · rw [hother _ (by decide), backupCurrent_ne fs (by decide)]

/-- The copy of the version fails. -/
theorem unchanged_of_raised {active : Nat → Bool} (hpoll : finalPoll active = true) (fs : Files) {p : Package}
    (hversion : ∀ version, p.version ≠ .file version) :
    Unchanged fs (installPackage active fs p).files ↔
      fs .app = some { data := p.app, exec := true } ∧ fs .hash = some { data := p.hash } := by
  have hfiles : (installPackage active fs p).files = (installed fs p).copy2 { data := p.hash } .hash := by
    cases hv : p.version with
    | absent | directory => simp only [installPackage, hpoll, hv, if_true]
    | file version => exact absurd hv (hversion version)
  have happ : (installPackage active fs p).files .app = some { data := p.app, exec := true } := by
    rw [hfiles, copy2_ne, installed_app]
  have hhash : (installPackage active fs p).files .hash = some { data := p.hash } := by
    rw [hfiles, copy2_self]
  have hv : (installPackage active fs p).files .version = fs .version := by
    rw [hfiles, copy2_ne, installed_ne fs p (by decide), backupCurrent_ne fs (by decide)]
  constructor
  · intro h
    exact ⟨h.app.symm.trans happ, h.hash.symm.trans hhash⟩
  · rintro ⟨ha, hh⟩
    exact ⟨happ.trans ha.symm, hhash.trans hh.symm, hv⟩

theorem uploadOtaOn_ok {c : Cryptography} {verifyKey : Option (List UInt8)} {active : Nat → Bool} {r : Request}
    (h : uploadOta c verifyKey r = .ok p) : uploadOtaOn c verifyKey active fs r = installPackage active fs p := by
  simp only [uploadOtaOn, h]

/-- An accepted upload answers a success exactly when the service runs at last and the version is a file. -/
theorem answer_eq_success_iff (active : Nat → Bool) (fs : Files) (p : Package) :
    (installPackage active fs p).answer = success ↔ RunsAtLast active ∧ ∃ version, p.version = .file version := by
  rw [← finalPoll_iff]
  cases hpoll : finalPoll active with
  | false => simp [installPackage, hpoll, success]
  | true => cases hversion : p.version <;> simp [installPackage, hpoll, hversion, success]

/-- An accepted upload that does not answer a success. -/
theorem unchanged_iff (active : Nat → Bool) (fs : Files) (p : Package) :
    ((installPackage active fs p).answer ≠ success → Unchanged fs (installPackage active fs p).files) ↔
      ¬LeavesTraces active fs p := by
  rw [Ne, answer_eq_success_iff, LeavesTraces]
  by_cases hlast : RunsAtLast active
  · by_cases hversion : ∃ version, p.version = .file version
    · obtain ⟨version, hv⟩ := hversion
      simp [hlast, hv]
    · have hnone : ∀ version, p.version ≠ .file version := not_exists.mp hversion
      have hsame := unchanged_of_raised ((finalPoll_iff active).mpr hlast) fs hnone
      simp [hlast, hnone, hsame]
  · have hpoll : finalPoll active = false := by
      rw [← Bool.not_eq_true, finalPoll_iff]
      exact hlast
    simp [hlast, unchanged_of_rollback hpoll]

/-- An accepted upload leaves an application. -/
theorem installPackage_app_ne_none (active : Nat → Bool) (fs : Files) (p : Package) :
    (installPackage active fs p).files .app ≠ none := by
  cases hpoll : finalPoll active with
  | false =>
    rw [files_of_rollback hpoll, (restoreBackup_installed fs p).1]
    exact Option.some_ne_none _
  | true =>
    cases hversion : p.version <;> simp [installPackage, hpoll, hversion, copy2_ne, installed_app]

/-- An application that is not changed is a copy that is kept. -/
theorem Unchanged.keepsImage (h : Unchanged fs fs') (happ : fs' .app ≠ none) : KeepsImage fs fs' := by
  intro _
  obtain ⟨app, hsome⟩ := Option.ne_none_iff_exists'.mp happ
  exact ⟨.app, List.mem_cons_self, .app, List.mem_cons_self, app, h.app ▸ hsome, hsome⟩

/-- A refusal changes nothing at all. -/
theorem failureHarmless_of_refused {c : Cryptography} {verifyKey : Option (List UInt8)} {active : Nat → Bool}
    {r : Request} {a : Answer} (h : uploadOta c verifyKey r = .error a) :
    FailureHarmless c verifyKey active fs r := by
  have hfiles : (uploadOtaOn c verifyKey active fs r).files = fs := by
    simp only [uploadOtaOn, h]
  intro _
  rw [hfiles]
  refine ⟨⟨rfl, rfl, rfl⟩, fun hbackup => ?_⟩
  obtain ⟨backup, hsome⟩ := Option.ne_none_iff_exists'.mp hbackup
  have hmem : Path.backup ∈ [Path.app, .backup] := List.mem_cons_of_mem _ List.mem_cons_self
  exact ⟨.backup, hmem, .backup, hmem, backup, hsome, hsome⟩

/-- **A failed upload changes nothing exactly when its package is refused, or what was installed can be restored, or it
was the package itself that was installed.** -/
theorem failure_harmless_iff (c : Cryptography) (verifyKey : Option (List UInt8)) (active : Nat → Bool) (fs : Files)
    (r : Request) : FailureHarmless c verifyKey active fs r ↔
      ∀ p, uploadOta c verifyKey r = .ok p → ¬LeavesTraces active fs p := by
  cases hr : uploadOta c verifyKey r with
  | error a => exact iff_of_true (failureHarmless_of_refused hr) fun p hp => (by cases hp)
  | ok p =>
    have hone : (∀ q, (.ok p : Except Answer Package) = .ok q → ¬LeavesTraces active fs q) ↔
        ¬LeavesTraces active fs p :=
      ⟨fun h => h p rfl, fun h q hq => by cases hq; exact h⟩
    rw [hone, ← unchanged_iff, FailureHarmless, uploadOtaOn_ok hr]
    constructor
    · intro h hfail
      exact (h hfail).1
    · intro h hfail
      exact ⟨h hfail, (h hfail).keepsImage (installPackage_app_ne_none active fs p)⟩

/-- An accepted upload to a device without an application, whose service does not start. -/
theorem first_upload_left : ¬FailureHarmless oneKey server.verifyKey (fun _ => false) (fun _ => none)
    (.zip (.extracted archive)) := by
  intro h
  rw [FailureHarmless, uploadOtaOn_ok uploadOta_archive] at h
  obtain ⟨hunchanged, -⟩ := h (by decide)
  have happ := hunchanged.app
  have hleft : (installPackage (fun _ => false) (fun _ => none) secondRelease.package).files .app =
      some { data := [3], exec := true } := by
    decide
  rw [hleft] at happ
  cases happ

/-! ## Commits -/

/-- The outcome of a health poll. -/
def Op.polled : Op → Option Bool
  | .isKaonicRunning active => some active
  | _ => none

/-- The outcomes of the health polls of an upload. -/
def Result.polls (r : Result) : List Bool := r.ops.filterMap Op.polled

/-- An upload has written hash and version of its package and answers a success. -/
structure Committed (p : Package) (r : Result) : Prop where
  copyHash : .copyHash ∈ r.ops
  copyVersion : .copyVersion ∈ r.ops
  answer : r.answer = success
  hash : r.files .hash = some { data := p.hash }
  version : ∃ version, p.version = .file version ∧ r.files .version = some { data := version }

/-- An upload has called `restore_backup`, and the application that was installed, if there was one, is back. -/
structure Restored (fs : Files) (r : Result) : Prop where
  restoreBackup : .restoreBackup ∈ r.ops
  app : ∀ app, fs .app = some app → r.files .app = some app

/-- An upload commits exactly when no health poll fails, and restores the backup when one fails. -/
def CommittedAfterCheck (fs : Files) (p : Package) (r : Result) : Prop :=
  (Committed p r ↔ ∀ b ∈ r.polls, b = true) ∧ ((∃ b ∈ r.polls, b = false) → Restored fs r)

theorem polled_map (polls : List Bool) : (polls.map Op.isKaonicRunning).filterMap Op.polled = polls := by
  induction polls with
  | nil => rfl
  | cons active polls ih => exact congrArg (active :: ·) ih

/-- An upload makes the polls of the check loop and the final one. -/
theorem polls_installPackage (active : Nat → Bool) (fs : Files) (p : Package) :
    (installPackage active fs p).polls = checkLoop active 0 10 ++ [finalPoll active] := by
  unfold Result.polls installPackage
  cases hpoll : finalPoll active with
  | false =>
    simp only [Bool.false_eq_true, if_false, List.filterMap_append, polled_map]
    exact List.append_nil _
  | true =>
    cases hversion : p.version with
    | absent | directory | file version =>
      simp only [if_true, List.filterMap_append, polled_map]
      exact List.append_nil _

/-- **An accepted upload commits exactly when the service runs at last and the version is a file.** -/
theorem committed_iff (active : Nat → Bool) (fs : Files) (p : Package) :
    Committed p (installPackage active fs p) ↔ RunsAtLast active ∧ ∃ version, p.version = .file version := by
  constructor
  · intro h
    exact (answer_eq_success_iff active fs p).mp h.answer
  · rintro ⟨hlast, version, hversion⟩
    have hpoll := (finalPoll_iff active).mpr hlast
    constructor
    · simp [installPackage, hpoll, hversion]
    · simp [installPackage, hpoll, hversion]
    · simp [installPackage, hpoll, hversion]
    · simp [installPackage, hpoll, hversion, copy2_ne]
    · exact ⟨version, hversion, by simp [installPackage, hpoll, hversion]⟩

/-- An accepted upload restores exactly when the service does not run at last. -/
theorem restored_iff (active : Nat → Bool) (fs : Files) (p : Package) :
    Restored fs (installPackage active fs p) ↔ ¬RunsAtLast active := by
  rw [← finalPoll_iff]
  cases hpoll : finalPoll active with
  | false =>
    refine iff_of_true ⟨?_, fun app happ => ?_⟩ (by decide)
    · simp [installPackage, hpoll]
    · rw [files_of_rollback hpoll, (restoreBackup_installed fs p).1, happ, Option.getD_some]
  | true =>
    refine iff_of_false (fun h => ?_) (by decide)
    have hops := h.restoreBackup
    cases hversion : p.version <;> simp [installPackage, hpoll, hversion] at hops

/-- **Commits follow an uninterrupted health check exactly when the service does not come back after its first failure,
and the version is a file if it never fails.** -/
theorem committed_after_check_iff {c : Cryptography} {verifyKey : Option (List UInt8)} {r : Request}
    (hp : uploadOta c verifyKey r = .ok p) (active : Nat → Bool) (fs : Files) :
    CommittedAfterCheck fs p (uploadOtaOn c verifyKey active fs r) ↔
      (∀ k < 10, FailsFirst active k → active (k + 1) = false) ∧
        ((∀ j < 11, active j = true) → ∃ version, p.version = .file version) := by
  have hsome : (∃ b ∈ (installPackage active fs p).polls, b = false) ↔ ¬∀ j < 11, active j = true := by
    rw [← forall_polls_iff, ← polls_installPackage active fs p]
    simp only [not_forall, exists_prop, Bool.not_eq_true]
  rw [uploadOtaOn_ok hp, CommittedAfterCheck, hsome, polls_installPackage, forall_polls_iff, committed_iff,
    restored_iff]
  by_cases hall : ∀ j < 11, active j = true
  · have hlast : RunsAtLast active := Or.inl hall
    constructor
    · rintro ⟨hcommit, -⟩
      exact ⟨fun k hk hfirst => absurd (hall k (by omega)) (by rw [hfirst.2]; decide), fun _ => (hcommit.mpr hall).2⟩
    · rintro ⟨-, hversion⟩
      exact ⟨iff_of_true ⟨hlast, hversion hall⟩ hall, fun h => absurd hall h⟩
  · constructor
    · rintro ⟨-, hrestored⟩
      refine ⟨fun k hk hfirst => ?_, fun h => absurd h hall⟩
      rw [← Bool.not_eq_true]
      exact fun hback => hrestored hall (Or.inr ⟨k, hk, hfirst, hback⟩)
    · rintro ⟨hstays, -⟩
      have hstops : ¬RunsAtLast active := by
        rintro (h | ⟨k, hk, hfirst, hback⟩)
        · exact hall h
        · rw [hstays k hk hfirst] at hback
          cases hback
      exact ⟨iff_of_false (fun h => hstops h.1) hall, fun _ => hstops⟩

/-- An upload whose first poll fails and whose later ones do not. -/
theorem committed_after_failed_poll : ¬∀ (c : Cryptography) (verifyKey : Option (List UInt8)) (r : Request)
    (p : Package) (active : Nat → Bool) (fs : Files), uploadOta c verifyKey r = .ok p →
      CommittedAfterCheck fs p (uploadOtaOn c verifyKey active fs r) := by
  intro h
  have hcommitted := h oneKey server.verifyKey (.zip (.extracted archive)) secondRelease.package
    (fun k => decide (0 < k)) server.files uploadOta_archive
  rw [uploadOtaOn_ok uploadOta_archive] at hcommitted
  have hpolls : ∃ b ∈ (installPackage (fun k => decide (0 < k)) server.files secondRelease.package).polls,
      b = false := by
    decide
  exact absurd (hcommitted.2 hpolls).restoreBackup (by decide)

/-- A service that stays down after its first poll. -/
theorem committed_after_check_down : CommittedAfterCheck server.files secondRelease.package
    (uploadOtaOn oneKey server.verifyKey (fun _ => false) server.files (.zip (.extracted archive))) :=
  (committed_after_check_iff uploadOta_archive (fun _ => false) server.files).mpr
    ⟨fun _ _ _ => rfl, fun _ => ⟨_, rfl⟩⟩

end

end KaonicComm.Ota
