import KaonicComm.Ota.Overlap

/-!
# Whether the updater comes back

The updater that is down can be started until it serves when `validate_app_file` does not raise
(`restarts_of_not_raises`). It raises for a hash file that is no text; so the updater always comes back where the hash
files are ASCII texts, as those of `create-ota.py` are (`restarts_of_run`), for then the bytes of the hash file are
ASCII characters in every run, however copies mix them.
-/

namespace KaonicComm.Ota

open Runs

/-- The steps of the main thread after its start. -/
def SharedAct.ofServer : SharedAct → Bool
  | .server | .openSource .server | .copy .server _ | .copystat .server => true
  | _ => false

/-- A process that is down can be started until it serves. -/
def Restarts (c : Cryptography) (s : Shared) : Prop :=
  ∃ as s', (∀ a ∈ as, a.ofServer = true) ∧ run (sharedStep c) s (.start :: as) = some s' ∧ s'.server = .serving

section

variable {c : Cryptography} {s₀ : State} {s : Shared} {as : List SharedAct}

/-- The steps of a copy of the main thread. -/
theorem run_serverCopy {acts : List CopyAct} : ∀ {d d' : Disk Path File} {copy copy' : Copy},
    run copyStep (d, copy) acts = some (d', copy') →
      run (sharedStep c) { s with disk := d, serverCopy := some copy } (acts.map (.copy .server)) =
        some { s with disk := d', serverCopy := some copy' } := by
  induction acts with
  | nil =>
    intro d d' copy copy' h
    cases h
    rfl
  | cons a acts ih =>
    intro d d' copy copy' h
    obtain ⟨⟨d₁, copy₁⟩, hstep, h⟩ := run_cons.mp h
    refine run_cons.mpr ⟨{ s with disk := d₁, serverCopy := some copy₁ }, ?_, ih h⟩
    have hnext : copy.next d a = some (d₁, copy₁) := hstep
    simp only [sharedStep, Shared.copyOf, hnext]
    rfl

/-- The restoration copies the backup. -/
theorem run_restoring {backup : File} (hv : s.server = .restoring) (hnone : s.serverCopy = none)
    (hbackup : s.disk.files .backup = some backup) : ∃ as s', (∀ a ∈ as, a.ofServer = true) ∧
      run (sharedStep c) s as = some s' ∧ s'.serverCopy = none ∧
        s'.view = { s.view with files := s.view.files.copy2 backup .app, server := .launching } := by
  let copy : Copy := { src := .file .backup, dst := .app, source := .file (s.disk.place .backup), progress := .opened }
  have hfaithful : copy.Faithful s.disk := ⟨rfl, backup, hbackup, trivial⟩
  have hne : copy.src ≠ .file copy.dst := nofun
  obtain ⟨acts, d, copy', hrun, hcopied⟩ := copy_ends hfaithful hne rfl
  obtain ⟨⟨-, f, hf, hreached⟩, ⟨hsrc, hdst⟩, v, hfiles⟩ := faithful_run hfaithful hne hrun
  have hdst : copy'.dst = .app := hdst
  rw [hcopied, hdst] at hreached
  obtain ⟨g, hg, hdata⟩ := hreached
  have hread : copy'.src.read d.files = some backup := by
    rw [hsrc, hfiles, read_update hne]
    exact hbackup
  obtain rfl := Option.some.inj (hf.symm.trans hread)
  have hopen : sharedStep c s (.openSource .server) = some (s.setCopy copy .server) := by
    simp only [sharedStep, Shared.copyOf, hnone, Shared.toCopy, hv, if_true, CopySource.read, hbackup, reduceCtorEq,
      if_false]
    rfl
  let s' : Shared := { s with disk := d.put (d.place .app) f, server := .launching, serverCopy := none }
  have hstat : sharedStep c { s with disk := d, serverCopy := some copy' } (.copystat .server) = some s' := by
    have hfile : ({ g with exec := f.exec } : File) = f := by rw [hdata]
    simp only [sharedStep, Shared.copyOf, hcopied, if_true, hread, hdst, hg, hfile]
    rfl
  refine ⟨.openSource .server :: (acts.map (.copy .server) ++ [.copystat .server]), s', fun a ha => ?_,
    run_cons.mpr ⟨_, hopen, ?_⟩, rfl, ?_⟩
  · rcases List.mem_cons.mp ha with rfl | ha
    · rfl
    · rcases List.mem_append.mp ha with ha | ha
      · obtain ⟨a, -, rfl⟩ := List.mem_map.mp ha
        rfl
      · cases List.mem_singleton.mp ha
        rfl
  · have hcopies : run (sharedStep c) (s.setCopy copy .server) (acts.map (.copy .server)) =
        some { s with disk := d, serverCopy := some copy' } := run_serverCopy hrun
    rw [run_append, hcopies]
    exact run_cons.mpr ⟨_, hstat, rfl⟩
  · have hinstalled : (d.put (d.place .app) f).files = Files.copy2 s.disk.files f .app := by
      rw [d.files_put_place, hfiles]
      exact Function.update_idem ..
    simp only [s', Shared.view, hinstalled]

/-- The main thread comes to serve here as well, copying where the device copies at once. -/
theorem run_serves {t : State} (ht : Serves t) : ∀ s : Shared, s.view = t → s.serverCopy = none →
    ∃ as s', (∀ a ∈ as, a.ofServer = true) ∧ run (sharedStep c) s as = some s' ∧ s'.server = .serving := by
  induction ht with
  | serving hv =>
    rintro s rfl -
    exact ⟨[], s, nofun, rfl, hv⟩
  | @next t u hnext _ ih =>
    rintro s rfl hnone
    -- the first step, or the whole copy of the backup
    obtain ⟨as, s₁, has, hrun, hnone₁, hview⟩ : ∃ as s₁, (∀ a ∈ as, a.ofServer = true) ∧
        run (sharedStep c) s as = some s₁ ∧ s₁.serverCopy = none ∧ s₁.view = u := by
      by_cases hrestoring : s.server = .restoring ∧ s.disk.files .backup ≠ none
      · obtain ⟨hv, hsome⟩ := hrestoring
        obtain ⟨backup, hbackup⟩ := Option.ne_none_iff_exists'.mp hsome
        obtain ⟨as, s₁, has, hrun, hnone₁, hview⟩ := run_restoring (c := c) hv hnone hbackup
        refine ⟨as, s₁, has, hrun, hnone₁, hview.trans ?_⟩
        have hv : s.view.server = .restoring := hv
        have hbackup : s.view.files .backup = some backup := hbackup
        simp only [serverNext, hv, hbackup] at hnext
        exact Option.some.inj hnext
      · have hstep : sharedStep c s .server = some { s with metadata := u.metadata, server := u.server } := by
          rw [sharedStep, if_pos ⟨hnone, hrestoring⟩, hnext]
          rfl
        refine ⟨[.server], _, fun a ha => ?_, run_cons.mpr ⟨_, hstep, rfl⟩, hnone, ?_⟩
        · cases List.mem_singleton.mp ha
          rfl
        · exact (serverNext_eq hnext hrestoring).1.symm
    obtain ⟨as', s', has', hrun', hv⟩ := ih s₁ hview hnone₁
    refine ⟨as ++ as', s', fun a ha => (List.mem_append.mp ha).elim (has a) (has' a), ?_, hv⟩
    rw [run_append, hrun]
    exact hrun'

/-- **A process that is down can be started when `validate_app_file` does not raise.** -/
theorem restarts_of_not_raises (hdown : s.server = .down) (h : ¬HashRaises s.view) : Restarts c s := by
  let s₁ : Shared := { s with server := .validating, serverCopy := none }
  have hstart : sharedStep c s .start = some s₁ := if_pos hdown
  have hserves : Serves s₁.view := (serves_iff rfl).mpr h
  obtain ⟨as, s', has, hrun, hv⟩ := run_serves hserves s₁ rfl rfl
  exact ⟨as, s', has, run_cons.mpr ⟨_, hstart, hrun⟩, hv⟩

/-- **The updater always comes back where the hash files are ASCII texts**: in every run, with copies at the same time
and kills at any moment, a process that is down can be started until it serves. -/
theorem restarts_of_run (huploads : s₀.uploads = [])
    (hascii : ∀ x, Origin c s₀ {r | .request r ∈ as} .hash x → ∀ b ∈ x, b < 0x80)
    (h : run (sharedStep c) s₀.share as = some s) (hdown : s.server = .down) : Restarts c s := by
  refine restarts_of_not_raises hdown (not_hashRaises fun x hx b hb => ?_)
  obtain ⟨i, hi⟩ := List.getElem?_of_mem hb
  rcases bytes_of_run huploads (fun _ hr => hr) h .hash x hx i b hi with rfl | ⟨y, hy, hby⟩
  · decide
  · exact hascii y hy b (List.mem_of_getElem? hby)

end

/-- The mixing run, and a kill. -/
def mixingKilled : List SharedAct := mixing ++ [.kill]

theorem ascii_mixingKilled (x : List UInt8)
    (hx : Origin oneKey server {r | SharedAct.request r ∈ mixingKilled} .hash x) : ∀ b ∈ x, b < 0x80 := by
  rcases hx with hx | ⟨p, ⟨r, hr, hp⟩, rfl⟩
  · cases hx
    decide +kernel
  · obtain rfl : r = .zip (.extracted archive) := by simpa [mixingKilled, mixing, copyWhole] using hr
    cases uploadOta_archive.symm.trans hp
    decide +kernel

theorem restarts_of_run_mixingKilled : ∃ s, run (sharedStep oneKey) server.share mixingKilled = some s ∧
    Restarts oneKey s := by
  obtain ⟨s, hs, heq⟩ := Option.map_eq_some_iff.mp run_mixing
  have hv : s.server ≠ .down := by
    rw [(Prod.mk.inj heq).2]
    decide
  have hkill : run (sharedStep oneKey) server.share mixingKilled =
      some { s with server := .down, serverCopy := none, uploads := [] } := by
    rw [mixingKilled, run_concat]
    exact ⟨s, hs, if_pos hv⟩
  exact ⟨_, hkill, restarts_of_run rfl ascii_mixingKilled hkill rfl⟩

end KaonicComm.Ota
