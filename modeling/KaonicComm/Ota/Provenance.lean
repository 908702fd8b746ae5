import KaonicComm.Ota.Releases
import Mathlib.Data.Set.Defs

/-!
# Where the files come from, and whether the updater comes back

Each file is a beginning of what was there before or of what an accepted package brought to its place, as long as each
copy has its destination to itself (`beginning_of_run`): every step of the device keeps what is required of the files
when beginnings have it and images are exchanged between the application and its backup (`kept_step`).

The main thread comes to serve by its own steps exactly when `validate_app_file` can decode the hash file or does not
read it (`serves_iff`).
-/

namespace KaonicComm.Ota

open Runs Sha256

/-! ## What every step keeps -/

section

variable {Ok : Path → List UInt8 → Prop} {fs fs' : Files}

/-- Every file holds what is allowed at its path. -/
def Holds (Ok : Path → List UInt8 → Prop) (fs : Files) : Prop := ∀ q f, fs q = some f → Ok q f.data

/-- Beginnings are allowed, and an image is allowed as a backup where it is allowed as the application. -/
structure Copied (Ok : Path → List UInt8 → Prop) : Prop where
  beginning : ∀ {q x y}, x <+: y → Ok q y → Ok q x
  image : ∀ {x}, Ok .app x ↔ Ok .backup x

/-- What a package brings is allowed. -/
structure Package.Allowed (Ok : Path → List UInt8 → Prop) (p : Package) : Prop where
  app : Ok .app p.app
  hash : Ok .hash p.hash
  version : ∀ v, p.version = .file v → Ok .version v

theorem Holds.update (h : Holds Ok fs) {q : Path} {v : Option File} (hv : ∀ f, v = some f → Ok q f.data) :
    Holds Ok (Function.update fs q v) := by
  intro q' f hf
  by_cases hq : q' = q
  · subst hq
    rw [Function.update_self] at hf
    exact hv f hf
  · rw [Function.update_of_ne hq] at hf
    exact h q' f hf

theorem Holds.copy2 (h : Holds Ok fs) {src : File} {dst : Path} (hsrc : Ok dst src.data) :
    Holds Ok (fs.copy2 src dst) := by
  apply h.update
  rintro f ⟨⟩
  exact hsrc

theorem Holds.copying (hc : Copied Ok) (h : Holds Ok fs) {src : File} {dst : Path} (hsrc : Ok dst src.data) (k : Nat) :
    Holds Ok (fs.copying src dst k) := by
  apply h.update
  rintro f ⟨⟩
  exact hc.beginning (List.take_prefix k src.data) hsrc

/-- What an upload copies is allowed where it is copied to. -/
theorem Holds.copy (hc : Copied Ok) (h : Holds Ok fs) {job : Job} (hp : job.package.Allowed Ok) {src : File}
    {dst : Path} (hcopy : job.copy fs = some (src, dst)) : Ok dst src.data := by
  obtain ⟨package, pc⟩ := job
  cases pc with
  | copyBackup =>
    obtain ⟨app, happ, hcopy⟩ := Option.map_eq_some_iff.mp hcopy
    cases hcopy
    exact hc.image.mp (h .app _ happ)
  | copyApp =>
    cases hcopy
    exact hp.app
  | copyHash =>
    cases hcopy
    exact hp.hash
  | copyVersion =>
    simp only [Job.copy] at hcopy
    split at hcopy <;> cases hcopy
    exact hp.version _ ‹_›
  | restore =>
    obtain ⟨backup, hbackup, hcopy⟩ := Option.map_eq_some_iff.mp hcopy
    cases hcopy
    exact hc.image.mpr (h .backup _ hbackup)
  | stop | testBackup | unlinkBackup | chmodApp | launch | poll left | finalPoll | testRestore | relaunch => cases hcopy

/-- A step of an upload keeps the files within what is allowed. -/
theorem Holds.next (hc : Copied Ok) (h : Holds Ok fs) {job : Job} (hp : job.package.Allowed Ok) {active : Bool}
    {o : Outcome} (hnext : job.next fs active = (fs', o)) : Holds Ok fs' := by
  obtain ⟨package, pc⟩ := job
  cases pc with
  | stop | testBackup | launch | finalPoll | testRestore | relaunch =>
    cases hnext
    exact h
  | poll left =>
    obtain ⟨rfl, -⟩ := next_poll hnext
    exact h
  | unlinkBackup =>
    cases hbackup : fs .backup with
    | none =>
      simp only [Job.next, hbackup] at hnext
      cases hnext
      exact h
    | some backup =>
      simp only [Job.next, hbackup] at hnext
      cases hnext
      apply h.update
      rintro f ⟨⟩
  | copyBackup =>
    cases happ : fs .app with
    | none =>
      simp only [Job.next, happ] at hnext
      cases hnext
      exact h
    | some app =>
      simp only [Job.next, happ] at hnext
      cases hnext
      exact h.copy2 (hc.image.mp (h .app app happ))
  | copyApp =>
    cases hnext
    exact h.copy2 hp.app
  | chmodApp =>
    cases happ : fs .app with
    | none =>
      simp only [Job.next, happ] at hnext
      cases hnext
      exact h
    | some app =>
      simp only [Job.next, happ] at hnext
      cases hnext
      exact h.copy2 (h .app app happ)
  | copyHash =>
    cases hnext
    exact h.copy2 hp.hash
  | copyVersion =>
    cases hversion : package.version with
    | file version =>
      simp only [Job.next, hversion] at hnext
      cases hnext
      exact h.copy2 (hp.version version hversion)
    | absent | directory =>
      simp only [Job.next, hversion] at hnext
      cases hnext
      exact h
  | restore =>
    cases hbackup : fs .backup with
    | none =>
      simp only [Job.next, hbackup] at hnext
      cases hnext
      exact h
    | some backup =>
      simp only [Job.next, hbackup] at hnext
      cases hnext
      exact h.copy2 (hc.image.mpr (h .backup backup hbackup))

/-- The files of a device and the packages of its uploads are within what is allowed. -/
structure Kept (Ok : Path → List UInt8 → Prop) (s : State) : Prop where
  files : Holds Ok s.files
  uploads : ∀ job ∈ s.uploads, job.package.Allowed Ok

variable {s s' : State}

theorem kept_serverNext (hc : Copied Ok) (hs : Kept Ok s) (h : serverNext s = some s') : Kept Ok s' := by
  refine ⟨?_, by rw [(serverNext_frame h).2.1]; exact hs.uploads⟩
  unfold serverNext at h
  cases hv : s.server with
  | down | serving =>
    rw [hv] at h
    cases h
  | validating =>
    rw [hv] at h
    cases h
    unfold validateAppFile
    split
    · exact hs.files
    · split
      · exact hs.files
      · split
        · exact hs.files
        · split <;> exact hs.files
  | stopping | testBackup | launching | validated =>
    rw [hv] at h
    cases h
    exact hs.files
  | restoring =>
    rw [hv] at h
    cases hb : s.files .backup with
    | none =>
      rw [hb] at h
      cases h
      exact hs.files
    | some backup =>
      rw [hb] at h
      cases h
      exact hs.files.copy2 (hc.image.mpr (hs.files .backup backup hb))

/-- **Every step keeps the files within what is allowed.** -/
theorem kept_step {c : Cryptography} {a : Act} (hc : Copied Ok) (hs : Kept Ok s)
    (hr : ∀ r p, a = .request r → uploadOta c s.verifyKey r = .ok p → p.Allowed Ok) (h : step c s a = some s') :
    Kept Ok s' := by
  cases a with
  | start =>
    obtain ⟨-, rfl⟩ := step_start h
    exact ⟨hs.files, hs.uploads⟩
  | server => exact kept_serverNext hc hs h
  | serverWrite k =>
    obtain ⟨backup, -, hbackup, -, rfl⟩ := step_serverWrite h
    exact ⟨hs.files.copying hc (hc.image.mpr (hs.files .backup backup hbackup)) k, hs.uploads⟩
  | request r =>
    obtain ⟨-, ⟨a, -, rfl⟩ | ⟨p, hp, rfl⟩⟩ := step_request h
    · exact ⟨hs.files, hs.uploads⟩
    · refine ⟨hs.files, fun job hjob => ?_⟩
      rcases List.mem_append.mp hjob with hjob | hjob
      · exact hs.uploads job hjob
      · cases List.mem_singleton.mp hjob
        exact hr r p rfl hp
  | upload i active =>
    obtain ⟨job, files, hjob, ⟨pc, hnext, rfl⟩ | ⟨a, hnext, rfl⟩⟩ := step_upload h
    · have hp := hs.uploads job (List.mem_of_getElem? hjob)
      refine ⟨hs.files.next hc hp hnext, fun j hj => ?_⟩
      rcases List.mem_or_eq_of_mem_set hj with hj | rfl
      · exact hs.uploads j hj
      · exact hp
    · have hp := hs.uploads job (List.mem_of_getElem? hjob)
      exact ⟨hs.files.next hc hp hnext, fun j hj => hs.uploads j (List.mem_of_mem_eraseIdx hj)⟩
  | write i k =>
    obtain ⟨job, src, dst, hjob, hcopy, -, rfl⟩ := step_write h
    have hp := hs.uploads job (List.mem_of_getElem? hjob)
    exact ⟨hs.files.copying hc (hs.files.copy hc hp hcopy) k, hs.uploads⟩
  | kill =>
    cases step_kill h
    exact ⟨hs.files, nofun⟩

end

/-! ## Origins -/

section

variable (c : Cryptography) (s₀ : State) (requests : Set Request)

/-- A package that one of the requests brought and that passed the checks. -/
def Brought (p : Package) : Prop := ∃ r ∈ requests, uploadOta c s₀.verifyKey r = .ok p

/-- What a file may be a copy of: what was there at first, or what a package brought. -/
def Origin : Path → List UInt8 → Prop
  | .app, x | .backup, x =>
    s₀.files.data .app = some x ∨ s₀.files.data .backup = some x ∨ ∃ p, Brought c s₀ requests p ∧ p.app = x
  | .hash, x => s₀.files.data .hash = some x ∨ ∃ p, Brought c s₀ requests p ∧ p.hash = x
  | .version, x => s₀.files.data .version = some x ∨ ∃ p, Brought c s₀ requests p ∧ p.version = .file x

/-- A beginning of an origin. -/
def Beginning (q : Path) (x : List UInt8) : Prop := ∃ y, Origin c s₀ requests q y ∧ x <+: y

end

section

variable {c : Cryptography} {s₀ s : State} {requests : Set Request}

/-- The files that were there at first. -/
theorem origin_first {q : Path} {f : File} (h : s₀.files q = some f) : Origin c s₀ requests q f.data := by
  have hdata := data_of_eq h
  cases q with
  | app | hash | version => exact Or.inl hdata
  | backup => exact Or.inr (Or.inl hdata)

theorem Origin.beginning {q : Path} {x : List UInt8} (h : Origin c s₀ requests q x) : Beginning c s₀ requests q x :=
  ⟨x, h, List.prefix_refl x⟩

theorem copied_beginning : Copied (Beginning c s₀ requests) where
  beginning := fun hxy ⟨z, hz, hyz⟩ => ⟨z, hz, hxy.trans hyz⟩
  image := Iff.rfl

/-- What is required of the origins holds of a package. -/
theorem Brought.allowed {Ok : Path → List UInt8 → Prop} {p : Package} (h : Brought c s₀ requests p)
    (hok : ∀ q x, Origin c s₀ requests q x → Ok q x) : p.Allowed Ok where
  app := hok _ _ (Or.inr (Or.inr ⟨p, h, rfl⟩))
  hash := hok _ _ (Or.inr ⟨p, h, rfl⟩)
  version _ hv := hok _ _ (Or.inr ⟨p, h, hv⟩)

/-- **While each copy has its destination to itself, a file is a beginning of an origin.** -/
theorem beginning_of_run {as : List Act} (huploads : s₀.uploads = []) (hrequests : ∀ r, .request r ∈ as → r ∈ requests)
    (h : run (step c) s₀ as = some s) (q : Path) (x : List UInt8) (hx : s.files.data q = some x) :
    Beginning c s₀ requests q x := by
  have hfirst : Kept (Beginning c s₀ requests) s₀ := by
    refine ⟨fun q f hf => (origin_first hf).beginning, fun job hjob => ?_⟩
    rw [huploads] at hjob
    cases hjob
  have hkept : s.verifyKey = s₀.verifyKey ∧ Kept (Beginning c s₀ requests) s := by
    refine run_inv (P := fun _ a => a ∈ as)
      (I := fun t => t.verifyKey = s₀.verifyKey ∧ Kept (Beginning c s₀ requests) t)
      (fun t a t' ht ha hstep => ?_) ⟨rfl, hfirst⟩ (along_of_forall (fun _ _ ha => ha) s₀) h
    refine ⟨(step_verified hstep).1.trans ht.1, kept_step copied_beginning ht.2 (fun r p hr hp => ?_) hstep⟩
    rw [ht.1] at hp
    exact Brought.allowed ⟨r, hrequests r (hr ▸ ha), hp⟩ fun _ _ => Origin.beginning
  obtain ⟨f, hf, rfl⟩ := Option.map_eq_some_iff.mp hx
  exact hkept.2.files q f hf

end

/-! ## Coming to serve -/

/-- The main thread comes to serve by its own steps. -/
inductive Serves : State → Prop where
  | serving {s : State} : s.server = .serving → Serves s
  | next {s t : State} : serverNext s = some t → Serves t → Serves s

section

variable {s : State}

theorem serves_validated (hv : s.server = .validated) : Serves s := by
  refine .next (t := { s with server := .serving }) ?_ (.serving rfl)
  simp only [serverNext, hv]

theorem serves_launching (hv : s.server = .launching) : Serves s := by
  refine .next (t := { s with server := .validated }) ?_ (serves_validated rfl)
  simp only [serverNext, hv]

/-- The restoration always ends. -/
theorem serves_stopping (hv : s.server = .stopping) : Serves s := by
  refine .next (t := { s with server := .testBackup }) (by simp only [serverNext, hv]) ?_
  cases hb : s.files .backup with
  | none =>
    refine .next (t := { s with server := .launching }) ?_ (serves_launching rfl)
    simp only [serverNext, hb, if_true]
  | some backup =>
    refine .next (t := { s with server := .restoring }) (by simp [serverNext, hb]) ?_
    refine .next (t := { s with files := s.files.copy2 backup .app, server := .launching }) ?_ (serves_launching rfl)
    simp only [serverNext, hb]

/-- `validate_app_file` raises when it reads a hash file that is no text. -/
def HashRaises (s : State) : Prop :=
  s.metadata = true ∧ ¬(s.files .app = none ∧ s.files .backup = none) ∧ expectedHash s.files = none

theorem validateAppFile_down (h : HashRaises s) : validateAppFile s = { s with server := .down } := by
  obtain ⟨hm, hnone, hexp⟩ := h
  simp only [validateAppFile, hm, not_true, if_false, if_neg hnone, hexp]

theorem validateAppFile_goes (h : ¬HashRaises s) :
    (validateAppFile s).server = .validated ∨ (validateAppFile s).server = .stopping := by
  unfold validateAppFile
  split
  · exact Or.inl rfl
  · rename_i hm
    split
    · exact Or.inl rfl
    · rename_i hnone
      split
      · rename_i hexp
        exact absurd ⟨Decidable.not_not.mp hm, hnone, hexp⟩ h
      · split
        · exact Or.inr rfl
        · exact Or.inl rfl

/-- **After its start the main thread comes to serve exactly when `validate_app_file` does not raise.** -/
theorem serves_iff (hv : s.server = .validating) : Serves s ↔ ¬HashRaises s := by
  have hnext : serverNext s = some (validateAppFile s) := by simp only [serverNext, hv]
  constructor
  · intro h hraises
    cases h with
    | serving hv' =>
      rw [hv] at hv'
      cases hv'
    | next hstep h =>
      rw [hnext, validateAppFile_down hraises] at hstep
      cases hstep
      cases h with
      | serving hv' => cases hv'
      | next hstep => cases hstep
  · intro h
    refine .next hnext ?_
    rcases validateAppFile_goes h with hv' | hv'
    · exact serves_validated hv'
    · exact serves_stopping hv'

/-- An ASCII text in the hash file does not make `validate_app_file` raise. -/
theorem not_hashRaises (h : ∀ x, s.files.data .hash = some x → ∀ b ∈ x, b < 0x80) : ¬HashRaises s := by
  rintro ⟨-, -, hexp⟩
  unfold expectedHash at hexp
  split at hexp
  · cases hexp
  · rename_i hash hhash
    have htext := Utf8.decode_ascii (h hash.data (data_of_eq hhash))
    rw [digestOf, readText, htext] at hexp
    cases hexp

end

end KaonicComm.Ota
