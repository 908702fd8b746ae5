import KaonicComm.Ota.Phases

/-!
# What `validate_app_file` leaves installed

An image is good when it is the first one or has passed the checks of an upload. Where the hash file names another image
or is absent (on a device without an update, or after a kill in the copy of the hash), a kill in the copy to the backup
makes the next start install the beginning of an image (`half_backup_installed`). Without such a kill, with uploads that
do not overlap, and with a first backup that is not trusted blindly, no run loses the image (`image_kept`).
-/

namespace KaonicComm.Ota

open Runs Sha256

/-! ## Statements -/

/-- The first image and the images that passed the checks of an upload. -/
def goodImages (a₀ : List UInt8) (s : State) : Set (List UInt8) := {x | x = a₀ ∨ x ∈ s.verified}

/-- A device before its first start: the image is installed, and the hash file names it or is absent. -/
structure Initial (a₀ : List UInt8) (s : State) : Prop where
  server : s.server = .down
  uploads : s.uploads = []
  verified : s.verified = []
  app : ∃ f, s.files .app = some f ∧ f.data = a₀
  hash : ∀ f, s.files .hash = some f → digestOf f.data = some (sha256 a₀)
  metadata : s.metadata = false → ∀ p, p ≠ .app → s.files p = none

/-- Where no hash file names the image, a backup holds it too. -/
def BackupKnown (a₀ : List UInt8) (s : State) : Prop :=
  s.files .hash = none → ∀ f, s.files .backup = some f → f.data = a₀

/-- An upload is accepted only when no other one is at work, and the process is killed inside the copy to the backup
only when the hash file names the installed image. -/
def Careful (c : Cryptography) (s : State) : Act → Prop
  | .request r => (uploadOta c s.verifyKey r).isOk = true → s.uploads = []
  | .kill => ∀ job ∈ s.uploads, job.pc = .copyBackup → Matches s.files ∨ BackupWhole s.files
  | _ => True

instance (c : Cryptography) (s : State) : ∀ a, Decidable (Careful c s a)
  | .request _ => inferInstanceAs (Decidable (_ → _))
  | .kill => inferInstanceAs (Decidable (∀ job ∈ s.uploads, _ → _))
  | .start | .server | .serverWrite _ | .upload .. | .write .. => isTrue trivial

/-- The images that a run copies from. -/
def Source (s : State) (as : List Act) (x : List UInt8) : Prop :=
  (∃ f, (s.files .app = some f ∨ s.files .backup = some f) ∧ f.data = x) ∨
    ∃ a, .request (.zip (.extracted a)) ∈ as ∧ a.app = .file x

/-- The images of a run and their beginnings. -/
def images (s : State) (as : List Act) : Set (List UInt8) := {x | ∃ y, Source s as y ∧ x <+: y}

/-! ## What holds in every run -/

/-- What the main thread leaves where it stands, while no upload is at work. -/
def Place (good : Set (List UInt8)) (fs : Files) : Server → Prop
  | .down | .validating => Recoverable good fs
  | .stopping | .testBackup => Intact good fs .backup ∨ Intact good fs .app ∧ fs .backup = none
  | .restoring => Intact good fs .backup
  | .launching | .validated | .serving => Steady good fs

/-- A kill of the main thread. -/
theorem Place.recoverable {good : Set (List UInt8)} {fs : Files} : ∀ {p : Server}, Place good fs p → Recoverable good fs
  | .down, h | .validating, h => h
  | .stopping, h | .testBackup, h => Or.inr h
  | .restoring, h => Or.inr (Or.inl h)
  | .launching, h | .validated, h | .serving, h => h.2

/-- One upload at most is at work, and the files are as its phase says. -/
structure Inv (a₀ : List UInt8) (S : Set (List UInt8)) (s : State) : Prop where
  contents : Contents S (goodImages a₀ s) s.files
  accepted : ∀ job ∈ s.uploads, Accepted S (goodImages a₀ s) job.package
  phase : ∀ job ∈ s.uploads, Phase (goodImages a₀ s) s.files job.pc
  alone : s.uploads.length ≤ 1
  serving : s.uploads ≠ [] → s.server = .serving
  fresh : s.metadata = false → s.files .backup = none
  metadata : s.server ≠ .down → s.server ≠ .validating → s.metadata = true
  place : s.uploads = [] → Place (goodImages a₀ s) s.files s.server

section Inv

variable {a₀ : List UInt8} {S : Set (List UInt8)} {c : Cryptography} {s s' : State}

theorem Inv.idle (hs : Inv a₀ S s) {p : Server} (hv : s.server = p)
    (hp : p ≠ .serving := by decide) : s.uploads = [] :=
  Decidable.not_not.mp fun hu => hp (hv.symm.trans (hs.serving hu))

theorem Inv.mkdir (hs : Inv a₀ S s) {p : Server} (hv : s.server = p) (hd : p ≠ .down := by decide)
    (hp : p ≠ .validating := by decide) : s.metadata = true :=
  hs.metadata (by rw [hv]; exact hd) (by rw [hv]; exact hp)

theorem Inv.place_of (hs : Inv a₀ S s) {p : Server} (hv : s.server = p) (hu : s.uploads = []) :
    Place (goodImages a₀ s) s.files p := by
  rw [← hv]
  exact hs.place hu

/-- The only upload. -/
theorem Inv.single (hs : Inv a₀ S s) {i : Nat} {job : Job} (h : s.uploads[i]? = some job) :
    i = 0 ∧ s.uploads = [job] := by
  have hlen := hs.alone
  obtain ⟨hi, hjob⟩ := List.getElem?_eq_some_iff.mp h
  obtain ⟨j, hj⟩ := List.length_eq_one_iff.mp (show s.uploads.length = 1 by omega)
  have h0 : i = 0 := by omega
  subst h0
  simp only [hj, List.getElem_cons_zero] at hjob
  exact ⟨rfl, by rw [hj, hjob]⟩

/-- A state without uploads. -/
theorem inv_of_idle (hu : s.uploads = []) (hc : Contents S (goodImages a₀ s) s.files)
    (hf : s.metadata = false → s.files .backup = none)
    (hm : s.server ≠ .down → s.server ≠ .validating → s.metadata = true)
    (hp : Place (goodImages a₀ s) s.files s.server) : Inv a₀ S s where
  contents := hc
  accepted job hjob := by rw [hu] at hjob; cases hjob
  phase job hjob := by rw [hu] at hjob; cases hjob
  alone := by rw [hu]; exact Nat.zero_le 1
  serving h := absurd hu h
  fresh := hf
  metadata := hm
  place _ := hp

/-- **The decision of `validate_app_file`.** -/
theorem inv_validateAppFile (hc : Set.InjOn sha256 S) (hs : Inv a₀ S s) (hv : s.server = .validating) :
    Inv a₀ S (validateAppFile s) := by
  have hu := hs.idle hv
  have hr : Recoverable (goodImages a₀ s) s.files := (hs.place hu).recoverable
  unfold validateAppFile
  split
  · rename_i hm
    have hb := hs.fresh (by simpa using hm)
    have happ : Intact (goodImages a₀ s) s.files .app := by
      rcases hr with hmatch | hbackup | happ
      · exact hs.contents.intact_of_matches hc hmatch
      · exact absurd hb hbackup.ne_none
      · exact happ.1
    exact inv_of_idle hu hs.contents nofun (fun _ _ => rfl) ⟨happ, Or.inr (Or.inr ⟨happ, hb⟩)⟩
  · rename_i hm
    have hm : s.metadata = true := by simpa using hm
    split
    · rename_i hnone
      rcases hr with hmatch | hbackup | happ
      · exact absurd hnone.1 hmatch.1
      · exact absurd hnone.2 hbackup.ne_none
      · exact absurd hnone.1 happ.1.ne_none
    · split
      · exact inv_of_idle hu hs.contents hs.fresh (fun _ _ => hm) hr
      · rename_i expected hexp
        split
        · rename_i hmis
          exact inv_of_idle hu hs.contents hs.fresh (fun _ _ => hm)
            (hr.resolve_left fun hmatch => (matches_iff hexp).mp hmatch hmis)
        · rename_i hmis
          have hmatch : Matches s.files := (matches_iff hexp).mpr hmis
          have happ := hs.contents.intact_of_matches hc hmatch
          exact inv_of_idle hu hs.contents hs.fresh (fun _ _ => hm) ⟨happ, Or.inl hmatch⟩

/-- **A step of the main thread.** -/
theorem inv_serverNext (hc : Set.InjOn sha256 S) (hs : Inv a₀ S s) (h : serverNext s = some s') : Inv a₀ S s' := by
  unfold serverNext at h
  cases hv : s.server with
  | down | serving =>
    simp only [hv] at h
    cases h
  | validating =>
    simp only [hv] at h
    cases h
    exact inv_validateAppFile hc hs hv
  | stopping | launching | validated =>
    have hu := hs.idle hv
    have hplace := hs.place_of hv hu
    simp only [hv] at h
    cases h
    exact inv_of_idle hu hs.contents hs.fresh (fun _ _ => hs.mkdir hv) hplace
  | testBackup =>
    have hu := hs.idle hv
    have hplace := hs.place_of hv hu
    simp only [hv] at h
    cases h
    refine inv_of_idle hu hs.contents hs.fresh (fun _ _ => hs.mkdir hv) ?_
    split
    · rename_i hnone
      rcases hplace with hbackup | happ
      · exact absurd hnone hbackup.ne_none
      · exact ⟨happ.1, Or.inr (Or.inr happ)⟩
    · rename_i hsome
      exact hplace.resolve_right fun happ => hsome happ.2
  | restoring =>
    have hu := hs.idle hv
    have hm := hs.mkdir hv
    obtain ⟨backup, hbackup, hdata⟩ := hs.place_of hv hu
    simp only [hv, hbackup] at h
    cases h
    exact inv_of_idle hu (hs.contents.copy2 (hs.contents .backup backup hbackup))
      (fun h => Bool.noConfusion (hm.symm.trans h)) (fun _ _ => hm) (steady_of_both (intact_restored hbackup hdata))

/-- A copy of the main thread that is under way. -/
theorem inv_serverWrite (hS : ∀ x y, x <+: y → y ∈ S → x ∈ S) {k : Nat} (hs : Inv a₀ S s)
    (h : step c s (.serverWrite k) = some s') : Inv a₀ S s' := by
  obtain ⟨backup, hv, hbackup, -, rfl⟩ := step_serverWrite h
  have hu := hs.idle hv
  have hm := hs.mkdir hv
  have hplace := hs.place_of hv hu
  have hallowed : Allowed S (goodImages a₀ s) .app backup.data := hs.contents .backup backup hbackup
  refine inv_of_idle hu (hs.contents.copying hS hallowed k) (fun h => Bool.noConfusion (hm.symm.trans h))
    (fun _ _ => hm) ?_
  rw [hv]
  show Intact (goodImages a₀ s) (s.files.copying backup .app k) .backup
  exact hplace.of_eq copying_ne

/-- **A request.** -/
theorem inv_request {r : Request} (hs : Inv a₀ S s) (hcare : Careful c s (.request r))
    (hS : ∀ a x, r = .zip (.extracted a) → a.app = .file x → x ∈ S) (h : step c s (.request r) = some s') :
    Inv a₀ S s' := by
  obtain ⟨hv, ⟨a, -, rfl⟩ | ⟨p, hp, rfl⟩⟩ := step_request h
  · exact ⟨hs.contents, hs.accepted, hs.phase, hs.alone, hs.serving, hs.fresh, hs.metadata, hs.place⟩
  · have hu : s.uploads = [] := hcare (by rw [hp]; rfl)
    have hplace := hs.place_of hv hu
    obtain ⟨key, a, -, hr, happ, hdigest, -⟩ := uploadOta_ok hp
    have hg : goodImages a₀ s ⊆ goodImages a₀ { s with verified := s.verified ++ [p.app] } :=
      fun x hx => hx.imp_right fun hx => List.mem_append_left _ hx
    have hgood : p.app ∈ goodImages a₀ { s with verified := s.verified ++ [p.app] } :=
      Or.inr (List.mem_append_right _ List.mem_cons_self)
    have honly : ∀ job ∈ s.uploads ++ [⟨p, .stop⟩], job = ⟨p, .stop⟩ := by
      rw [hu]
      exact fun job hjob => List.mem_singleton.mp hjob
    exact {
      contents := fun q f hf => (hs.contents q f hf).mono hg
      accepted := fun job hjob => by
        rw [honly job hjob]
        exact ⟨hS a p.app hr happ, hgood, hdigest⟩
      phase := fun job hjob => by
        rw [honly job hjob]
        exact hplace.mono hg
      alone := by simp [hu]
      serving := fun _ => hv
      fresh := hs.fresh
      metadata := hs.metadata
      place := fun h => by simp at h }

/-- **A step of an upload.** -/
theorem inv_upload {i : Nat} {active : Bool} (hs : Inv a₀ S s) (h : step c s (.upload i active) = some s') :
    Inv a₀ S s' := by
  obtain ⟨job, files, hjob, hstep⟩ := step_upload h
  obtain ⟨rfl, hone⟩ := hs.single hjob
  have hmem : job ∈ s.uploads := List.mem_of_getElem? hjob
  have hacc := hs.accepted job hmem
  have hv := hs.serving (List.ne_nil_of_mem hmem)
  have hm := hs.mkdir hv
  rcases hstep with ⟨pc, hnext, rfl⟩ | ⟨a, hnext, rfl⟩
  · have hgoes := next_phase hnext (hs.phase job hmem) hacc.good
    have honly : ∀ j ∈ s.uploads.set 0 { job with pc }, j = { job with pc } := by
      rw [hone]
      exact fun j hj => List.mem_singleton.mp hj
    exact {
      contents := next_contents hnext hs.contents hacc
      accepted := fun j hj => by
        rw [honly j hj]
        exact hacc
      phase := fun j hj => by
        rw [honly j hj]
        exact hgoes
      alone := by simp [hone]
      serving := fun _ => hv
      fresh := fun h => Bool.noConfusion (hm.symm.trans h)
      metadata := fun _ _ => hm
      place := fun h => by simp [hone] at h }
  · have hgoes := next_phase hnext (hs.phase job hmem) hacc.good
    refine inv_of_idle (by simp [hone]) (next_contents hnext hs.contents hacc)
      (fun h => Bool.noConfusion (hm.symm.trans h)) (fun _ _ => hm) ?_
    rw [hv]
    exact hgoes

/-- A copy of an upload that is under way. -/
theorem inv_write (hS : ∀ x y, x <+: y → y ∈ S → x ∈ S) {i k : Nat} (hs : Inv a₀ S s)
    (h : step c s (.write i k) = some s') : Inv a₀ S s' := by
  obtain ⟨job, src, dst, hjob, hcopy, -, rfl⟩ := step_write h
  obtain ⟨rfl, hone⟩ := hs.single hjob
  have hmem : job ∈ s.uploads := List.mem_of_getElem? hjob
  have hv := hs.serving (List.ne_nil_of_mem hmem)
  have hm := hs.mkdir hv
  exact {
    contents := hs.contents.copying hS (copy_allowed hcopy hs.contents (hs.accepted job hmem)) k
    accepted := hs.accepted
    phase := fun j hj => by
      have hj : j ∈ s.uploads := hj
      rw [hone, List.mem_singleton] at hj
      rw [hj]
      exact copy_phase hcopy (hs.phase job hmem) k
    alone := hs.alone
    serving := hs.serving
    fresh := fun h => Bool.noConfusion (hm.symm.trans h)
    metadata := fun _ _ => hm
    place := fun h => absurd h (List.ne_nil_of_mem hmem) }

/-- **A kill.** -/
theorem inv_kill (hs : Inv a₀ S s) (hcare : Careful c s .kill) (h : step c s .kill = some s') : Inv a₀ S s' := by
  cases step_kill h
  refine inv_of_idle rfl hs.contents hs.fresh (fun hd => absurd rfl hd) ?_
  show Recoverable (goodImages a₀ s) s.files
  cases hu : s.uploads with
  | nil => exact (hs.place hu).recoverable
  | cons job _ =>
    have hmem : job ∈ s.uploads := by rw [hu]; exact List.mem_cons_self
    exact phase_recoverable (hs.phase job hmem) (hcare job hmem)

/-- **Every careful step keeps the invariant.** -/
theorem inv_step {a : Act} (hc : Set.InjOn sha256 S) (hS : ∀ x y, x <+: y → y ∈ S → x ∈ S) (hs : Inv a₀ S s)
    (hcare : Careful c s a) (hreq : ∀ z x, a = .request (.zip (.extracted z)) → z.app = .file x → x ∈ S)
    (h : step c s a = some s') : Inv a₀ S s' := by
  cases a with
  | start =>
    obtain ⟨hv, rfl⟩ := step_start h
    have hu := hs.idle hv
    exact inv_of_idle hu hs.contents hs.fresh (fun _ hne => absurd rfl hne) (hs.place hu).recoverable
  | server => exact inv_serverNext hc hs h
  | serverWrite k => exact inv_serverWrite hS hs h
  | request r => exact inv_request hs hcare (fun z x hr => hreq z x (by rw [hr])) h
  | upload i active => exact inv_upload hs h
  | write i k => exact inv_write hS hs h
  | kill => exact inv_kill hs hcare h

theorem inv_initial (hi : Initial a₀ s) (hb : BackupKnown a₀ s) (ha₀ : a₀ ∈ S)
    (hbackup : ∀ f, s.files .backup = some f → f.data ∈ S) : Inv a₀ S s := by
  obtain ⟨app, happ, hdata⟩ := hi.app
  have hgood : a₀ ∈ goodImages a₀ s := Or.inl rfl
  have hintact : Intact (goodImages a₀ s) s.files .app := ⟨app, happ, by rw [hdata]; exact hgood⟩
  refine inv_of_idle hi.uploads ?_ (fun hm => hi.metadata hm .backup nofun) (fun hd => absurd hi.server hd) ?_
  · intro p f hf
    cases p with
    | app =>
      rw [happ] at hf
      cases hf
      show app.data ∈ S
      rw [hdata]
      exact ha₀
    | backup => exact hbackup f hf
    | hash => exact ⟨f.data, a₀, List.prefix_refl _, hi.hash f hf, ha₀, hgood⟩
    | version => trivial
  · rw [hi.server]
    show Recoverable (goodImages a₀ s) s.files
    cases hhash : s.files .hash with
    | some hash =>
      refine Or.inl ⟨by rw [happ]; nofun, by rw [hhash]; nofun, ?_⟩
      simp only [expectedHash, actualHash, hhash, happ, hi.hash hash hhash, hdata]
    | none =>
      cases hback : s.files .backup with
      | none => exact Or.inr (Or.inr ⟨hintact, hback⟩)
      | some backup => exact Or.inr (Or.inl ⟨backup, hback, by rw [hb hhash backup hback]; exact hgood⟩)

end Inv

/-- **No careful run loses the image**: whenever `validate_app_file` has returned, the first image or one that passed
the checks of an upload is installed. -/
theorem image_kept {c : Cryptography} {a₀ : List UInt8} {s₀ s : State} {as : List Act} (hi : Initial a₀ s₀)
    (hb : BackupKnown a₀ s₀) (hc : Set.InjOn sha256 (images s₀ as)) (hcare : Along (step c) (Careful c) s₀ as)
    (h : run (step c) s₀ as = some s) (hv : s.server = .validated) : Intact (goodImages a₀ s) s.files .app := by
  -- the images are closed under beginnings, as a copy that is cut short needs it
  have hS : ∀ x y, x <+: y → y ∈ images s₀ as → x ∈ images s₀ as := by
    rintro x y hxy ⟨z, hz, hyz⟩
    exact ⟨z, hz, hxy.trans hyz⟩
  have hsource : ∀ x, Source s₀ as x → x ∈ images s₀ as := fun x hx => ⟨x, hx, List.prefix_refl x⟩
  have hinit : Inv a₀ (images s₀ as) s₀ := by
    obtain ⟨app, happ, hdata⟩ := hi.app
    exact inv_initial hi hb (hsource a₀ (Or.inl ⟨app, Or.inl happ, hdata⟩))
      fun f hf => hsource f.data (Or.inl ⟨f, Or.inr hf, rfl⟩)
  have hs : Inv a₀ (images s₀ as) s :=
    run_inv (P := fun s a => Careful c s a ∧ a ∈ as)
      (fun _ _ _ hs hP hstep => inv_step hc hS hs hP.1
        (fun z x hz hx => hsource x (Or.inr ⟨z, hz ▸ hP.2, hx⟩)) hstep)
      hinit (hcare.and (along_of_forall (fun _ _ ha => ha) s₀)) h
  have hplace := hs.place (hs.idle hv)
  rw [hv] at hplace
  exact hplace.1

/-! ## A device that is killed -/

/-- The public key of a certificate. -/
def publicKey : List UInt8 :=
  [0x15, 0xc4, 0xf0, 0x42, 0x62, 0xb0, 0x8c, 0x58, 0x5a, 0x05, 0x38, 0x33, 0xed, 0x1d, 0xb4, 0xd9,
    0x72, 0xed, 0xb2, 0x00, 0x48, 0xf5, 0x83, 0x22, 0x45, 0x46, 0xdb, 0xce, 0x37, 0xcf, 0x82, 0x96]

/-- The bytes of an ASCII text. -/
def ascii (text : String) : List UInt8 := text.toList.map fun c => UInt8.ofNat c.toNat

/-- A certificate. -/
def certificate : List UInt8 :=
  ascii ("-----BEGIN PUBLIC KEY-----\n" ++ "MCowBQYDK2VwAyEAFcTwQmKwjFhaBTgz7R202XLtsgBI9YMiRUbbzjfPgpY=\n" ++
    "-----END PUBLIC KEY-----\n")

/-- The signature of the image `[3]` under that key. -/
def signature : List UInt8 :=
  [0x62, 0xfe, 0x55, 0x4e, 0x17, 0x53, 0xf5, 0xe6, 0x44, 0xdd, 0x52, 0xe3, 0xf0, 0x01, 0x7e, 0xe0,
    0x91, 0x82, 0x58, 0xe9, 0x21, 0xd5, 0x20, 0x6b, 0x65, 0xc2, 0xef, 0x9a, 0xc7, 0x7f, 0xaa, 0x2b,
    0x83, 0x74, 0x49, 0xba, 0x0d, 0xfb, 0x9a, 0x43, 0x80, 0xbf, 0xd5, 0x5c, 0x42, 0x4b, 0x2e, 0xca,
    0x3c, 0xab, 0x08, 0x42, 0xfb, 0xb0, 0xab, 0xfc, 0x18, 0x1b, 0xd6, 0xb0, 0xfb, 0x06, 0xac, 0x07]

/-- What `cryptography` does with this certificate and this signature. -/
def oneKey : Cryptography where
  loadPemPublicKey pem := if pem = certificate then some (.ed25519 publicKey) else none
  verifyRsa _ _ _ := false
  verifyEd25519 key sig data := key = publicKey ∧ sig = signature ∧ data = [3]

/-- A device with the image `[1, 2]` and the given hash file. -/
def device (hash : Option File) : State where
  files
    | .app => some { data := [1, 2], exec := true }
    | .hash => hash
    | _ => none
  metadata := true
  verifyKey := some certificate
  server := .down
  uploads := []
  answers := []
  verified := []

/-- An archive with the image `[3]`. -/
def archive : Archive where
  app := .file [3]
  hash := .file (ascii "084fed08b978af4d7d196a7446a86b58009e636b611db16211b65a9aadff29c5\n")
  version := .file (ascii "2\n")
  sig := .file signature

/-- A start, an upload that is killed when the copy to `APP_PATH` has begun, and the restoration. -/
def killedInstall : List Act :=
  [.start, .server, .server, .request (.zip (.extracted archive)), .upload 0 false, .upload 0 false, .write 0 1,
    .upload 0 false, .write 0 0, .kill, .start, .server, .server, .server, .serverWrite 1, .server, .server]

/-- The same with a kill in the copy to the backup. -/
def killedBackup : List Act :=
  [.start, .server, .server, .server, .server, .server, .request (.zip (.extracted archive)), .upload 0 false,
    .upload 0 false, .write 0 1, .kill, .start, .server, .server, .server, .server, .server]

/-- The hash file of the image `[1, 2]`. -/
def hashFile : File where
  data := ascii "a12871fee210fb8619291eaea194581cbd2531e4b23759d225f6806923f63222\n"

theorem digests : digestOf hashFile.data = some (sha256 [1, 2]) ∧
    ∀ x ∈ [[], [1], [1, 2], [3]], ∀ y ∈ [[], [1], [1, 2], [3]], sha256 x = sha256 y → x = y := by
  decide +kernel

theorem digestOf_hashFile : digestOf hashFile.data = some (sha256 [1, 2]) := digests.1

/-- The images of these runs have different digests. -/
theorem injOn_images {hash : Option File} {as : List Act}
    (has : ∀ a, .request (.zip (.extracted a)) ∈ as → a = archive) : Set.InjOn sha256 (images (device hash) as) := by
  have hmem : ∀ x ∈ images (device hash) as, x ∈ [[], [1], [1, 2], [3]] := by
    rintro x ⟨y, hy, hxy⟩
    have hy : y = [1, 2] ∨ y = [3] := by
      rcases hy with ⟨f, hf | hf, rfl⟩ | ⟨a, ha, happ⟩
      · cases hf
        exact Or.inl rfl
      · cases hf
      · rw [has a ha] at happ
        cases happ
        exact Or.inr rfl
    rcases hy with rfl | rfl
    · rcases List.prefix_cons_iff.mp hxy with rfl | ⟨t, rfl, ht⟩
      · decide
      · rcases List.prefix_cons_iff.mp ht with rfl | ⟨u, rfl, hu⟩
        · decide
        · rw [List.prefix_nil.mp hu]
          decide
    · rcases List.prefix_cons_iff.mp hxy with rfl | ⟨t, rfl, ht⟩
      · decide
      · rw [List.prefix_nil.mp ht]
        decide
  exact fun x hx y hy h => digests.2 x (hmem x hx) y (hmem y hy) h

theorem initial_device {hash : Option File} (h : ∀ f, hash = some f → digestOf f.data = some (sha256 [1, 2])) :
    Initial [1, 2] (device hash) where
  server := rfl
  uploads := rfl
  verified := rfl
  app := ⟨_, rfl, rfl⟩
  hash := h
  metadata := nofun

theorem runs_killed : ((run (step oneKey) (device (some hashFile)) killedInstall).map State.server = some .validated ∧
    Along (step oneKey) (Careful oneKey) (device (some hashFile)) killedInstall) ∧
    (run (step oneKey) (device none) killedBackup).map
      (fun s => (s.server, (s.files .app).map File.data, s.verified)) = some (.validated, some [1], [[3]]) := by
  decide +kernel

theorem image_kept_killedInstall : ∃ s, run (step oneKey) (device (some hashFile)) killedInstall = some s ∧
    s.server = .validated ∧ Intact (goodImages [1, 2] s) s.files .app := by
  obtain ⟨⟨hrun, hcare⟩, -⟩ := runs_killed
  obtain ⟨s, hs, hv⟩ := Option.map_eq_some_iff.mp hrun
  refine ⟨s, hs, hv, image_kept (initial_device fun f hf => ?_) (fun _ f hf => ?_) (injOn_images ?_) hcare hs hv⟩
  · cases hf
    exact digestOf_hashFile
  · cases hf
  · simp [killedInstall]

/-- **The beginning of an image is installed**: no hash file, and a kill in the copy to the backup. -/
theorem half_backup_installed : ¬∀ (c : Cryptography) (a₀ : List UInt8) (s₀ s : State) (as : List Act),
    Initial a₀ s₀ → Set.InjOn sha256 (images s₀ as) → run (step c) s₀ as = some s → s.server = .validated →
      Intact (goodImages a₀ s) s.files .app := by
  intro h
  obtain ⟨s, hs, heq⟩ := Option.map_eq_some_iff.mp runs_killed.2
  simp only [Prod.mk.injEq] at heq
  obtain ⟨hv, happ, hverified⟩ := heq
  obtain ⟨f, hf, hgood⟩ := h oneKey [1, 2] (device none) s killedBackup (initial_device nofun)
    (injOn_images (by simp [killedBackup])) hs hv
  rw [hf] at happ
  have hdata : f.data = [1] := Option.some.inj happ
  rw [hdata, goodImages, hverified] at hgood
  rcases hgood with hgood | hgood
  · cases hgood
  · simp at hgood

end KaonicComm.Ota
