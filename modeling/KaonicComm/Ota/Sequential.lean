import KaonicComm.Ota.Recovery
import KaonicComm.Ota.Releases

/-!
# Uploads one after the other

On a device whose hash file names the installed image, requests that do not overlap and restarts between them keep it
so: whenever no upload is at work, the hash file names the installed image, which is the first one or was uploaded with
its digest and a valid signature, and `validate_app_file` never restores anything (`installed_kept`).
-/

namespace KaonicComm.Ota

open Runs Sha256

/-- An image of a request, with the digest and the signature of its archive. -/
def Uploaded (c : Cryptography) (verifyKey : Option (List UInt8)) (as : List Act) (x : List UInt8) : Prop :=
  ∃ key a hash, verifyKey = some key ∧ .request (.zip (.extracted a)) ∈ as ∧ a.app = .file x ∧ a.hash = .file hash ∧
    digestOf hash = some (sha256 x) ∧ validateSignature c x a.sig key = true

/-- A device whose hash file names the installed image. -/
structure Named (a₀ : List UInt8) (s : State) : Prop where
  uploads : s.uploads = []
  server : s.server = .down ∨ s.server = .serving
  app : s.files.data .app = some a₀
  hash : ∃ hash, s.files.data .hash = some hash ∧ digestOf hash = some (sha256 a₀)

/-- Requests and restarts come between uploads. -/
def Sequential (s : State) : Act → Prop
  | .request _ | .kill => s.uploads = []
  | _ => True

instance (s : State) : ∀ a, Decidable (Sequential s a)
  | .request _ | .kill => inferInstanceAs (Decidable (_ = _))
  | .start | .server | .serverWrite _ | .upload .. | .write .. => isTrue trivial

/-- Only an accepted request adds an upload. -/
theorem uploads_step {c : Cryptography} {s s' : State} {a : Act} (h : step c s a = some s') :
    s'.uploads.length ≤ s.uploads.length ∨ ∃ r, a = .request r ∧ s'.uploads.length = s.uploads.length + 1 := by
  cases a with
  | start =>
    obtain ⟨-, rfl⟩ := step_start h
    exact Or.inl (Nat.le_refl _)
  | server => exact Or.inl (Nat.le_of_eq (congrArg List.length (serverNext_frame h).2.1))
  | serverWrite k =>
    obtain ⟨backup, -, -, -, rfl⟩ := step_serverWrite h
    exact Or.inl (Nat.le_refl _)
  | request r =>
    obtain ⟨-, ⟨a, -, rfl⟩ | ⟨p, -, rfl⟩⟩ := step_request h
    · exact Or.inl (Nat.le_refl _)
    · exact Or.inr ⟨r, rfl, List.length_append⟩
  | upload i active =>
    obtain ⟨job, files, -, ⟨pc, -, rfl⟩ | ⟨a, -, rfl⟩⟩ := step_upload h
    · exact Or.inl (Nat.le_of_eq List.length_set)
    · exact Or.inl (List.length_eraseIdx_le _ _)
  | write i k =>
    obtain ⟨job, src, dst, -, -, -, rfl⟩ := step_write h
    exact Or.inl (Nat.le_refl _)
  | kill =>
    cases step_kill h
    exact Or.inl (Nat.zero_le _)

/-- At most one upload takes turns with nobody. -/
theorem takingTurns_of_sequential {s : State} {a : Act} (hs : s.uploads.length ≤ 1) (ha : Sequential s a) :
    TakingTurns s a := by
  cases a with
  | upload i active =>
    intro hpc j job' hji hj
    obtain ⟨job, hjob, -⟩ := Option.map_eq_some_iff.mp hpc
    have hi := (List.getElem?_eq_some_iff.mp hjob).1
    have hj := (List.getElem?_eq_some_iff.mp hj).1
    omega
  | kill => exact ha
  | start | server | serverWrite k | request r | write i k => trivial

theorem length_of_sequential {c : Cryptography} {s s' : State} {a : Act} (hs : s.uploads.length ≤ 1)
    (ha : Sequential s a) (h : step c s a = some s') : s'.uploads.length ≤ 1 := by
  rcases uploads_step h with hle | ⟨r, rfl, hlen⟩
  · exact Nat.le_trans hle hs
  · have hu : s.uploads = [] := ha
    rw [hlen, hu]
    exact Nat.le_refl 1

/-- **Uploads one after the other keep the hash file and the image together**: between them the hash file names the
installed image, which is the first one or was uploaded with its digest and its signature, and no start of the server
restores a backup. -/
theorem installed_kept {c : Cryptography} {a₀ : List UInt8} {s₀ s : State} {as : List Act} (h₀ : Named a₀ s₀)
    (hseq : Along (step c) Sequential s₀ as) (h : run (step c) s₀ as = some s) :
    (s.uploads = [] → Matches s.files ∧
      ∃ x, s.files.data .app = some x ∧ (x = a₀ ∨ Uploaded c s₀.verifyKey as x)) ∧ s.server.restores = false := by
  let Rel : List UInt8 → List UInt8 → Option (List UInt8) → Prop := fun x hash _ =>
    (x = a₀ ∨ Uploaded c s₀.verifyKey as x) ∧ digestOf hash = some (sha256 x)
  have hrel : ∀ x hash v, Rel x hash v → digestOf hash = some (sha256 x) := fun _ _ _ hx => hx.2
  have hinit : Turns Rel s₀ := by
    obtain ⟨hash, hhash, hdigest⟩ := h₀.hash
    refine turns_of_idle h₀.uploads ⟨a₀, hash, h₀.app, hhash, Or.inl rfl, hdigest⟩ ?_
    rcases h₀.server with hv | hv <;> rw [hv] <;> rfl
  -- an accepted request brings an image with its digest
  have hbrings : ∀ r p, .request r ∈ as → uploadOta c s₀.verifyKey r = .ok p → Brings Rel p := by
    intro r p hr hok v _
    obtain ⟨key, a, hkey, rfl, hcheck⟩ := uploadOta_extracted hok
    obtain ⟨happ, hhash, -, hdigest, hsig⟩ := checkArchive_ok hcheck
    exact ⟨Or.inr ⟨key, a, p.hash, hkey, hr, happ, hhash, hdigest, hsig⟩, hdigest⟩
  have hturns : Along (step c) (fun s a => TakingTurns s a ∧ True) s₀ as :=
    Along.of_inv (I := fun s => s.uploads.length ≤ 1) (fun _ _ _ hlen ha hstep => length_of_sequential hlen ha hstep)
      (fun _ _ hlen ha => ⟨takingTurns_of_sequential hlen ha, trivial⟩) (by rw [h₀.uploads]; exact Nat.zero_le 1) hseq
  have hs := turns_of_run hrel hinit (fun _ r p _ hr _ hok => hbrings r p hr hok) hturns h
  refine ⟨fun hu => ?_, hs.keeps⟩
  have hsound := hs.sound hu
  obtain ⟨x, hash, hx, -, hgood, -⟩ := hsound
  exact ⟨matches_of_sound hrel (hs.sound hu), x, hx, hgood⟩

/-- A start, an upload that succeeds, and a restart. -/
def updated : List Act :=
  [.start, .server, .server, .request (.zip (.extracted archive)), .upload 0 false, .upload 0 false, .upload 0 false,
    .upload 0 false, .upload 0 false, .upload 0 false, .upload 0 false, .upload 0 true, .upload 0 false,
    .upload 0 false, .kill, .start, .server, .server]

theorem named_device : Named [1, 2] (device (some hashFile)) where
  uploads := rfl
  server := Or.inl rfl
  app := rfl
  hash := ⟨hashFile.data, rfl, digestOf_hashFile⟩

theorem installed_kept_updated : ∃ s, run (step oneKey) (device (some hashFile)) updated = some s ∧
    s.files.data .app = some [3] ∧ Matches s.files ∧ s.server.restores = false := by
  have hall : (run (step oneKey) (device (some hashFile)) updated).map
      (fun s => (s.uploads, s.files.data .app)) = some ([], some [3]) ∧
        Along (step oneKey) Sequential (device (some hashFile)) updated := by
    decide +kernel
  obtain ⟨hrun, hseq⟩ := hall
  obtain ⟨s, hs, heq⟩ := Option.map_eq_some_iff.mp hrun
  simp only [Prod.mk.injEq] at heq
  have hkept := installed_kept named_device hseq hs
  exact ⟨s, hs, heq.2, (hkept.1 heq.1).1, hkept.2⟩

end KaonicComm.Ota
