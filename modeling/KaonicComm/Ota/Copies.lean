import KaonicComm.Lib.Bytes
import KaonicComm.Lib.Disk
import KaonicComm.Ota.Updater
import Mathlib.Data.List.InsertIdx

/-!
# Copies on a disk

`shutil.copy2` opens the source and then the destination, which it empties, reads and writes part after part, and looks
up both paths again for the mode. Two uploads can do this with one file at once, each at its own offset, and `unlink`
can take the name of a file that is being copied. Here each of these steps is a step of its own (`sharedStep`), a file
stands at a place of a `Disk`, and any step of a copy may raise an exception.

What a step does is said once for each kind of step (`shared_server`, `shared_copy`, `shared_copystat` and so on).
-/

namespace KaonicComm.Ota

open Bytes

/-! ## A copy -/

/-- What is copied: a file in the temporary directory of an upload, or the one that `α` names. -/
inductive CopySource (α : Type) where
  | temporary (data : List UInt8)
  | file (a : α)
  deriving DecidableEq, Repr

/-- The file that is copied, `none` if it is missing. -/
def CopySource.read {α : Type} (lookup : α → Option File) : CopySource α → Option File
  | .temporary data => some { data }
  | .file a => lookup a

/-- What `open` finds at a path. -/
def CopySource.opened (d : Disk Path File) : CopySource Path → CopySource (Path × Nat)
  | .temporary data => .temporary data
  | .file p => .file (d.place p)

/-- How far a call of `shutil.copy2` is. -/
inductive Progress where
  /-- The source is open. -/
  | opened
  /-- The destination is open, so many bytes were written to it, and these were read and not written yet. -/
  | copying (target : Path × Nat) (offset : Nat) (buffer : List UInt8)
  /-- `copyfile` has returned. -/
  | copied
  deriving DecidableEq, Repr

/-- A call of `shutil.copy2`, with the source that it has open. -/
structure Copy where
  src : CopySource Path
  dst : Path
  source : CopySource (Path × Nat)
  progress : Progress
  deriving DecidableEq, Repr

/-- A step of `copyfile`. -/
inductive CopyAct where
  | openTarget
  /-- A read of up to `n` bytes. -/
  | read (n : Nat)
  /-- A write that takes `k` bytes. -/
  | write (k : Nat)
  /-- A read that gets nothing. -/
  | endOfFile
  deriving DecidableEq, Repr

/-- The bytes of the open source. -/
def Copy.data (d : Disk Path File) (copy : Copy) : List UInt8 := (copy.source.read d.file).elim [] File.data

/-- A write to an open file. -/
def writeAt (d : Disk Path File) (target : Path × Nat) (offset : Nat) (bytes : List UInt8) : Disk Path File :=
  match d.file target with
  | none => d
  | some f => d.put target { f with data := pwrite f.data offset bytes 0 }

/-- `copyfile` from the open source on. -/
def Copy.next (d : Disk Path File) (copy : Copy) : CopyAct → Option (Disk Path File × Copy)
  | .openTarget =>
    if copy.progress = .opened then
      -- mode "wb": an empty file, with the mode of the old one if there is one
      some (d.put (d.place copy.dst) { data := [], exec := (d.files copy.dst).elim false File.exec },
        { copy with progress := .copying (d.place copy.dst) 0 [] })
    else none
  | .read n =>
    match copy.progress with
    | .copying target offset [] =>
      some (d, { copy with progress := .copying target offset (((copy.data d).drop offset).take n) })
    | _ => none
  | .write k =>
    match copy.progress with
    | .copying target offset buffer =>
      if 0 < k ∧ k ≤ buffer.length then
        some (writeAt d target offset (buffer.take k),
          { copy with progress := .copying target (offset + k) (buffer.drop k) })
      else none
    | _ => none
  | .endOfFile =>
    match copy.progress with
    | .copying _ offset [] =>
      if (copy.data d).length ≤ offset then some (d, { copy with progress := .copied }) else none
    | _ => none

/-! ## The device with its disk -/

/-- The copy that an upload makes where it stands: from where, and to which path. -/
def Job.toCopy (job : Job) : Option (CopySource Path × Path) :=
  match job.pc with
  | .copyBackup => some (.file .app, .backup)
  | .copyApp => some (.temporary job.package.app, .app)
  | .copyHash => some (.temporary job.package.hash, .hash)
  | .copyVersion =>
    match job.package.version with
    | .file version => some (.temporary version, .version)
    | _ => none
  | .restore => some (.file .backup, .app)
  | _ => none

/-- What the other steps of an upload do to the disk. -/
def Job.touch (d : Disk Path File) (job : Job) : Disk Path File :=
  match job.pc with
  | .unlinkBackup => if d.files .backup = none then d else d.unlink .backup
  | .chmodApp =>
    match d.files .app with
    | none => d
    | some app => d.put (d.place .app) { app with exec := true }
  | _ => d

/-- An upload that has passed its checks, with the copy that it is making. -/
structure Upload where
  job : Job
  copy : Option Copy := none
  deriving DecidableEq, Repr

/-- The disk and the process. -/
structure Shared where
  disk : Disk Path File
  metadata : Bool
  verifyKey : Option (List UInt8)
  server : Server
  /-- The copy that the main thread is making. -/
  serverCopy : Option Copy
  uploads : List Upload
  answers : List Answer
  verified : List (List UInt8)

/-- The device without the copies under way. -/
def Shared.view (s : Shared) : State where
  files := s.disk.files
  metadata := s.metadata
  verifyKey := s.verifyKey
  server := s.server
  uploads := s.uploads.map Upload.job
  answers := s.answers
  verified := s.verified

/-- A device on which no copy is under way. -/
def State.share (s : State) : Shared where
  disk := .ofFiles s.files
  metadata := s.metadata
  verifyKey := s.verifyKey
  server := s.server
  serverCopy := none
  uploads := s.uploads.map fun job => { job }
  answers := s.answers
  verified := s.verified

/-- The threads that copy. -/
inductive Copier where
  | server
  | upload (i : Nat)
  deriving DecidableEq, Repr

namespace Shared

/-- The copy that a thread makes where it stands. -/
def toCopy (s : Shared) : Copier → Option (CopySource Path × Path)
  | .server => if s.server = .restoring then some (.file .backup, .app) else none
  | .upload i => s.uploads[i]?.bind fun u => u.job.toCopy

/-- The copy that a thread is making. -/
def copyOf (s : Shared) : Copier → Option Copy
  | .server => s.serverCopy
  | .upload i => s.uploads[i]?.bind Upload.copy

/-- The copy of a thread has gone on. -/
def setCopy (s : Shared) (copy : Copy) : Copier → Shared
  | .server => { s with serverCopy := some copy }
  | .upload i => { s with uploads := s.uploads.modify i fun u => { u with copy := some copy } }

/-- An upload goes on, with no copy under way. -/
def goOn (s : Shared) (i : Nat) (job : Job) : Outcome → Shared
  | .next pc => { s with uploads := s.uploads.set i { job := { job with pc } } }
  | .answer a => { s with uploads := s.uploads.eraseIdx i, answers := s.answers ++ [a] }

/-- The copy of a thread has returned. -/
def returned (s : Shared) : Copier → Option Shared
  | .server => some { s with server := .launching, serverCopy := none }
  | .upload i => s.uploads[i]?.map fun u => s.goOn i u.job (u.job.next s.disk.files false).2

/-- The copy of a thread has raised. -/
def raised (s : Shared) : Copier → Option Shared
  | .server => some { s with server := .down, serverCopy := none }
  | .upload i => s.uploads[i]?.map fun u => s.goOn i u.job (.answer .raised)

end Shared

/-- One step of the device with its disk. -/
inductive SharedAct where
  | start
  /-- A step of the main thread that copies nothing. -/
  | server
  | request (r : Request)
  /-- A step of an upload that copies nothing. -/
  | upload (i : Nat) (active : Bool)
  | openSource (w : Copier)
  | copy (w : Copier) (a : CopyAct)
  | copystat (w : Copier)
  /-- A step of a copy raises an exception. -/
  | fail (w : Copier)
  | kill
  deriving DecidableEq, Repr

/-- The steps of the device with its disk. -/
def sharedStep (c : Cryptography) (s : Shared) : SharedAct → Option Shared
  | .start => if s.server = .down then some { s with server := .validating, serverCopy := none } else none
  | .server =>
    if s.serverCopy = none ∧ ¬(s.server = .restoring ∧ s.disk.files .backup ≠ none) then
      (serverNext s.view).map fun t => { s with metadata := t.metadata, server := t.server }
    else none
  | .request r =>
    if s.server = .serving then
      match uploadOta c s.verifyKey r with
      | .error a => some { s with answers := s.answers ++ [a] }
      | .ok p => some { s with uploads := s.uploads ++ [{ job := ⟨p, .stop⟩ }], verified := s.verified ++ [p.app] }
    else none
  | .upload i active =>
    match s.uploads[i]? with
    | none => none
    | some u =>
      if u.copy = none ∧ u.job.copy s.disk.files = none then
        some ({ s with disk := u.job.touch s.disk }.goOn i u.job (u.job.next s.disk.files active).2)
      else none
  | .openSource w =>
    match s.copyOf w, s.toCopy w with
    | none, some (src, dst) =>
      if src.read s.disk.files = none then none
      else some (s.setCopy { src, dst, source := src.opened s.disk, progress := .opened } w)
    | _, _ => none
  | .copy w a =>
    match s.copyOf w with
    | none => none
    | some copy => (copy.next s.disk a).map fun r => { s with disk := r.1 }.setCopy r.2 w
  | .copystat w =>
    match s.copyOf w with
    | none => none
    | some copy =>
      if copy.progress = .copied then
        match copy.src.read s.disk.files, s.disk.files copy.dst with
        | some f, some g =>
          { s with disk := s.disk.put (s.disk.place copy.dst) { g with exec := f.exec } }.returned w
        | _, _ => s.raised w
      else none
  | .fail w => if s.copyOf w = none then none else s.raised w
  | .kill => if s.server ≠ .down then some { s with server := .down, serverCopy := none, uploads := [] } else none

/-! ## What a step leaves alone -/

section

variable {s : Shared}

@[simp] theorem disk_setCopy (copy : Copy) (w : Copier) : (s.setCopy copy w).disk = s.disk := by
  cases w <;> rfl

/-- The device without its copies does not change when a copy goes on. -/
@[simp] theorem view_setCopy (copy : Copy) (w : Copier) : (s.setCopy copy w).view = s.view := by
  cases w with
  | server => rfl
  | upload i =>
    have hjobs : ((s.uploads.modify i fun u => { u with copy := some copy }).map Upload.job) =
        s.uploads.map Upload.job := by
      apply List.ext_getElem?
      intro j
      simp only [List.getElem?_map, List.getElem?_modify, Option.map_eq_map, Option.map_map]
      congr 1
      funext u
      simp only [Function.comp_apply]
      split <;> rfl
    simp only [Shared.setCopy, Shared.view, hjobs]

theorem copyOf_congr {s' : Shared} (hserver : s'.serverCopy = s.serverCopy) (huploads : s'.uploads = s.uploads)
    (w : Copier) : s'.copyOf w = s.copyOf w := by
  cases w with
  | server => exact hserver
  | upload i => rw [Shared.copyOf, Shared.copyOf, huploads]

theorem copyOf_idle (hserver : s.serverCopy = none) (huploads : s.uploads = []) (w : Copier) : s.copyOf w = none := by
  cases w with
  | server => exact hserver
  | upload i =>
    rw [Shared.copyOf, huploads]
    rfl

/-- A new upload has no copy. -/
theorem copyOf_append {job : Job} {verified : List (List UInt8)} {w : Copier} {copy : Copy}
    (h : { s with uploads := s.uploads ++ [Upload.mk job none], verified }.copyOf w = some copy) :
    s.copyOf w = some copy ∧
      { s with uploads := s.uploads ++ [Upload.mk job none], verified }.toCopy w = s.toCopy w := by
  cases w with
  | server => exact ⟨h, rfl⟩
  | upload i =>
    obtain ⟨u, hu, hcopy⟩ := Option.bind_eq_some_iff.mp h
    rcases Nat.lt_or_ge i s.uploads.length with hlt | hge
    · rw [List.getElem?_append_left hlt] at hu
      refine ⟨Option.bind_eq_some_iff.mpr ⟨u, hu, hcopy⟩, ?_⟩
      simp only [Shared.toCopy, List.getElem?_append_left hlt]
    · rw [List.getElem?_append_right hge] at hu
      cases List.mem_singleton.mp (List.mem_of_getElem? hu)
      cases hcopy

/-- The copies after one of them has gone on. -/
theorem copyOf_setCopy {copy copy' : Copy} {w w' : Copier} (h : (s.setCopy copy w).copyOf w' = some copy') :
    w' = w ∧ copy' = copy ∨ w' ≠ w ∧ s.copyOf w' = some copy' := by
  cases w with
  | server =>
    cases w' with
    | server => exact Or.inl ⟨rfl, (Option.some.inj h).symm⟩
    | upload j => exact Or.inr ⟨nofun, h⟩
  | upload i =>
    cases w' with
    | server => exact Or.inr ⟨nofun, h⟩
    | upload j =>
      simp only [Shared.setCopy, Shared.copyOf, List.getElem?_modify, Option.map_eq_map] at h
      obtain ⟨u, hu, hcopy⟩ := Option.bind_eq_some_iff.mp h
      obtain ⟨v, hv, rfl⟩ := Option.map_eq_some_iff.mp hu
      by_cases hij : i = j
      · subst hij
        rw [if_pos rfl, Option.some.injEq] at hcopy
        exact Or.inl ⟨rfl, hcopy.symm⟩
      · rw [if_neg hij] at hcopy
        refine Or.inr ⟨fun he => hij (Copier.upload.inj he).symm, ?_⟩
        simp only [Shared.copyOf, hv, Option.bind_some, hcopy]

/-- What the threads copy where they stand does not change when a copy goes on. -/
theorem toCopy_setCopy (copy : Copy) (w w' : Copier) : (s.setCopy copy w).toCopy w' = s.toCopy w' := by
  cases w with
  | server => cases w' <;> rfl
  | upload i =>
    cases w' with
    | server => rfl
    | upload j =>
      simp only [Shared.toCopy, Shared.setCopy, List.getElem?_modify, Option.map_eq_map, Option.bind_map]
      congr 1
      funext u
      simp only [Function.comp_apply]
      split <;> rfl

/-- An upload that goes on has no copy any more, and leaves the other copies alone. -/
theorem copyOf_goOn {i : Nat} {job : Job} {o : Outcome} {w : Copier} {copy : Copy}
    (h : (s.goOn i job o).copyOf w = some copy) :
    ∃ w', w' ≠ .upload i ∧ s.copyOf w' = some copy ∧ (s.goOn i job o).toCopy w = s.toCopy w' := by
  cases w with
  | server =>
    cases o with
    | next pc | answer a => exact ⟨.server, nofun, h, rfl⟩
  | upload j =>
    cases o with
    | next pc =>
      simp only [Shared.goOn, Shared.copyOf, Shared.toCopy, List.getElem?_set] at h ⊢
      split at h
      · split at h <;> cases h
      · rename_i hij
        rw [if_neg hij]
        exact ⟨.upload j, fun he => hij (Copier.upload.inj he).symm, h, rfl⟩
    | answer a =>
      simp only [Shared.goOn, Shared.copyOf, Shared.toCopy, List.getElem?_eraseIdx] at h ⊢
      split at h
      · rename_i hij
        rw [if_pos hij]
        exact ⟨.upload j, fun he => absurd (Copier.upload.inj he) (by omega), h, rfl⟩
      · rename_i hij
        rw [if_neg hij]
        exact ⟨.upload (j + 1), fun he => absurd (Copier.upload.inj he) (by omega), h, rfl⟩

/-- The uploads after one of them has gone on. -/
theorem mem_goOn {i : Nat} {job : Job} {o : Outcome} {u : Upload} (h : u ∈ (s.goOn i job o).uploads) :
    u ∈ s.uploads ∨ u.job.package = job.package := by
  cases o with
  | next pc =>
    rcases List.mem_or_eq_of_mem_set h with h | rfl
    · exact Or.inl h
    · exact Or.inr rfl
  | answer a => exact Or.inl (List.mem_of_mem_eraseIdx h)

/-- An upload after a copy has gone on. -/
theorem mem_setCopy {copy : Copy} {w : Copier} {u : Upload} (h : u ∈ (s.setCopy copy w).uploads) :
    ∃ v ∈ s.uploads, u.job = v.job := by
  have hmem : u.job ∈ (s.setCopy copy w).view.uploads := List.mem_map_of_mem h
  rw [view_setCopy] at hmem
  obtain ⟨v, hv, hjob⟩ := List.mem_map.mp hmem
  exact ⟨v, hv, hjob.symm⟩

end

/-! ## What a step does -/

section

variable {c : Cryptography} {s s' : Shared}

theorem shared_start (h : sharedStep c s .start = some s') :
    s.server = .down ∧ s' = { s with server := .validating, serverCopy := none } := by
  simp only [sharedStep] at h
  split at h <;> cases h
  exact ⟨‹_›, rfl⟩

theorem shared_server (h : sharedStep c s .server = some s') :
    s.serverCopy = none ∧ ¬(s.server = .restoring ∧ s.disk.files .backup ≠ none) ∧
      ∃ t, serverNext s.view = some t ∧ s' = { s with metadata := t.metadata, server := t.server } := by
  simp only [sharedStep] at h
  split at h
  · rename_i hidle
    obtain ⟨t, ht, rfl⟩ := Option.map_eq_some_iff.mp h
    exact ⟨hidle.1, hidle.2, t, ht, rfl⟩
  · cases h

theorem shared_request {r : Request} (h : sharedStep c s (.request r) = some s') : s.server = .serving ∧
    ((∃ a, uploadOta c s.verifyKey r = .error a ∧ s' = { s with answers := s.answers ++ [a] }) ∨
      ∃ p, uploadOta c s.verifyKey r = .ok p ∧
        s' = { s with uploads := s.uploads ++ [{ job := ⟨p, .stop⟩ }], verified := s.verified ++ [p.app] }) := by
  simp only [sharedStep] at h
  split at h
  · rename_i hv
    split at h
    · rename_i a ha
      cases h
      exact ⟨hv, Or.inl ⟨a, ha, rfl⟩⟩
    · rename_i p hp
      cases h
      exact ⟨hv, Or.inr ⟨p, hp, rfl⟩⟩
  · cases h

theorem shared_upload {i : Nat} {active : Bool} (h : sharedStep c s (.upload i active) = some s') :
    ∃ u, s.uploads[i]? = some u ∧ u.copy = none ∧ u.job.copy s.disk.files = none ∧
      s' = { s with disk := u.job.touch s.disk }.goOn i u.job (u.job.next s.disk.files active).2 := by
  simp only [sharedStep] at h
  split at h
  · cases h
  · rename_i u hu
    split at h <;> cases h
    rename_i hidle
    exact ⟨u, hu, hidle.1, hidle.2, rfl⟩

theorem shared_openSource {w : Copier} (h : sharedStep c s (.openSource w) = some s') :
    ∃ src dst f, s.copyOf w = none ∧ s.toCopy w = some (src, dst) ∧ src.read s.disk.files = some f ∧
      s' = s.setCopy { src, dst, source := src.opened s.disk, progress := .opened } w := by
  simp only [sharedStep] at h
  split at h
  · rename_i src dst hcopy hto
    split at h
    · cases h
    · rename_i hread
      obtain ⟨f, hf⟩ := Option.ne_none_iff_exists'.mp hread
      cases h
      exact ⟨src, dst, f, hcopy, hto, hf, rfl⟩
  · cases h

theorem shared_copy {w : Copier} {a : CopyAct} (h : sharedStep c s (.copy w a) = some s') :
    ∃ copy d copy', s.copyOf w = some copy ∧ copy.next s.disk a = some (d, copy') ∧
      s' = { s with disk := d }.setCopy copy' w := by
  simp only [sharedStep] at h
  split at h
  · cases h
  · rename_i copy hcopy
    obtain ⟨⟨d, copy'⟩, hnext, rfl⟩ := Option.map_eq_some_iff.mp h
    exact ⟨copy, d, copy', hcopy, hnext, rfl⟩

/-- `copystat` raises when one of its paths has no file. -/
theorem shared_copystat {w : Copier} (h : sharedStep c s (.copystat w) = some s') :
    ∃ copy, s.copyOf w = some copy ∧ copy.progress = .copied ∧
      ((∃ f g, copy.src.read s.disk.files = some f ∧ s.disk.files copy.dst = some g ∧
          { s with disk := s.disk.put (s.disk.place copy.dst) { g with exec := f.exec } }.returned w = some s') ∨
        (copy.src.read s.disk.files = none ∨ s.disk.files copy.dst = none) ∧ s.raised w = some s') := by
  simp only [sharedStep] at h
  split at h
  · cases h
  · rename_i copy hcopy
    split at h
    · rename_i hprogress
      refine ⟨copy, hcopy, hprogress, ?_⟩
      split at h
      · rename_i f g hf hg
        exact Or.inl ⟨f, g, hf, hg, h⟩
      · rename_i hnone
        refine Or.inr ⟨?_, h⟩
        cases hf : copy.src.read s.disk.files with
        | none => exact Or.inl rfl
        | some f =>
          cases hg : s.disk.files copy.dst with
          | none => exact Or.inr rfl
          | some g => exact absurd hg (hnone f g hf)
    · cases h

theorem shared_fail {w : Copier} (h : sharedStep c s (.fail w) = some s') : s.raised w = some s' := by
  simp only [sharedStep] at h
  split at h
  · cases h
  · exact h

theorem shared_kill (h : sharedStep c s .kill = some s') :
    s.server ≠ .down ∧ s' = { s with server := .down, serverCopy := none, uploads := [] } := by
  simp only [sharedStep] at h
  split at h <;> cases h
  exact ⟨‹_›, rfl⟩

theorem verifyKey_goOn {i : Nat} {job : Job} {o : Outcome} : (s.goOn i job o).verifyKey = s.verifyKey := by
  cases o <;> rfl

theorem verifyKey_returned {d : Disk Path File} {w : Copier} (h : { s with disk := d }.returned w = some s') :
    s'.verifyKey = s.verifyKey := by
  cases w with
  | server =>
    cases h
    rfl
  | upload i =>
    obtain ⟨u, -, rfl⟩ := Option.map_eq_some_iff.mp h
    exact verifyKey_goOn

theorem verifyKey_raised {w : Copier} (h : s.raised w = some s') : s'.verifyKey = s.verifyKey := by
  cases w with
  | server =>
    cases h
    rfl
  | upload i =>
    obtain ⟨u, -, rfl⟩ := Option.map_eq_some_iff.mp h
    exact verifyKey_goOn

theorem verifyKey_shared {a : SharedAct} (h : sharedStep c s a = some s') : s'.verifyKey = s.verifyKey := by
  cases a with
  | start =>
    obtain ⟨-, rfl⟩ := shared_start h
    rfl
  | server =>
    obtain ⟨-, -, t, -, rfl⟩ := shared_server h
    rfl
  | request r => obtain ⟨-, ⟨a, -, rfl⟩ | ⟨p, -, rfl⟩⟩ := shared_request h <;> rfl
  | upload i active =>
    obtain ⟨u, -, -, -, rfl⟩ := shared_upload h
    exact verifyKey_goOn
  | openSource w =>
    obtain ⟨src, dst, f, -, -, -, rfl⟩ := shared_openSource h
    cases w <;> rfl
  | copy w a =>
    obtain ⟨copy, d, copy', -, -, rfl⟩ := shared_copy h
    cases w <;> rfl
  | copystat w =>
    obtain ⟨copy, -, -, ⟨f, g, -, -, h⟩ | ⟨-, h⟩⟩ := shared_copystat h
    · exact verifyKey_returned h
    · exact verifyKey_raised h
  | fail w => exact verifyKey_raised (shared_fail h)
  | kill =>
    obtain ⟨-, rfl⟩ := shared_kill h
    rfl

end

end KaonicComm.Ota
