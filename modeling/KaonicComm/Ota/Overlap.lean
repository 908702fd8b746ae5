import KaonicComm.Ota.Apart
import KaonicComm.Ota.Crash
import KaonicComm.Ota.Mixing

/-!
# Copies at the same time

Nothing keeps two uploads from copying to one file at once, which can leave a mixture of two images (`copies_mix`).
While uploads take turns and no copy fails, one thread at most copies, and every step is one of the device that `step`
describes, or none (`apart_step`); so the runs are those of the device (`refines`), and each file is a beginning of one
that was there at first or that an accepted package brought (`origin_of_run`).
-/

namespace KaonicComm.Ota

open Runs Bytes

/-! ## The steps of the device -/

section

variable {job : Job} {src : CopySource Path} {dst : Path}

/-- The copy that the device completes is the one that is made here. -/
theorem Job.copy_eq (job : Job) (fs : Files) : job.copy fs = job.toCopy.bind fun x => (x.1.read fs).map (·, x.2) := by
  obtain ⟨package, pc⟩ := job
  cases pc with
  | copyVersion => cases hversion : package.version <;> simp [Job.copy, Job.toCopy, hversion, CopySource.read]
  | _ => rfl

theorem Job.waits_of_toCopy (h : job.toCopy = some (src, dst)) : job.pc.waits = false ∧ src ≠ .file dst := by
  obtain ⟨package, pc⟩ := job
  cases pc with
  | copyBackup | copyApp | copyHash | restore =>
    cases h
    exact ⟨rfl, fun h => (by cases h)⟩
  | copyVersion =>
    simp only [Job.toCopy] at h
    split at h <;> cases h
    exact ⟨rfl, fun h => (by cases h)⟩
  | stop | testBackup | unlinkBackup | chmodApp | launch | poll left | finalPoll | testRestore | relaunch => cases h

/-- A copy that returns leads to the same place, whatever else is on the disk. -/
theorem Job.next_toCopy (h : job.toCopy = some (src, dst)) : ∃ o, ∀ (fs : Files) (f : File) (active : Bool),
    src.read fs = some f → job.next fs active = (fs.copy2 f dst, o) := by
  obtain ⟨package, pc⟩ := job
  cases pc with
  | copyBackup =>
    cases h
    refine ⟨.next .copyApp, fun fs f active hf => ?_⟩
    have hf : fs .app = some f := hf
    simp only [Job.next, hf]
  | copyApp =>
    cases h
    refine ⟨.next .chmodApp, fun fs f active hf => ?_⟩
    cases hf
    rfl
  | copyHash =>
    cases h
    refine ⟨.next .copyVersion, fun fs f active hf => ?_⟩
    cases hf
    rfl
  | copyVersion =>
    simp only [Job.toCopy] at h
    split at h <;> cases h
    rename_i version hversion
    refine ⟨.answer (.detail "Update successful" 200), fun fs f active hf => ?_⟩
    cases hf
    simp only [Job.next, hversion]
  | restore =>
    cases h
    refine ⟨.next .relaunch, fun fs f active hf => ?_⟩
    have hf : fs .backup = some f := hf
    simp only [Job.next, hf]
  | stop | testBackup | unlinkBackup | chmodApp | launch | poll left | finalPoll | testRestore | relaunch => cases h

/-- What a step that copies nothing does to the files. -/
theorem Job.next_touch {d : Disk Path File} {active : Bool} (h : job.copy d.files = none) :
    job.next d.files active = ((job.touch d).files, (job.next d.files active).2) := by
  refine Prod.ext ?_ rfl
  obtain ⟨package, pc⟩ := job
  cases pc with
  | stop | testBackup | launch | finalPoll | testRestore | relaunch => rfl
  | poll left => exact (next_poll rfl).1
  | unlinkBackup =>
    simp only [Job.touch]
    cases hbackup : d.files .backup with
    | none => simp only [Job.next, hbackup, if_true]
    | some backup =>
      simp only [Job.next, hbackup, reduceCtorEq, if_false]
      exact (d.files_unlink .backup).symm
  | chmodApp =>
    simp only [Job.touch]
    cases happ : d.files .app with
    | none => simp only [Job.next, happ]
    | some app =>
      simp only [Job.next, happ]
      exact (d.files_put_place .app _).symm
  | copyBackup =>
    have happ : d.files .app = none := Option.map_eq_none_iff.mp h
    simp only [Job.touch, Job.next, happ]
  | restore =>
    have hbackup : d.files .backup = none := Option.map_eq_none_iff.mp h
    simp only [Job.touch, Job.next, hbackup]
  | copyVersion =>
    cases hversion : package.version with
    | file version =>
      simp only [Job.copy, hversion] at h
      cases h
    | absent | directory => simp only [Job.touch, Job.next, hversion]
  | copyApp | copyHash => cases h

theorem Job.touch_waits (h : job.pc.waits = true) (d : Disk Path File) : job.touch d = d := by
  obtain ⟨package, pc⟩ := job
  cases pc with
  | stop | testBackup => rfl
  | _ => cases h

/-- What the main thread does apart from its copy. -/
theorem serverNext_eq {s t : State} (h : serverNext s = some t)
    (hidle : ¬(s.server = .restoring ∧ s.files .backup ≠ none)) :
    t = { s with metadata := t.metadata, server := t.server } ∧ s.server ≠ .serving := by
  unfold serverNext at h
  cases hv : s.server with
  | down | serving =>
    rw [hv] at h
    cases h
  | validating =>
    rw [hv] at h
    cases h
    refine ⟨?_, fun h => (by cases h)⟩
    unfold validateAppFile
    split
    · rfl
    · split
      · rfl
      · split
        · rfl
        · split <;> rfl
  | stopping | testBackup | launching | validated =>
    rw [hv] at h
    cases h
    exact ⟨rfl, fun h => (by cases h)⟩
  | restoring =>
    rw [hv] at h
    cases hb : s.files .backup with
    | none =>
      rw [hb] at h
      cases h
      exact ⟨rfl, fun h => (by cases h)⟩
    | some backup => exact absurd ⟨hv, by rw [hb]; exact fun e => (by cases e)⟩ hidle

end

section

variable {c : Cryptography} {s s' : Shared} {d : Disk Path File} {src : CopySource Path} {dst : Path} {f : File}

/-- The step of the device that is a write of this thread. -/
def Copier.writes : Copier → Nat → Act
  | .server, k => .serverWrite k
  | .upload i, k => .write i k

/-- The step of the device that completes the copy of this thread. -/
def Copier.ends : Copier → Act
  | .server => .server
  | .upload i => .upload i false

theorem view_upload {i : Nat} {u : Upload} (hu : s.uploads[i]? = some u) : s.view.uploads[i]? = some u.job := by
  rw [Shared.view, List.getElem?_map, hu, Option.map_some]

/-- An upload that goes on does so on the device. -/
theorem step_goOn {i : Nat} {u : Upload} {active : Bool} {o : Outcome} (hu : s.uploads[i]? = some u)
    (hnext : u.job.next s.disk.files active = (d.files, o)) :
    step c s.view (.upload i active) = some ({ s with disk := d }.goOn i u.job o).view := by
  have hnext : u.job.next s.view.files active = (d.files, o) := hnext
  simp only [step, view_upload hu, hnext]
  cases o with
  | next pc => simp only [Shared.goOn, Shared.view, List.map_set]
  | answer a => simp only [Shared.goOn, Shared.view, List.eraseIdx_map]

/-- A write of a thread is one of the device. -/
theorem step_writes {w : Copier} {k : Nat} (hto : s.toCopy w = some (src, dst))
    (hf : src.read s.disk.files = some f) (hk : k ≤ f.data.length) :
    step c s.view (w.writes k) = some { s.view with files := Files.copying s.disk.files f dst k } := by
  cases w with
  | server =>
    simp only [Shared.toCopy] at hto
    split at hto <;> cases hto
    rename_i hv
    have hv : s.view.server = .restoring := hv
    have hf : s.view.files .backup = some f := hf
    simp only [Copier.writes, step, hv, hf, hk, if_true]
    rfl
  | upload i =>
    obtain ⟨u, hu, hto⟩ := Option.bind_eq_some_iff.mp hto
    have hcopy : u.job.copy s.view.files = some (f, dst) := by
      rw [Job.copy_eq, hto]
      exact congrArg (Option.map (·, dst)) hf
    simp only [Copier.writes, step, view_upload hu, Option.bind_some, hcopy, hk, if_true]
    rfl

/-- A copy of a thread that returns completes one of the device. -/
theorem step_ends {w : Copier} (hto : s.toCopy w = some (src, dst)) (hf : src.read s.disk.files = some f)
    (hd : d.files = Files.copy2 s.disk.files f dst) (h : { s with disk := d }.returned w = some s') :
    step c s.view w.ends = some s'.view := by
  cases w with
  | server =>
    simp only [Shared.toCopy] at hto
    split at hto <;> cases hto
    rename_i hv
    have hv : s.view.server = .restoring := hv
    have hf : s.view.files .backup = some f := hf
    have hnext : serverNext s.view =
        some { s.view with files := Files.copy2 s.disk.files f .app, server := .launching } := by
      simp only [serverNext, hv, hf]
      rfl
    cases h
    rw [← hd] at hnext
    exact hnext
  | upload i =>
    obtain ⟨u, hu, hto⟩ := Option.bind_eq_some_iff.mp hto
    obtain ⟨o, ho⟩ := Job.next_toCopy hto
    have hread : src.read d.files = some f := by
      rw [hd, Files.copy2, read_update (Job.waits_of_toCopy hto).2, hf]
    have h : s.uploads[i]?.map (fun u => { s with disk := d }.goOn i u.job (u.job.next d.files false).2) = some s' := h
    rw [hu, Option.map_some, ho d.files f false hread, Option.some.injEq] at h
    subst h
    refine step_goOn hu ?_
    rw [ho s.disk.files f false hf, hd]

end

/-! ## Uploads that take turns -/

/-- An upload begins to touch the files only while the others wait, and no copy fails. -/
def OneAtATime (s : Shared) : SharedAct → Prop
  | .upload i _ => s.view.uploads[i]?.map Job.pc = some .testBackup → Alone s.view i
  | .fail _ => False
  | _ => True

instance (s : Shared) : ∀ a, Decidable (OneAtATime s a)
  | .upload _ _ => inferInstanceAs (Decidable (_ → _))
  | .fail _ => isFalse id
  | .start | .server | .request _ | .openSource _ | .copy .. | .copystat _ | .kill => isTrue trivial

/-- The device has one thread at most that copies, and the copy has its files to itself. -/
structure Apart (s : Shared) : Prop where
  alone : ∃ i, Alone s.view i
  idle : s.view.server ≠ .serving → s.view.uploads = []
  toCopy : ∀ w copy, s.copyOf w = some copy → s.toCopy w = some (copy.src, copy.dst)
  faithful : ∀ w copy, s.copyOf w = some copy → copy.Faithful s.disk

section

variable {c : Cryptography} {s s' : Shared} {w w' : Copier} {copy : Copy}

theorem Apart.serving (hs : Apart s) {i : Nat} {u : Upload} (hu : s.uploads[i]? = some u) : s.server = .serving := by
  by_contra hv
  have hjob := view_upload hu
  rw [hs.idle hv] at hjob
  cases hjob

/-- The main thread copies in a restoration only. -/
theorem Apart.serverCopy (hs : Apart s) (hv : s.server ≠ .restoring) : s.serverCopy = none := by
  cases hc : s.serverCopy with
  | none => rfl
  | some copy =>
    have hto := hs.toCopy .server copy hc
    rw [Shared.toCopy, if_neg hv] at hto
    cases hto

/-- An upload that copies does not wait, so the others do. -/
theorem Apart.alone_of_toCopy (hs : Apart s) {i : Nat} {x : CopySource Path × Path}
    (h : s.toCopy (.upload i) = some x) : Alone s.view i := by
  obtain ⟨u, hu, hto⟩ := Option.bind_eq_some_iff.mp h
  obtain ⟨k, halone⟩ := hs.alone
  by_cases hik : i = k
  · rw [hik]
    exact halone
  · have hwaits := halone i u.job hik (view_upload hu)
    rw [(Job.waits_of_toCopy hto).1] at hwaits
    cases hwaits

/-- While an upload is alone, no other thread copies. -/
theorem Apart.toCopy_of_alone (hs : Apart s) {i : Nat} {u : Upload} (hu : s.uploads[i]? = some u)
    (halone : Alone s.view i) {x : CopySource Path × Path} (h : s.toCopy w = some x) : w = .upload i := by
  cases w with
  | server =>
    simp only [Shared.toCopy, hs.serving hu, reduceCtorEq, if_false] at h
  | upload j =>
    by_contra hne
    obtain ⟨v, hv, hto⟩ := Option.bind_eq_some_iff.mp h
    have hwaits := halone j v.job (fun hji => hne (congrArg _ hji)) (view_upload hv)
    rw [(Job.waits_of_toCopy hto).1] at hwaits
    cases hwaits

/-- **One thread at most copies.** -/
theorem Apart.eq_of_toCopy (hs : Apart s) {x y : CopySource Path × Path} (h : s.toCopy w = some x)
    (h' : s.toCopy w' = some y) : w' = w := by
  cases w with
  | server =>
    cases w' with
    | server => rfl
    | upload j =>
      obtain ⟨v, hv, -⟩ := Option.bind_eq_some_iff.mp h'
      exact absurd (hs.toCopy_of_alone hv (hs.alone_of_toCopy h') h) fun h => (by cases h)
  | upload i =>
    obtain ⟨u, hu, -⟩ := Option.bind_eq_some_iff.mp h
    exact hs.toCopy_of_alone hu (hs.alone_of_toCopy h) h'

theorem ne_of_toCopy {src : CopySource Path} {dst : Path} (h : s.toCopy w = some (src, dst)) : src ≠ .file dst := by
  cases w with
  | server =>
    simp only [Shared.toCopy] at h
    split at h <;> cases h
    exact fun h => (by cases h)
  | upload i =>
    obtain ⟨u, -, hto⟩ := Option.bind_eq_some_iff.mp h
    exact (Job.waits_of_toCopy hto).2

/-- Without uploads and copies. -/
theorem apart_idle (hu : s.uploads = []) (hc : s.serverCopy = none) : Apart s where
  alone := by
    refine ⟨0, fun j job _ hj => ?_⟩
    rw [Shared.view, hu] at hj
    cases hj
  idle _ := by rw [Shared.view, hu, List.map_nil]
  toCopy w copy h := by
    rw [copyOf_idle hc hu] at h
    cases h
  faithful w copy h := by
    rw [copyOf_idle hc hu] at h
    cases h

/-- A step that leaves the disk and the uploads alone, while the main thread has no copy. -/
theorem Apart.of_eq (hs : Apart s) (hdisk : s'.disk = s.disk) (huploads : s'.uploads = s.uploads)
    (hnone : s.serverCopy = none) (hnone' : s'.serverCopy = none)
    (hidle : s'.server ≠ .serving → s.view.uploads = []) : Apart s' where
  alone := by
    obtain ⟨k, halone⟩ := hs.alone
    refine ⟨k, fun j job hjk hj => halone j job hjk ?_⟩
    rw [Shared.view, huploads] at hj
    exact hj
  idle hv := by
    rw [Shared.view, huploads]
    exact hidle hv
  toCopy w copy h := by
    rw [copyOf_congr (hnone'.trans hnone.symm) huploads] at h
    cases w with
    | server =>
      rw [Shared.copyOf, hnone] at h
      cases h
    | upload i =>
      rw [Shared.toCopy, huploads]
      exact hs.toCopy (.upload i) copy h
  faithful w copy h := by
    rw [copyOf_congr (hnone'.trans hnone.symm) huploads] at h
    rw [hdisk]
    exact hs.faithful w copy h

/-- A copy goes on that has its files to itself. -/
theorem Apart.setCopy (hs : Apart s) {d : Disk Path File} (hto : s.toCopy w = some (copy.src, copy.dst))
    (hcopy : copy.Faithful d) : Apart ({ s with disk := d }.setCopy copy w) where
  alone := by
    rw [view_setCopy]
    exact hs.alone
  idle := by
    rw [view_setCopy]
    exact hs.idle
  toCopy w' copy' h := by
    rw [toCopy_setCopy]
    rcases copyOf_setCopy h with ⟨rfl, rfl⟩ | ⟨-, h⟩
    · cases w' <;> exact hto
    · have h : s.copyOf w' = some copy' := by cases w' <;> exact h
      cases w' <;> exact hs.toCopy _ copy' h
  faithful w' copy' h := by
    rw [disk_setCopy]
    rcases copyOf_setCopy h with ⟨rfl, rfl⟩ | ⟨hne, h⟩
    · exact hcopy
    · have h : s.copyOf w' = some copy' := by cases w' <;> exact h
      exact absurd (hs.eq_of_toCopy hto (hs.toCopy w' copy' h)) hne

/-- An upload goes on, which is the only one that copied, or leaves the disk alone. -/
theorem Apart.goOn (hs : Apart s) {i : Nat} {u : Upload} (hu : s.uploads[i]? = some u) {d : Disk Path File}
    {o : Outcome} (halone : ∃ k, Alone ({ s with disk := d }.goOn i u.job o).view k)
    (hd : d = s.disk ∨ Alone s.view i) : Apart ({ s with disk := d }.goOn i u.job o) where
  alone := halone
  idle hv := by
    have hv : s.server ≠ .serving := by cases o <;> exact hv
    exact absurd (hs.serving hu) hv
  toCopy w copy h := by
    obtain ⟨w', -, h, hto⟩ := copyOf_goOn h
    have h : s.copyOf w' = some copy := by cases w' <;> exact h
    rw [hto]
    cases w' <;> exact hs.toCopy _ copy h
  faithful w copy h := by
    obtain ⟨w', hne, hcopy, -⟩ := copyOf_goOn h
    have hcopy : s.copyOf w' = some copy := by cases w' <;> exact hcopy
    rcases hd with rfl | hi
    · cases o <;> exact hs.faithful w' copy hcopy
    · exact absurd (hs.toCopy_of_alone hu hi (hs.toCopy w' copy hcopy)) hne

theorem uploads_next (i : Nat) (job : Job) (pc : Pc) :
    (s.goOn i job (.next pc)).view.uploads = s.view.uploads.set i { job with pc } := by
  simp only [Shared.goOn, Shared.view, List.map_set]

theorem uploads_answer (i : Nat) (job : Job) (a : Answer) :
    (s.goOn i job (.answer a)).view.uploads = s.view.uploads.eraseIdx i := by
  simp only [Shared.goOn, Shared.view, List.eraseIdx_map]

/-- The others still wait when an upload has gone on. -/
theorem alone_goOn {i : Nat} {d : Disk Path File} {job : Job} {o : Outcome} (h : Alone s.view i) :
    ∃ k, Alone ({ s with disk := d }.goOn i job o).view k := by
  cases o with
  | next pc => exact ⟨i, h.set (uploads_next i job pc)⟩
  | answer a => exact ⟨i, h.erase (uploads_answer i job a) i⟩

/-- The device comes to the same files, uploads and answers by steps of its own, which ask for no more. -/
def Matched (c : Cryptography) (s s' : Shared) (a : SharedAct) : Prop :=
  ∃ bs, run (step c) s.view bs = some s'.view ∧ ∀ r, .request r ∈ bs → a = .request r

section

variable {a : SharedAct}

theorem matched_none (h : s'.view = s.view) : Matched c s s' a :=
  ⟨[], by rw [h]; rfl, fun r hr => absurd hr List.not_mem_nil⟩

theorem matched_one {b : Act} (h : step c s.view b = some s'.view) (hr : ∀ r, b = .request r → a = .request r) :
    Matched c s s' a :=
  ⟨[b], run_cons.mpr ⟨_, h, rfl⟩, fun r hmem => hr r (List.mem_singleton.mp hmem).symm⟩

theorem ne_request_writes {k : Nat} {r : Request} : w.writes k ≠ .request r := by
  cases w <;> exact fun h => (by cases h)

theorem ne_request_ends {r : Request} : w.ends ≠ .request r := by
  cases w <;> exact fun h => (by cases h)

end

/-- A request adds an upload that waits. -/
theorem apart_request {r : Request} (hs : Apart s) (h : sharedStep c s (.request r) = some s') :
    Apart s' ∧ Matched c s s' (.request r) := by
  obtain ⟨hv, hstep⟩ := shared_request h
  have hserving : s.view.server = .serving := hv
  have hnone := hs.serverCopy (show s.server ≠ .restoring by simp [hv])
  have hrequest : ∀ r', Act.request r = .request r' → SharedAct.request r = .request r' :=
    fun r' h => congrArg _ (Act.request.inj h)
  rcases hstep with ⟨a, ha, rfl⟩ | ⟨p, hp, rfl⟩
  · refine ⟨hs.of_eq rfl rfl hnone hnone fun hne => absurd hv hne, matched_one ?_ hrequest⟩
    have ha : uploadOta c s.view.verifyKey r = .error a := ha
    rw [step, if_pos hserving, ha]
    rfl
  · have huploads : (s.uploads ++ [Upload.mk ⟨p, .stop⟩ none]).map Upload.job = s.view.uploads ++ [⟨p, .stop⟩] :=
      List.map_append
    refine ⟨⟨?_, fun hne => absurd hv hne, fun w copy hcopy => ?_, fun w copy hcopy => ?_⟩, matched_one ?_ hrequest⟩
    · obtain ⟨k, halone⟩ := hs.alone
      exact ⟨k, halone.append rfl huploads⟩
    · obtain ⟨hcopy, hto⟩ := copyOf_append hcopy
      rw [hto]
      exact hs.toCopy w copy hcopy
    · exact hs.faithful w copy (copyOf_append hcopy).1
    · have hp : uploadOta c s.view.verifyKey r = .ok p := hp
      rw [step, if_pos hserving, hp]
      simp only [Shared.view, huploads]

/-- An upload that goes on waits still, or the others do. -/
theorem apart_upload {i : Nat} {active : Bool} (hs : Apart s) (ha : OneAtATime s (.upload i active))
    (h : sharedStep c s (.upload i active) = some s') : Apart s' ∧ Matched c s s' (.upload i active) := by
  obtain ⟨u, hu, -, hno, rfl⟩ := shared_upload h
  obtain ⟨k, halone⟩ := hs.alone
  refine ⟨?_, matched_one (step_goOn hu (Job.next_touch hno)) fun r hr => (by cases hr)⟩
  have hturn : u.job.pc = .testBackup → Alone s.view i := fun hpc =>
    ha (by rw [view_upload hu, Option.map_some, hpc])
  rcases halone.of_step (view_upload hu) hturn with hpc | hi
  · have hnext : u.job.next s.disk.files active = (s.disk.files, .next .testBackup) := by simp only [Job.next, hpc]
    have htouch : u.job.touch s.disk = s.disk := Job.touch_waits (by rw [hpc]; rfl) s.disk
    rw [hnext, htouch]
    exact hs.goOn hu ⟨k, halone.set_waiting rfl (uploads_next i u.job .testBackup)⟩ (Or.inl rfl)
  · exact hs.goOn hu (alone_goOn hi) (Or.inr hi)

/-- A step of the only copy is a write of the device or none. -/
theorem apart_copy {a : CopyAct} (hs : Apart s) (h : sharedStep c s (.copy w a) = some s') :
    Apart s' ∧ Matched c s s' (.copy w a) := by
  obtain ⟨copy, d, copy', hcopy, hnext, rfl⟩ := shared_copy h
  have hto := hs.toCopy w copy hcopy
  obtain ⟨hfaithful, ⟨hsrc, hdst⟩, hfiles⟩ := faithful_next (hs.faithful w copy hcopy) (ne_of_toCopy hto) hnext
  refine ⟨hs.setCopy (by rw [hsrc, hdst]; exact hto) hfaithful, ?_⟩
  rcases hfiles with hfiles | ⟨f, k, hf, hk, hfiles⟩
  · apply matched_none
    rw [view_setCopy]
    simp only [Shared.view, hfiles]
  · refine matched_one ((step_writes hto hf hk).trans ?_) fun r hr => absurd hr ne_request_writes
    rw [view_setCopy]
    simp only [Shared.view, hfiles]

/-- The only copy returns, with a destination that holds the source. -/
theorem apart_copystat (hs : Apart s) (h : sharedStep c s (.copystat w) = some s') :
    Apart s' ∧ Matched c s s' (.copystat w) := by
  obtain ⟨copy, hcopy, hprogress, hcase⟩ := shared_copystat h
  have hto := hs.toCopy w copy hcopy
  obtain ⟨-, f, hf, hreached⟩ := hs.faithful w copy hcopy
  rw [hprogress] at hreached
  obtain ⟨g, hg, hdata⟩ := hreached
  rcases hcase with ⟨f', g', hf', hg', h⟩ | ⟨hnone | hnone, -⟩
  · obtain rfl := Option.some.inj (hf.symm.trans hf')
    obtain rfl := Option.some.inj (hg.symm.trans hg')
    have hfile : ({ g with exec := f.exec } : File) = f := by rw [hdata]
    rw [hfile] at h
    refine ⟨?_, matched_one (step_ends hto hf (s.disk.files_put_place copy.dst f) h) fun r hr =>
      absurd hr ne_request_ends⟩
    cases w with
    | server =>
      have hv : s.server ≠ .serving := by
        intro hv
        simp only [Shared.toCopy, hv, reduceCtorEq, if_false] at hto
      cases h
      exact apart_idle (List.map_eq_nil_iff.mp (hs.idle hv)) rfl
    | upload i =>
      have hi := hs.alone_of_toCopy hto
      obtain ⟨u, hu, rfl⟩ := Option.map_eq_some_iff.mp h
      exact hs.goOn hu (alone_goOn hi) (Or.inr hi)
  · rw [hf] at hnone
    cases hnone
  · rw [hg] at hnone
    cases hnone

/-- **While uploads take turns and no copy fails, every step is one of the device, or none**, and one thread at most
copies. -/
theorem apart_step {a : SharedAct} (hs : Apart s) (ha : OneAtATime s a) (h : sharedStep c s a = some s') :
    Apart s' ∧ Matched c s s' a := by
  cases a with
  | start =>
    obtain ⟨hv, rfl⟩ := shared_start h
    have hu := hs.idle (show s.server ≠ .serving by simp [hv])
    have hnone := hs.serverCopy (show s.server ≠ .restoring by simp [hv])
    have hstart : step c s.view .start = some { s.view with server := .validating } := if_pos hv
    exact ⟨hs.of_eq rfl rfl hnone rfl fun _ => hu, matched_one hstart fun r hr => (by cases hr)⟩
  | server =>
    obtain ⟨hnone, hidle, t, ht, rfl⟩ := shared_server h
    obtain ⟨heq, hv⟩ := serverNext_eq ht hidle
    have hserver : step c s.view .server = some { s.view with metadata := t.metadata, server := t.server } :=
      ht.trans (congrArg some heq)
    exact ⟨hs.of_eq rfl rfl hnone hnone fun _ => hs.idle hv, matched_one hserver fun r hr => (by cases hr)⟩
  | request r => exact apart_request hs h
  | upload i active => exact apart_upload hs ha h
  | openSource w =>
    obtain ⟨src, dst, f, -, hto, hf, rfl⟩ := shared_openSource h
    exact ⟨hs.setCopy hto ⟨rfl, f, hf, trivial⟩, matched_none (view_setCopy _ _)⟩
  | copy w a => exact apart_copy hs h
  | copystat w => exact apart_copystat hs h
  | fail w => exact ha.elim
  | kill =>
    obtain ⟨hv, rfl⟩ := shared_kill h
    have hkill : step c s.view .kill = some { s.view with server := .down, uploads := [] } := if_pos hv
    exact ⟨apart_idle rfl rfl, matched_one hkill fun r hr => (by cases hr)⟩

end

section

variable {c : Cryptography} {s₀ : State} {s : Shared} {as : List SharedAct}

theorem view_share (s₀ : State) : s₀.share.view = s₀ := by
  simp only [State.share, Shared.view, Disk.files_ofFiles, List.map_map]
  rw [show (Upload.job ∘ fun job => ({ job } : Upload)) = id from rfl, List.map_id]

/-- **While uploads take turns and no copy fails, the runs are those of the device.** -/
theorem refines (huploads : s₀.uploads = []) (hturns : Along (sharedStep c) OneAtATime s₀.share as)
    (h : run (sharedStep c) s₀.share as = some s) :
    ∃ bs, run (step c) s₀ bs = some s.view ∧ ∀ r, .request r ∈ bs → .request r ∈ as := by
  have hfirst : Apart s₀.share := apart_idle (by rw [State.share, huploads, List.map_nil]) rfl
  refine (run_inv (P := fun t a => OneAtATime t a ∧ a ∈ as) (I := fun t => Apart t ∧
    ∃ bs, run (step c) s₀ bs = some t.view ∧ ∀ r, .request r ∈ bs → .request r ∈ as) ?_
    ⟨hfirst, [], by rw [view_share]; rfl, fun r hr => absurd hr List.not_mem_nil⟩
    (hturns.and (along_of_forall (fun _ _ ha => ha) _)) h).2
  rintro t a t' ⟨ht, bs, hbs, hrequests⟩ ⟨ha, hmem⟩ hstep
  obtain ⟨ht', bs', hbs', hrequests'⟩ := apart_step ht ha hstep
  refine ⟨ht', bs ++ bs', ?_, fun r hr => ?_⟩
  · rw [run_append, hbs]
    exact hbs'
  · rcases List.mem_append.mp hr with hr | hr
    · exact hrequests r hr
    · exact hrequests' r hr ▸ hmem

/-- **Where the bytes of a file come from**: in every run each of them is zero or stands at its place in a file that was
there at first or that an accepted package brought, and while uploads take turns and no copy fails, the file is a
beginning of one of these. -/
theorem origin_of_run (huploads : s₀.uploads = []) (h : run (sharedStep c) s₀.share as = some s) (q : Path)
    (x : List UInt8) (hx : s.view.files.data q = some x) :
    Each (FromOrigin c s₀ {r | .request r ∈ as} q) x ∧
      (Along (sharedStep c) OneAtATime s₀.share as → Beginning c s₀ {r | .request r ∈ as} q x) := by
  refine ⟨bytes_of_run huploads (fun _ hr => hr) h q x hx, fun hturns => ?_⟩
  obtain ⟨bs, hbs, hrequests⟩ := refines huploads hturns h
  exact beginning_of_run huploads hrequests hbs q x hx

end

/-- A whole copy of `n` bytes. -/
def copyWhole (w : Copier) (n : Nat) : List SharedAct :=
  [.openSource w, .copy w .openTarget, .copy w (.read n), .copy w (.write n), .copy w .endOfFile, .copystat w]

/-- An upload up to its backup, which is under way when the process is killed. -/
def killedCopy : List SharedAct :=
  [.request (.zip (.extracted archive)), .upload 0 false, .upload 0 false, .openSource (.upload 0),
    .copy (.upload 0) .openTarget, .copy (.upload 0) (.read 2), .copy (.upload 0) (.write 1), .kill]

/-- Two uploads make their backup; one is about to roll back when the other one installs its image. -/
def mixing : List SharedAct :=
  [.request (.zip (.extracted archive)), .request (.zip (.extracted archive)), .upload 0 false, .upload 1 false,
    .upload 0 false, .upload 1 false] ++ copyWhole (.upload 0) 2 ++ copyWhole (.upload 1) 2 ++
    copyWhole (.upload 0) 1 ++ [.upload 0 false, .upload 0 false, .upload 0 false, .upload 0 false, .upload 0 false,
    .openSource (.upload 1), .copy (.upload 1) .openTarget, .copy (.upload 1) (.read 1),
    .openSource (.upload 0), .copy (.upload 0) .openTarget, .copy (.upload 0) (.read 2), .copy (.upload 0) (.write 2),
    .copy (.upload 1) (.write 1)]

theorem run_mixing : (run (sharedStep oneKey) server.share mixing).map (fun s => (s.view.files.data .app, s.server)) =
    some (some [3, 2], .serving) := by
  decide +kernel

/-- **Copies at the same time mix images**: the second byte of the old image stands behind the new one. -/
theorem copies_mix : ∃ s, run (sharedStep oneKey) server.share mixing = some s ∧ s.view.files.data .app = some [3, 2] ∧
    ¬Beginning oneKey server {r | SharedAct.request r ∈ mixing} .app [3, 2] := by
  obtain ⟨s, hs, heq⟩ := Option.map_eq_some_iff.mp run_mixing
  refine ⟨s, hs, (Prod.mk.inj heq).1, ?_⟩
  rintro ⟨y, hfirst | hfirst | ⟨p, ⟨r, hr, hp⟩, rfl⟩, hpre⟩
  · cases hfirst
    exact absurd hpre (by decide)
  · cases hfirst
  · obtain rfl : r = .zip (.extracted archive) := by simpa [mixing, copyWhole] using hr
    cases uploadOta_archive.symm.trans hp
    exact absurd hpre (by decide)

theorem origin_of_run_mixing :
    (∃ s, run (sharedStep oneKey) server.share mixing = some s ∧
      Each (FromOrigin oneKey server {r | SharedAct.request r ∈ mixing} .app) [3, 2]) ∧
    ∃ s, run (sharedStep oneKey) server.share killedCopy = some s ∧
      Beginning oneKey server {r | SharedAct.request r ∈ killedCopy} .backup [1] := by
  have hall : (run (sharedStep oneKey) server.share killedCopy).map (fun s => s.view.files.data .backup) =
      some (some [1]) ∧ Along (sharedStep oneKey) OneAtATime server.share killedCopy := by
    decide +kernel
  obtain ⟨hkilled, hturns⟩ := hall
  obtain ⟨s, hs, hdata, -⟩ := copies_mix
  obtain ⟨t, ht, hbackup⟩ := Option.map_eq_some_iff.mp hkilled
  exact ⟨⟨s, hs, (origin_of_run rfl hs .app _ hdata).1⟩, t, ht,
    (origin_of_run rfl ht .backup _ hbackup).2 hturns⟩

end KaonicComm.Ota
