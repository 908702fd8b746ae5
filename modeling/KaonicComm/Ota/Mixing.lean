import KaonicComm.Ota.Copies
import KaonicComm.Ota.Provenance

/-!
# Bytes in their places

Whatever copies run at the same time, a byte that is written to a file was read at the same place of another one. So
what is required of the byte at each place of each file is kept by every step, when zeros have it, which fill a gap, and
when images are exchanged between the application and its backup (`fitting_step`). In every run, then, each byte of a
file is zero or stands at its place in a file that was there at first or that an accepted package brought
(`bytes_of_run`).
-/

namespace KaonicComm.Ota

open Runs Bytes

/-! ## Byte by byte -/

section

variable {Ok : Path → Nat → UInt8 → Prop}

/-- A gap is allowed everywhere, and a byte of an image is allowed in a backup where it is in the application. -/
structure Mixed (Ok : Path → Nat → UInt8 → Prop) : Prop where
  gap : ∀ q i, Ok q i 0
  image : ∀ i b, Ok .app i b ↔ Ok .backup i b

/-- What can be read from an open source is allowed at the destination. -/
def CopySource.Fits (Ok : Path → Nat → UInt8 → Prop) (dst : Path) : CopySource (Path × Nat) → Prop
  | .temporary data => Each (Ok dst) data
  | .file a => ∀ i b, Ok a.1 i b → Ok dst i b

/-- What a copy has read and is going to read is allowed where it goes. -/
structure Copy.Fits (Ok : Path → Nat → UInt8 → Prop) (copy : Copy) : Prop where
  source : copy.source.Fits Ok copy.dst
  buffer : ∀ target offset buffer, copy.progress = .copying target offset buffer →
    target.1 = copy.dst ∧ Each (fun i => Ok copy.dst (offset + i)) buffer

/-- Every byte of every file, with a name or without, is allowed at its place. -/
def BytesFit (Ok : Path → Nat → UInt8 → Prop) (d : Disk Path File) : Prop := d.All fun q f => Each (Ok q) f.data

/-- The bytes of the files are allowed, and so are those of the packages and those on their way. -/
structure Fitting (Ok : Path → Nat → UInt8 → Prop) (s : Shared) : Prop where
  disk : BytesFit Ok s.disk
  uploads : ∀ u ∈ s.uploads, u.job.package.Allowed fun q => Each (Ok q)
  copies : ∀ w copy, s.copyOf w = some copy → copy.Fits Ok

/-- The bytes of the open source. -/
theorem Copy.Fits.data {d : Disk Path File} {copy : Copy} (h : copy.Fits Ok) (hd : BytesFit Ok d) :
    Each (Ok copy.dst) (copy.data d) := by
  have hsource := h.source
  unfold Copy.data
  cases hs : copy.source with
  | temporary data =>
    rw [hs] at hsource
    exact hsource
  | file a =>
    rw [hs] at hsource
    cases hf : d.file a with
    | none =>
      simp only [CopySource.read, hf]
      exact each_nil
    | some f =>
      simp only [CopySource.read, hf]
      exact (hd a f hf).imp hsource

/-- **A step of a copy keeps the bytes within what is allowed**, whatever other copies do to its files. -/
theorem fits_next (hm : Mixed Ok) {d d' : Disk Path File} {copy copy' : Copy} {a : CopyAct} (hd : BytesFit Ok d)
    (hc : copy.Fits Ok) (h : copy.next d a = some (d', copy')) : BytesFit Ok d' ∧ copy'.Fits Ok := by
  cases a with
  | openTarget =>
    simp only [Copy.next] at h
    split at h <;> cases h
    refine ⟨hd.put each_nil, hc.source, ?_⟩
    rintro target offset buffer ⟨⟩
    exact ⟨rfl, each_nil⟩
  | read n =>
    simp only [Copy.next] at h
    split at h
    · rename_i target offset hprogress
      cases h
      refine ⟨hd, hc.source, ?_⟩
      rintro target' offset' buffer ⟨⟩
      exact ⟨(hc.buffer _ _ _ hprogress).1, ((hc.data hd).drop offset).take n⟩
    · cases h
  | write k =>
    simp only [Copy.next] at h
    split at h
    · rename_i target offset buffer hprogress
      obtain ⟨htarget, hbuffer⟩ := hc.buffer _ _ _ hprogress
      split at h <;> cases h
      refine ⟨?_, hc.source, ?_⟩
      · unfold writeAt
        split
        · exact hd
        · rename_i f hf
          refine hd.put ((hd _ f hf).pwrite (hm.gap _) ?_)
          rw [htarget]
          exact hbuffer.take k
      · rintro target' offset' buffer' ⟨⟩
        refine ⟨htarget, (hbuffer.drop k).imp fun i b hb => ?_⟩
        rw [Nat.add_assoc]
        exact hb
    · cases h
  | endOfFile =>
    simp only [Copy.next] at h
    split at h
    · split at h <;> cases h
      exact ⟨hd, hc.source, nofun⟩
    · cases h

/-- What an upload copies is allowed where it goes. -/
theorem Job.fits_toCopy (hm : Mixed Ok) {job : Job} (hp : job.package.Allowed fun q => Each (Ok q))
    {src : CopySource Path} {dst : Path} (h : job.toCopy = some (src, dst)) (d : Disk Path File) :
    (src.opened d).Fits Ok dst := by
  obtain ⟨package, pc⟩ := job
  cases pc with
  | copyBackup =>
    cases h
    exact fun i b => (hm.image i b).mp
  | copyApp =>
    cases h
    exact hp.app
  | copyHash =>
    cases h
    exact hp.hash
  | copyVersion =>
    simp only [Job.toCopy] at h
    split at h <;> cases h
    exact hp.version _ ‹_›
  | restore =>
    cases h
    exact fun i b => (hm.image i b).mpr
  | stop | testBackup | unlinkBackup | chmodApp | launch | poll left | finalPoll | testRestore | relaunch => cases h

/-- The other steps of an upload keep the bytes. -/
theorem Job.fits_touch {d : Disk Path File} (hd : BytesFit Ok d) (job : Job) : BytesFit Ok (job.touch d) := by
  unfold Job.touch
  split
  · split
    · exact hd
    · exact hd.unlink _
  · split
    · exact hd
    · rename_i app happ
      have hdata : Each (Ok .app) app.data := Disk.All.files hd happ
      exact hd.put hdata
  · exact hd

variable {s s' : Shared}

/-- What a thread copies is allowed where it goes. -/
theorem Fitting.toCopy (hm : Mixed Ok) (hs : Fitting Ok s) {w : Copier} {src : CopySource Path} {dst : Path}
    (h : s.toCopy w = some (src, dst)) : (src.opened s.disk).Fits Ok dst := by
  cases w with
  | server =>
    simp only [Shared.toCopy] at h
    split at h <;> cases h
    exact fun i b => (hm.image i b).mpr
  | upload i =>
    obtain ⟨u, hu, hcopy⟩ := Option.bind_eq_some_iff.mp h
    exact Job.fits_toCopy hm (hs.uploads u (List.mem_of_getElem? hu)) hcopy s.disk

/-- A step that leaves the bytes and the copies alone. -/
theorem Fitting.of_eq (hs : Fitting Ok s) (hdisk : s'.disk = s.disk) (hserver : s'.serverCopy = s.serverCopy)
    (huploads : s'.uploads = s.uploads) : Fitting Ok s' where
  disk := by rw [hdisk]; exact hs.disk
  uploads := by rw [huploads]; exact hs.uploads
  copies w := by rw [copyOf_congr hserver huploads]; exact hs.copies w

theorem Fitting.setCopy (hs : Fitting Ok s) {d : Disk Path File} (hd : BytesFit Ok d) {copy : Copy}
    (hcopy : copy.Fits Ok) (w : Copier) : Fitting Ok ({ s with disk := d }.setCopy copy w) where
  disk := by rw [disk_setCopy]; exact hd
  uploads u hu := by
    obtain ⟨v, hv, hjob⟩ := mem_setCopy hu
    rw [hjob]
    exact hs.uploads v hv
  copies w' copy' h := by
    rcases copyOf_setCopy h with ⟨-, rfl⟩ | ⟨-, h⟩
    · exact hcopy
    · exact hs.copies w' copy' (by cases w' <;> exact h)

theorem Fitting.goOn (hs : Fitting Ok s) {i : Nat} {u : Upload} (hu : s.uploads[i]? = some u) {d : Disk Path File}
    (hd : BytesFit Ok d) (o : Outcome) : Fitting Ok ({ s with disk := d }.goOn i u.job o) where
  disk := by cases o <;> exact hd
  uploads v hv := by
    rcases mem_goOn hv with hv | hv
    · exact hs.uploads v hv
    · rw [hv]
      exact hs.uploads u (List.mem_of_getElem? hu)
  copies w copy h := by
    obtain ⟨w', -, h, -⟩ := copyOf_goOn h
    exact hs.copies w' copy (by cases w' <;> exact h)

/-- The main thread has no copy any more. -/
theorem Fitting.server (hs : Fitting Ok s) {d : Disk Path File} (hd : BytesFit Ok d) (v : Server) :
    Fitting Ok { s with disk := d, server := v, serverCopy := none } where
  disk := hd
  uploads := hs.uploads
  copies w copy h := by
    cases w with
    | server => cases h
    | upload i => exact hs.copies (.upload i) copy h

theorem Fitting.returned (hs : Fitting Ok s) {d : Disk Path File} (hd : BytesFit Ok d) {w : Copier}
    (h : { s with disk := d }.returned w = some s') : Fitting Ok s' := by
  cases w with
  | server =>
    cases h
    exact hs.server hd .launching
  | upload i =>
    obtain ⟨u, hu, rfl⟩ := Option.map_eq_some_iff.mp h
    exact hs.goOn hu hd _

theorem Fitting.raised (hs : Fitting Ok s) {w : Copier} (h : s.raised w = some s') : Fitting Ok s' := by
  cases w with
  | server =>
    cases h
    exact hs.server hs.disk .down
  | upload i =>
    obtain ⟨u, hu, rfl⟩ := Option.map_eq_some_iff.mp h
    exact hs.goOn hu hs.disk _

/-- **Every step keeps every byte within what is allowed at its place.** -/
theorem fitting_step {c : Cryptography} {a : SharedAct} (hm : Mixed Ok) (hs : Fitting Ok s)
    (hr : ∀ r p, a = .request r → uploadOta c s.verifyKey r = .ok p → p.Allowed fun q => Each (Ok q))
    (h : sharedStep c s a = some s') : Fitting Ok s' := by
  cases a with
  | start =>
    obtain ⟨-, rfl⟩ := shared_start h
    exact hs.server hs.disk .validating
  | server =>
    obtain ⟨-, -, t, -, rfl⟩ := shared_server h
    exact hs.of_eq rfl rfl rfl
  | request r =>
    obtain ⟨-, ⟨a, -, rfl⟩ | ⟨p, hp, rfl⟩⟩ := shared_request h
    · exact hs.of_eq rfl rfl rfl
    · refine ⟨hs.disk, fun u hu => ?_, fun w copy hcopy => hs.copies w copy (copyOf_append hcopy).1⟩
      rcases List.mem_append.mp hu with hu | hu
      · exact hs.uploads u hu
      · cases List.mem_singleton.mp hu
        exact hr r p rfl hp
  | upload i active =>
    obtain ⟨u, hu, -, -, rfl⟩ := shared_upload h
    exact hs.goOn hu (Job.fits_touch hs.disk u.job) _
  | openSource w =>
    obtain ⟨src, dst, f, -, hto, -, rfl⟩ := shared_openSource h
    refine hs.setCopy hs.disk ⟨hs.toCopy hm hto, ?_⟩ w
    rintro target offset buffer ⟨⟩
  | copy w a =>
    obtain ⟨copy, d, copy', hcopy, hnext, rfl⟩ := shared_copy h
    obtain ⟨hd, hcopy'⟩ := fits_next hm hs.disk (hs.copies w copy hcopy) hnext
    exact hs.setCopy hd hcopy' w
  | copystat w =>
    obtain ⟨copy, -, -, ⟨f, g, -, hg, h⟩ | ⟨-, h⟩⟩ := shared_copystat h
    · have hdata : Each (Ok copy.dst) g.data := Disk.All.files hs.disk hg
      exact hs.returned (hs.disk.put hdata) h
    · exact hs.raised h
  | fail w => exact hs.raised (shared_fail h)
  | kill =>
    obtain ⟨-, rfl⟩ := shared_kill h
    refine ⟨hs.disk, fun u hu => absurd hu List.not_mem_nil, fun w copy hcopy => ?_⟩
    rw [copyOf_idle rfl rfl] at hcopy
    cases hcopy

end

/-- A byte that is zero or stands at its place in an origin. -/
def FromOrigin (c : Cryptography) (s₀ : State) (requests : Set Request) (q : Path) (i : Nat) (b : UInt8) : Prop :=
  b = 0 ∨ ∃ y, Origin c s₀ requests q y ∧ y[i]? = some b

section

variable {c : Cryptography} {s₀ : State} {as : List SharedAct} {s : Shared}

theorem mixed_fromOrigin {requests : Set Request} : Mixed (FromOrigin c s₀ requests) where
  gap _ _ := Or.inl rfl
  image _ _ := Iff.rfl

theorem Origin.each {requests : Set Request} {q : Path} {x : List UInt8} (h : Origin c s₀ requests q x) :
    Each (FromOrigin c s₀ requests q) x :=
  fun _ _ hb => Or.inr ⟨x, h, hb⟩

/-- **In every run each byte of a file is zero or stands at its place in an origin.** -/
theorem bytes_of_run {requests : Set Request} (huploads : s₀.uploads = [])
    (hrequests : ∀ r, .request r ∈ as → r ∈ requests) (h : run (sharedStep c) s₀.share as = some s) (q : Path)
    (x : List UInt8) (hx : s.view.files.data q = some x) : Each (FromOrigin c s₀ requests q) x := by
  have hfirst : Fitting (FromOrigin c s₀ requests) s₀.share := by
    have hnone : s₀.share.uploads = [] := by rw [State.share, huploads, List.map_nil]
    refine ⟨Disk.all_ofFiles fun q f hf => (origin_first hf).each, fun u hu => ?_, fun w copy hcopy => ?_⟩
    · rw [hnone] at hu
      cases hu
    · rw [copyOf_idle rfl hnone] at hcopy
      cases hcopy
  have hfits : s.verifyKey = s₀.verifyKey ∧ Fitting (FromOrigin c s₀ requests) s := by
    refine run_inv (P := fun _ a => a ∈ as)
      (I := fun t => t.verifyKey = s₀.verifyKey ∧ Fitting (FromOrigin c s₀ requests) t)
      (fun t a t' ht ha hstep => ?_) ⟨rfl, hfirst⟩ (along_of_forall (fun _ _ ha => ha) _) h
    refine ⟨(verifyKey_shared hstep).trans ht.1, fitting_step mixed_fromOrigin ht.2 (fun r p hr hp => ?_) hstep⟩
    rw [ht.1] at hp
    exact Brought.allowed ⟨r, hrequests r (hr ▸ ha), hp⟩ fun _ _ => Origin.each
  obtain ⟨f, hf, rfl⟩ := Option.map_eq_some_iff.mp hx
  exact Disk.All.files hfits.2.disk hf

end

end KaonicComm.Ota
