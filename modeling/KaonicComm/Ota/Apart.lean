import KaonicComm.Lib.Runs
import KaonicComm.Ota.Copies
import Mathlib.Data.List.Infix

/-!
# A copy with its files to itself

While nothing else touches its source and its destination, the destination of a copy holds a beginning of the source, as
the device has it (`faithful_next`): opening the destination is a write of nothing, and each part goes on where the
destination ends. Such a copy can be completed, and changes nothing but its destination (`copy_ends`, `faithful_run`).
-/

namespace KaonicComm.Ota

open Runs Bytes

/-- How far a copy is, when its source and its destination are as it left them. -/
def Progress.Reached (d : Disk Path File) (dst : Path) (f : File) : Progress → Prop
  | .opened => True
  | .copying target offset buffer => target = d.place dst ∧ offset ≤ f.data.length ∧ buffer <+: f.data.drop offset ∧
      ∃ g, d.files dst = some g ∧ g.data = f.data.take offset
  | .copied => ∃ g, d.files dst = some g ∧ g.data = f.data

/-- A copy that has its two files to itself. -/
structure Copy.Faithful (d : Disk Path File) (copy : Copy) : Prop where
  source : copy.source = copy.src.opened d
  reached : ∃ f, copy.src.read d.files = some f ∧ copy.progress.Reached d copy.dst f

section

variable {d d' : Disk Path File} {copy copy' : Copy} {job : Job} {src : CopySource Path} {dst : Path} {f : File}

/-- What is open is what the path names. -/
theorem read_opened (d : Disk Path File) (src : CopySource Path) : (src.opened d).read d.file = src.read d.files := by
  cases src <;> rfl

theorem Copy.Faithful.data (h : copy.source = copy.src.opened d) (hf : copy.src.read d.files = some f) :
    copy.data d = f.data := by
  rw [Copy.data, h, read_opened, hf]
  rfl

/-- A copy is never made of its destination. -/
theorem read_update (hne : src ≠ .file dst) (fs : Files) (v : Option File) :
    src.read (Function.update fs dst v) = src.read fs := by
  cases src with
  | temporary data => rfl
  | file p => exact Function.update_of_ne (fun h => hne (congrArg _ h)) ..

/-- A write to the file that a path names changes no other one. -/
theorem files_writeAt {g : File} (hg : d.files dst = some g) (offset : Nat) (bytes : List UInt8) :
    (writeAt d (d.place dst) offset bytes).files =
      Function.update d.files dst (some { g with data := pwrite g.data offset bytes 0 }) := by
  have hfile : d.file (d.place dst) = some g := hg
  rw [writeAt, hfile]
  exact d.files_put_place dst _

theorem place_writeAt (target : Path × Nat) (offset : Nat) (bytes : List UInt8) (p : Path) :
    (writeAt d target offset bytes).place p = d.place p := by
  unfold writeAt
  split <;> rfl

theorem opened_writeAt (target : Path × Nat) (offset : Nat) (bytes : List UInt8) (src : CopySource Path) :
    src.opened (writeAt d target offset bytes) = src.opened d := by
  cases src with
  | temporary data => rfl
  | file p => exact congrArg CopySource.file (place_writeAt target offset bytes p)

/-- **A step of a copy that has its files to itself** leaves them alone or is a write of the device. -/
theorem faithful_next {a : CopyAct} (hc : copy.Faithful d) (hne : copy.src ≠ .file copy.dst)
    (h : copy.next d a = some (d', copy')) : copy'.Faithful d' ∧ (copy'.src = copy.src ∧ copy'.dst = copy.dst) ∧
      (d'.files = d.files ∨ ∃ f k, copy.src.read d.files = some f ∧ k ≤ f.data.length ∧
        d'.files = Files.copying d.files f copy.dst k) := by
  obtain ⟨hsource, f, hf, hreached⟩ := hc
  have hdata := Copy.Faithful.data hsource hf
  cases a with
  | openTarget =>
    simp only [Copy.next] at h
    split at h <;> cases h
    let g : File := { data := [], exec := (d.files copy.dst).elim false File.exec }
    have hfiles := d.files_put_place copy.dst g
    refine ⟨⟨hsource, f, ?_, rfl, Nat.zero_le _, List.nil_prefix, g, ?_, rfl⟩, ⟨rfl, rfl⟩,
      Or.inr ⟨f, 0, hf, Nat.zero_le _, hfiles⟩⟩
    · rw [hfiles, read_update hne, hf]
    · rw [hfiles, Function.update_self]
  | read n =>
    simp only [Copy.next] at h
    split at h
    · rename_i target offset hprogress
      cases h
      rw [hprogress] at hreached
      obtain ⟨htarget, hoffset, -, hdst⟩ := hreached
      refine ⟨⟨hsource, f, hf, htarget, hoffset, ?_, hdst⟩, ⟨rfl, rfl⟩, Or.inl rfl⟩
      rw [hdata]
      exact List.take_prefix _ _
    · cases h
  | write k =>
    simp only [Copy.next] at h
    split at h
    · rename_i target offset buffer hprogress
      split at h <;> cases h
      rename_i hk
      rw [hprogress] at hreached
      obtain ⟨rfl, hoffset, hbuffer, g, hg, hgdata⟩ := hreached
      have hlen : (buffer.take k).length = k := List.length_take_of_le hk.2
      have hle : offset + k ≤ f.data.length := by
        have hdrop := hbuffer.length_le
        rw [List.length_drop] at hdrop
        omega
      -- the chunk goes on where the destination ends
      have hbytes : pwrite g.data offset (buffer.take k) 0 = f.data.take (offset + k) := by
        rw [hgdata, pwrite_take hoffset ((List.take_prefix k buffer).trans hbuffer), hlen]
      have hfiles := files_writeAt hg offset (buffer.take k)
      rw [hbytes] at hfiles
      have hcopying : Files.copying d.files f copy.dst (offset + k) =
          Function.update d.files copy.dst (some { g with data := f.data.take (offset + k) }) := by
        rw [Files.copying, hg]
        rfl
      refine ⟨⟨?_, f, ?_, ?_, hle, ?_, { g with data := f.data.take (offset + k) }, ?_, rfl⟩, ⟨rfl, rfl⟩,
        Or.inr ⟨f, offset + k, hf, hle, hfiles.trans hcopying.symm⟩⟩
      · exact hsource.trans (opened_writeAt _ _ _ _).symm
      · rw [hfiles, read_update hne, hf]
      · exact (place_writeAt _ _ _ _).symm
      · rw [← List.drop_drop]
        exact hbuffer.drop k
      · rw [hfiles, Function.update_self]
    · cases h
  | endOfFile =>
    simp only [Copy.next] at h
    split at h
    · rename_i target offset hprogress
      split at h <;> cases h
      rename_i hend
      rw [hprogress] at hreached
      obtain ⟨-, -, -, g, hg, hgdata⟩ := hreached
      refine ⟨⟨hsource, f, hf, g, hg, ?_⟩, ⟨rfl, rfl⟩, Or.inl rfl⟩
      rw [hdata] at hend
      rw [hgdata, List.take_of_length_le hend]
    · cases h

/-! ## Whole copies -/

/-- One step of `copyfile`. -/
def copyStep (x : Disk Path File × Copy) (a : CopyAct) : Option (Disk Path File × Copy) := x.2.next x.1 a

/-- What a copy that has its files to itself does, however far it goes: only its destination changes. -/
theorem faithful_run {acts : List CopyAct} (hc : copy.Faithful d) (hne : copy.src ≠ .file copy.dst)
    (h : run copyStep (d, copy) acts = some (d', copy')) : copy'.Faithful d' ∧
      (copy'.src = copy.src ∧ copy'.dst = copy.dst) ∧ ∃ v, d'.files = Function.update d.files copy.dst v := by
  let I : Disk Path File × Copy → Prop := fun x => x.2.Faithful x.1 ∧
    (x.2.src = copy.src ∧ x.2.dst = copy.dst) ∧ ∃ v, x.1.files = Function.update d.files copy.dst v
  have hfirst : I (d, copy) := ⟨hc, ⟨rfl, rfl⟩, _, (Function.update_eq_self copy.dst d.files).symm⟩
  refine run_keeps (I := I) ?_ hfirst h
  rintro ⟨e, x⟩ a ⟨e', x'⟩ ⟨hx, ⟨hsrc, hdst⟩, v, hv⟩ hstep
  have hsrc : x.src = copy.src := hsrc
  have hdst : x.dst = copy.dst := hdst
  have hv : e.files = Function.update d.files copy.dst v := hv
  obtain ⟨hx', ⟨hsrc', hdst'⟩, hfiles⟩ := faithful_next hx (by rw [hsrc, hdst]; exact hne) hstep
  refine ⟨hx', ⟨hsrc'.trans hsrc, hdst'.trans hdst⟩, ?_⟩
  rcases hfiles with hfiles | ⟨f, k, -, -, hfiles⟩
  · exact ⟨v, hfiles.trans hv⟩
  · have hfiles : e'.files = Function.update e.files x.dst _ := hfiles
    rw [hv, hdst, Function.update_idem] at hfiles
    exact ⟨_, hfiles⟩

/-- From one read to the end of `copyfile`. -/
theorem copyfile_ends {target : Path × Nat} {offset : Nat} (hc : copy.Faithful d) (hne : copy.src ≠ .file copy.dst)
    (hprogress : copy.progress = .copying target offset []) :
    ∃ acts d' copy', run copyStep (d, copy) acts = some (d', copy') ∧ copy'.progress = .copied := by
  obtain ⟨f, hf, -⟩ := hc.reached
  have hdata := Copy.Faithful.data hc.source hf
  have hend : ∀ (d : Disk Path File) (copy : Copy) (offset : Nat), copy.progress = .copying target offset [] →
      (copy.data d).length ≤ offset →
      copyStep (d, copy) .endOfFile = some (d, { copy with progress := .copied }) := by
    intro d copy offset hprogress hle
    simp only [copyStep, Copy.next, hprogress, hle, if_true]
  by_cases hle : f.data.length ≤ offset
  · exact ⟨[.endOfFile], _, _, run_cons.mpr ⟨_, hend d copy offset hprogress (by rw [hdata]; exact hle), rfl⟩, rfl⟩
  · -- the rest in one read and one write
    let rest := f.data.drop offset
    have hlen : rest.length = f.data.length - offset := List.length_drop
    let copy₁ : Copy := { copy with progress := .copying target offset rest }
    let copy₂ : Copy := { copy with progress := .copying target (offset + rest.length) [] }
    let d₂ := writeAt d target offset rest
    have hread : copyStep (d, copy) (.read rest.length) = some (d, copy₁) := by
      simp only [copyStep, Copy.next, hprogress, hdata]
      rw [List.take_length]
    have hwrite : copyStep (d, copy₁) (.write rest.length) = some (d₂, copy₂) := by
      have hk : 0 < rest.length ∧ rest.length ≤ rest.length := ⟨by omega, Nat.le_refl _⟩
      simp only [copyStep, Copy.next, copy₁]
      rw [if_pos hk, List.take_length, List.drop_length]
    have hrun : run copyStep (d, copy) [.read rest.length, .write rest.length] = some (d₂, copy₂) :=
      run_cons.mpr ⟨_, hread, run_cons.mpr ⟨_, hwrite, rfl⟩⟩
    obtain ⟨hc₂, -, v, hv⟩ := faithful_run hc hne hrun
    have hf₂ : copy₂.src.read d₂.files = some f := by rw [hv, read_update hne, hf]
    have hdata₂ := Copy.Faithful.data hc₂.source hf₂
    refine ⟨[.read rest.length, .write rest.length] ++ [.endOfFile], d₂, { copy₂ with progress := .copied }, ?_, rfl⟩
    rw [run_append, hrun]
    exact run_cons.mpr ⟨_, hend d₂ copy₂ _ rfl (by rw [hdata₂]; omega), rfl⟩

/-- **A copy that has its files to itself can be completed.** -/
theorem copy_ends (hc : copy.Faithful d) (hne : copy.src ≠ .file copy.dst) (hprogress : copy.progress = .opened) :
    ∃ acts d' copy', run copyStep (d, copy) acts = some (d', copy') ∧ copy'.progress = .copied := by
  have hopen : ∃ d₁ copy₁, copyStep (d, copy) .openTarget = some (d₁, copy₁) ∧
      copy₁.progress = .copying (d.place copy.dst) 0 [] :=
    ⟨_, _, if_pos hprogress, rfl⟩
  obtain ⟨d₁, copy₁, hstep, hprogress₁⟩ := hopen
  obtain ⟨hc₁, ⟨hsrc, hdst⟩, -⟩ := faithful_next hc hne hstep
  obtain ⟨acts, d', copy', hrun, hcopied⟩ := copyfile_ends hc₁ (by rw [hsrc, hdst]; exact hne) hprogress₁
  exact ⟨.openTarget :: acts, d', copy', run_cons.mpr ⟨_, hstep, hrun⟩, hcopied⟩

end

end KaonicComm.Ota
