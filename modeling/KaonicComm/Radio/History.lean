import KaonicComm.Radio.Image
import KaonicComm.Radio.Results

/-!
# What earlier configurations leave in the radio

A call of `configure` writes every register of its transceiver's radio but the two of the gain control, which are in the
register set of FSK only. Let the calls of the baseband, which belong to the driver, keep these two
(`Call.KeepsGain`). Then after any calls they are those of FSK, or as they were at first, as a call has configured FSK
on the transceiver or not (`gain_calls`).

So an OFDM configuration finds the gain control as an FSK configuration left it, and the radio that a configuration
leads to depends on the calls before exactly then (`forgets_calls_iff`).
-/

namespace KaonicComm.Radio

section

variable {trxByFreq : UInt32 → Trx} {config : RadioConfig}

/-! ## The calls -/

/-- Every step of the call succeeds, if it is one of `configure`. -/
def Call.Succeeds : Call → Prop
  | .configure config o => o.Succeeds config
  | .transmit _ _ | .receive _ _ _ => True

/-- The driver leaves the gain control of both transceivers as it finds it. -/
def Answer.KeepsGain (a : Answer) : Prop :=
  ∀ regs trx, ∀ w ∈ gainControl, a.regs regs (.radio trx w.1) = regs (.radio trx w.1)

/-- So it does in every call of the baseband that the call makes. -/
def Call.KeepsGain : Call → Prop
  | .configure _ _ => True
  | .transmit _ answers => ∀ k, (answers k).KeepsGain
  | .receive _ answer _ => answer.KeepsGain

/-- A call of `configure` that succeeds runs its program. -/
theorem device_configure {o : Outcome} (ho : o.Succeeds config) (r : RF215) :
    (r.configure trxByFreq config o).1.device =
      (exec trxByFreq config (program config) Locals.init r.device).2 := by
  rw [RF215.configure, attempt_eq_exec 0 Locals.init r.device fun j i hj hi => by
    rw [Nat.zero_add]
    exact ho.lands j i hj hi]

theorem regs_configure {o : Outcome} (ho : o.Succeeds config) (r : RF215) :
    (r.configure trxByFreq config o).1.device.regs =
      Registers.writeAll r.device.regs (regValues trxByFreq config) := by
  rw [device_configure ho, regs_exec]

/-! ## The gain control after some calls -/

variable (trxByFreq) in
/-- The call configures FSK on a transceiver. -/
def Call.SetsGain (trx : Trx) : Call → Prop
  | .configure config _ => IsFsk config.phyConfig ∧ trxByFreq config.freq = trx
  | .transmit _ _ | .receive _ _ _ => False

/-- The attempts of `transmit` keep the gain control. -/
theorem gain_txLoop {use : Use} {answers : Nat → Answer} (hkeeps : ∀ k, (answers k).KeepsGain)
    {w : RadioReg × UInt8} (hw : w ∈ gainControl) (trx : Trx) : ∀ (k n : Nat) (d : Device),
    (txLoop use answers k n d).1.regs (.radio trx w.1) = d.regs (.radio trx w.1)
  | _, 0, _ => rfl
  | k, n + 1, d => by
    have hanswer : (d.answered (answers k)).regs (.radio trx w.1) = d.regs (.radio trx w.1) := hkeeps k d.regs trx w hw
    unfold txLoop
    split
    · rw [← hanswer]
      exact gain_txLoop hkeeps hw trx (k + 1) n (d.answered (answers k))
    · exact hanswer

/-- A call leaves the gain control of FSK, or as it was. -/
theorem gain_call (r : RF215) {c : Call} (hc : c.Succeeds) (hkeeps : c.KeepsGain) {w : RadioReg × UInt8}
    (hw : w ∈ gainControl) (trx : Trx) :
    c.SetsGain trxByFreq trx ∧ (r.call trxByFreq c).1.device.regs (.radio trx w.1) = w.2 ∨
      ¬c.SetsGain trxByFreq trx ∧
        (r.call trxByFreq c).1.device.regs (.radio trx w.1) = r.device.regs (.radio trx w.1) := by
  cases c with
  | configure config o =>
    have hregs : (r.call trxByFreq (.configure config o)).1.device.regs =
        Registers.writeAll r.device.regs (regValues trxByFreq config) := regs_configure hc r
    rw [hregs, Registers.writeAll_apply, lastWrite_gain trxByFreq config hw trx, Call.SetsGain]
    cases hphy : config.phyConfig with
    | ofdm c => exact Or.inr ⟨And.left, rfl⟩
    | fsk c =>
      by_cases htrx : trxByFreq config.freq = trx
      · refine Or.inl ⟨⟨trivial, htrx⟩, ?_⟩
        simp only [htrx, if_true, Option.getD_some]
      · refine Or.inr ⟨fun h => htrx h.2, ?_⟩
        simp only [htrx, if_false, Option.getD_none]
  | transmit frame answers =>
    refine Or.inr ⟨id, ?_⟩
    simp only [RF215.call, RF215.transmit]
    split
    · rfl
    · exact gain_txLoop hkeeps hw trx 0 4 r.device
  | receive timeout answer data =>
    refine Or.inr ⟨id, ?_⟩
    simp only [RF215.call, RF215.receive]
    split
    · rfl
    · split <;> exact hkeeps r.device.regs trx w hw

/-- **After some calls the gain control is that of FSK, or as it was at first**, as one of them has configured FSK on
the transceiver or not. -/
theorem gain_calls {w : RadioReg × UInt8} (hw : w ∈ gainControl) (trx : Trx) {cs : List Call} :
    ∀ {r : RF215}, (∀ c ∈ cs, c.Succeeds) → (∀ c ∈ cs, c.KeepsGain) →
    (∃ c ∈ cs, c.SetsGain trxByFreq trx) ∧ (r.calls trxByFreq cs).device.regs (.radio trx w.1) = w.2 ∨
      (∀ c ∈ cs, ¬c.SetsGain trxByFreq trx) ∧
        (r.calls trxByFreq cs).device.regs (.radio trx w.1) = r.device.regs (.radio trx w.1) := by
  induction cs with
  | nil => exact fun _ _ => Or.inr ⟨fun _ h => absurd h List.not_mem_nil, rfl⟩
  | cons c cs ih =>
    intro r hs hkeeps
    obtain ⟨hc, hcs⟩ := List.forall_mem_cons.mp hs
    obtain ⟨hkeep, hkeeps⟩ := List.forall_mem_cons.mp hkeeps
    simp only [List.exists_mem_cons_iff, List.forall_mem_cons]
    rcases @ih (r.call trxByFreq c).1 hcs hkeeps with ⟨hset, hlast⟩ | ⟨hnone, hlast⟩
    · exact Or.inl ⟨Or.inr hset, hlast⟩
    · rcases @gain_call trxByFreq r c hc hkeep w hw trx with ⟨hset, hstep⟩ | ⟨hno, hstep⟩
      · exact Or.inl ⟨Or.inl hset, hlast.trans hstep⟩
      · exact Or.inr ⟨⟨hno, hnone⟩, hlast.trans hstep⟩

/-! ## What a configuration leads to -/

variable (trxByFreq) in
/-- After some calls, a call of `configure` leaves the registers of its transceiver's radio as it does without them. -/
def ForgetsCalls (r : RF215) (cs : List Call) (config : RadioConfig) (o : Outcome) : Prop :=
  ∀ reg, ((r.calls trxByFreq cs).configure trxByFreq config o).1.device.regs (.radio (trxByFreq config.freq) reg) =
    (r.configure trxByFreq config o).1.device.regs (.radio (trxByFreq config.freq) reg)

/-- **A configuration leads to the same radio whatever was called before exactly if it is one of FSK, if no call before
it configured FSK on its transceiver, or if the gain control was that of FSK at first.** -/
theorem forgets_calls_iff {r : RF215} {cs : List Call} {o : Outcome} (hcs : ∀ c ∈ cs, c.Succeeds)
    (hkeeps : ∀ c ∈ cs, c.KeepsGain) (ho : o.Succeeds config) :
    ForgetsCalls trxByFreq r cs config o ↔
      IsFsk config.phyConfig ∨ (∀ c ∈ cs, ¬c.SetsGain trxByFreq (trxByFreq config.freq)) ∨
        ∀ w ∈ gainControl, r.device.regs (.radio (trxByFreq config.freq) w.1) = w.2 := by
  simp only [ForgetsCalls, regs_configure ho, Registers.writeAll_eq_iff]
  constructor
  · intro h
    cases hphy : config.phyConfig with
    | fsk c => exact Or.inl trivial
    | ofdm c =>
      right
      by_cases hgain : ∃ c ∈ cs, c.SetsGain trxByFreq (trxByFreq config.freq)
      · right
        intro w hw
        have hreg := h w.1 (by rw [lastWrite_gain trxByFreq config hw, hphy])
        rcases gain_calls hw (trxByFreq config.freq) (r := r) hcs hkeeps with ⟨-, hlast⟩ | ⟨hno, -⟩
        · rw [hlast] at hreg
          exact hreg.symm
        · obtain ⟨c, hc, hset⟩ := hgain
          exact absurd hset (hno c hc)
      · left
        exact fun c hc hset => hgain ⟨c, hc, hset⟩
  · intro h reg hnone
    -- only the gain control is not written
    have hreg : reg ∈ gainControl.map Prod.fst := by
      by_contra hreg
      exact lastWrite_radio config hreg hnone
    obtain ⟨w, hw, rfl⟩ := List.mem_map.mp hreg
    rcases gain_calls hw (trxByFreq config.freq) (r := r) hcs hkeeps with ⟨⟨c, hc, hset⟩, hlast⟩ | ⟨-, hlast⟩
    · rw [hlast]
      rcases h with hfsk | hno | hfirst
      · rw [lastWrite_gain trxByFreq config hw] at hnone
        cases hphy : config.phyConfig with
        | ofdm c =>
          rw [hphy] at hfsk
          exact hfsk.elim
        | fsk c =>
          rw [hphy] at hnone
          simp at hnone
      · exact absurd hset (hno c hc)
      · exact (hfirst w hw).symm
    · exact hlast

end

/-- Every write lands. -/
def landed : Outcome where
  lands := fun _ => true
  writeRegSet := 0
  setFreq := 0

theorem succeeds_landed (config : RadioConfig) : landed.Succeeds config :=
  ⟨fun _ _ _ _ => rfl, Int.le_refl 0, Int.le_refl 0⟩

/-- The baseband has the frame, and commands the transceiver. -/
def commanded : Answer where
  rc := 0
  regs := fun regs => Function.update regs (.radio .rf09 .cmd) 0x03

/-- FSK around a frequency, a frame, and OFDM around 869 MHz. -/
def fskBefore (freq : UInt32) : List Call :=
  [.configure { freq, phyConfig := .fsk {} } landed, .transmit [1] fun _ => commanded, .configure {} landed]

theorem succeeds_fskBefore (freq : UInt32) : ∀ c ∈ fskBefore freq, c.Succeeds := by
  simp only [fskBefore, List.forall_mem_cons, Call.Succeeds, succeeds_landed, true_and]
  exact fun _ h => absurd h List.not_mem_nil

theorem keepsGain_fskBefore (freq : UInt32) : ∀ c ∈ fskBefore freq, c.KeepsGain := by
  have hcommanded : commanded.KeepsGain := by
    intro regs trx w hw
    -- the command register is not one of the gain control
    have hcmd : w.1 ≠ .cmd := by
      have hall : ∀ w ∈ gainControl, w.1 ≠ .cmd := by decide
      exact hall w hw
    exact Function.update_of_ne (fun h => hcmd (Reg.radio.inj h).2) _ _
  simp only [fskBefore, List.forall_mem_cons, Call.KeepsGain, hcommanded, implies_true, true_and]
  exact fun _ h => absurd h List.not_mem_nil

/-- FSK on the other transceiver is forgotten, on the same one it is not. -/
theorem forgets_calls_fskBefore :
    ForgetsCalls bandOf RF215.init (fskBefore 2400000) {} landed ∧
      ¬ForgetsCalls bandOf RF215.init (fskBefore 915000) {} landed := by
  constructor
  · apply (forgets_calls_iff (succeeds_fskBefore 2400000) (keepsGain_fskBefore 2400000) (succeeds_landed {})).mpr
    right
    left
    simp only [fskBefore, List.forall_mem_cons, Call.SetsGain, IsFsk, false_and, true_and, not_false_eq_true]
    exact ⟨by decide, fun _ h => absurd h List.not_mem_nil⟩
  · intro h
    have hwhen := (forgets_calls_iff (succeeds_fskBefore 915000) (keepsGain_fskBefore 915000) (succeeds_landed {})).mp h
    rcases hwhen with hfsk | hno | hfirst
    · exact hfsk
    · exact hno _ List.mem_cons_self ⟨trivial, rfl⟩
    · exact absurd (hfirst _ List.mem_cons_self) (by decide)

end KaonicComm.Radio
