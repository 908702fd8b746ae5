import KaonicComm.Radio.Configure

/-!
# The register image of a configuration

A call of `configure` writes the values of its configuration one after the other, wherever the radio was before
(`regs_exec`). These are all registers that its transceiver works with (`Reg.InUse`) but two: `RG_AGCC` and `RG_AGCS`
are in the register set of FSK only (`lastWrite_gain`). So the call leaves the image that it would leave alone, if it
configures FSK or finds these two as they were at first (`image_of_gain`).
-/

namespace KaonicComm.Radio

/-! ## What a configuration writes -/

/-- The registers that only FSK writes, with their values. -/
def gainControl : List (RadioReg × UInt8) := [(.agcc, 0b1000000 ||| 0b1), (.agcs, 0b100000 ||| 0b10111)]

/-- FSK is the modulation. -/
def IsFsk : RadioPhyConfig → Prop
  | .ofdm _ => False
  | .fsk _ => True

instance : ∀ c, Decidable (IsFsk c)
  | .ofdm _ => isFalse id
  | .fsk _ => isTrue trivial

/-- The registers of the baseband that a modulation works with. -/
def BasebandReg.Serves (reg : BasebandReg) : RadioPhyConfig → Prop
  | .ofdm _ => reg ∈ [.irqm, .pc, .ofdmc, .ofdmphrtx, .ofdmsw]
  | .fsk _ => reg ∉ [.ofdmc, .ofdmphrtx, .ofdmsw]

section

variable {trxByFreq : UInt32 → Trx} {config : RadioConfig}

variable (trxByFreq config) in
/-- The registers that decide how the transceiver of a configuration works: the clock output, the interrupt masks, its
radio registers but `RG_CMD`, through which the driver commands it, and its baseband registers for the modulation. -/
def Reg.InUse : Reg → Prop
  | .rfClko => True
  | .radio trx reg => reg = .irqm ∨ trx = trxByFreq config.freq ∧ reg ≠ .cmd
  | .baseband trx reg => reg = .irqm ∨ trx = trxByFreq config.freq ∧ reg.Serves config.phyConfig

variable (trxByFreq config) in
/-- The radio is as the configuration alone makes it from these registers on: the filter, `_active_trx`, every register
in use and the argument of `rf215_set_freq`. -/
structure ConfiguredAlone (regs : Reg → UInt8) (d : Device) : Prop where
  filter : (d.v1, d.v2) = selectFilter config.freq
  active : d.activeTrx = some (trxByFreq config.freq)
  image : ∀ r : Reg, r.InUse trxByFreq config →
    d.regs r = Registers.writeAll regs (regValues trxByFreq config) r
  tuned : d.tuning (trxByFreq config.freq) = some (freqOf config)

/-- **The program writes the values of its configuration**, one after the other. -/
theorem regs_exec (l : Locals) (d : Device) :
    (exec trxByFreq config (program config) l d).2.regs =
      Registers.writeAll d.regs (regValues trxByFreq config) := by
  rw [device_exec]

/-! ## The gain control -/

/-- The other registers of the radio are written for every modulation. -/
theorem lastWrite_radio (config : RadioConfig) {reg : RadioReg} (hreg : reg ∉ gainControl.map Prod.fst) :
    Registers.lastWrite (.radio (trxByFreq config.freq) reg) (regValues trxByFreq config) ≠ none := by
  unfold regValues
  generalize trxByFreq config.freq = trx
  cases hphy : config.phyConfig with
  | ofdm c => cases trx <;> cases reg <;> first | exact absurd (by decide) hreg | exact Option.some_ne_none _
  | fsk c => cases trx <;> cases reg <;> first | exact absurd (by decide) hreg | exact Option.some_ne_none _

/-- So are the baseband registers that the modulation works with. -/
theorem lastWrite_baseband (config : RadioConfig) {reg : BasebandReg} (hreg : reg.Serves config.phyConfig) :
    Registers.lastWrite (.baseband (trxByFreq config.freq) reg) (regValues trxByFreq config) ≠ none := by
  unfold regValues
  generalize trxByFreq config.freq = trx
  cases hphy : config.phyConfig with
  | ofdm c =>
    have hreg : reg ∈ [.irqm, .pc, .ofdmc, .ofdmphrtx, .ofdmsw] := by rwa [hphy] at hreg
    cases trx <;> cases reg <;> first | exact Option.some_ne_none _ | exact absurd hreg (by decide)
  | fsk c =>
    have hreg : reg ∉ [.ofdmc, .ofdmphrtx, .ofdmsw] := by rwa [hphy] at hreg
    cases trx <;> cases reg <;> first | exact Option.some_ne_none _ | exact absurd (by decide) hreg

/-- The clock output is written, and so are the interrupt masks of both transceivers. -/
theorem lastWrite_common (config : RadioConfig) (trx : Trx) :
    ∀ r ∈ [Reg.rfClko, .radio trx .irqm, .baseband trx .irqm],
      Registers.lastWrite r (regValues trxByFreq config) ≠ none := by
  unfold regValues
  generalize trxByFreq config.freq = active
  simp only [List.forall_mem_cons]
  cases config.phyConfig <;> cases trx <;> cases active <;>
    exact ⟨Option.some_ne_none _, Option.some_ne_none _, Option.some_ne_none _, fun _ h => absurd h List.not_mem_nil⟩

variable (trxByFreq) in
/-- The gain control is written for FSK, on the transceiver of the configuration. -/
theorem lastWrite_gain (config : RadioConfig) {w : RadioReg × UInt8} (hw : w ∈ gainControl) (trx : Trx) :
    Registers.lastWrite (.radio trx w.1) (regValues trxByFreq config) =
      match config.phyConfig with
      | .ofdm _ => none
      | .fsk _ => if trxByFreq config.freq = trx then some w.2 else none := by
  unfold regValues
  generalize trxByFreq config.freq = active
  simp only [gainControl, List.mem_cons, List.not_mem_nil, or_false] at hw
  cases hphy : config.phyConfig with
  | ofdm c => rcases hw with rfl | rfl <;> cases trx <;> cases active <;> rfl
  | fsk c => rcases hw with rfl | rfl <;> cases trx <;> cases active <;> rfl

/-- A configuration leaves the gain control alone, unless it is one of FSK on that transceiver. -/
theorem lastWrite_gain_eq_none {w : RadioReg × UInt8} (hw : w ∈ gainControl) {trx : Trx}
    (h : IsFsk config.phyConfig → trxByFreq config.freq ≠ trx) :
    Registers.lastWrite (.radio trx w.1) (regValues trxByFreq config) = none := by
  rw [lastWrite_gain trxByFreq config hw]
  cases hphy : config.phyConfig with
  | ofdm c => rfl
  | fsk c => exact if_neg (h (by rw [hphy]; trivial))

/-- **Every register in use is written**, but for the gain control of OFDM. -/
theorem gain_of_not_written {r : Reg} (hr : r.InUse trxByFreq config)
    (hnone : Registers.lastWrite r (regValues trxByFreq config) = none) :
    ¬IsFsk config.phyConfig ∧ ∃ w ∈ gainControl, r = .radio (trxByFreq config.freq) w.1 := by
  cases r with
  | rfClko => exact absurd hnone (lastWrite_common config .rf09 _ List.mem_cons_self)
  | radio trx reg =>
    rcases hr with rfl | ⟨rfl, -⟩
    · exact absurd hnone (lastWrite_common config trx _ (by simp))
    · by_cases hreg : reg ∈ gainControl.map Prod.fst
      · obtain ⟨w, hw, rfl⟩ := List.mem_map.mp hreg
        refine ⟨fun hfsk => ?_, w, hw, rfl⟩
        rw [lastWrite_gain trxByFreq config hw] at hnone
        cases hphy : config.phyConfig with
        | ofdm c =>
          rw [hphy] at hfsk
          exact hfsk
        | fsk c =>
          rw [hphy] at hnone
          simp at hnone
      · exact absurd hnone (lastWrite_radio config hreg)
  | baseband trx reg =>
    rcases hr with rfl | ⟨rfl, hreg⟩
    · exact absurd hnone (lastWrite_common config trx _ (by simp))
    · exact absurd hnone (lastWrite_baseband config hreg)

/-- **A call leaves the image that it leaves alone**, if it is one of FSK or finds the gain control as it was at
first. -/
theorem image_of_gain {regs : Reg → UInt8} (l : Locals) (d : Device)
    (h : ¬IsFsk config.phyConfig → ∀ w ∈ gainControl,
      d.regs (.radio (trxByFreq config.freq) w.1) = regs (.radio (trxByFreq config.freq) w.1)) :
    ConfiguredAlone trxByFreq config regs (exec trxByFreq config (program config) l d).2 := by
  obtain ⟨hfilter, hactive, -, htuned⟩ := @configured_exec trxByFreq config l d
  refine ⟨hfilter, hactive, fun r hr => ?_, htuned⟩
  rw [regs_exec, Registers.writeAll_eq_iff]
  intro hnone
  obtain ⟨hofdm, w, hw, rfl⟩ := gain_of_not_written hr hnone
  exact h hofdm w hw

end

end KaonicComm.Radio
