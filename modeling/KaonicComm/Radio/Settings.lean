import KaonicComm.Radio.Filter
import KaonicComm.Radio.FrontEnd
import KaonicComm.Radio.History

/-!
# What the radio keeps of a configuration

Let `rf215_set_freq` tune to the carrier of its argument. Two configurations lead a radio to the same filter,
transceiver, registers and carriers exactly when their frequencies are on the same transceiver and in the same bands of
`select_filter`, and they agree in the carrier, in the power up to 12, and in what the modulation keeps of its
parameters (`same_device_iff`). OFDM keeps the option up to 3, with one class for all above, and the modulation scheme
up to 6. FSK keeps the masked fields of its registers, which leave out the two high bits of the preamble length, the
symbol rate, with one class for all above 5, and whether the modulation index is 0 before it is masked.
-/

namespace KaonicComm.Radio

/-- The parameters of OFDM as the radio keeps them. -/
def SameOfdm (a b : RadioPhyConfigOfdm) : Prop :=
  (a.opt = b.opt ∨ 3 < a.opt.toNat ∧ 3 < b.opt.toNat) ∧ min a.mcs 6 = min b.mcs 6

/-- The parameters of FSK as the radio keeps them. -/
structure SameFsk (a b : RadioPhyConfigFsk) : Prop where
  fields : ∀ r ∈ fskRegs, values a r = values b r
  srate : a.srate = b.srate ∨ 5 < a.srate.toNat ∧ 5 < b.srate.toNat
  narrow : a.midx = 0 ↔ b.midx = 0

/-- The modulation with its parameters as the radio keeps them. -/
def SamePhy : RadioPhyConfig → RadioPhyConfig → Prop
  | .ofdm a, .ofdm b => SameOfdm a b
  | .fsk a, .fsk b => SameFsk a b
  | _, _ => False

/-- Two configurations that differ in nothing that the radio keeps. -/
structure SameSettings (trxByFreq : UInt32 → Trx) (x y : RadioConfig) : Prop where
  trx : trxByFreq x.freq = trxByFreq y.freq
  upper : upperBand.Holds x.freq.toNat ↔ upperBand.Holds y.freq.toNat
  lower : lowerBand.Holds x.freq.toNat ↔ lowerBand.Holds y.freq.toNat
  carrier : (freqOf x).carrier = (freqOf y).carrier
  txPower : min x.txPower 12 = min y.txPower 12
  phy : SamePhy x.phyConfig y.phyConfig

/-! ## The front ends -/

theorem ofdmFrontEnd_of_gt {opt : UInt32} (h : 3 < opt.toNat) (trxType : Trx) :
    ofdmFrontEnd opt trxType = ({}, 0b10000) := by
  obtain ⟨k, hk⟩ := Nat.exists_eq_add_of_le' h
  unfold ofdmFrontEnd
  rw [hk]
  rfl

theorem fskFrontEnd_of_gt {srate : UInt8} (h : 5 < srate.toNat) (midx : UInt8) (trxType : Trx) :
    fskFrontEnd srate midx trxType = fskFrontEnd 6 midx trxType := by
  obtain ⟨k, hk⟩ := Nat.exists_eq_add_of_le' h
  unfold fskFrontEnd
  rw [hk]
  rfl

/-- A clamped value is below 256. -/
theorem toUInt8_min_inj {a b n : UInt32} (hn : n.toNat < 2 ^ 8) :
    (min a n).toUInt8 = (min b n).toUInt8 ↔ min a n = min b n := by
  have hmin : ∀ c : UInt32, (min c n).toNat < 2 ^ 8 := by
    intro c
    refine Nat.lt_of_le_of_lt ?_ hn
    show (if c ≤ n then c else n).toNat ≤ n.toNat
    split
    · exact UInt32.le_iff_toNat_le.mp ‹_›
    · exact Nat.le_refl _
  rw [← UInt8.toNat_inj, UInt32.toNat_toUInt8, UInt32.toNat_toUInt8, Nat.mod_eq_of_lt (hmin a),
    Nat.mod_eq_of_lt (hmin b), UInt32.toNat_inj]

theorem min_of_gt {a n : UInt32} (h : n.toNat < a.toNat) : min a n = n :=
  if_neg fun hle => Nat.not_le_of_lt h (UInt32.le_iff_toNat_le.mp hle)

/-! ## What is written for the modulation -/

/-- **OFDM writes the same exactly for the same options and schemes**, as the radio keeps them. -/
theorem ofdmValues_eq_iff (a b : RadioPhyConfigOfdm) (trxType active : Trx) :
    ofdmValues a trxType active = ofdmValues b trxType active ↔ SameOfdm a b := by
  simp only [ofdmValues, List.cons.injEq, Prod.mk.injEq, true_and, and_true]
  constructor
  · rintro ⟨-, hrxdfe, -, htxdfe, hopt, hmcs, -⟩
    refine ⟨?_, (toUInt8_min_inj (by decide)).mp hmcs⟩
    -- the sample rates tell the options that the switch knows
    have hrates : a.opt.toNat ≤ 3 ↔ b.opt.toNat ≤ 3 := by
      rw [ofdmFrontEnd_eq, ofdmFrontEnd_eq] at hrxdfe htxdfe
      rw [← rates_ofdm a.opt trxType, ← rates_ofdm b.opt trxType, hrxdfe, htxdfe]
    by_cases ha : a.opt.toNat ≤ 3
    · exact Or.inl (opt_eq_of_ofdmc ha (hrates.mp ha) hopt)
    · exact Or.inr ⟨Nat.lt_of_not_le ha, Nat.lt_of_not_le fun hb => ha (hrates.mpr hb)⟩
  · rintro ⟨hopt, hmcs⟩
    have hsame : ofdmFrontEnd a.opt trxType = ofdmFrontEnd b.opt trxType ∧ min a.opt 3 = min b.opt 3 := by
      rcases hopt with hopt | ⟨ha, hb⟩
      · rw [hopt]
        exact ⟨rfl, rfl⟩
      · rw [ofdmFrontEnd_of_gt ha, ofdmFrontEnd_of_gt hb, min_of_gt (n := 3) ha, min_of_gt (n := 3) hb]
        exact ⟨rfl, rfl⟩
    rw [hsame.1, hsame.2, hmcs]
    simp only [and_self]

/-- The front end of an FSK request that the registers give the same fields. -/
theorem fskFrontEnd_eq_iff {a b : RadioPhyConfigFsk} (hsrate : a.srate.toNat % 2 ^ 4 = b.srate.toNat % 2 ^ 4)
    (trxType : Trx) :
    fskFrontEnd a.srate a.midx trxType = fskFrontEnd b.srate b.midx trxType ↔
      (a.srate = b.srate ∨ 5 < a.srate.toNat ∧ 5 < b.srate.toNat) ∧ (a.midx = 0 ↔ b.midx = 0) := by
  constructor
  · intro h
    have hrates : a.srate.toNat ≤ 5 ↔ b.srate.toNat ≤ 5 := by
      rw [fskFrontEnd_eq, fskFrontEnd_eq] at h
      rw [← rates_fsk a.srate a.midx trxType, ← rates_fsk b.srate b.midx trxType, h]
    have hnarrow : (if a.midx = 0 then 0 else shl 4 5) = if b.midx = 0 then 0 else shl 4 5 := by
      rw [← fskFrontEnd_txdfe a.srate a.midx trxType, ← fskFrontEnd_txdfe b.srate b.midx trxType, h]
    constructor
    · by_cases ha : a.srate.toNat ≤ 5
      · have hb := hrates.mp ha
        exact Or.inl (UInt8.toNat_inj.mp (by omega))
      · exact Or.inr ⟨Nat.lt_of_not_le ha, Nat.lt_of_not_le fun hb => ha (hrates.mpr hb)⟩
    · by_cases ha : a.midx = 0 <;> by_cases hb : b.midx = 0 <;> simp only [ha, hb, if_true, if_false] at hnarrow ⊢
      · exact absurd hnarrow (by decide)
      · exact absurd hnarrow (by decide)
  · rintro ⟨hsrate | ⟨ha, hb⟩, hnarrow⟩
    · rw [hsrate, fskFrontEnd_congr b.srate hnarrow]
    · rw [fskFrontEnd_of_gt ha, fskFrontEnd_of_gt hb, fskFrontEnd_congr 6 hnarrow]

/-- **FSK writes the same exactly for the same parameters**, as the radio keeps them. -/
theorem fskValues_eq_iff (a b : RadioPhyConfigFsk) (trxType active : Trx) :
    fskValues a trxType active = fskValues b trxType active ↔
      fskFrontEnd a.srate a.midx trxType = fskFrontEnd b.srate b.midx trxType ∧
        ∀ r ∈ fskRegs, written a r = written b r := by
  simp only [fskValues, fskRegs, List.forall_mem_cons, List.cons.injEq, Prod.mk.injEq, true_and, and_true]
  generalize hf : fskFrontEnd a.srate a.midx trxType = f
  generalize hg : fskFrontEnd b.srate b.midx trxType = g
  constructor
  · rintro ⟨hrxbwc, hrxdfe, htxcutc, htxdfe, c0, c1, c2, c3, c4, pll, s0l, s0h, s1l, s1h, phrtx, dm, pe0, pe1, pe2⟩
    obtain ⟨_, _, _, _⟩ := f
    obtain ⟨_, _, _, _⟩ := g
    rw [FrontEnd.mk.injEq]
    exact ⟨⟨htxdfe, htxcutc, hrxdfe, hrxbwc⟩, congrArg some c0, congrArg some c1, congrArg some c2, congrArg some c3,
      congrArg some c4, congrArg some pll, congrArg some s0l, congrArg some s0h, congrArg some s1l, congrArg some s1h,
      congrArg some phrtx, congrArg some dm, congrArg some pe0, congrArg some pe1, congrArg some pe2,
      fun _ h => absurd h List.not_mem_nil⟩
  · rintro ⟨rfl, c0, c1, c2, c3, c4, pll, s0l, s0h, s1l, s1h, phrtx, dm, pe0, pe1, pe2, -⟩
    exact ⟨rfl, rfl, rfl, rfl, Option.some.inj c0, Option.some.inj c1, Option.some.inj c2, Option.some.inj c3,
      Option.some.inj c4, Option.some.inj pll, Option.some.inj s0l, Option.some.inj s0h, Option.some.inj s1l,
      Option.some.inj s1h, Option.some.inj phrtx, Option.some.inj dm, Option.some.inj pe0, Option.some.inj pe1,
      Option.some.inj pe2⟩

/-- **The modulation writes the same exactly for the same parameters**, as the radio keeps them. -/
theorem modValues_eq_iff (c d : RadioPhyConfig) (trxType active : Trx) :
    modValues c trxType active = modValues d trxType active ↔ SamePhy c d := by
  have hlength : modValues c trxType active = modValues d trxType active → modCount c = modCount d := by
    intro h
    rw [← length_modValues c trxType active, h, length_modValues]
  cases c with
  | ofdm a =>
    cases d with
    | ofdm b => exact ofdmValues_eq_iff a b trxType active
    | fsk b => exact iff_of_false (fun h => absurd (hlength h) (by simp [modCount])) id
  | fsk a =>
    cases d with
    | ofdm b => exact iff_of_false (fun h => absurd (hlength h) (by simp [modCount])) id
    | fsk b =>
      refine (fskValues_eq_iff a b trxType active).trans ?_
      constructor
      · rintro ⟨hfront, hwritten⟩
        have hfields : ∀ r ∈ fskRegs, values a r = values b r := fun r hr => (written_eq_iff a b hr).mp (hwritten r hr)
        have hsrate : a.srate.toNat % 2 ^ 4 = b.srate.toNat % 2 ^ 4 := by
          have h := hfields .fskc1 (by decide)
          exact (List.cons.inj (List.cons.inj h).2).1
        obtain ⟨hclass, hnarrow⟩ := (fskFrontEnd_eq_iff hsrate trxType).mp hfront
        exact ⟨hfields, hclass, hnarrow⟩
      · rintro ⟨hfields, hclass, hnarrow⟩
        have hsrate : a.srate.toNat % 2 ^ 4 = b.srate.toNat % 2 ^ 4 := by
          have h := hfields .fskc1 (by decide)
          exact (List.cons.inj (List.cons.inj h).2).1
        exact ⟨(fskFrontEnd_eq_iff hsrate trxType).mpr ⟨hclass, hnarrow⟩,
          fun r hr => (written_eq_iff a b hr).mpr (hfields r hr)⟩

/-! ## What is written -/

section

variable {trxByFreq : UInt32 → Trx} {x y : RadioConfig}

theorem lastWrite_pac (x : RadioConfig) :
    Registers.lastWrite (.radio (trxByFreq x.freq) .pac) (regValues trxByFreq x) =
      some (0b01100000 ||| (min x.txPower 12).toUInt8) := by
  unfold regValues
  generalize trxByFreq x.freq = trx
  cases x.phyConfig <;> cases trx <;> rfl

/-- The register that selects the modulation. -/
theorem lastWrite_pc (x : RadioConfig) :
    Registers.lastWrite (.baseband (trxByFreq x.freq) .pc) (regValues trxByFreq x) =
      some (match x.phyConfig with | .ofdm _ => 0b1110 | .fsk _ => 0b1101) := by
  unfold regValues
  generalize trxByFreq x.freq = trx
  cases x.phyConfig <;> cases trx <;> rfl

/-- The power is read back. -/
theorem power_read {p : UInt8} (h : p.toNat < 13) : (0b01100000 ||| p) &&& 0b11111 = p := by
  have hall : ∀ n < 13, (0b01100000 ||| UInt8.ofNat n) &&& 0b11111 = UInt8.ofNat n := by decide
  have hp := hall p.toNat h
  rwa [UInt8.ofNat_toNat] at hp

theorem txPower_eq_of_pac {a b : UInt32}
    (h : (0b01100000 ||| (min a 12).toUInt8 : UInt8) = 0b01100000 ||| (min b 12).toUInt8) : min a 12 = min b 12 := by
  have hlt : ∀ c : UInt32, (min c 12).toUInt8.toNat < 13 := by
    intro c
    rw [UInt32.toNat_toUInt8]
    refine Nat.lt_of_le_of_lt (Nat.mod_le _ _) (Nat.lt_succ_of_le ?_)
    show (if c ≤ 12 then c else 12).toNat ≤ 12
    split
    · exact UInt32.le_iff_toNat_le.mp ‹_›
    · exact Nat.le_refl _
  rw [← toUInt8_min_inj (n := 12) (by decide), ← power_read (hlt a), ← power_read (hlt b), h]

/-- The modulation decides which registers its set writes. -/
theorem map_fst_modValues {c d : RadioPhyConfig} (h : modCount c = modCount d) (trxType active : Trx) :
    (modValues c trxType active).map Prod.fst = (modValues d trxType active).map Prod.fst := by
  cases c <;> cases d
  · rfl
  · simp [modCount] at h
  · simp [modCount] at h
  · rfl

/-- The set writes every register once. -/
theorem nodup_modValues (c : RadioPhyConfig) (trx : Trx) : ((modValues c trx trx).map Prod.fst).Nodup := by
  cases c with
  | ofdm c =>
    rw [@map_fst_modValues (.ofdm c) (.ofdm {}) rfl]
    cases trx <;> decide
  | fsk c =>
    rw [@map_fst_modValues (.fsk c) (.fsk {}) rfl]
    cases trx <;> decide

theorem map_fst_regValues (htrx : trxByFreq x.freq = trxByFreq y.freq)
    (hcount : modCount x.phyConfig = modCount y.phyConfig) :
    (regValues trxByFreq x).map Prod.fst = (regValues trxByFreq y).map Prod.fst := by
  simp only [regValues, List.map_append, htrx, map_fst_modValues hcount]
  rfl

/-- The set can be read from the registers. -/
theorem modValues_eq_of_lastWrite (htrx : trxByFreq x.freq = trxByFreq y.freq)
    (hcount : modCount x.phyConfig = modCount y.phyConfig)
    (h : ∀ r, Registers.lastWrite r (regValues trxByFreq x) = Registers.lastWrite r (regValues trxByFreq y)) :
    modValues x.phyConfig (trxByFreq y.freq) (trxByFreq y.freq) =
      modValues y.phyConfig (trxByFreq y.freq) (trxByFreq y.freq) := by
  have hregs := map_fst_modValues hcount (trxByFreq y.freq) (trxByFreq y.freq)
  refine Registers.eq_of_lastWrite hregs (nodup_modValues _ _) fun r => ?_
  have hr := h r
  simp only [regValues, Registers.lastWrite_append, htrx] at hr
  have hnone : Registers.lastWrite r (modValues x.phyConfig (trxByFreq y.freq) (trxByFreq y.freq)) = none ↔
      Registers.lastWrite r (modValues y.phyConfig (trxByFreq y.freq) (trxByFreq y.freq)) = none := by
    rw [Registers.lastWrite_eq_none_iff, Registers.lastWrite_eq_none_iff, hregs]
  cases hx : Registers.lastWrite r (modValues x.phyConfig (trxByFreq y.freq) (trxByFreq y.freq)) with
  | none => exact (hnone.mp hx).symm
  | some v =>
    cases hy : Registers.lastWrite r (modValues y.phyConfig (trxByFreq y.freq) (trxByFreq y.freq)) with
    | none =>
      rw [hnone.mpr hy] at hx
      cases hx
    | some u =>
      rw [hx, hy, Option.some_or, Option.some_or] at hr
      exact hr

/-- **The registers are the same exactly for the same power and modulation**, as the radio keeps them. -/
theorem writeAll_regValues_eq_iff (htrx : trxByFreq x.freq = trxByFreq y.freq) (regs : Reg → UInt8) :
    Registers.writeAll regs (regValues trxByFreq x) = Registers.writeAll regs (regValues trxByFreq y) ↔
      min x.txPower 12 = min y.txPower 12 ∧ SamePhy x.phyConfig y.phyConfig := by
  constructor
  · intro h
    have hcount : modCount x.phyConfig = modCount y.phyConfig := by
      have hpc := congrFun h (.baseband (trxByFreq x.freq) .pc)
      rw [Registers.writeAll_apply, Registers.writeAll_apply, lastWrite_pc x, htrx, lastWrite_pc y, Option.getD_some,
        Option.getD_some] at hpc
      cases hx : x.phyConfig <;> cases hy : y.phyConfig <;> rw [hx, hy] at hpc
      · rfl
      · exact absurd hpc (by simp)
      · exact absurd hpc (by simp)
      · rfl
    have hlast := Registers.lastWrite_eq_of_writeAll (map_fst_regValues htrx hcount) h
    constructor
    · have hpac := hlast (.radio (trxByFreq x.freq) .pac)
      rw [lastWrite_pac x, htrx, lastWrite_pac y] at hpac
      exact txPower_eq_of_pac (Option.some.inj hpac)
    · exact (modValues_eq_iff _ _ _ _).mp (modValues_eq_of_lastWrite htrx hcount hlast)
  · rintro ⟨hpower, hphy⟩
    have hmod := (modValues_eq_iff _ _ (trxByFreq y.freq) (trxByFreq y.freq)).mpr hphy
    have hvalues : regValues trxByFreq x = regValues trxByFreq y := by
      simp only [regValues, commonValues, htrx, hpower, hmod]
    rw [hvalues]

/-! ## The radio after the calls -/

/-- What a radio works with: the filter, `_active_trx`, the registers, and the carrier of each transceiver; `tune` is
what `rf215_set_freq` tunes to. -/
structure Working where
  filter : Bool × Bool
  activeTrx : Option Trx
  regs : Reg → UInt8
  carriers : Trx → Option Nat

variable (tune : Freq → Nat) in
/-- What this radio works with. -/
def Device.working (d : Device) : Working where
  filter := (d.v1, d.v2)
  activeTrx := d.activeTrx
  regs := d.regs
  carriers := fun trx => (d.tuning trx).map tune

/-- After `configure`, this is what the configuration says, and the old carrier of the other transceiver. -/
theorem working_configure (tune : Freq → Nat) {o : Outcome} (ho : o.Succeeds x) (r : RF215) :
    (r.configure trxByFreq x o).1.device.working tune =
      { filter := filterOf x.freq.toNat
        activeTrx := some (trxByFreq x.freq)
        regs := Registers.writeAll r.device.regs (regValues trxByFreq x)
        carriers := Function.update (r.device.working tune).carriers (trxByFreq x.freq) (some (tune (freqOf x))) } := by
  rw [device_configure ho, device_exec, ← selectFilter_eq]
  simp only [Device.working, Working.mk.injEq, true_and]
  funext trx
  by_cases htrx : trx = trxByFreq x.freq
  · rw [htrx, Function.update_self, Function.update_self, Option.map_some]
  · rw [Function.update_of_ne htrx, Function.update_of_ne htrx]

/-- **Two configurations lead to the same radio exactly when they differ in nothing that the radio keeps**, wherever the
radio was before. -/
theorem same_device_iff {tune : Freq → Nat}
    (htune : ∀ f, tune f = f.frequency.toNat + f.channel.toNat * f.channelSpacing.toNat) {o o' : Outcome}
    (ho : o.Succeeds x) (ho' : o'.Succeeds y) (r : RF215) :
    (r.configure trxByFreq x o).1.device.working tune = (r.configure trxByFreq y o').1.device.working tune ↔
      SameSettings trxByFreq x y := by
  have hcarrier : ∀ f, tune f = f.carrier := htune
  rw [working_configure tune ho, working_configure tune ho', Working.mk.injEq, filterOf_eq_iff, hcarrier, hcarrier]
  constructor
  · rintro ⟨⟨hupper, hlower⟩, hactive, hregs, hcarriers⟩
    have htrx : trxByFreq x.freq = trxByFreq y.freq := Option.some.inj hactive
    have hsame := congrFun hcarriers (trxByFreq y.freq)
    rw [htrx, Function.update_self, Function.update_self] at hsame
    obtain ⟨hpower, hphy⟩ := (writeAll_regValues_eq_iff htrx r.device.regs).mp hregs
    exact ⟨htrx, hupper, hlower, Option.some.inj hsame, hpower, hphy⟩
  · rintro ⟨htrx, hupper, hlower, hsame, hpower, hphy⟩
    refine ⟨⟨hupper, hlower⟩, congrArg some htrx, ?_, by rw [htrx, hsame]⟩
    exact (writeAll_regValues_eq_iff htrx r.device.regs).mpr ⟨hpower, hphy⟩

end

/-- A preamble of some symbols, with a symbol rate and a modulation index, on channel 0. -/
def fskWith (preambleLength : UInt16) (srate midx : UInt8) (txPower channelSpacing : UInt32) : RadioConfig where
  channel := 0
  channelSpacing := channelSpacing
  txPower := txPower
  phyConfig := .fsk { preambleLength, srate, midx }

/-- A preamble of 256 symbols is one of none, symbol rate 23 is 7, a power of 40 is 12, and the spacing does not matter
for channel 0; an index of 8 is not one of 0. -/
theorem same_device_preamble :
    (RF215.init.configure bandOf (fskWith 256 23 3 40 200) landed).1.device.working Freq.carrier =
        (RF215.init.configure bandOf (fskWith 0 7 3 12 400) landed).1.device.working Freq.carrier ∧
      (RF215.init.configure bandOf (fskWith 0 1 8 12 200) landed).1.device.working Freq.carrier ≠
        (RF215.init.configure bandOf (fskWith 0 1 0 12 200) landed).1.device.working Freq.carrier := by
  have htune : ∀ f : Freq, f.carrier = f.frequency.toNat + f.channel.toNat * f.channelSpacing.toNat := fun _ => rfl
  constructor
  · apply (same_device_iff htune (succeeds_landed _) (succeeds_landed _) RF215.init).mpr
    exact ⟨rfl, Iff.rfl, Iff.rfl, by decide, by decide, by decide, Or.inr (by decide), by decide⟩
  · intro h
    have hsame := ((same_device_iff htune (succeeds_landed _) (succeeds_landed _) RF215.init).mp h).phy
    exact absurd hsame.narrow (by decide)

end KaonicComm.Radio
