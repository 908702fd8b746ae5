import KaonicComm.Radio.Packing

/-!
# The front end against the modem mode

The registers of the analogue front end are assembled from parts: sample rate and cut-off, ramp and cut-off, bandwidth
and IFS (`Parts`, `frontEnd_eq`). The baseband gets the option or the symbol rate from the same request by a clamp or a
mask.

The sample rates are set exactly for the options and symbol rates that the two switches know (`ratesSet_iff`); the parts
have no bit in common except in five FSK modes whose IFS bit lies in the bandwidth (`partsDisjoint_iff`). Together with
the modulation indices that the mask confuses with index 0, these are the requests whose front end does not match
(`front_end_matches_iff`).
-/

namespace KaonicComm.Radio

/-! ## The parts of the front end -/

/-- What is OR-ed into the registers of the front end. -/
structure Parts where
  txSr : UInt8 := 0
  txRcut : UInt8 := 0
  rxSr : UInt8 := 0
  rxRcut : UInt8 := 0
  paramp : UInt8 := 0
  lpfcut : UInt8 := 0
  bw : UInt8 := 0
  ifs : UInt8 := 0
  deriving DecidableEq, Repr

/-- The registers of some parts. -/
def Parts.frontEnd (p : Parts) : FrontEnd where
  txdfe := p.txSr ||| p.txRcut
  txcutc := p.paramp ||| p.lpfcut
  rxdfe := p.rxSr ||| p.rxRcut
  rxbwc := p.bw ||| p.ifs

/-- Two values for different fields of a register, the low four bits and those above, have no bit in common, and neither
changes the field of the other. -/
def LowHigh (low high : UInt8) : Prop :=
  low &&& high = 0 ∧ (low ||| high) &&& 0b1111 = low ∧ (low ||| high) &&& 0b11110000 = high

instance (low high : UInt8) : Decidable (LowHigh low high) := inferInstanceAs (Decidable (_ ∧ _ ∧ _))

/-- No part changes another one of its register: the rate, the cut-off of the transmitter and the bandwidth are in the
low four bits, what is OR-ed to them is above. -/
def Parts.Disjoint (p : Parts) : Prop :=
  LowHigh p.txSr p.txRcut ∧ LowHigh p.rxSr p.rxRcut ∧ LowHigh p.lpfcut p.paramp ∧ LowHigh p.bw p.ifs

instance (p : Parts) : Decidable p.Disjoint := inferInstanceAs (Decidable (_ ∧ _))

/-- The parts of an OFDM option. -/
def ofdmParts (opt : UInt32) (trxType : Trx) : Parts :=
  match opt.toNat with
  | 0 =>
    { txSr := 0x03, rxSr := 0x03, txRcut := shl 0x04 5, lpfcut := 0x0A, rxRcut := shl 0x04 5
      bw := match trxType with | .rf09 => 0x09 | .rf24 => 0x0A
      ifs := 0b10000 }
  | 1 =>
    { txSr := 0x03, rxSr := 0x03, txRcut := shl 0x03 5, lpfcut := 0x08, rxRcut := shl 0x02 5, bw := 0x07
      ifs := 0b10000 }
  | 2 =>
    { txSr := 0x06, rxSr := 0x06, txRcut := shl 0x03 5, lpfcut := 0x05
      rxRcut := match trxType with | .rf09 => shl 0x02 5 | .rf24 => shl 0x03 5
      bw := match trxType with | .rf09 => 0x04 | .rf24 => 0x05
      ifs := match trxType with | .rf09 => 0 | .rf24 => 0b10000 }
  | 3 =>
    { txSr := 0x06, rxSr := 0x06, txRcut := shl 0x02 5, lpfcut := 0x03, rxRcut := shl 0x01 5
      bw := match trxType with | .rf09 => 0x02 | .rf24 => 0x03
      ifs := match trxType with | .rf09 => 0b10000 | .rf24 => 0 }
  | _ => {}

/-- The parts of OFDMSW. -/
def ofdmswParts (opt : UInt32) : UInt8 × UInt8 :=
  (0b10000, match opt.toNat with | 0 => shl 5 5 | 1 => shl 5 5 | 2 => shl 4 5 | 3 => shl 3 5 | _ => 0)

/-- The parts of an FSK symbol rate, with modulation index 0 (`narrow`) or another. -/
def fskParts (srate midx : UInt8) (trxType : Trx) : Parts :=
  let narrow := midx = 0
  let p : Parts :=
    match srate.toNat with
    | 0 =>
      { txSr := 8, rxSr := 10, paramp := shl 3 6
        bw := match trxType with | .rf09 => 0 | .rf24 => if narrow then 0 else 1
        ifs := match trxType with | .rf09 => 0 | .rf24 => if narrow then 0 else 1
        rxRcut := match trxType with | .rf09 => 0 | .rf24 => if narrow then 0 else shl 1 5 }
    | 1 =>
      { txSr := 4, rxSr := 5, paramp := shl 2 6, lpfcut := if narrow then 1 else 3
        bw := match trxType with | .rf09 => if narrow then 1 else 3 | .rf24 => if narrow then 1 else 4
        rxRcut := match trxType with | .rf09 => 0 | .rf24 => if narrow then 0 else shl 1 5 }
    | 2 =>
      { txSr := 2, rxSr := 4, paramp := shl 2 6, lpfcut := if narrow then 3 else 5
        bw := match trxType with | .rf09 => if narrow then 3 else 4 | .rf24 => if narrow then 3 else 6
        rxRcut := match trxType with | .rf09 => 0 | .rf24 => if narrow then 0 else shl 2 5 }
    | 3 =>
      { txSr := 2, rxSr := 4, paramp := shl 2 6, lpfcut := if narrow then 4 else 6
        bw := match trxType with | .rf09 => if narrow then 3 else 5 | .rf24 => if narrow then 4 else 6
        ifs := match trxType with | .rf09 => if narrow then 0 else 0b1000 | .rf24 => 0
        rxRcut := match trxType with | .rf09 => shl 1 5 | .rf24 => if narrow then shl 1 5 else shl 3 5 }
    | 4 =>
      { txSr := 1, rxSr := 2, paramp := shl 1 6, lpfcut := if narrow then 6 else 8
        bw := match trxType with | .rf09 => if narrow then 5 else 6 | .rf24 => if narrow then 6 else 7
        ifs := match trxType with | .rf09 => if narrow then 1 else 0 | .rf24 => 0
        rxRcut := match trxType with | .rf09 => 0 | .rf24 => if narrow then 0 else shl 1 5 }
    | 5 =>
      { txSr := 1, rxSr := 2, paramp := shl 1 6, lpfcut := if narrow then 7 else 9
        bw := match trxType with | .rf09 => if narrow then 6 else 8 | .rf24 => if narrow then 7 else 8
        ifs := if narrow then 0 else 0b1000
        rxRcut := match trxType with
          | .rf09 => if narrow then 0 else shl 1 5
          | .rf24 => if narrow then shl 1 5 else shl 2 5 }
    | _ => {}
  { p with txRcut := if narrow then 0 else shl 4 5 }

/-- What holds for the parts of the six symbol rates, with modulation index 0 and 1, and for the cut-off alone, holds
for the parts of every FSK request. -/
theorem fskParts_cases {P : Nat → Bool → Parts → Prop} (trxType : Trx)
    (hrate : ∀ n < 6, ∀ m ∈ [(0 : UInt8), 1], P n (decide (m = 0)) (fskParts (UInt8.ofNat n) m trxType))
    (hnone : ∀ n, 6 ≤ n → ∀ narrow : Bool, P n narrow { txRcut := if narrow then 0 else shl 4 5 })
    (srate midx : UInt8) : P srate.toNat (decide (midx = 0)) (fskParts srate midx trxType) := by
  by_cases hn : srate.toNat < 6
  · have hsrate : UInt8.ofNat srate.toNat = srate := UInt8.ofNat_toNat
    by_cases hm : midx = 0
    · subst hm
      have h := hrate srate.toNat hn 0 List.mem_cons_self
      rwa [hsrate] at h
    · have h := hrate srate.toNat hn 1 (List.mem_cons_of_mem _ List.mem_cons_self)
      have hindex : decide ((1 : UInt8) = 0) = decide (midx = 0) := (decide_eq_false hm).symm
      have hparts : fskParts srate 1 trxType = fskParts srate midx trxType := by
        simp only [fskParts, hm, if_false]
        rfl
      rwa [hsrate, hindex, hparts] at h
  · have hparts : fskParts srate midx trxType = { txRcut := if decide (midx = 0) then 0 else shl 4 5 } := by
      obtain ⟨k, hk⟩ := Nat.exists_eq_add_of_le' (Nat.le_of_not_lt hn)
      simp only [fskParts, hk, decide_eq_true_eq]
    rw [hparts]
    exact hnone srate.toNat (Nat.le_of_not_lt hn) (decide (midx = 0))

theorem ofdmFrontEnd_eq (opt : UInt32) (trxType : Trx) :
    ofdmFrontEnd opt trxType =
      ((ofdmParts opt trxType).frontEnd, (ofdmswParts opt).1 ||| (ofdmswParts opt).2) := by
  unfold ofdmFrontEnd ofdmParts ofdmswParts
  generalize opt.toNat = n
  match n with
  | 0 | 1 | 2 | 3 => cases trxType <;> rfl
  | _ + 4 => simp only [Parts.frontEnd, UInt8.or_zero]

theorem fskFrontEnd_eq (srate midx : UInt8) (trxType : Trx) :
    fskFrontEnd srate midx trxType = (fskParts srate midx trxType).frontEnd := by
  unfold fskFrontEnd fskParts
  generalize srate.toNat = n
  by_cases hm : midx = 0
  · simp only [hm, if_true]
    rcases n with _ | _ | _ | _ | _ | _ | n
    iterate 6 · cases trxType <;> rfl
    simp only [Parts.frontEnd, UInt8.or_zero]
  · simp only [hm, if_false]
    rcases n with _ | _ | _ | _ | _ | _ | n
    iterate 6 · cases trxType <;> rfl
    simp only [Parts.frontEnd, UInt8.or_zero]

/-- The front end of a configuration. -/
def frontEnd (c : RadioPhyConfig) (trxType : Trx) : FrontEnd :=
  match c with
  | .ofdm c => (ofdmFrontEnd c.opt trxType).1
  | .fsk c => fskFrontEnd c.srate c.midx trxType

/-- The parts of a configuration. -/
def parts (c : RadioPhyConfig) (trxType : Trx) : Parts :=
  match c with
  | .ofdm c => ofdmParts c.opt trxType
  | .fsk c => fskParts c.srate c.midx trxType

/-- **The front end is assembled from the parts.** -/
theorem frontEnd_eq (c : RadioPhyConfig) (trxType : Trx) : frontEnd c trxType = (parts c trxType).frontEnd := by
  cases c with
  | ofdm c => rw [frontEnd, ofdmFrontEnd_eq, parts]
  | fsk c => exact fskFrontEnd_eq c.srate c.midx trxType

/-! ## What is written -/

section

variable (trxByFreq : UInt32 → Trx)

/-- What a configuration writes to a register of its radio. -/
def radioValue (x : RadioConfig) (r : RadioReg) : Option UInt8 :=
  Registers.lastWrite (.radio (trxByFreq x.freq) r) (regValues trxByFreq x)

/-- What a configuration writes to a register of its baseband. -/
def basebandValue (x : RadioConfig) (r : BasebandReg) : Option UInt8 :=
  Registers.lastWrite (.baseband (trxByFreq x.freq) r) (regValues trxByFreq x)

variable {trxByFreq}

theorem radioValue_eq (x : RadioConfig) :
    let f := frontEnd x.phyConfig (trxByFreq x.freq)
    radioValue trxByFreq x .rxbwc = some f.rxbwc ∧ radioValue trxByFreq x .rxdfe = some f.rxdfe ∧
      radioValue trxByFreq x .txcutc = some f.txcutc ∧ radioValue trxByFreq x .txdfe = some f.txdfe := by
  obtain ⟨freq, channel, channelSpacing, txPower, phyConfig⟩ := x
  simp only [radioValue, regValues]
  cases trxByFreq freq <;> cases phyConfig <;> exact ⟨rfl, rfl, rfl, rfl⟩

theorem basebandValue_ofdm {x : RadioConfig} {c : RadioPhyConfigOfdm} (h : x.phyConfig = .ofdm c) :
    basebandValue trxByFreq x .ofdmc = some (min c.opt 3).toUInt8 ∧
      basebandValue trxByFreq x .ofdmsw = some (ofdmFrontEnd c.opt (trxByFreq x.freq)).2 := by
  obtain ⟨freq, channel, channelSpacing, txPower, phyConfig⟩ := x
  have h : phyConfig = .ofdm c := h
  subst h
  simp only [basebandValue, regValues]
  cases trxByFreq freq <;> exact ⟨rfl, rfl⟩

/-- An FSK configuration writes nothing to OFDMSW. -/
theorem basebandValue_ofdmsw_fsk {x : RadioConfig} {c : RadioPhyConfigFsk} (h : x.phyConfig = .fsk c) :
    basebandValue trxByFreq x .ofdmsw = none := by
  obtain ⟨freq, channel, channelSpacing, txPower, phyConfig⟩ := x
  have h : phyConfig = .fsk c := h
  subst h
  simp only [basebandValue, regValues]
  cases trxByFreq freq <;> rfl

/-! ## The sample rates -/

variable (trxByFreq) in
/-- The low four bits of TXDFE and RXDFE are set. -/
def RatesSet (x : RadioConfig) : Prop :=
  ∀ r ∈ [RadioReg.txdfe, .rxdfe], ∃ v, radioValue trxByFreq x r = some v ∧ v &&& 0b1111 ≠ 0

/-- An option or a symbol rate that the source has values for. -/
def Supported : RadioPhyConfig → Prop
  | .ofdm c => c.opt.toNat ≤ 3
  | .fsk c => c.srate.toNat ≤ 5

theorem rates_ofdm (opt : UInt32) (trxType : Trx) :
    ((ofdmParts opt trxType).frontEnd.txdfe &&& 0b1111 ≠ 0 ∧ (ofdmParts opt trxType).frontEnd.rxdfe &&& 0b1111 ≠ 0) ↔
      opt.toNat ≤ 3 := by
  unfold ofdmParts
  generalize opt.toNat = n
  match n with
  | 0 | 1 | 2 | 3 => cases trxType <;> decide
  | _ + 4 => simp [Parts.frontEnd]

theorem rates_fsk (srate midx : UInt8) (trxType : Trx) :
    ((fskParts srate midx trxType).frontEnd.txdfe &&& 0b1111 ≠ 0 ∧
      (fskParts srate midx trxType).frontEnd.rxdfe &&& 0b1111 ≠ 0) ↔ srate.toNat ≤ 5 := by
  refine fskParts_cases
    (P := fun n _ p => (p.frontEnd.txdfe &&& 0b1111 ≠ 0 ∧ p.frontEnd.rxdfe &&& 0b1111 ≠ 0) ↔ n ≤ 5) trxType ?_ ?_
    srate midx
  · cases trxType <;> decide +kernel
  · intro n hn narrow
    exact iff_of_false (fun h => h.2 (by simp [Parts.frontEnd])) (by omega)

/-- **The sample rates are set exactly for the options and symbol rates that the source has values for.** -/
theorem ratesSet_iff (x : RadioConfig) : RatesSet trxByFreq x ↔ Supported x.phyConfig := by
  obtain ⟨-, hrxdfe, -, htxdfe⟩ := @radioValue_eq trxByFreq x
  have hrates : RatesSet trxByFreq x ↔
      (frontEnd x.phyConfig (trxByFreq x.freq)).txdfe &&& 0b1111 ≠ 0 ∧
        (frontEnd x.phyConfig (trxByFreq x.freq)).rxdfe &&& 0b1111 ≠ 0 := by
    simp [RatesSet, hrxdfe, htxdfe]
  rw [hrates, frontEnd_eq]
  cases x.phyConfig with
  | ofdm c => exact rates_ofdm c.opt _
  | fsk c => exact rates_fsk c.srate c.midx _

/-! ## Parts that overlap -/

variable (trxByFreq) in
/-- What is OR-ed into a register for one field has no bit of another field. -/
def PartsDisjoint (x : RadioConfig) : Prop :=
  (parts x.phyConfig (trxByFreq x.freq)).Disjoint ∧
    ∀ c, x.phyConfig = .ofdm c → (ofdmswParts c.opt).1 &&& (ofdmswParts c.opt).2 = 0

/-- An FSK mode whose IFS value is in the bits of the bandwidth. -/
def FskIfsInBandwidth (c : RadioPhyConfigFsk) : Trx → Prop
  | .rf09 => c.srate.toNat = 3 ∧ ¬c.midx = 0 ∨ c.srate.toNat = 4 ∧ c.midx = 0 ∨ c.srate.toNat = 5 ∧ ¬c.midx = 0
  | .rf24 => c.srate.toNat = 0 ∧ ¬c.midx = 0 ∨ c.srate.toNat = 5 ∧ ¬c.midx = 0

/-- A configuration whose IFS value is in the bits of the bandwidth. -/
def IfsInBandwidth (c : RadioPhyConfig) (trxType : Trx) : Prop :=
  match c with
  | .ofdm _ => False
  | .fsk c => FskIfsInBandwidth c trxType

theorem disjoint_ofdm (opt : UInt32) (trxType : Trx) :
    (ofdmParts opt trxType).Disjoint ∧ (ofdmswParts opt).1 &&& (ofdmswParts opt).2 = 0 := by
  unfold ofdmParts ofdmswParts
  generalize opt.toNat = n
  match n with
  | 0 | 1 | 2 | 3 => cases trxType <;> decide
  | _ + 4 => simp [Parts.Disjoint, LowHigh]

theorem disjoint_fsk (c : RadioPhyConfigFsk) (trxType : Trx) :
    (fskParts c.srate c.midx trxType).Disjoint ↔ ¬FskIfsInBandwidth c trxType := by
  cases trxType with
  | rf09 =>
    have h := fskParts_cases (P := fun n narrow p => p.Disjoint ↔
      ¬(n = 3 ∧ narrow = false ∨ n = 4 ∧ narrow = true ∨ n = 5 ∧ narrow = false)) .rf09 (by decide +kernel)
      (fun n hn narrow => iff_of_true (by cases narrow <;> decide) (by omega)) c.srate c.midx
    simpa only [FskIfsInBandwidth, decide_eq_true_eq, decide_eq_false_iff_not] using h
  | rf24 =>
    have h := fskParts_cases (P := fun n narrow p => p.Disjoint ↔
      ¬(n = 0 ∧ narrow = false ∨ n = 5 ∧ narrow = false)) .rf24 (by decide +kernel)
      (fun n hn narrow => iff_of_true (by cases narrow <;> decide) (by omega)) c.srate c.midx
    simpa only [FskIfsInBandwidth, decide_eq_true_eq, decide_eq_false_iff_not] using h

/-- **Two parts overlap exactly in the FSK modes whose IFS value is in the bits of the bandwidth.** -/
theorem partsDisjoint_iff (x : RadioConfig) :
    PartsDisjoint trxByFreq x ↔ ¬IfsInBandwidth x.phyConfig (trxByFreq x.freq) := by
  unfold PartsDisjoint
  cases x.phyConfig with
  | ofdm c =>
    refine ⟨fun _ => id, fun _ => ⟨(disjoint_ofdm c.opt _).1, ?_⟩⟩
    rintro d ⟨⟩
    exact (disjoint_ofdm c.opt .rf09).2
  | fsk c =>
    refine Iff.trans ?_ (disjoint_fsk c _)
    exact ⟨And.left, fun h => ⟨h, fun d hd => (by cases hd)⟩⟩

/-! ## The mode of the modem -/

variable (trxByFreq) in
/-- The symbol rate that is written to FSKC1. -/
def symbolRate (x : RadioConfig) : Option Nat :=
  (basebandValue trxByFreq x .fskc1).map fun v => BitFields.Field.read ⟨0, 4⟩ v.toNat

variable (trxByFreq) in
/-- The modulation index that is written to FSKC0. -/
def modulationIndex (x : RadioConfig) : Option Nat :=
  (basebandValue trxByFreq x .fskc0).map fun v => BitFields.Field.read ⟨1, 3⟩ v.toNat

variable (trxByFreq) in
/-- The same option is written to OFDMC, or the same symbol rate and modulation index to FSKC1 and FSKC0. -/
def SameMode (x y : RadioConfig) : Prop :=
  match x.phyConfig, y.phyConfig with
  | .ofdm _, .ofdm _ => basebandValue trxByFreq x .ofdmc = basebandValue trxByFreq y .ofdmc
  | .fsk _, .fsk _ =>
    symbolRate trxByFreq x = symbolRate trxByFreq y ∧ modulationIndex trxByFreq x = modulationIndex trxByFreq y
  | _, _ => False

variable (trxByFreq) in
/-- The same values are written to the registers of the front end, and to OFDMSW. -/
def SameFrontEnd (x y : RadioConfig) : Prop :=
  (∀ r ∈ [RadioReg.rxbwc, .rxdfe, .txcutc, .txdfe], radioValue trxByFreq x r = radioValue trxByFreq y r) ∧
    basebandValue trxByFreq x .ofdmsw = basebandValue trxByFreq y .ofdmsw

theorem symbolRate_fsk {x : RadioConfig} {c : RadioPhyConfigFsk} (h : x.phyConfig = .fsk c) :
    symbolRate trxByFreq x = some (c.srate.toNat % 2 ^ 4) := by
  have hr : BasebandReg.fskc1 ∈ fskRegs := by decide
  obtain ⟨v, hv, hread⟩ := read_written c hr
  rw [symbolRate, basebandValue, lastWrite_regValues h _ hr, hv, Option.map_some, Option.some.injEq]
  exact (List.cons.inj (List.cons.inj hread).2).1

theorem modulationIndex_fsk {x : RadioConfig} {c : RadioPhyConfigFsk} (h : x.phyConfig = .fsk c) :
    modulationIndex trxByFreq x = some (c.midx.toNat % 2 ^ 3) := by
  have hr : BasebandReg.fskc0 ∈ fskRegs := by decide
  obtain ⟨v, hv, hread⟩ := read_written c hr
  rw [modulationIndex, basebandValue, lastWrite_regValues h _ hr, hv, Option.map_some, Option.some.injEq]
  exact (List.cons.inj (List.cons.inj (List.cons.inj hread).2).2).1

/-- The options of two supported configurations are told apart by OFDMC. -/
theorem opt_eq_of_ofdmc {a b : UInt32} (ha : a.toNat ≤ 3) (hb : b.toNat ≤ 3)
    (h : (min a 3).toUInt8 = (min b 3).toUInt8) : a = b := by
  have hmin : ∀ c : UInt32, c.toNat ≤ 3 → min c 3 = c := by
    intro c hc
    exact if_pos (UInt32.le_iff_toNat_le.mpr hc)
  rw [hmin a ha, hmin b hb, ← UInt8.toNat_inj, UInt32.toNat_toUInt8, UInt32.toNat_toUInt8] at h
  apply UInt32.toNat_inj.mp
  omega

/-- The front end depends on the modulation index only through the comparison with `0`. -/
theorem fskFrontEnd_congr (srate : UInt8) {m m' : UInt8} (h : m = 0 ↔ m' = 0) (trxType : Trx) :
    fskFrontEnd srate m trxType = fskFrontEnd srate m' trxType := by
  simp only [fskFrontEnd, h]

/-- TXDFE tells whether the modulation index is `0`. -/
theorem fskFrontEnd_txdfe (srate midx : UInt8) (trxType : Trx) :
    (fskFrontEnd srate midx trxType).txdfe &&& 0b11110000 = if midx = 0 then 0 else shl 4 5 := by
  rw [fskFrontEnd_eq]
  have h := fskParts_cases (P := fun _ narrow p => p.frontEnd.txdfe &&& 0b11110000 = if narrow then 0 else shl 4 5)
    trxType (by cases trxType <;> decide +kernel) (fun _ _ narrow => by cases narrow <;> decide) srate midx
  simpa only [decide_eq_true_eq] using h

theorem sameFrontEnd_iff (x y : RadioConfig) : SameFrontEnd trxByFreq x y ↔
    frontEnd x.phyConfig (trxByFreq x.freq) = frontEnd y.phyConfig (trxByFreq y.freq) ∧
      basebandValue trxByFreq x .ofdmsw = basebandValue trxByFreq y .ofdmsw := by
  obtain ⟨hxbwc, hxdfe, hxcutc, hxtdfe⟩ := @radioValue_eq trxByFreq x
  obtain ⟨hybwc, hydfe, hycutc, hytdfe⟩ := @radioValue_eq trxByFreq y
  simp only [SameFrontEnd, List.forall_mem_cons, hxbwc, hxdfe, hxcutc, hxtdfe, hybwc, hydfe, hycutc, hytdfe,
    Option.some.injEq]
  generalize frontEnd x.phyConfig (trxByFreq x.freq) = f
  generalize frontEnd y.phyConfig (trxByFreq y.freq) = g
  constructor
  · rintro ⟨⟨hbwc, hdfe, hcutc, htdfe, -⟩, hsw⟩
    obtain ⟨_, _, _, _⟩ := f
    obtain ⟨_, _, _, _⟩ := g
    refine ⟨?_, hsw⟩
    rw [FrontEnd.mk.injEq]
    exact ⟨htdfe, hcutc, hdfe, hbwc⟩
  · rintro ⟨rfl, hsw⟩
    exact ⟨⟨rfl, rfl, rfl, rfl, fun r hr => (by cases hr)⟩, hsw⟩

/-- Two FSK configurations of one symbol rate that the mask gives one modulation index, and the comparison with `0` two
widths. -/
def IndexConfused : RadioPhyConfig → RadioPhyConfig → Prop
  | .fsk c, .fsk d => c.srate = d.srate ∧ c.midx.toNat % 8 = d.midx.toNat % 8 ∧ ¬(c.midx = 0 ↔ d.midx = 0)
  | _, _ => False

theorem fsk_sameMode_iff {c d : RadioPhyConfigFsk} (hc : c.srate.toNat ≤ 5) (hd : d.srate.toNat ≤ 5)
    (trxType : Trx) :
    (c.srate.toNat % 2 ^ 4 = d.srate.toNat % 2 ^ 4 ∧ c.midx.toNat % 2 ^ 3 = d.midx.toNat % 2 ^ 3 →
      fskFrontEnd c.srate c.midx trxType = fskFrontEnd d.srate d.midx trxType) ↔
      ¬(c.srate = d.srate ∧ c.midx.toNat % 8 = d.midx.toNat % 8 ∧ ¬(c.midx = 0 ↔ d.midx = 0)) := by
  constructor
  · rintro h ⟨hsrate, hmidx, hzero⟩
    apply hzero
    have htxdfe := congrArg (fun f => f.txdfe &&& 0b11110000) (h ⟨by rw [hsrate], hmidx⟩)
    simp only [fskFrontEnd_txdfe] at htxdfe
    by_cases hm : c.midx = 0 <;> by_cases hm' : d.midx = 0
    · exact ⟨fun _ => hm', fun _ => hm⟩
    · rw [if_pos hm, if_neg hm'] at htxdfe
      exact absurd htxdfe (by decide)
    · rw [if_neg hm, if_pos hm'] at htxdfe
      exact absurd htxdfe (by decide)
    · exact ⟨fun h => absurd h hm, fun h => absurd h hm'⟩
  · rintro h ⟨hsrate, hmidx⟩
    have hsrate : c.srate = d.srate := UInt8.toNat_inj.mp (by omega)
    rw [hsrate]
    apply fskFrontEnd_congr
    by_contra hzero
    exact h ⟨hsrate, hmidx, hzero⟩

/-- **Between supported configurations of one transceiver, the mode decides the front end unless the modulation index is
confused.** -/
theorem sameFrontEnd_of_sameMode_iff {x y : RadioConfig} (hx : Supported x.phyConfig) (hy : Supported y.phyConfig)
    (htrx : trxByFreq x.freq = trxByFreq y.freq) :
    (SameMode trxByFreq x y → SameFrontEnd trxByFreq x y) ↔ ¬IndexConfused x.phyConfig y.phyConfig := by
  rw [sameFrontEnd_iff]
  cases hxc : x.phyConfig with
  | ofdm c =>
    cases hyc : y.phyConfig with
    | ofdm d =>
      rw [hxc] at hx
      rw [hyc] at hy
      refine ⟨fun _ => id, fun _ hmode => ?_⟩
      simp only [SameMode, hxc, hyc, (basebandValue_ofdm hxc).1, (basebandValue_ofdm hyc).1, Option.some.injEq] at hmode
      have hopt : c.opt = d.opt := opt_eq_of_ofdmc hx hy hmode
      rw [(basebandValue_ofdm hxc).2, (basebandValue_ofdm hyc).2]
      simp only [frontEnd, hopt, htrx, and_self]
    | fsk d =>
      refine ⟨fun _ => id, fun _ hmode => ?_⟩
      simp only [SameMode, hxc, hyc] at hmode
  | fsk c =>
    cases hyc : y.phyConfig with
    | ofdm d =>
      refine ⟨fun _ => id, fun _ hmode => ?_⟩
      simp only [SameMode, hxc, hyc] at hmode
    | fsk d =>
      rw [hxc] at hx
      rw [hyc] at hy
      rw [basebandValue_ofdmsw_fsk hxc, basebandValue_ofdmsw_fsk hyc]
      simp only [SameMode, hxc, hyc, symbolRate_fsk hxc, symbolRate_fsk hyc, modulationIndex_fsk hxc,
        modulationIndex_fsk hyc, Option.some.injEq, frontEnd, htrx, and_true]
      exact fsk_sameMode_iff hx hy _

variable (trxByFreq) in
/-- The front end matches the mode of the modem: for both configurations the sample rates are set and no part changes
another, and the same mode on the same transceiver comes with the same front end. -/
structure FrontEndMatches (x y : RadioConfig) : Prop where
  rates : RatesSet trxByFreq x ∧ RatesSet trxByFreq y
  same : trxByFreq x.freq = trxByFreq y.freq → SameMode trxByFreq x y → SameFrontEnd trxByFreq x y
  disjoint : PartsDisjoint trxByFreq x ∧ PartsDisjoint trxByFreq y

variable (trxByFreq) in
/-- **The front end matches the modem exactly for supported options and symbol rates**, except where a modulation index
from 8 on is confused with index 0, and in the FSK modes whose IFS value is in the bits of the bandwidth. -/
theorem front_end_matches_iff (x y : RadioConfig) :
    FrontEndMatches trxByFreq x y ↔
      (Supported x.phyConfig ∧ Supported y.phyConfig) ∧
        (trxByFreq x.freq = trxByFreq y.freq → ¬IndexConfused x.phyConfig y.phyConfig) ∧
        ¬IfsInBandwidth x.phyConfig (trxByFreq x.freq) ∧ ¬IfsInBandwidth y.phyConfig (trxByFreq y.freq) := by
  constructor
  · rintro ⟨⟨hx, hy⟩, hsame, hdx, hdy⟩
    have hx := (ratesSet_iff x).mp hx
    have hy := (ratesSet_iff y).mp hy
    refine ⟨⟨hx, hy⟩, fun htrx => ?_, (partsDisjoint_iff x).mp hdx, (partsDisjoint_iff y).mp hdy⟩
    exact (sameFrontEnd_of_sameMode_iff hx hy htrx).mp (hsame htrx)
  · rintro ⟨⟨hx, hy⟩, hsame, hdx, hdy⟩
    refine ⟨⟨(ratesSet_iff x).mpr hx, (ratesSet_iff y).mpr hy⟩, fun htrx => ?_, (partsDisjoint_iff x).mpr hdx,
      (partsDisjoint_iff y).mpr hdy⟩
    exact (sameFrontEnd_of_sameMode_iff hx hy htrx).mpr (hsame htrx)

end

/-- Two modulation schemes with one option of OFDM. -/
theorem front_end_matches_schemes :
    SameMode (fun _ => .rf24) { phyConfig := .ofdm { mcs := 2 } } { phyConfig := .ofdm { mcs := 5 } } ∧
      FrontEndMatches (fun _ => .rf24) { phyConfig := .ofdm { mcs := 2 } } { phyConfig := .ofdm { mcs := 5 } } := by
  exact ⟨rfl, (front_end_matches_iff _ _ _).mpr ⟨⟨Nat.zero_le 3, Nat.zero_le 3⟩, fun _ => id, id, id⟩⟩

/-- An option that the switch does not know: the modem gets option 3, the front end nothing. -/
theorem front_end_unset : ¬∀ (trxByFreq : UInt32 → Trx) (x y : RadioConfig), FrontEndMatches trxByFreq x y := by
  intro h
  have h := h (fun _ => .rf09) { phyConfig := .ofdm { opt := 4 } } { phyConfig := .ofdm { opt := 3 } }
  have hopt : (4 : UInt32).toNat ≤ 3 := (ratesSet_iff _).mp h.rates.1
  exact absurd hopt (by decide)

end KaonicComm.Radio
