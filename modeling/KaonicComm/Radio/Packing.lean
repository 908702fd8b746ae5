import KaonicComm.Lib.BitFields
import KaonicComm.Radio.Configure

/-!
# The FSK registers as packed fields

`configure` packs the fields of a `radio_phy_config_fsk` into fifteen baseband registers. `fields` and `values` give the
shape and the content of each one, and what is written is their word (`written_eq`), so the registers determine every
field but one: the two high bits of the preamble length are cast to eight bits before they are shifted down to FSKC1,
and lost (`fskImage_eq_iff`, `packs_without_loss_iff`).
-/

namespace KaonicComm.Radio

open BitFields

/-- Every field lies in the width that the packing masks it to. -/
structure InWidths (c : RadioPhyConfigFsk) : Prop where
  bt : c.bt.toNat < 2 ^ 2
  midxs : c.midxs.toNat < 2 ^ 2
  midx : c.midx.toNat < 2 ^ 3
  mord : c.mord.toNat < 2 ^ 1
  preambleLength : c.preambleLength.toNat < 2 ^ 10
  srate : c.srate.toNat < 2 ^ 4
  pdtm : c.pdtm.toNat < 2 ^ 1
  rxo : c.rxo.toNat < 2 ^ 2
  rxpto : c.rxpto.toNat < 2 ^ 1
  mse : c.mse.toNat < 2 ^ 1
  fecs : c.fecs.toNat < 2 ^ 1
  sfdt : c.sfdt.toNat < 2 ^ 4
  pdt : c.pdt.toNat < 2 ^ 4
  sfd32 : c.sfd32.toNat < 2 ^ 1
  csfd1 : c.csfd1.toNat < 2 ^ 2
  csfd0 : c.csfd0.toNat < 2 ^ 2
  sfd : c.sfd.toNat < 2 ^ 1
  dw : c.dw.toNat < 2 ^ 1

/-- The registers that the fields are packed into. -/
def fskRegs : List BasebandReg :=
  [.fskc0, .fskc1, .fskc2, .fskc3, .fskc4, .fskpll, .fsksfd0l, .fsksfd0h, .fsksfd1l, .fsksfd1h, .fskphrtx, .fskdm,
    .fskpe0, .fskpe1, .fskpe2]

/-- What a configuration writes to them. -/
def fskImage (trxByFreq : UInt32 → Trx) (config : RadioConfig) : List (Option UInt8) :=
  fskRegs.map fun r => Registers.lastWrite (.baseband (trxByFreq config.freq) r) (regValues trxByFreq config)

/-! ## The fields of a register -/

/-- The fields of a register, from the highest to the lowest. -/
def fields : BasebandReg → List Field
  | .fskc0 => [⟨6, 2⟩, ⟨4, 2⟩, ⟨1, 3⟩, ⟨0, 1⟩]
  | .fskc1 => [⟨4, 1⟩, ⟨0, 4⟩]
  | .fskc2 => [⟨7, 1⟩, ⟨5, 2⟩, ⟨4, 1⟩, ⟨3, 1⟩, ⟨2, 1⟩, ⟨1, 1⟩, ⟨0, 1⟩]
  | .fskc3 => [⟨4, 4⟩, ⟨0, 4⟩]
  | .fskc4 => [⟨6, 1⟩, ⟨5, 1⟩, ⟨4, 1⟩, ⟨2, 2⟩, ⟨0, 2⟩]
  | .fskphrtx => [⟨3, 1⟩, ⟨2, 1⟩]
  | .fskdm => [⟨1, 1⟩, ⟨0, 1⟩]
  | _ => [⟨0, 8⟩]

/-- The values that are packed into a register, each cut to the width of its field. -/
def values (c : RadioPhyConfigFsk) : BasebandReg → List Nat
  | .fskc0 => [c.bt.toNat % 2 ^ 2, c.midxs.toNat % 2 ^ 2, c.midx.toNat % 2 ^ 3, c.mord.toNat % 2 ^ 1]
  | .fskc1 => [c.freqInversion.toNat, c.srate.toNat % 2 ^ 4]
  | .fskc2 => [c.pdtm.toNat % 2 ^ 1, c.rxo.toNat % 2 ^ 2, c.rxpto.toNat % 2 ^ 1, c.mse.toNat % 2 ^ 1,
      c.preambleInversion.toNat, c.fecs.toNat % 2 ^ 1, c.fecie.toNat]
  | .fskc3 => [c.sfdt.toNat % 2 ^ 4, c.pdt.toNat % 2 ^ 4]
  | .fskc4 => [c.sftq.toNat, c.sfd32.toNat % 2 ^ 1, c.rawbit.toNat, c.csfd1.toNat % 2 ^ 2, c.csfd0.toNat % 2 ^ 2]
  | .fskpll => [c.preambleLength.toNat % 2 ^ 8]
  | .fsksfd0l => [c.sfd0.toNat % 2 ^ 8]
  | .fsksfd0h => [c.sfd0.toNat / 2 ^ 8]
  | .fsksfd1l => [c.sfd1.toNat % 2 ^ 8]
  | .fsksfd1h => [c.sfd1.toNat / 2 ^ 8]
  | .fskphrtx => [c.sfd.toNat % 2 ^ 1, c.dw.toNat % 2 ^ 1]
  | .fskdm => [c.pe.toNat, c.en.toNat]
  | .fskpe0 => [c.fskpe0.toNat]
  | .fskpe1 => [c.fskpe1.toNat]
  | .fskpe2 => [c.fskpe2.toNat]
  | _ => []

/-- The fields of a register have no bit in common. -/
theorem fields_apart (r : BasebandReg) : (fields r).Pairwise Apart := by
  cases r <;> decide

theorem fits_values (c : RadioPhyConfigFsk) : ∀ r ∈ fskRegs, Fits (fields r) (values c r) := by
  intro r hr
  have hbool : ∀ b : Bool, b.toNat < 2 ^ 1 := by decide
  have hcut : ∀ n w : Nat, n % 2 ^ w < 2 ^ w := fun n w => Nat.mod_lt n (Nat.two_pow_pos w)
  have hhigh : ∀ n : UInt16, n.toNat / 2 ^ 8 < 2 ^ 8 := fun n => Nat.div_lt_of_lt_mul n.toNat_lt
  have hbyte : ∀ n : UInt8, n.toNat < 2 ^ 8 := fun n => n.toNat_lt
  simp only [fskRegs, List.mem_cons, List.not_mem_nil, or_false] at hr
  rcases hr with rfl | rfl | rfl | rfl | rfl | rfl | rfl | rfl | rfl | rfl | rfl | rfl | rfl | rfl | rfl <;>
    simp only [fields, values, Fits, List.forall₂_cons, *, List.Forall₂.nil, and_self]

/-! ## What is written -/

/-- A masked value. -/
theorem toNat_masked (x : UInt8) {m : UInt8} {w : Nat} (hm : m.toNat = 2 ^ w - 1) :
    (x &&& m).toNat = x.toNat % 2 ^ w := by
  rw [UInt8.toNat_and, hm, Nat.and_two_pow_sub_one_eq_mod]

/-- A masked value, shifted to its field. -/
theorem toNat_masked_shiftLeft (x : UInt8) {m s : UInt8} {w : Nat}
    (h : m.toNat = 2 ^ w - 1 ∧ s.toNat < 8 ∧ s.toNat + w ≤ 8) :
    ((x &&& m) <<< s).toNat = (x.toNat % 2 ^ w) <<< s.toNat := by
  obtain ⟨hm, hs, hws⟩ := h
  have hlt : (x.toNat % 2 ^ w) <<< s.toNat < 2 ^ 8 := by
    rw [Nat.shiftLeft_eq]
    calc x.toNat % 2 ^ w * 2 ^ s.toNat < 2 ^ w * 2 ^ s.toNat :=
          Nat.mul_lt_mul_of_pos_right (Nat.mod_lt _ (Nat.two_pow_pos w)) (Nat.two_pow_pos _)
      _ = 2 ^ (w + s.toNat) := (Nat.pow_add _ _ _).symm
      _ ≤ 2 ^ 8 := Nat.pow_le_pow_right Nat.two_pos (by omega)
  rw [UInt8.toNat_shiftLeft, toNat_masked x hm, Nat.mod_eq_of_lt hs, Nat.mod_eq_of_lt hlt]

theorem toNat_bit (cond : Bool) {a : UInt8} {n : Nat} (ha : a.toNat = 1 <<< n) :
    (bit cond a).toNat = cond.toNat <<< n := by
  cases cond with
  | false =>
    rw [bit, if_neg Bool.false_ne_true, Bool.toNat_false, Nat.zero_shiftLeft]
    rfl
  | true => rw [bit, if_pos rfl, Bool.toNat_true, ha]

/-- The cast of the high bits of the preamble length comes before they are shifted down. -/
theorem high_bits_cast (x : UInt16) : (x &&& 0b1100000000).toUInt8 = 0 := by
  apply UInt8.toNat_inj.mp
  rw [UInt16.toNat_toUInt8, UInt16.toNat_and, Nat.and_mod_two_pow]
  exact Nat.and_zero _

theorem toNat_low (x : UInt16) : (x &&& 0b11111111).toUInt8.toNat = x.toNat % 2 ^ 8 := by
  rw [UInt16.toNat_toUInt8, UInt16.toNat_and, show UInt16.toNat 0b11111111 = 2 ^ 8 - 1 from rfl,
    Nat.and_two_pow_sub_one_eq_mod, Nat.mod_mod]

theorem toNat_high (x : UInt16) : ((x >>> 8) &&& 0b11111111).toUInt8.toNat = x.toNat / 2 ^ 8 := by
  have hx := x.toNat_lt
  rw [toNat_low, UInt16.toNat_shiftRight, show UInt16.toNat 8 % 16 = 8 from rfl, Nat.shiftRight_eq_div_pow]
  omega

/-- The value that is written to a register. -/
def written (c : RadioPhyConfigFsk) (r : BasebandReg) : Option UInt8 :=
  Registers.lastWrite (.baseband .rf09 r) (fskValues c .rf09 .rf09)

theorem lastWrite_regValues {trxByFreq : UInt32 → Trx} {config : RadioConfig} {c : RadioPhyConfigFsk}
    (h : config.phyConfig = .fsk c) : ∀ r ∈ fskRegs,
    Registers.lastWrite (.baseband (trxByFreq config.freq) r) (regValues trxByFreq config) = written c r := by
  intro r hr
  simp only [regValues, h, modValues]
  simp only [fskRegs, List.mem_cons, List.not_mem_nil, or_false] at hr
  cases trxByFreq config.freq <;>
    rcases hr with rfl | rfl | rfl | rfl | rfl | rfl | rfl | rfl | rfl | rfl | rfl | rfl | rfl | rfl | rfl <;> rfl

/-- **What is written to a register is the word of its values.** -/
theorem written_eq (c : RadioPhyConfigFsk) : ∀ r ∈ fskRegs,
    ∃ v, written c r = some v ∧ v.toNat = pack (fields r) (values c r) := by
  intro r hr
  simp only [fskRegs, List.mem_cons, List.not_mem_nil, or_false] at hr
  rcases hr with rfl | rfl | rfl | rfl | rfl | rfl | rfl | rfl | rfl | rfl | rfl | rfl | rfl | rfl | rfl <;>
    refine ⟨_, rfl, ?_⟩ <;> simp only [fields, values, pack, UInt8.toNat_or, Nat.or_zero, Nat.shiftLeft_zero]
  · rw [toNat_masked_shiftLeft c.bt (w := 2) (by decide), toNat_masked_shiftLeft c.midxs (w := 2) (by decide),
      toNat_masked_shiftLeft c.midx (w := 3) (by decide), toNat_masked c.mord (w := 1) rfl]
    simp only [Nat.or_assoc]
    rfl
  · rw [toNat_bit c.freqInversion (n := 4) rfl, toNat_masked c.srate (w := 4) rfl, high_bits_cast]
    exact Nat.or_zero _
  · rw [toNat_masked_shiftLeft c.pdtm (w := 1) (by decide), toNat_masked_shiftLeft c.rxo (w := 2) (by decide),
      toNat_masked_shiftLeft c.rxpto (w := 1) (by decide), toNat_masked_shiftLeft c.mse (w := 1) (by decide),
      toNat_bit c.preambleInversion (n := 2) rfl, toNat_masked_shiftLeft c.fecs (w := 1) (by decide),
      toNat_bit c.fecie (n := 0) rfl]
    simp only [Nat.or_assoc]
    rfl
  · rw [toNat_masked_shiftLeft c.sfdt (w := 4) (by decide), toNat_masked c.pdt (w := 4) rfl]
    rfl
  · rw [toNat_bit c.sftq (n := 6) rfl, toNat_masked_shiftLeft c.sfd32 (w := 1) (by decide),
      toNat_bit c.rawbit (n := 4) rfl, toNat_masked_shiftLeft c.csfd1 (w := 2) (by decide),
      toNat_masked c.csfd0 (w := 2) rfl]
    simp only [Nat.or_assoc]
    rfl
  · exact toNat_low _
  · exact toNat_low _
  · exact toNat_high _
  · exact toNat_low _
  · exact toNat_high _
  · rw [toNat_masked_shiftLeft c.sfd (w := 1) (by decide), toNat_masked_shiftLeft c.dw (w := 1) (by decide)]
    rfl
  · rw [toNat_bit c.pe (n := 1) rfl, toNat_bit c.en (n := 0) rfl]
    rfl

/-! ## What the registers determine -/

/-- The values can be read from the register. -/
theorem read_written (c : RadioPhyConfigFsk) {r : BasebandReg} (hr : r ∈ fskRegs) :
    ∃ v, written c r = some v ∧ read (fields r) v.toNat = values c r := by
  obtain ⟨v, hv, hpack⟩ := written_eq c r hr
  refine ⟨v, hv, ?_⟩
  rw [hpack]
  exact read_pack (fields_apart r) (fits_values c r hr)

/-- **Equal registers are equal values.** -/
theorem written_eq_iff (a b : RadioPhyConfigFsk) {r : BasebandReg} (hr : r ∈ fskRegs) :
    written a r = written b r ↔ values a r = values b r := by
  obtain ⟨v, hv, hva⟩ := written_eq a r hr
  obtain ⟨w, hw, hwb⟩ := written_eq b r hr
  rw [hv, hw, Option.some.injEq, ← UInt8.toNat_inj, hva, hwb]
  constructor
  · intro h
    exact pack_injective (fields_apart r) (fits_values a r hr) (fits_values b r hr) h
  · intro h
    rw [h]

/-- The configuration without the two high bits of its preamble length. -/
def lowPreamble (c : RadioPhyConfigFsk) : RadioPhyConfigFsk :=
  { c with preambleLength := c.preambleLength &&& 0b11111111 }

theorem toNat_and_low (x : UInt16) : (x &&& 0b11111111).toNat = x.toNat % 2 ^ 8 := by
  rw [UInt16.toNat_and, show UInt16.toNat 0b11111111 = 2 ^ 8 - 1 from rfl, Nat.and_two_pow_sub_one_eq_mod]

/-- The registers hold nothing of these bits. -/
theorem values_lowPreamble (c : RadioPhyConfigFsk) (r : BasebandReg) : values (lowPreamble c) r = values c r := by
  cases r with
  | fskpll => simp only [values, lowPreamble, toNat_and_low, Nat.mod_mod]
  | _ => rfl

/-- A word from its bytes. -/
theorem eq_of_bytes {x y : UInt16} (hlow : x.toNat % 2 ^ 8 = y.toNat % 2 ^ 8)
    (hhigh : x.toNat / 2 ^ 8 = y.toNat / 2 ^ 8) : x = y := by
  apply UInt16.toNat_inj.mp
  omega

theorem toNat_bool_injective : ∀ {x y : Bool}, x.toNat = y.toNat → x = y := by decide

/-- Equal fields are equal values, if they fit. -/
theorem eq_of_cut {w : Nat} {x y : UInt8} (hx : x.toNat < 2 ^ w) (hy : y.toNat < 2 ^ w)
    (h : x.toNat % 2 ^ w = y.toNat % 2 ^ w) : x = y := by
  rw [Nat.mod_eq_of_lt hx, Nat.mod_eq_of_lt hy] at h
  exact UInt8.toNat_inj.mp h

/-- Equal values in all registers are equal configurations, but for these bits. -/
theorem lowPreamble_eq_of_values {a b : RadioPhyConfigFsk} (ha : InWidths a) (hb : InWidths b)
    (h : ∀ r ∈ fskRegs, values a r = values b r) : lowPreamble a = lowPreamble b := by
  simp only [fskRegs, List.forall_mem_cons, values, List.cons.injEq, and_true] at h
  obtain ⟨⟨bt, midxs, midx, mord⟩, ⟨freqInversion, srate⟩,
    ⟨pdtm, rxo, rxpto, mse, preambleInversion, fecs, fecie⟩, ⟨sfdt, pdt⟩, ⟨sftq, sfd32, rawbit, csfd1, csfd0⟩,
    preamble, sfd0l, sfd0h, sfd1l, sfd1h, ⟨sfd, dw⟩, ⟨pe, en⟩, fskpe0, fskpe1, fskpe2, -⟩ := h
  have hlow : a.preambleLength &&& 0b11111111 = b.preambleLength &&& 0b11111111 := by
    apply UInt16.toNat_inj.mp
    rw [toNat_and_low, toNat_and_low, preamble]
  simp only [lowPreamble, RadioPhyConfigFsk.mk.injEq]
  exact ⟨eq_of_cut ha.bt hb.bt bt, eq_of_cut ha.midxs hb.midxs midxs, eq_of_cut ha.midx hb.midx midx,
    eq_of_cut ha.mord hb.mord mord, hlow, toNat_bool_injective freqInversion, eq_of_cut ha.srate hb.srate srate,
    eq_of_cut ha.pdtm hb.pdtm pdtm, eq_of_cut ha.rxo hb.rxo rxo, eq_of_cut ha.rxpto hb.rxpto rxpto,
    eq_of_cut ha.mse hb.mse mse, toNat_bool_injective preambleInversion, eq_of_cut ha.fecs hb.fecs fecs,
    toNat_bool_injective fecie, eq_of_cut ha.sfdt hb.sfdt sfdt, eq_of_cut ha.pdt hb.pdt pdt,
    toNat_bool_injective sftq, eq_of_cut ha.sfd32 hb.sfd32 sfd32, toNat_bool_injective rawbit,
    eq_of_cut ha.csfd1 hb.csfd1 csfd1, eq_of_cut ha.csfd0 hb.csfd0 csfd0, eq_of_bytes sfd0l sfd0h,
    eq_of_bytes sfd1l sfd1h, eq_of_cut ha.sfd hb.sfd sfd, eq_of_cut ha.dw hb.dw dw, toNat_bool_injective pe,
    toNat_bool_injective en, UInt8.toNat_inj.mp fskpe0, UInt8.toNat_inj.mp fskpe1, UInt8.toNat_inj.mp fskpe2⟩

section

variable {trxByFreq : UInt32 → Trx} {x y : RadioConfig} {a b : RadioPhyConfigFsk}

/-- **The registers determine a configuration but for the two high bits of its preamble length.** -/
theorem fskImage_eq_iff (hx : x.phyConfig = .fsk a) (hy : y.phyConfig = .fsk b) (ha : InWidths a) (hb : InWidths b) :
    fskImage trxByFreq x = fskImage trxByFreq y ↔ lowPreamble a = lowPreamble b := by
  rw [fskImage, fskImage, List.map_congr_left (lastWrite_regValues hx), List.map_congr_left (lastWrite_regValues hy),
    List.map_inj_left]
  constructor
  · intro h
    exact lowPreamble_eq_of_values ha hb fun r hr => (written_eq_iff a b hr).mp (h r hr)
  · intro h r hr
    rw [written_eq_iff a b hr, ← values_lowPreamble a, h, values_lowPreamble b]

/-- Two configurations differ in the two high bits of the preamble length and nowhere else. -/
def DifferInHighBitsOnly (a b : RadioPhyConfigFsk) : Prop :=
  a.preambleLength.toNat / 2 ^ 8 ≠ b.preambleLength.toNat / 2 ^ 8 ∧ lowPreamble a = lowPreamble b

/-- **Equal registers mean equal configurations exactly for those that do not differ in the two high bits of the
preamble length alone.** -/
theorem packs_without_loss_iff (hx : x.phyConfig = .fsk a) (hy : y.phyConfig = .fsk b) (ha : InWidths a)
    (hb : InWidths b) :
    (fskImage trxByFreq x = fskImage trxByFreq y → a = b) ↔ ¬DifferInHighBitsOnly a b := by
  rw [fskImage_eq_iff hx hy ha hb]
  constructor
  · rintro h ⟨hhigh, hlow⟩
    rw [h hlow] at hhigh
    exact hhigh rfl
  · intro h hlow
    by_cases hhigh : a.preambleLength.toNat / 2 ^ 8 = b.preambleLength.toNat / 2 ^ 8
    · have hlength : a.preambleLength = b.preambleLength := by
        have hlow := congrArg (fun c => c.preambleLength.toNat) hlow
        simp only [lowPreamble, toNat_and_low] at hlow
        exact eq_of_bytes hlow hhigh
      have hwith : ∀ c, { lowPreamble c with preambleLength := c.preambleLength } = c := fun _ => rfl
      rw [← hwith a, ← hwith b, hlow, hlength]
    · exact absurd ⟨hhigh, hlow⟩ h

end

/-- The default configuration with a preamble length of ten bits. -/
def withPreamble (n : UInt16) : RadioPhyConfigFsk := { preambleLength := n }

theorem inWidths_default : InWidths {} := by
  constructor <;> decide

theorem inWidths_withPreamble {n : UInt16} (h : n.toNat < 2 ^ 10) : InWidths (withPreamble n) :=
  { inWidths_default with preambleLength := h }

/-- Preambles of 4 and of 5 symbols are written differently. -/
theorem packs_without_loss_low : fskImage (fun _ => .rf24) { phyConfig := .fsk (withPreamble 4) } ≠
    fskImage (fun _ => .rf24) { phyConfig := .fsk (withPreamble 5) } := by
  intro h
  have heq : withPreamble 4 = withPreamble 5 :=
    (packs_without_loss_iff rfl rfl (inWidths_withPreamble (by decide)) (inWidths_withPreamble (by decide))).mpr
      (fun h => absurd h.1 (by decide)) h
  exact absurd heq (by decide)

/-- A preamble of 256 symbols is written as one of none. -/
theorem preamble_lost : ¬∀ (trxByFreq : UInt32 → Trx) (x y : RadioConfig) (a b : RadioPhyConfigFsk),
    x.phyConfig = .fsk a → y.phyConfig = .fsk b → InWidths a → InWidths b →
    fskImage trxByFreq x = fskImage trxByFreq y → a = b := by
  intro h
  have h := h (fun _ => .rf09) { phyConfig := .fsk (withPreamble 0) } { phyConfig := .fsk (withPreamble 256) } _ _ rfl
    rfl (inWidths_withPreamble (by decide)) (inWidths_withPreamble (by decide)) (by decide)
  exact absurd h (by decide)

end KaonicComm.Radio
