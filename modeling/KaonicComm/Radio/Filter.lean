import KaonicComm.Radio.Configure

/-!
# The filter and the carrier

`configure` tunes the radio to a carrier, the frequency of the request and so many times the channel spacing; `filterOf`
is the filter for a carrier, by the bands of `select_filter`. But `select_filter` looks at the frequency alone.

The filter is that of the carrier exactly when the channels up to it do not leave the band of the frequency, or do not
enter one (`filter_matches_iff`).
-/

namespace KaonicComm.Radio

/-- A band of carriers, in kHz. -/
structure Band where
  low : Nat
  high : Nat
  deriving DecidableEq, Repr

/-- A carrier is in a band. -/
def Band.Holds (b : Band) (carrier : Nat) : Prop := b.low ≤ carrier ∧ carrier ≤ b.high

instance (b : Band) (carrier : Nat) : Decidable (b.Holds carrier) := inferInstanceAs (Decidable (_ ∧ _))

/-- The band of the filter `V1=1;V2=1`. -/
def upperBand : Band := ⟨902000, 928000⟩

/-- The band of the filter `V1=0;V2=1`. -/
def lowerBand : Band := ⟨862000, 876000⟩

/-- The filter for a carrier. -/
def filterOf (carrier : Nat) : Bool × Bool :=
  if upperBand.Holds carrier then (true, true)
  else if lowerBand.Holds carrier then (false, true)
  else (true, false)

/-- `select_filter` chooses the filter for the frequency. -/
theorem selectFilter_eq (freq : UInt32) : selectFilter freq = filterOf freq.toNat := by
  simp only [selectFilter, filterOf, Band.Holds, upperBand, lowerBand, UInt32.le_iff_toNat_le]
  rfl

theorem not_lower_of_upper {c : Nat} (h : upperBand.Holds c) : ¬lowerBand.Holds c := by
  simp only [Band.Holds, upperBand, lowerBand] at h ⊢
  omega

theorem filterOf_eq_upper_iff (c : Nat) : filterOf c = (true, true) ↔ upperBand.Holds c := by
  unfold filterOf
  by_cases hu : upperBand.Holds c
  · simp [hu]
  · by_cases hl : lowerBand.Holds c <;> simp [hu, hl]

theorem filterOf_eq_lower_iff (c : Nat) : filterOf c = (false, true) ↔ lowerBand.Holds c := by
  unfold filterOf
  by_cases hu : upperBand.Holds c
  · simp [hu, not_lower_of_upper hu]
  · by_cases hl : lowerBand.Holds c <;> simp [hu, hl]

/-- **Two carriers have one filter exactly when they are in the same bands.** -/
theorem filterOf_eq_iff (x y : Nat) :
    filterOf x = filterOf y ↔ (upperBand.Holds x ↔ upperBand.Holds y) ∧ (lowerBand.Holds x ↔ lowerBand.Holds y) := by
  constructor
  · intro h
    rw [← filterOf_eq_upper_iff x, ← filterOf_eq_lower_iff x, h, filterOf_eq_upper_iff, filterOf_eq_lower_iff]
    exact ⟨Iff.rfl, Iff.rfl⟩
  · rintro ⟨hupper, hlower⟩
    simp only [filterOf, hupper, hlower]

/-! ## The carrier of a configuration -/

/-- The frequency of the request, and so many times the channel spacing. -/
def Freq.carrier (f : Freq) : Nat := f.frequency.toNat + f.channel.toNat * f.channelSpacing.toNat

/-- The channels up to the one of a configuration do not leave the band of its frequency, and enter no band if it has
none. -/
structure KeepsBand (config : RadioConfig) : Prop where
  upper : upperBand.Holds config.freq.toNat → (freqOf config).carrier ≤ upperBand.high
  lower : lowerBand.Holds config.freq.toNat → (freqOf config).carrier ≤ lowerBand.high
  neither : ¬upperBand.Holds config.freq.toNat → ¬lowerBand.Holds config.freq.toNat →
    ¬upperBand.Holds (freqOf config).carrier ∧ ¬lowerBand.Holds (freqOf config).carrier

theorem keepsBand_iff (config : RadioConfig) :
    KeepsBand config ↔ filterOf config.freq.toNat = filterOf (freqOf config).carrier := by
  have hle : config.freq.toNat ≤ (freqOf config).carrier := Nat.le_add_right _ _
  have hreaches : ∀ b : Band, b.Holds config.freq.toNat → (freqOf config).carrier ≤ b.high →
      b.Holds (freqOf config).carrier := fun b h hhigh => ⟨Nat.le_trans h.1 hle, hhigh⟩
  rw [filterOf_eq_iff]
  constructor
  · rintro ⟨hupper, hlower, hneither⟩
    by_cases hu : upperBand.Holds config.freq.toNat
    · have huc := hreaches upperBand hu (hupper hu)
      exact ⟨iff_of_true hu huc, iff_of_false (not_lower_of_upper hu) (not_lower_of_upper huc)⟩
    · by_cases hl : lowerBand.Holds config.freq.toNat
      · have hlc := hreaches lowerBand hl (hlower hl)
        exact ⟨iff_of_false hu fun huc => not_lower_of_upper huc hlc, iff_of_true hl hlc⟩
      · obtain ⟨huc, hlc⟩ := hneither hu hl
        exact ⟨iff_of_false hu huc, iff_of_false hl hlc⟩
  · rintro ⟨hupper, hlower⟩
    refine ⟨fun h => (hupper.mp h).2, fun h => (hlower.mp h).2, fun hu hl => ?_⟩
    exact ⟨fun h => hu (hupper.mpr h), fun h => hl (hlower.mpr h)⟩

section

variable {trxByFreq : UInt32 → Trx} {tune : Freq → Nat}

variable (trxByFreq tune) in
/-- The filter of a radio is that of the carrier that it is tuned to for a configuration; `tune` is what
`rf215_set_freq` tunes to. -/
def FilterMatches (config : RadioConfig) (d : Device) : Prop :=
  ∃ f, d.tuning (trxByFreq config.freq) = some f ∧ (d.v1, d.v2) = filterOf (tune f)

/-- After `configure` the filter is that of the frequency, and the radio is tuned to the carrier. -/
theorem filterMatches_exec_iff (config : RadioConfig) (l : Locals) (d : Device) :
    FilterMatches trxByFreq tune config (exec trxByFreq config (program config) l d).2 ↔
      filterOf config.freq.toNat = filterOf (tune (freqOf config)) := by
  have hconf := @configured_exec trxByFreq config l d
  rw [FilterMatches, hconf.tuned, hconf.filter, selectFilter_eq]
  constructor
  · rintro ⟨f, hf, hfilter⟩
    cases hf
    exact hfilter
  · intro h
    exact ⟨_, rfl, h⟩

/-- **After `configure` the filter is that of the carrier exactly when the channels stay in the band.** -/
theorem filter_matches_iff (htune : ∀ f, tune f = f.frequency.toNat + f.channel.toNat * f.channelSpacing.toNat)
    (config : RadioConfig) (l : Locals) (d : Device) :
    FilterMatches trxByFreq tune config (exec trxByFreq config (program config) l d).2 ↔ KeepsBand config := by
  have hcarrier : tune (freqOf config) = (freqOf config).carrier := htune _
  rw [filterMatches_exec_iff, hcarrier, keepsBand_iff]

/-- The default configuration. -/
theorem filter_matches_default : FilterMatches (fun _ => .rf09) Freq.carrier {}
    (exec (fun _ => .rf09) {} (program {}) Locals.init Device.init).2 := by
  have htune : ∀ f : Freq, f.carrier = f.frequency.toNat + f.channel.toNat * f.channelSpacing.toNat := fun _ => rfl
  refine (filter_matches_iff htune {} Locals.init Device.init).mpr ⟨?_, ?_, ?_⟩ <;> decide

end

/-- The channel after 875.9 MHz is above the band, and the filter is still that of the band. -/
theorem filter_left_behind : ¬∀ (trxByFreq : UInt32 → Trx) (config : RadioConfig) (l : Locals) (d : Device),
    FilterMatches trxByFreq Freq.carrier config (exec trxByFreq config (program config) l d).2 := by
  intro h
  have h := h (fun _ => .rf09) { freq := 875900, channel := 1, channelSpacing := 200 } Locals.init Device.init
  rw [filterMatches_exec_iff] at h
  exact absurd h (by decide)

end KaonicComm.Radio
