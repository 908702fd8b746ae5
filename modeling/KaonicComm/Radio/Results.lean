import KaonicComm.Radio.Driver

/-!
# What an ok result of `rf215_radio` says

`init` opens the SPI device, requests five GPIO lines, and starts and probes the chip; `configure` writes the common
registers, the register set of the modulation and the frequency. The driver is taken to return a negative value from
`rf215_write_reg_set` and `rf215_set_freq` when one of their writes fails (`Outcome.Reports`).

After a call of `configure` whose steps all succeeded the radio is configured as asked (`configured_of_succeeded`). But
`init` adds up an error that it does not return, and `configure` does not look at the results of the common registers:
an ok result means success exactly when these did not fail alone (`ok_means_success_iff`).
-/

namespace KaonicComm.Radio

/-! ## `init` -/

/-- What the calls of `init` answer. -/
structure InitOutcome where
  spiOpen : ErrorCode
  irqGpio : Bool
  rstGpio : Bool
  fltSelV1Gpio : Bool
  fltSelV2Gpio : Bool
  fltSel24Gpio : Bool
  rf215Init : Int
  rf215Probe : UInt8
  deriving DecidableEq, Repr

/-- The error that `init` returns. -/
def InitOutcome.error (o : InitOutcome) : ErrorCode :=
  -- `err`, which no `return` names: the one below it is another variable
  let _err := ErrorCode.plus .ok o.spiOpen
  if !o.irqGpio then .fail
  else if !o.rstGpio then .fail
  else if !o.fltSelV1Gpio then .fail
  else if !o.fltSelV2Gpio then .fail
  else if !o.fltSel24Gpio then .fail
  else if o.rf215Init ≠ 0 then .fail
  else if o.rf215Probe ≠ 0 then .ok
  else .fail

/-- The steps after the SPI device was opened succeed. -/
structure InitOutcome.Detects (o : InitOutcome) : Prop where
  irqGpio : o.irqGpio = true
  rstGpio : o.rstGpio = true
  fltSelV1Gpio : o.fltSelV1Gpio = true
  fltSelV2Gpio : o.fltSelV2Gpio = true
  fltSel24Gpio : o.fltSel24Gpio = true
  rf215Init : o.rf215Init = 0
  rf215Probe : o.rf215Probe ≠ 0

/-- `init` looks at all its steps but the first one. -/
theorem InitOutcome.error_eq_ok_iff (o : InitOutcome) : o.error = .ok ↔ o.Detects := by
  obtain ⟨spiOpen, irq, rst, v1, v2, flt24, init, probe⟩ := o
  constructor
  · intro h
    simp only [error] at h
    cases irq with
    | false => cases h
    | true =>
    cases rst with
    | false => cases h
    | true =>
    cases v1 with
    | false => cases h
    | true =>
    cases v2 with
    | false => cases h
    | true =>
    cases flt24 with
    | false => cases h
    | true =>
    by_cases hi : init = 0
    · by_cases hp : probe = 0
      · simp [hi, hp] at h
      · exact ⟨rfl, rfl, rfl, rfl, rfl, hi, hp⟩
    · simp [hi] at h
  · rintro ⟨rfl, rfl, rfl, rfl, rfl, rfl, hp⟩
    have hp : probe ≠ 0 := hp
    simp [error, hp]

/-! ## `configure` -/

/-- The steps of `configure` that go over SPI. -/
def Instr.writes : Instr → Bool
  | .writeReg _ _ | .writeNext | .setFreq => true
  | .setV1 _ | .setV2 _ | .setActiveTrx | .readType | .fillModValues => false

/-- The driver reports a write of `rf215_write_reg_set` or of `rf215_set_freq` that fails. -/
structure Outcome.Reports (o : Outcome) (config : RadioConfig) : Prop where
  writeRegSet : ∀ k, (program config)[k]? = some .writeNext → o.lands k = false → o.writeRegSet < 0
  setFreq : ∀ k, (program config)[k]? = some .setFreq → o.lands k = false → o.setFreq < 0

/-- Every write reaches the chip, and the driver reports no failure. -/
structure Outcome.Succeeds (o : Outcome) (config : RadioConfig) : Prop where
  lands : ∀ k i, (program config)[k]? = some i → i.writes = true → o.lands k = true
  writeRegSet : 0 ≤ o.writeRegSet
  setFreq : 0 ≤ o.setFreq

/-- The common registers are written. -/
def Outcome.CommonLand (o : Outcome) (config : RadioConfig) : Prop :=
  ∀ k target value, (program config)[k]? = some (.writeReg target value) → o.lands k = true

/-- `configure` looks at two results. -/
theorem Outcome.error_eq_ok_iff (o : Outcome) : o.error = .ok ↔ 0 ≤ o.writeRegSet ∧ 0 ≤ o.setFreq := by
  rw [error, ErrorCode.plus_eq_ok_iff, ErrorCode.plus_eq_ok_iff, ErrorCode.fromRc_eq_ok_iff,
    ErrorCode.fromRc_eq_ok_iff]
  simp only [true_and]

/-- With a driver that reports, the two results leave out the common registers only. -/
theorem Outcome.succeeds_iff {o : Outcome} {config : RadioConfig} (h : o.Reports config) :
    o.Succeeds config ↔ o.CommonLand config ∧ 0 ≤ o.writeRegSet ∧ 0 ≤ o.setFreq := by
  constructor
  · intro hs
    exact ⟨fun k target value hk => hs.lands k _ hk rfl, hs.writeRegSet, hs.setFreq⟩
  · rintro ⟨hcommon, hset, hfreq⟩
    refine ⟨fun k i hk hi => ?_, hset, hfreq⟩
    cases i with
    | writeReg target value => exact hcommon k target value hk
    | writeNext =>
      cases hland : o.lands k with
      | true => rfl
      | false => exact absurd hset (Int.not_le.mpr (h.writeRegSet k hk hland))
    | setFreq =>
      cases hland : o.lands k with
      | true => rfl
      | false => exact absurd hfreq (Int.not_le.mpr (h.setFreq k hk hland))
    | setV1 value => cases hi
    | setV2 value => cases hi
    | setActiveTrx => cases hi
    | readType => cases hi
    | fillModValues => cases hi

/-! ## The radio after a success -/

section

variable {trxByFreq : UInt32 → Trx} {config : RadioConfig}

/-- Steps whose writes land are the steps without failures. -/
theorem attempt_eq_exec {lands : Nat → Bool} : ∀ {prog : List Instr} (k : Nat) (l : Locals) (d : Device),
    (∀ j i, prog[j]? = some i → i.writes = true → lands (k + j) = true) →
    attempt trxByFreq config lands k prog l d = (exec trxByFreq config prog l d).2
  | [], _, _, _, _ => rfl
  | i :: prog, k, l, d, h => by
    have hi : i.attempt trxByFreq config (lands k) l d = i.exec trxByFreq config l d := by
      cases i with
      | writeReg target value =>
        rw [show lands k = true from h 0 _ rfl rfl]
        rfl
      | writeNext =>
        rw [show lands k = true from h 0 _ rfl rfl]
        rfl
      | setFreq =>
        rw [show lands k = true from h 0 _ rfl rfl]
        rfl
      | _ => rfl
    rw [attempt, exec_cons, hi]
    apply attempt_eq_exec
    intro j i' hj hw
    have hland := h (j + 1) i' hj hw
    rwa [show k + 1 + j = k + (j + 1) by omega]

/-- **After a success the radio is configured as asked.** -/
theorem configured_of_succeeded {o : Outcome} (h : o.Succeeds config) (r : RF215) :
    Configured trxByFreq config (r.configure trxByFreq config o).1.device := by
  rw [RF215.configure, attempt_eq_exec 0 Locals.init r.device fun j i hj hi => by
    rw [Nat.zero_add]
    exact h.lands j i hj hi]
  exact configured_exec Locals.init r.device

end

/-! ## Ok results -/

/-- A call of `init` or `configure`, with the outcomes of its steps. -/
inductive Setup where
  | init (o : InitOutcome)
  | configure (config : RadioConfig) (o : Outcome)

/-- The driver reports the failures of its own writes. -/
def Setup.Reports : Setup → Prop
  | .init _ => True
  | .configure config o => o.Reports config

/-- Every step of the call succeeds. -/
def Setup.Succeeds : Setup → Prop
  | .init o => o.spiOpen = .ok ∧ o.Detects
  | .configure config o => o.Succeeds config

/-- The steps whose result the call drops succeed, or another step fails. -/
def Setup.DroppedSucceed : Setup → Prop
  | .init o => o.spiOpen = .ok ∨ ¬o.Detects
  | .configure config o => o.CommonLand config ∨ o.writeRegSet < 0 ∨ o.setFreq < 0

section

variable (trxByFreq : UInt32 → Trx) (r : RF215)

/-- What the call returns. -/
def Setup.result : Setup → ErrorCode
  | .init o => o.error
  | .configure config o => (r.configure trxByFreq config o).2

/-- An ok result means that every step succeeded. -/
def Setup.OkMeansSuccess (c : Setup) : Prop := c.result trxByFreq r = .ok → c.Succeeds

/-- **An ok result means success exactly when the steps whose result is dropped do not fail alone**: opening the SPI
device, and writing the common registers. -/
theorem ok_means_success_iff {c : Setup} (h : c.Reports) : c.OkMeansSuccess trxByFreq r ↔ c.DroppedSucceed := by
  cases c with
  | init o =>
    simp only [Setup.OkMeansSuccess, Setup.result, Setup.Succeeds, Setup.DroppedSucceed, o.error_eq_ok_iff]
    tauto
  | configure config o =>
    have h : o.Reports config := h
    have hresult : (Setup.configure config o).result trxByFreq r = .ok ↔ 0 ≤ o.writeRegSet ∧ 0 ≤ o.setFreq :=
      o.error_eq_ok_iff
    rw [Setup.OkMeansSuccess, hresult]
    simp only [Setup.Succeeds, Setup.DroppedSucceed, Outcome.succeeds_iff h, ← Int.not_le]
    tauto

end

/-- The first write of the register set is lost, and the driver says so. -/
def setWriteLost : Outcome where
  lands := (· ≠ 16)
  writeRegSet := -1
  setFreq := 0

theorem ok_means_success_configure :
    (program {})[16]? = some .writeNext ∧
      (Setup.configure {} setWriteLost).OkMeansSuccess (fun _ => .rf09) RF215.init := by
  have hwrite : (program {})[16]? = some .writeNext := by decide
  have hlost : ∀ {k}, setWriteLost.lands k = false → k = 16 := fun h => by simpa [setWriteLost] using h
  have h : (Setup.configure {} setWriteLost).Reports := by
    refine ⟨fun _ _ _ => by decide, fun k hk hland => ?_⟩
    rw [hlost hland, hwrite] at hk
    cases hk
  exact ⟨hwrite, (ok_means_success_iff _ _ h).mpr (Or.inr (Or.inl (by decide)))⟩

/-- The SPI device cannot be opened, and `init` returns ok. -/
theorem ok_without_spi : ¬∀ trxByFreq r (c : Setup), c.Reports → c.OkMeansSuccess trxByFreq r := by
  intro h
  have h := h (fun _ => .rf09) RF215.init (.init
    { spiOpen := .fail, irqGpio := true, rstGpio := true, fltSelV1Gpio := true, fltSelV2Gpio := true,
      fltSel24Gpio := true, rf215Init := 0, rf215Probe := 0x34 }) trivial rfl
  exact absurd h.1 (by decide)

end KaonicComm.Radio
