import KaonicComm.Lib.Registers
import KaonicComm.Radio.Registers

/-!
# `rf215_radio::configure`, step by step

`program` is the list of the steps that a call of `configure` makes on the radio: two pins of the filter, the
assignment of `_active_trx`, every register write and `rf215_set_freq`. The call keeps `trx_type` and `mod_values` in
locals, and reads `_active_trx` again whenever the source names it.

Run without interference, the program leaves the radio configured as asked, wherever it was before
(`configured_exec`). SPI writes are taken to succeed.
-/

namespace KaonicComm.Radio

/-- `rf215_freq`. -/
structure Freq where
  channelSpacing : UInt32
  frequency : UInt32
  channel : UInt8
  deriving DecidableEq, Repr

/-- The radio: the two pins that select the filter, `_active_trx`, the registers, and for each transceiver the argument
of its last `rf215_set_freq` (ghost). What that call tunes to is for the driver to say. -/
structure Device where
  v1 : Bool
  v2 : Bool
  activeTrx : Option Trx
  regs : Reg → UInt8
  tuning : Trx → Option Freq

/-- The radio after `init`. -/
def Device.init : Device where
  v1 := false
  v2 := false
  activeTrx := none
  regs := fun _ => 0
  tuning := fun _ => none

/-- The locals of a call of `configure`. -/
structure Locals where
  trxType : Trx
  modValues : List (Reg × UInt8)
  deriving DecidableEq, Repr

/-- Before they are assigned. -/
def Locals.init : Locals := ⟨.rf09, []⟩

/-- A step of `configure`. -/
inductive Instr where
  | setV1 (value : Bool)
  | setV2 (value : Bool)
  /-- `_active_trx = rf215_get_trx_by_freq(..)`. -/
  | setActiveTrx
  /-- `trx_type = _active_trx->type`. -/
  | readType
  | writeReg (target : Target) (value : UInt8)
  /-- The initialisation of `mod_values`. -/
  | fillModValues
  /-- The next write of `rf215_write_reg_set`. -/
  | writeNext
  | setFreq
  deriving DecidableEq, Repr

/-- The pins of `select_filter`. -/
def selectFilter (freq : UInt32) : Bool × Bool :=
  if 902000 ≤ freq ∧ freq ≤ 928000 then (true, true)
  else if 862000 ≤ freq ∧ freq ≤ 876000 then (false, true)
  else (true, false)

/-- The steps of `configure`, in their order. -/
def program (config : RadioConfig) : List Instr :=
  [.setV1 (selectFilter config.freq).1, .setV2 (selectFilter config.freq).2, .setActiveTrx, .readType] ++
    ((commonValues config).map (fun (target, value) => .writeReg target value) ++
      (.fillModValues :: (List.replicate (modCount config.phyConfig) .writeNext ++ [.setFreq])))

section

-- `rf215_get_trx_by_freq`, and the call's configuration
variable (trxByFreq : UInt32 → Trx) (config : RadioConfig)

/-- The argument of `rf215_set_freq`. -/
def freqOf : Freq := ⟨config.channelSpacing, config.freq, config.channel⟩

/-- One step on the radio and the locals. -/
def Instr.exec (i : Instr) (l : Locals) (d : Device) : Locals × Device :=
  match i, d.activeTrx with
  | .setV1 value, _ => (l, { d with v1 := value })
  | .setV2 value, _ => (l, { d with v2 := value })
  | .setActiveTrx, _ => (l, { d with activeTrx := some (trxByFreq config.freq) })
  | .readType, some trx => ({ l with trxType := trx }, d)
  | .writeReg target value, some trx => (l, { d with regs := Registers.write d.regs (target.resolve trx, value) })
  | .fillModValues, some trx => ({ l with modValues := modValues config.phyConfig l.trxType trx }, d)
  | .writeNext, _ =>
    match l.modValues with
    | [] => (l, d)
    | w :: ws => ({ l with modValues := ws }, { d with regs := Registers.write d.regs w })
  | .setFreq, some trx => (l, { d with tuning := Function.update d.tuning trx (some (freqOf config)) })
  -- `_active_trx` is assigned before it is used
  | _, none => (l, d)

/-- The steps of a program, without interference. -/
def exec (prog : List Instr) (l : Locals) (d : Device) : Locals × Device :=
  prog.foldl (fun (l, d) i => i.exec trxByFreq config l d) (l, d)

/-- What a configuration writes to the registers, when its transceiver is active. -/
def regValues : List (Reg × UInt8) :=
  let trx := trxByFreq config.freq
  (commonValues config).map (fun (target, value) => (target.resolve trx, value)) ++
    modValues config.phyConfig trx trx

/-- The filter, `_active_trx`, the registers that the configuration writes and the argument of `rf215_set_freq` are
those of the configuration. -/
structure Configured (d : Device) : Prop where
  filter : (d.v1, d.v2) = selectFilter config.freq
  active : d.activeTrx = some (trxByFreq config.freq)
  regs : Registers.Holds d.regs (regValues trxByFreq config)
  tuned : d.tuning (trxByFreq config.freq) = some (freqOf config)

variable {trxByFreq config}

theorem exec_append (prog prog' : List Instr) (l : Locals) (d : Device) :
    exec trxByFreq config (prog ++ prog') l d =
      exec trxByFreq config prog' (exec trxByFreq config prog l d).1 (exec trxByFreq config prog l d).2 :=
  List.foldl_append

theorem exec_cons (i : Instr) (prog : List Instr) (l : Locals) (d : Device) :
    exec trxByFreq config (i :: prog) l d =
      exec trxByFreq config prog (i.exec trxByFreq config l d).1 (i.exec trxByFreq config l d).2 := rfl

/-- The registers that are written one by one. -/
theorem exec_writeRegs {trx : Trx} (l : Locals) : ∀ (ws : List (Target × UInt8)) (d : Device),
    d.activeTrx = some trx →
    exec trxByFreq config (ws.map fun (target, value) => .writeReg target value) l d =
      (l, { d with regs := Registers.writeAll d.regs (ws.map fun (target, value) => (target.resolve trx, value)) })
  | [], _, _ => rfl
  | (target, value) :: ws, d, h => by
    obtain ⟨v1, v2, active, regs, tuning⟩ := d
    have h : active = some trx := h
    subst h
    rw [List.map_cons, exec_cons]
    exact exec_writeRegs l ws _ rfl

/-- The register set of the modulation. -/
theorem exec_writeNexts : ∀ (ws : List (Reg × UInt8)) (trxType : Trx) (d : Device),
    exec trxByFreq config (List.replicate ws.length .writeNext) ⟨trxType, ws⟩ d =
      (⟨trxType, []⟩, { d with regs := Registers.writeAll d.regs ws })
  | [], _, _ => rfl
  | w :: ws, trxType, d => by
    rw [List.length_cons, List.replicate_succ, exec_cons]
    exact exec_writeNexts ws trxType _

/-- **What the program does to the radio**, run without interference. -/
theorem device_exec (l : Locals) (d : Device) :
    (exec trxByFreq config (program config) l d).2 =
      { v1 := (selectFilter config.freq).1
        v2 := (selectFilter config.freq).2
        activeTrx := some (trxByFreq config.freq)
        regs := Registers.writeAll d.regs (regValues trxByFreq config)
        tuning := Function.update d.tuning (trxByFreq config.freq) (some (freqOf config)) } := by
  obtain ⟨trxType, ws⟩ := l
  have hlen := length_modValues config.phyConfig (trxByFreq config.freq) (trxByFreq config.freq)
  -- the four steps before the registers
  rw [program, exec_append]
  simp only [exec_cons, Instr.exec]
  rw [exec_append]
  simp only [show ∀ (l : Locals) (d : Device), exec trxByFreq config [] l d = (l, d) from fun _ _ => rfl]
  rw [exec_writeRegs _ _ _ rfl, exec_cons]
  simp only [Instr.exec]
  rw [exec_append, ← hlen, exec_writeNexts, exec_cons, regValues, Registers.writeAll_append]
  rfl

/-- **Run without interference, the program configures the radio.** -/
theorem configured_exec (l : Locals) (d : Device) :
    Configured trxByFreq config (exec trxByFreq config (program config) l d).2 := by
  rw [device_exec]
  exact ⟨rfl, rfl, Registers.holds_writeAll _ _, Function.update_self _ _ _⟩

end

end KaonicComm.Radio
