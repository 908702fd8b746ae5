import KaonicComm.Error
import KaonicComm.Radio.Configure
import Mathlib.Data.List.Basic

/-!
# `rf215_radio` with a driver that fails

A register write may not reach the chip, `rf215_write_reg_set` and `rf215_set_freq` return an `rc`, and so do the calls
of the baseband, which may leave other registers than they found. `configure` sets the filter and assigns `_active_trx`
before it makes the first of these calls, so it leaves the selection of its configuration whatever its result is
(`selection_configure`).

`transmit` and `receive` therefore use the radio as the last successful call configured it exactly when the last call
of all selects the same transceiver and filter (`usedAsConfigured_iff`).
-/

namespace KaonicComm.Radio

/-! ## The calls -/

/-- What the driver does in a call of `configure`: which of its writes reach the chip, by their number in the program,
and the two results that `configure` looks at. -/
structure Outcome where
  lands : Nat → Bool
  writeRegSet : Int
  setFreq : Int

/-- The error that `configure` returns. -/
def Outcome.error (o : Outcome) : ErrorCode :=
  ErrorCode.plus (ErrorCode.plus .ok (.fromRc o.writeRegSet)) (.fromRc o.setFreq)

/-- A call of the baseband. -/
inductive Baseband where
  | ccaTxFrame (frame : List UInt8)
  | rx (timeout : Nat)
  deriving DecidableEq, Repr

/-- What the driver does in a call of the baseband: its result, and the registers that it leaves. -/
structure Answer where
  rc : Int
  regs : (Reg → UInt8) → Reg → UInt8 := id

/-- A call of the baseband, with the transceiver that it gets and the filter that the pins select. -/
structure Use where
  trx : Trx
  filter : Bool × Bool
  call : Baseband
  deriving DecidableEq, Repr

/-- `rf215_radio`. -/
structure RF215 where
  device : Device
  txCounter : Nat := 0
  rxCounter : Nat := 0

section

variable (trxByFreq : UInt32 → Trx)

/-- One step of `configure`; a write that does not land leaves the chip as it was. -/
def Instr.attempt (config : RadioConfig) (lands : Bool) (i : Instr) (l : Locals) (d : Device) : Locals × Device :=
  let (l', d') := i.exec trxByFreq config l d
  match i with
  | .writeReg _ _ | .writeNext | .setFreq => (l', if lands then d' else d)
  | .setV1 _ | .setV2 _ | .setActiveTrx | .readType | .fillModValues => (l', d')

/-- The steps of a program, the first of which has the number `k`. -/
def attempt (config : RadioConfig) (lands : Nat → Bool) : Nat → List Instr → Locals → Device → Device
  | _, [], _, d => d
  | k, i :: prog, l, d =>
    let (l, d) := i.attempt trxByFreq config (lands k) l d
    attempt config lands (k + 1) prog l d

/-- `rf215_radio::configure`. -/
def RF215.configure (r : RF215) (config : RadioConfig) (o : Outcome) : RF215 × ErrorCode :=
  ({ r with device := attempt trxByFreq config o.lands 0 (program config) Locals.init r.device }, o.error)

/-- The registers after a call of the baseband. -/
def Device.answered (d : Device) (a : Answer) : Device := { d with regs := a.regs d.regs }

/-- The loop of `transmit`: at most so many attempts, until one of them returns `0`. `answers` is what the driver does
in the calls of `rf215_baseband_cca_tx_frame`. -/
def txLoop (use : Use) (answers : Nat → Answer) : Nat → Nat → Device → Device × ErrorCode × List Use
  | _, 0, d => (d, .fail, [])
  | k, n + 1, d =>
    let d := d.answered (answers k)
    if (answers k).rc ≠ 0 then
      let (d, error, uses) := txLoop use answers (k + 1) n d
      (d, error, use :: uses)
    else (d, .ok, [use])

/-- `rf215_radio::transmit`, with the calls of the baseband that it makes. -/
def RF215.transmit (r : RF215) (frame : List UInt8) (answers : Nat → Answer) : RF215 × ErrorCode × List Use :=
  match r.device.activeTrx with
  | none => (r, .preconditionFailed, [])
  | some trx =>
    let (device, error, uses) :=
      txLoop ⟨trx, (r.device.v1, r.device.v2), .ccaTxFrame frame⟩ answers 0 4 r.device
    ({ r with device, txCounter := r.txCounter + 1 }, error, uses)

/-- `rf215_radio::receive`, with the calls of the baseband that it makes. `rf215_baseband_rx` answers and fills the
frame with `data`; what the caller gets is the frame if the result is ok. -/
def RF215.receive (r : RF215) (timeout : Nat) (answer : Answer) (data : List UInt8) :
    RF215 × ErrorCode × List Use × Option (List UInt8) :=
  match r.device.activeTrx with
  | none => (r, .preconditionFailed, [], none)
  | some trx =>
    let uses := [⟨trx, (r.device.v1, r.device.v2), .rx timeout⟩]
    let r := { r with device := r.device.answered answer }
    if answer.rc = 0 ∧ data.length > 0 then ({ r with rxCounter := r.rxCounter + 1 }, .ok, uses, some data)
    else (r, .timeout, uses, none)

/-- A call with what the driver does in it. -/
inductive Call where
  | configure (config : RadioConfig) (outcome : Outcome)
  | transmit (frame : List UInt8) (answers : Nat → Answer)
  | receive (timeout : Nat) (answer : Answer) (data : List UInt8)

/-- A call on a radio: the radio after it, its error and its calls of the baseband. -/
def RF215.call (r : RF215) : Call → RF215 × ErrorCode × List Use
  | .configure config outcome =>
    let (r, error) := r.configure trxByFreq config outcome
    (r, error, [])
  | .transmit frame answers => r.transmit frame answers
  | .receive timeout answer data =>
    let (r, error, uses, _) := r.receive timeout answer data
    (r, error, uses)

/-- Calls one after the other. -/
def RF215.calls (r : RF215) (cs : List Call) : RF215 := cs.foldl (fun r c => (r.call trxByFreq c).1) r

/-! ## What a call selects -/

/-- The transceiver and the filter of a configuration. -/
def selectionOf (config : RadioConfig) : Trx × Bool × Bool := (trxByFreq config.freq, selectFilter config.freq)

/-- The transceiver and the filter that a radio would use, if it is past the guard. -/
def Device.selection (d : Device) : Option (Trx × Bool × Bool) := d.activeTrx.map fun trx => (trx, d.v1, d.v2)

variable {trxByFreq}

/-- The steps that select nothing. -/
def Instr.selects : Instr → Bool
  | .setV1 _ | .setV2 _ | .setActiveTrx => true
  | .readType | .writeReg _ _ | .fillModValues | .writeNext | .setFreq => false

theorem selection_attempt_of_not_selects {config : RadioConfig} {lands : Bool} {i : Instr} (hi : i.selects = false)
    (l : Locals) (d : Device) : (i.attempt trxByFreq config lands l d).2.selection = d.selection := by
  obtain ⟨v1, v2, active, regs, tuning⟩ := d
  cases i with
  | setV1 value => cases hi
  | setV2 value => cases hi
  | setActiveTrx => cases hi
  | readType => cases active <;> rfl
  | writeReg target value => cases active <;> cases lands <;> rfl
  | fillModValues => cases active <;> rfl
  | writeNext =>
    obtain ⟨trxType, ws⟩ := l
    cases ws <;> cases active <;> cases lands <;> rfl
  | setFreq => cases active <;> cases lands <;> rfl

theorem selection_attempt {config : RadioConfig} {lands : Nat → Bool} : ∀ {prog : List Instr} (k : Nat) (l : Locals)
    (d : Device), (∀ i ∈ prog, i.selects = false) →
    (attempt trxByFreq config lands k prog l d).selection = d.selection
  | [], _, _, _, _ => rfl
  | i :: prog, k, l, d, h => by
    rw [attempt, selection_attempt _ _ _ fun j hj => h j (List.mem_cons_of_mem _ hj)]
    exact selection_attempt_of_not_selects (h i List.mem_cons_self) l d

/-- **`configure` leaves the selection of its configuration**, whatever the driver does and whatever it returns. -/
theorem selection_configure (r : RF215) (config : RadioConfig) (o : Outcome) :
    (r.configure trxByFreq config o).1.device.selection = some (selectionOf trxByFreq config) := by
  simp only [RF215.configure, program, List.cons_append, List.nil_append, attempt]
  -- the four steps before the registers make the selection, the others keep it
  rw [selection_attempt]
  · rfl
  · intro i hi
    rcases List.mem_append.mp hi with hi | hi
    · obtain ⟨w, -, rfl⟩ := List.mem_map.mp hi
      rfl
    rcases List.mem_cons.mp hi with rfl | hi
    · rfl
    rcases List.mem_append.mp hi with hi | hi
    · rw [List.eq_of_mem_replicate hi]
      rfl
    · rw [List.mem_singleton.mp hi]
      rfl

/-- The attempts of `transmit` leave the pins and `_active_trx` alone. -/
theorem selection_txLoop (use : Use) (answers : Nat → Answer) : ∀ (k n : Nat) (d : Device),
    (txLoop use answers k n d).1.selection = d.selection
  | _, 0, _ => rfl
  | k, n + 1, d => by
    unfold txLoop
    split
    · exact selection_txLoop use answers (k + 1) n (d.answered (answers k))
    · rfl

variable (trxByFreq) in
/-- `transmit` and `receive` keep the radio's selection. -/
theorem selection_call (r : RF215) (c : Call) : (r.call trxByFreq c).1.device.selection =
    match c with
    | .configure config _ => some (selectionOf trxByFreq config)
    | .transmit _ _ | .receive _ _ _ => r.device.selection := by
  cases c with
  | configure config outcome => exact selection_configure r config outcome
  | transmit frame answers =>
    simp only [RF215.call, RF215.transmit]
    split
    · rfl
    · exact selection_txLoop _ answers 0 4 r.device
  | receive timeout answer data =>
    simp only [RF215.call, RF215.receive]
    split
    · rfl
    · split <;> rfl

/-! ## What the radio is used with -/

/-- The configuration of the last call of `configure`, after the configuration `last`. -/
def lastAttempted (last : Option RadioConfig) : List Call → Option RadioConfig
  | [] => last
  | .configure config _ :: cs => lastAttempted (some config) cs
  | _ :: cs => lastAttempted last cs

/-- The configuration of the last call of `configure` that returned ok, after the configuration `last`. -/
def lastSucceeded (last : Option RadioConfig) : List Call → Option RadioConfig
  | [] => last
  | .configure config outcome :: cs => lastSucceeded (if outcome.error = .ok then some config else last) cs
  | _ :: cs => lastSucceeded last cs

/-- `transmit` or `receive`. -/
def Call.isUse : Call → Bool
  | .configure _ _ => false
  | .transmit _ _ | .receive _ _ _ => true

/-- A result of `transmit` or `receive` with this selection: past the guard and on the baseband with nothing else, or
refused if there is none. -/
def UsedWith (result : ErrorCode × List Use) : Option (Trx × Bool × Bool) → Prop
  | none => result = (.preconditionFailed, [])
  | some selection => result.2 ≠ [] ∧ ∀ u ∈ result.2, (u.trx, u.filter) = selection

theorem mem_txLoop {use : Use} {answers : Nat → Answer} : ∀ (k n : Nat) (d : Device),
    ∀ u ∈ (txLoop use answers k n d).2.2, u = use
  | _, 0, _, _, h => by cases h
  | k, n + 1, d, u, h => by
    unfold txLoop at h
    split at h
    · rcases List.mem_cons.mp h with rfl | h
      · rfl
      · exact mem_txLoop (k + 1) n _ u h
    · exact List.mem_singleton.mp h

theorem txLoop_ne_nil (use : Use) (answers : Nat → Answer) (k n : Nat) (d : Device) :
    (txLoop use answers k (n + 1) d).2.2 ≠ [] := by
  unfold txLoop
  split <;> exact List.cons_ne_nil _ _

/-- Past its guard, `receive` calls the baseband once. -/
theorem receive_uses {r : RF215} {trx : Trx} (h : r.device.activeTrx = some trx) (timeout : Nat) (answer : Answer)
    (data : List UInt8) :
    (r.receive timeout answer data).2.2.1 = [⟨trx, (r.device.v1, r.device.v2), .rx timeout⟩] := by
  simp only [RF215.receive, h]
  split <;> rfl

variable (trxByFreq) in
/-- **An operation uses the radio's selection.** -/
theorem usedWith_call (r : RF215) {c : Call} (hc : c.isUse = true) :
    UsedWith (r.call trxByFreq c).2 r.device.selection := by
  cases c with
  | configure config outcome => cases hc
  | transmit frame answers =>
    simp only [RF215.call, RF215.transmit, Device.selection]
    cases r.device.activeTrx with
    | none => rfl
    | some trx =>
      refine ⟨txLoop_ne_nil _ _ _ _ _, fun u hu => ?_⟩
      rw [mem_txLoop _ _ _ u hu]
  | receive timeout answer data =>
    cases htrx : r.device.activeTrx with
    | none =>
      simp only [RF215.call, RF215.receive, Device.selection, htrx]
      rfl
    | some trx =>
      have huses := receive_uses htrx timeout answer data
      simp only [RF215.call, Device.selection, htrx, Option.map_some, UsedWith, huses]
      refine ⟨List.cons_ne_nil _ _, fun u hu => ?_⟩
      rw [List.mem_singleton.mp hu]

/-- An operation shows the selection that it was made with. -/
theorem UsedWith.unique {result : ErrorCode × List Use} {a b : Option (Trx × Bool × Bool)} (ha : UsedWith result a)
    (hb : UsedWith result b) : a = b := by
  obtain ⟨error, uses⟩ := result
  cases a with
  | none =>
    cases b with
    | none => rfl
    | some t =>
      cases ha
      exact absurd rfl hb.1
  | some s =>
    cases b with
    | none =>
      cases hb
      exact absurd rfl ha.1
    | some t =>
      cases uses with
      | nil => exact absurd rfl ha.1
      | cons u uses => rw [← ha.2 u List.mem_cons_self, ← hb.2 u List.mem_cons_self]

/-- The selection after some calls is that of the last call of `configure`. -/
theorem selection_calls (cs : List Call) : ∀ {r : RF215} {last : Option RadioConfig},
    r.device.selection = last.map (selectionOf trxByFreq) →
    (r.calls trxByFreq cs).device.selection = (lastAttempted last cs).map (selectionOf trxByFreq) := by
  induction cs with
  | nil => exact id
  | cons c cs ih =>
    intro r last h
    have hc := selection_call trxByFreq r c
    cases c with
    | configure config outcome => exact ih hc
    | transmit frame answers => exact ih (hc.trans h)
    | receive timeout answer data => exact ih (hc.trans h)

variable (trxByFreq)

/-- Every `transmit` and `receive` among the calls uses the selection of the last call of `configure` before it that
returned ok, and is refused if there is none. -/
def UsedAsConfigured (r : RF215) (cs : List Call) : Prop :=
  ∀ k, ∀ _ : k < cs.length, cs[k].isUse = true →
    UsedWith ((r.calls trxByFreq (cs.take k)).call trxByFreq cs[k]).2
      ((lastSucceeded none (cs.take k)).map (selectionOf trxByFreq))

/-- At every `transmit` and `receive`, the last call of `configure` selects what the last one that returned ok selects,
and there is none if none returned ok. -/
def SelectionKept (cs : List Call) : Prop :=
  ∀ k, ∀ _ : k < cs.length, cs[k].isUse = true →
    (lastAttempted none (cs.take k)).map (selectionOf trxByFreq) =
      (lastSucceeded none (cs.take k)).map (selectionOf trxByFreq)

instance (cs : List Call) : Decidable (SelectionKept trxByFreq cs) :=
  inferInstanceAs (Decidable (∀ k, ∀ _ : k < cs.length, _ → _))

variable {trxByFreq}

/-- **The radio is used as configured exactly when no call of `configure` that failed has changed the selection** by the
time of a use. -/
theorem usedAsConfigured_iff {r : RF215} (hr : r.device.activeTrx = none) (cs : List Call) :
    UsedAsConfigured trxByFreq r cs ↔ SelectionKept trxByFreq cs := by
  have hselection : r.device.selection = (none : Option RadioConfig).map (selectionOf trxByFreq) := by
    rw [Device.selection, hr, Option.map_none, Option.map_none]
  have hused : ∀ done c, c.isUse = true → UsedWith ((r.calls trxByFreq done).call trxByFreq c).2
      ((lastAttempted none done).map (selectionOf trxByFreq)) := by
    intro done c hc
    have h := usedWith_call trxByFreq (r.calls trxByFreq done) hc
    rwa [selection_calls done hselection] at h
  constructor
  · intro h k hk hc
    exact (hused _ _ hc).unique (h k hk hc)
  · intro h k hk hc
    rw [← h k hk hc]
    exact hused _ _ hc

end

/-- A radio after `init`. -/
def RF215.init : RF215 where
  device := Device.init

/-- A call of `configure` for a frequency, where every write lands and `rf215_set_freq` returns `rc`. -/
def configureCall (freq : UInt32) (rc : Int) : Call :=
  .configure { freq } { lands := fun _ => true, writeRegSet := 0, setFreq := rc }

/-- The transceivers of the two bands. -/
def bandOf (freq : UInt32) : Trx := if freq < 1500000 then .rf09 else .rf24

/-- A use before any configuration, one after a configuration that succeeded, and one after another one in the same
band that failed. -/
def configuredUses : List Call :=
  [.receive 100 { rc := 0 } [1], configureCall 869535 0,
    .transmit [1, 2, 3] fun k => { rc := if k = 0 then -1 else 0 },
    configureCall 868000 (-1), .receive 100 { rc := 0 } [1]]

theorem usedAsConfigured_configuredUses : UsedAsConfigured bandOf RF215.init configuredUses :=
  (usedAsConfigured_iff rfl configuredUses).mpr (by decide)

/-- The first call of `configure` fails, and the radio transmits. -/
theorem failed_configuration_used : ¬∀ trxByFreq cs, UsedAsConfigured trxByFreq RF215.init cs := by
  intro h
  have h := h bandOf [configureCall 869535 (-1), .transmit [1] fun _ => { rc := 0 }] 1 (by decide) rfl
  have huses := congrArg (fun x : ErrorCode × List Use => x.2.length) h
  exact absurd huses (by decide)

end KaonicComm.Radio
