import KaonicComm.Lib.Runs
import KaonicComm.Radio.Image

/-!
# Configuring a radio while it is in use

The update thread of a `radio_network` calls `network::update`, which reaches `rf215_radio::transmit` and `receive`
through the callbacks of the network; other threads call `radio_network::configure`, which goes straight to
`rf215_radio::configure`. `network::update` holds the mutex of `network`; the mutexes of `radio_network` and
`rf215_radio` are never taken, so the steps of all these calls mix in any order.

The calls of the baseband are those of the driver. They may change `RG_CMD`, and are taken to leave the other registers
as they find them (`KeepsSettings`).

While calls of `configure` overlap neither each other nor a radio operation, and none of them asks for OFDM where a call
before it configured FSK on the same transceiver (`Undisturbed`), every use of the radio finds it as the last completed
call alone makes it (`configures_atomically`). Otherwise a frame can go through the filter of one configuration with the
registers of another (`receive_mixes_configurations`), or through the gain control of an earlier one
(`gain_control_left_behind`).
-/

namespace KaonicComm.Traffic

open Runs Radio

/-- Where a call of `configure` stands. -/
inductive Call where
  | called
  | running (todo : List Instr) (l : Locals)
  | returned
  deriving DecidableEq, Repr

/-- Where the update thread stands. -/
inductive Op where
  /-- In no operation of the radio. -/
  | idle
  /-- In `transmit` or `receive`, with so many calls of the baseband left. -/
  | ready (calls : Nat)
  /-- In a call of the baseband for a transceiver. -/
  | calling (trx : Trx) (calls : Nat)
  deriving DecidableEq, Repr

/-- The start or the end of a call of the baseband: the transceiver it got, the radio, and the call of `configure` that
completed last. -/
structure Use where
  trx : Trx
  device : Device
  completed : Option Nat

/-- The radio, the calls of `configure` by number, the update thread, and the history (ghost). -/
structure State where
  device : Device
  calls : Nat → Call
  op : Op
  uses : List Use
  completed : Option Nat

/-- Before any call, with what the registers hold then. -/
def init (regs : Reg → UInt8) : State where
  device := { Device.init with regs }
  calls := fun _ => .called
  op := .idle
  uses := []
  completed := none

/-- One atomic step. -/
inductive Act where
  /-- Call `i` of `configure` begins. -/
  | beginConfigure (i : Nat)
  /-- The next step of call `i`. -/
  | configure (i : Nat)
  /-- Call `i` returns. -/
  | endConfigure (i : Nat)
  /-- `transmit` tests `_active_trx`. -/
  | transmit
  /-- `receive` tests `_active_trx`. -/
  | receive
  /-- `rf215_baseband_cca_tx_frame` or `rf215_baseband_rx` begins, for `_active_trx`. -/
  | beginBaseband
  /-- It ends; `again` when the channel was busy and there is another attempt. -/
  | endBaseband (again : Bool)
  deriving DecidableEq, Repr

section

-- `rf215_get_trx_by_freq`, the configuration of each call, and the registers that each call of the baseband leaves
variable (trxByFreq : UInt32 → Trx) (config : Nat → RadioConfig)
  (leaves : Nat → Trx → (Reg → UInt8) → Reg → UInt8) (regs : Reg → UInt8)

/-- The calls of the baseband leave every register as they find it, but `RG_CMD`. -/
def KeepsSettings : Prop :=
  ∀ k trx regs (r : Reg), (∀ t, r ≠ .radio t .cmd) → leaves k trx regs r = regs r

/-- The attempts of `transmit`. -/
def attempts : Nat := 4

/-- `if (!_active_trx)` at the start of an operation. -/
def guardTrx (s : State) (calls : Nat) : Option State :=
  if s.op = .idle then
    match s.device.activeTrx with
    | none => some s
    | some _ => some { s with op := .ready calls }
  else none

/-- The steps of the calls of `configure` and of the update thread. -/
def step (s : State) : Act → Option State
  | .beginConfigure i =>
    if s.calls i = .called then
      some { s with calls := Function.update s.calls i (.running (program (config i)) Locals.init) }
    else none
  | .configure i =>
    match s.calls i with
    | .running (instr :: todo) l =>
      some { s with
        device := (instr.exec trxByFreq (config i) l s.device).2
        calls := Function.update s.calls i (.running todo (instr.exec trxByFreq (config i) l s.device).1) }
    | _ => none
  | .endConfigure i =>
    match s.calls i with
    | .running [] _ =>
      some { s with calls := Function.update s.calls i .returned, completed := some i }
    | _ => none
  | .transmit => guardTrx s attempts
  | .receive => guardTrx s 1
  | .beginBaseband =>
    match s.op, s.device.activeTrx with
    | .ready (calls + 1), some trx =>
      some { s with op := .calling trx calls, uses := s.uses ++ [⟨trx, s.device, s.completed⟩] }
    | _, _ => none
  | .endBaseband again =>
    match s.op with
    | .calling trx calls =>
      let device := { s.device with regs := leaves s.uses.length trx s.device.regs }
      some { s with
        device
        op := if again ∧ 0 < calls then .ready calls else .idle
        uses := s.uses ++ [⟨trx, device, s.completed⟩] }
    | _ => none

/-- Call `i` of `configure` has begun and not returned. -/
def InProgress (s : State) (i : Nat) : Prop := ∃ todo l, s.calls i = .running todo l

/-- The radio was used as the last completed call alone configures it, from the first registers on. -/
def Use.Atomic (u : Use) : Prop :=
  ∃ i, u.completed = some i ∧ u.trx = trxByFreq (config i).freq ∧
    ConfiguredAlone trxByFreq (config i) regs u.device

/-- Every use was, and after all calls the radio is as one of them alone configures it. -/
def ConfiguresAtomically (s : State) : Prop :=
  (∀ u ∈ s.uses, u.Atomic trxByFreq config regs) ∧
    ((∀ i, ¬InProgress s i) → (∃ i, s.calls i = .returned) →
      ∃ i, s.calls i = .returned ∧ ConfiguredAlone trxByFreq (config i) regs s.device)

/-- The call asks for FSK on a transceiver. -/
def AsksFsk (trx : Trx) (i : Nat) : Prop := IsFsk (config i).phyConfig ∧ trxByFreq (config i).freq = trx

/-- When calls of `configure` overlap neither each other nor an operation of the radio, and none asks for OFDM on a
transceiver that a call before it configured FSK on. -/
def Undisturbed (s : State) : Act → Prop
  | .beginConfigure i => ((∀ j, ¬InProgress s j) ∧ s.op = .idle) ∧
    (¬IsFsk (config i).phyConfig →
      ∀ j, s.calls j = .returned → ¬AsksFsk trxByFreq config (trxByFreq (config i).freq) j)
  | .transmit | .receive => ∀ j, ¬InProgress s j
  | _ => True

/-! ## The invariant -/

/-- The gain control of a transceiver is as it was at first, unless one of these calls configured FSK on it. -/
def GainKept (returned : Nat → Prop) (d : Device) : Prop :=
  ∀ trx, (∀ j, returned j → ¬AsksFsk trxByFreq config trx j) →
    ∀ w ∈ gainControl, d.regs (.radio trx w.1) = regs (.radio trx w.1)

/-- No call of `configure` is in progress: the radio is as the last one left it, and the update thread uses it so. -/
structure Quiet (s : State) : Prop where
  calls : ∀ i, ¬InProgress s i
  fresh : s.completed = none → s.device.activeTrx = none ∧ s.op = .idle ∧ ∀ i, s.calls i ≠ .returned
  configured : ∀ i, s.completed = some i → s.calls i = .returned ∧ ConfiguredAlone trxByFreq (config i) regs s.device
  gain : GainKept trxByFreq config regs (fun j => s.calls j = .returned) s.device
  trx : ∀ trx calls, s.op = .calling trx calls → s.device.activeTrx = some trx

/-- Call `i` alone is in progress, and the rest of it will configure the radio. -/
structure Busy (i : Nat) (s : State) : Prop where
  others : ∀ j, j ≠ i → ¬InProgress s j
  op : s.op = .idle
  pending : ∃ todo l, s.calls i = .running todo l ∧
    ConfiguredAlone trxByFreq (config i) regs (exec trxByFreq (config i) todo l s.device).2 ∧
    GainKept trxByFreq config regs (fun j => s.calls j = .returned ∨ j = i)
      (exec trxByFreq (config i) todo l s.device).2

/-- The invariant of undisturbed runs. -/
structure Inv (s : State) : Prop where
  uses : ∀ u ∈ s.uses, u.Atomic trxByFreq config regs
  phase : Quiet trxByFreq config regs s ∨ ∃ i, Busy trxByFreq config regs i s

variable {trxByFreq config leaves regs}

theorem inv_init : Inv trxByFreq config regs (init regs) where
  uses := nofun
  phase := Or.inl
    { calls := fun _ ⟨_, _, h⟩ => nomatch h
      fresh := fun _ => ⟨rfl, rfl, fun _ => nofun⟩
      configured := nofun
      gain := fun _ _ _ _ => rfl
      trx := nofun }

/-- A call of `configure` writes the gain control for FSK only. -/
theorem GainKept.exec {returned : Nat → Prop} {d : Device} (h : GainKept trxByFreq config regs returned d) (i : Nat)
    (l : Locals) : GainKept trxByFreq config regs (fun j => returned j ∨ j = i)
      (exec trxByFreq (config i) (program (config i)) l d).2 := by
  intro trx hno w hw
  have hnone : Registers.lastWrite (.radio trx w.1) (regValues trxByFreq (config i)) = none :=
    lastWrite_gain_eq_none hw fun hfsk htrx => hno i (Or.inr rfl) ⟨hfsk, htrx⟩
  rw [regs_exec, Registers.writeAll_apply, hnone]
  exact h trx (fun j hj => hno j (Or.inl hj)) w hw

/-- More calls that may have configured FSK. -/
theorem GainKept.of_returned {returned returned' : Nat → Prop} {d : Device}
    (h : GainKept trxByFreq config regs returned d) (hle : ∀ j, returned j → returned' j) :
    GainKept trxByFreq config regs returned' d :=
  fun trx hno => h trx fun j hj => hno j (hle j hj)

/-- The baseband leaves the gain control alone. -/
theorem GainKept.baseband {returned : Nat → Prop} {d : Device} (hkeeps : KeepsSettings leaves)
    (h : GainKept trxByFreq config regs returned d) (k : Nat) (trx : Trx) :
    GainKept trxByFreq config regs returned { d with regs := leaves k trx d.regs } := by
  intro t hno w hw
  refine (hkeeps k trx d.regs _ fun t' => ?_).trans (h t hno w hw)
  intro he
  have hcmd := (Reg.radio.inj he).2
  simp only [gainControl, List.mem_cons, List.not_mem_nil, or_false] at hw
  rcases hw with rfl | rfl <;> cases hcmd

/-- The baseband leaves the image of a configuration alone. -/
theorem configuredAlone_baseband {c : RadioConfig} {d : Device} (hkeeps : KeepsSettings leaves)
    (h : ConfiguredAlone trxByFreq c regs d) (k : Nat) (trx : Trx) :
    ConfiguredAlone trxByFreq c regs { d with regs := leaves k trx d.regs } := by
  refine ⟨h.filter, h.active, fun r hr => ?_, h.tuned⟩
  refine (hkeeps k trx d.regs r fun t => ?_).trans (h.image r hr)
  rintro rfl
  rcases hr with hr | ⟨-, hr⟩
  · cases hr
  · exact hr rfl

theorem Busy.inProgress {i : Nat} {s : State} (h : Busy trxByFreq config regs i s) : InProgress s i := by
  obtain ⟨todo, l, hc, -⟩ := h.pending
  exact ⟨todo, l, hc⟩

/-- A step of call `i` leaves the others where they are. -/
theorem inProgress_of_ne {s s' : State} {i j : Nat} {c : Call} (h : s'.calls = Function.update s.calls i c)
    (hj : j ≠ i) (hp : InProgress s' j) : InProgress s j := by
  obtain ⟨todo, l, hc⟩ := hp
  rw [h, Function.update_of_ne hj] at hc
  exact ⟨todo, l, hc⟩

/-- A step of a busy state is one of its call. -/
theorem Busy.eq_of_inProgress {i j : Nat} {s : State} (h : Busy trxByFreq config regs i s) (hj : InProgress s j) :
    j = i := by
  by_contra hne
  exact h.others j hne hj

/-- A step of call `i` takes no other one back. -/
theorem returned_update {calls : Nat → Call} {i j : Nat} (c : Call) (h : calls j = .returned ∨ j = i) :
    Function.update calls i c j = .returned ∨ j = i := by
  by_cases hj : j = i
  · exact Or.inr hj
  · rw [Function.update_of_ne hj]
    exact h

/-- The call that returns. -/
theorem returned_endConfigure {calls : Nat → Call} {i j : Nat} (h : calls j = .returned ∨ j = i) :
    Function.update calls i .returned j = .returned := by
  by_cases hj : j = i
  · subst hj
    exact Function.update_self _ _ _
  · rw [Function.update_of_ne hj]
    exact h.resolve_right hj

/-- The update thread is in an operation only if no call of `configure` is in progress. -/
theorem Inv.quiet_of_op {s : State} (h : Inv trxByFreq config regs s) (hop : s.op ≠ .idle) :
    Quiet trxByFreq config regs s := by
  rcases h.phase with hq | ⟨i, hb⟩
  · exact hq
  · exact absurd hb.op hop

/-- In a quiet state an active transceiver is that of the last completed call. -/
theorem Quiet.atomic {s : State} (h : Quiet trxByFreq config regs s) {trx : Trx} (ht : s.device.activeTrx = some trx) :
    Use.Atomic trxByFreq config regs ⟨trx, s.device, s.completed⟩ := by
  cases hc : s.completed with
  | none =>
    rw [(h.fresh hc).1] at ht
    cases ht
  | some i =>
    have hconf := (h.configured i hc).2
    refine ⟨i, rfl, ?_, hconf⟩
    rw [hconf.active, Option.some.injEq] at ht
    exact ht.symm

/-- A call of the baseband in a quiet state. -/
theorem Quiet.baseband {s : State} (hkeeps : KeepsSettings leaves) (h : Quiet trxByFreq config regs s) (k : Nat)
    (trx : Trx) :
    Quiet trxByFreq config regs { s with device := { s.device with regs := leaves k trx s.device.regs } } where
  calls := h.calls
  fresh := h.fresh
  configured i hi := ⟨(h.configured i hi).1, configuredAlone_baseband hkeeps (h.configured i hi).2 k trx⟩
  gain := h.gain.baseband hkeeps k trx
  trx := h.trx

theorem uses_append {uses : List Use} {u : Use} (h : ∀ v ∈ uses, v.Atomic trxByFreq config regs)
    (hu : u.Atomic trxByFreq config regs) : ∀ v ∈ uses ++ [u], v.Atomic trxByFreq config regs := by
  intro v hv
  rcases List.mem_append.mp hv with hv | hv
  · exact h v hv
  · rw [List.mem_singleton.mp hv]
    exact hu

/-- An operation that begins. -/
theorem inv_guard {s s' : State} {calls : Nat} (hs : Inv trxByFreq config regs s) (hu : ∀ j, ¬InProgress s j)
    (h : guardTrx s calls = some s') : Inv trxByFreq config regs s' := by
  have hq : Quiet trxByFreq config regs s := hs.phase.resolve_right fun ⟨i, hb⟩ => hu i hb.inProgress
  simp only [guardTrx] at h
  split at h
  · split at h
    · cases h
      exact hs
    · rename_i trx htrx
      cases h
      refine ⟨hs.uses, Or.inl ⟨hq.calls, fun hc => ?_, hq.configured, hq.gain, nofun⟩⟩
      rw [(hq.fresh hc).1] at htrx
      cases htrx
  · cases h

/-- **Undisturbed steps keep the invariant.** -/
theorem inv_step {s s' : State} {a : Act} (hkeeps : KeepsSettings leaves) (hs : Inv trxByFreq config regs s)
    (hu : Undisturbed trxByFreq config s a) (h : step trxByFreq config leaves s a = some s') :
    Inv trxByFreq config regs s' := by
  cases a with
  | beginConfigure i =>
    simp only [step] at h
    split at h
    · cases h
      obtain ⟨⟨hnone, hop⟩, hofdm⟩ := hu
      have hq : Quiet trxByFreq config regs s := hs.phase.resolve_right fun ⟨i, hb⟩ => hnone i hb.inProgress
      -- no call that returned configured FSK where this one asks for OFDM
      have halone := image_of_gain Locals.init s.device fun hphy => hq.gain _ (hofdm hphy)
      refine ⟨hs.uses, Or.inr ⟨i, ⟨fun j hj hp => hnone j (inProgress_of_ne rfl hj hp), hop, _, _,
        Function.update_self _ _ _, halone, ?_⟩⟩⟩
      exact (hq.gain.exec i Locals.init).of_returned fun _ => returned_update _
    · cases h
  | configure i =>
    simp only [step] at h
    split at h
    · rename_i instr todo l hcall
      cases h
      rcases hs.phase with hq | ⟨k, hb⟩
      · exact absurd ⟨_, _, hcall⟩ (hq.calls i)
      · obtain rfl := hb.eq_of_inProgress ⟨_, _, hcall⟩
        -- what was pending is this step and the rest
        obtain ⟨todo', l', hc, hpending, hgain⟩ := hb.pending
        rw [hcall] at hc
        cases hc
        refine ⟨hs.uses, Or.inr ⟨i, ⟨fun j hj hp => hb.others j hj (inProgress_of_ne rfl hj hp), hb.op, _, _,
          Function.update_self _ _ _, hpending, ?_⟩⟩⟩
        exact hgain.of_returned fun _ => returned_update _
    · cases h
  | endConfigure i =>
    simp only [step] at h
    split at h
    · rename_i l hcall
      cases h
      rcases hs.phase with hq | ⟨k, hb⟩
      · exact absurd ⟨_, _, hcall⟩ (hq.calls i)
      · obtain rfl := hb.eq_of_inProgress ⟨_, _, hcall⟩
        obtain ⟨todo, l', hc, hp, hgain⟩ := hb.pending
        rw [hcall] at hc
        cases hc
        refine ⟨hs.uses, Or.inl ⟨fun j hp => ?_, nofun, fun j hj => ?_, ?_, fun trx calls hop => ?_⟩⟩
        · by_cases hj : j = i
          · subst hj
            obtain ⟨todo, l, hc⟩ := hp
            cases (Function.update_self j Call.returned s.calls).symm.trans hc
          · exact hb.others j hj (inProgress_of_ne rfl hj hp)
        · cases hj
          exact ⟨Function.update_self _ _ _, hp⟩
        · exact hgain.of_returned fun _ => returned_endConfigure
        · have hop : s.op = .calling trx calls := hop
          rw [hb.op] at hop
          cases hop
    · cases h
  | transmit => exact inv_guard hs hu h
  | receive => exact inv_guard hs hu h
  | beginBaseband =>
    simp only [step] at h
    split at h
    · rename_i calls trx hop htrx
      cases h
      have hq := hs.quiet_of_op (by rw [hop]; nofun)
      refine ⟨uses_append hs.uses (hq.atomic htrx), Or.inl ⟨hq.calls, fun hc => ?_, hq.configured, hq.gain, ?_⟩⟩
      · rw [(hq.fresh hc).1] at htrx
        cases htrx
      · rintro trx' calls' ⟨⟩
        exact htrx
    · cases h
  | endBaseband again =>
    simp only [step] at h
    split at h
    · rename_i trx calls hop
      cases h
      have hq := hs.quiet_of_op (by rw [hop]; nofun)
      have htrx := hq.trx trx calls hop
      have hq' := hq.baseband hkeeps s.uses.length trx
      refine ⟨uses_append hs.uses (hq'.atomic htrx), Or.inl ⟨hq.calls, fun hc => ?_, hq'.configured, hq'.gain, ?_⟩⟩
      · rw [(hq.fresh hc).1] at htrx
        cases htrx
      · intro trx' calls' hop'
        have hop' : (if again ∧ 0 < calls then Op.ready calls else .idle) = .calling trx' calls' := hop'
        split at hop' <;> cases hop'
    · cases h

/-- **In undisturbed runs every configuration is atomic.** -/
theorem configures_atomically (hkeeps : KeepsSettings leaves) {as : List Act} {s : State}
    (hu : Along (step trxByFreq config leaves) (Undisturbed trxByFreq config) (init regs) as)
    (h : run (step trxByFreq config leaves) (init regs) as = some s) :
    ConfiguresAtomically trxByFreq config regs s := by
  have hs := run_inv (fun _ _ _ hs hP hstep => inv_step hkeeps hs hP hstep) inv_init hu h
  refine ⟨hs.uses, fun hnone hret => ?_⟩
  have hq : Quiet trxByFreq config regs s := hs.phase.resolve_right fun ⟨i, hb⟩ => hnone i hb.inProgress
  cases hc : s.completed with
  | none =>
    obtain ⟨i, hi⟩ := hret
    exact absurd hi ((hq.fresh hc).2.2 i)
  | some i => exact ⟨i, hq.configured i hc⟩

end

/-- `rf215_get_trx_by_freq`: the transceiver of the band, the frequency in kHz. -/
def trxByFreq (freq : UInt32) : Trx := if freq < 2000000 then .rf09 else .rf24

/-- A driver that leaves `RG_CMD` of the transceiver at the state for reception. -/
def leavesRx (_ : Nat) (trx : Trx) (regs : Reg → UInt8) : Reg → UInt8 :=
  Function.update regs (.radio trx .cmd) 0x05

theorem keepsSettings_leavesRx : KeepsSettings leavesRx :=
  fun _ _ _ _ hr => Function.update_of_ne (hr _) _ _

/-- Call `0` asks for the default configuration, call `1` for another filter, and the others for FSK there. -/
def configs : Nat → RadioConfig
  | 0 => {}
  | 1 => { freq := 915000 }
  | _ + 2 => { freq := 915000, phyConfig := .fsk {} }

/-- All steps of a call. -/
def configureWhole (i : Nat) : List Act :=
  .beginConfigure i :: (List.replicate (program (configs i)).length (.configure i) ++ [.endConfigure i])

/-- A frame that goes out at the second attempt, then another configuration begins. -/
def useThenConfigure : List Act :=
  [.transmit, .beginBaseband, .endBaseband true, .beginBaseband, .endBaseband false, .beginConfigure 1, .configure 1]

/-- A frame is received while the second configuration has set one pin of the filter. -/
def overlapping : List Act :=
  configureWhole 0 ++ [.beginConfigure 1, .configure 1, .receive, .beginBaseband]

/-- The radio after a run, from registers that are all zero. -/
def after (as : List Act) : State :=
  (run (step trxByFreq configs leavesRx) (init fun _ => 0) as).getD (init fun _ => 0)

theorem run_configureFirst :
    run (step trxByFreq configs leavesRx) (init fun _ => 0) (configureWhole 0) = some (after (configureWhole 0)) := rfl

/-- Other calls have not begun. -/
theorem calls_configureFirst {j : Nat} (hj : j ≠ 0) : (after (configureWhole 0)).calls j = .called := by
  refine run_inv (P := fun _ a => a ∈ configureWhole 0) (I := fun s => s.calls j = .called) ?_ rfl
    (along_of_forall (fun _ _ h => h) (init fun _ => 0)) run_configureFirst
  intro s a s' hs ha h
  simp only [configureWhole, List.mem_cons, List.mem_append, List.mem_replicate, List.not_mem_nil,
    or_false] at ha
  rcases ha with rfl | ⟨-, rfl⟩ | rfl <;> simp only [step] at h <;> split at h <;> cases h <;>
    exact (Function.update_of_ne hj _ _).trans hs

theorem quiet_configureFirst (j : Nat) : ¬InProgress (after (configureWhole 0)) j := by
  rintro ⟨todo, l, h⟩
  by_cases hj : j = 0
  · subst hj
    cases h
  · rw [calls_configureFirst hj] at h
    cases h

/-- Only OFDM was configured. -/
theorem ofdm_configureFirst (trx : Trx) (j : Nat) (h : (after (configureWhole 0)).calls j = .returned) :
    ¬AsksFsk trxByFreq configs trx j := by
  by_cases hj : j = 0
  · subst hj
    exact And.left
  · rw [calls_configureFirst hj] at h
    cases h

theorem undisturbed_useThenConfigure : Along (step trxByFreq configs leavesRx) (Undisturbed trxByFreq configs)
    (init fun _ => 0) (configureWhole 0 ++ useThenConfigure) := by
  refine Along.append (.cons ⟨⟨fun _ ⟨_, _, h⟩ => (nomatch h), rfl⟩, fun _ _ h => (nomatch h)⟩ rfl
    (along_of_forall (fun _ a ha => ?_) _)) fun t ht => ?_
  · simp only [List.mem_append, List.mem_replicate, List.mem_singleton] at ha
    rcases ha with ⟨-, rfl⟩ | rfl <;> trivial
  · rw [run_configureFirst, Option.some.injEq] at ht
    subst ht
    exact .cons quiet_configureFirst rfl <| .cons trivial rfl <| .cons trivial rfl <| .cons trivial rfl <|
      .cons trivial rfl <| .cons ⟨⟨quiet_configureFirst, rfl⟩, fun _ => ofdm_configureFirst _⟩ rfl <|
      .cons trivial rfl trivial

theorem configures_atomically_useThenConfigure :
    ∃ s, run (step trxByFreq configs leavesRx) (init fun _ => 0) (configureWhole 0 ++ useThenConfigure) = some s ∧
      s.uses.length = 4 ∧ ConfiguresAtomically trxByFreq configs (fun _ => 0) s :=
  have h : run (step trxByFreq configs leavesRx) (init fun _ => 0) (configureWhole 0 ++ useThenConfigure) =
    some (after (configureWhole 0 ++ useThenConfigure)) := rfl
  ⟨_, h, rfl, configures_atomically keepsSettings_leavesRx undisturbed_useThenConfigure h⟩

/-- A frame is received through a filter that no configuration asked for. -/
theorem receive_mixes_configurations : ¬∀ (trxByFreq : UInt32 → Trx) (config : Nat → RadioConfig)
    (leaves : Nat → Trx → (Reg → UInt8) → Reg → UInt8) (regs : Reg → UInt8), KeepsSettings leaves →
    ∀ as s, run (step trxByFreq config leaves) (init regs) as = some s →
      ConfiguresAtomically trxByFreq config regs s := by
  intro h
  have hu := (h trxByFreq configs leavesRx (fun _ => 0) keepsSettings_leavesRx overlapping (after overlapping) rfl).1
  obtain ⟨i, hi, -, hconf⟩ := hu ⟨.rf09, (after overlapping).device, some 0⟩ (List.mem_singleton.mpr rfl)
  cases hi
  exact absurd hconf.filter (by decide)

/-- FSK, then OFDM on the same transceiver, and a frame is received. -/
def ofdmAfterFsk : List Act := configureWhole 2 ++ (configureWhole 1 ++ [.receive, .beginBaseband])

set_option maxRecDepth 2000 in
/-- Calls one after the other: the frame is received with the gain control of the first one. -/
theorem gain_control_left_behind :
    run (step trxByFreq configs leavesRx) (init fun _ => 0) ofdmAfterFsk = some (after ofdmAfterFsk) ∧
      ¬ConfiguresAtomically trxByFreq configs (fun _ => 0) (after ofdmAfterFsk) := by
  refine ⟨rfl, fun h => ?_⟩
  obtain ⟨i, hi, -, hconf⟩ := h.1 ⟨.rf09, (after ofdmAfterFsk).device, some 1⟩ (List.mem_singleton.mpr rfl)
  cases hi
  exact absurd (hconf.image (.radio .rf09 .agcc) (Or.inr ⟨rfl, nofun⟩)) (by decide)

end KaonicComm.Traffic
