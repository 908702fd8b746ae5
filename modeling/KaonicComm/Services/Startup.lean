import KaonicComm.Radio.Filter
import KaonicComm.Radio.Results
import KaonicComm.Radio.Spi
import KaonicComm.Services.Requests

/-!
# `main`

`main` selects the pins and the SPI device of its radios by the name of the machine, creates the first radio (the second
one stands under `if (false)`), and attaches one listener to the radio service, that of gRPC. A radio that cannot be
initialized or configured is left out, and the service then has none.

In every run of the service after that, a frame reaches the listener once while it is alive, and a request is forwarded
to the radio if there is one and the lowest byte of its module is 0, and is refused otherwise (`started_serves`). What
is forwarded is what `Configure` and `Transmit` make of the request (`asked`): the power is the default one.
-/

namespace KaonicComm.Startup

open Bytes Radio Runs
open GrpcService (Request)

/-! ## The machine -/

/-- `gpio_spec`. -/
structure GpioSpec where
  gpioChip : String
  gpioLine : Nat
  deriving DecidableEq, Repr

/-- `rf215_radio_config`. -/
structure RF215RadioConfig where
  name : String
  spi : Spi.SpiConfig
  rstGpio : GpioSpec
  irqGpio : GpioSpec
  fltSelV1Gpio : GpioSpec
  fltSelV2Gpio : GpioSpec
  fltSel24Gpio : GpioSpec
  deriving DecidableEq, Repr

/-- `kaonic_machine_config`. -/
structure MachineConfig where
  rfaConfig : RF215RadioConfig
  rfbConfig : RF215RadioConfig
  deriving DecidableEq, Repr

/-- `rf215_spi_freq`. -/
def rf215SpiFreq : UInt32 := 5 * 1000 * 1000

def machineConfigProtoa : MachineConfig where
  rfaConfig :=
    { name := "rfa", spi := { dev := "/dev/spidev6.0", speed := rf215SpiFreq }
      rstGpio := ⟨"/dev/gpiochip3", 8⟩, irqGpio := ⟨"/dev/gpiochip3", 9⟩
      fltSelV1Gpio := ⟨"/dev/gpiochip8", 10⟩, fltSelV2Gpio := ⟨"/dev/gpiochip8", 11⟩
      fltSel24Gpio := ⟨"/dev/gpiochip8", 12⟩ }
  rfbConfig :=
    { name := "rfb", spi := { dev := "/dev/spidev3.0", speed := rf215SpiFreq }
      rstGpio := ⟨"/dev/gpiochip4", 13⟩, irqGpio := ⟨"/dev/gpiochip4", 15⟩
      fltSelV1Gpio := ⟨"/dev/gpiochip8", 0⟩, fltSelV2Gpio := ⟨"/dev/gpiochip8", 1⟩
      fltSel24Gpio := ⟨"/dev/gpiochip8", 2⟩ }

def machineConfigProtob : MachineConfig where
  rfaConfig :=
    { name := "rfa", spi := { dev := "/dev/spidev6.0", speed := rf215SpiFreq }
      rstGpio := ⟨"/dev/gpiochip3", 8⟩, irqGpio := ⟨"/dev/gpiochip3", 9⟩
      fltSelV1Gpio := ⟨"/dev/gpiochip9", 10⟩, fltSelV2Gpio := ⟨"/dev/gpiochip9", 11⟩
      fltSel24Gpio := ⟨"/dev/gpiochip9", 12⟩ }
  rfbConfig :=
    { name := "rfb", spi := { dev := "/dev/spidev3.0", speed := 5 * 1000 * 1000 }
      rstGpio := ⟨"/dev/gpiochip4", 13⟩, irqGpio := ⟨"/dev/gpiochip4", 15⟩
      fltSelV1Gpio := ⟨"/dev/gpiochip9", 0⟩, fltSelV2Gpio := ⟨"/dev/gpiochip9", 1⟩
      fltSel24Gpio := ⟨"/dev/gpiochip9", 2⟩ }

def machineConfigProtoc : MachineConfig := machineConfigProtob

/-- `select_machine_config`; `file` is `/etc/kaonic/kaonic_machine`, if it can be opened. -/
def selectMachineConfig (file : Option String) : MachineConfig :=
  -- `std::getline`
  let machine := String.ofList ((file.getD "").toList.takeWhile fun c => c ≠ '\n')
  if machine = "stm32mp1-kaonic-protoa" then machineConfigProtoa
  else if machine = "stm32mp1-kaonic-protob" then machineConfigProtob
  else if machine = "stm32mp1-kaonic-protoc" then machineConfigProtoc
  else machineConfigProtoc

/-- The lines that a radio requests. -/
def RF215RadioConfig.lines (c : RF215RadioConfig) : List GpioSpec :=
  [c.irqGpio, c.rstGpio, c.fltSelV1Gpio, c.fltSelV2Gpio, c.fltSel24Gpio]

/-- The radios of a machine share neither a line nor an SPI device, and no radio requests a line twice. -/
def MachineConfig.Apart (m : MachineConfig) : Prop :=
  (m.rfaConfig.lines ++ m.rfbConfig.lines).Nodup ∧ m.rfaConfig.spi.dev ≠ m.rfbConfig.spi.dev

instance (m : MachineConfig) : Decidable m.Apart := inferInstanceAs (Decidable (_ ∧ _))

/-- **The radios of every machine are apart.** -/
theorem apart_selectMachineConfig (file : Option String) : (selectMachineConfig file).Apart := by
  have hall : machineConfigProtoa.Apart ∧ machineConfigProtob.Apart ∧ machineConfigProtoc.Apart := by decide
  unfold selectMachineConfig
  dsimp only
  split
  · exact hall.1
  split
  · exact hall.2.1
  split
  · exact hall.2.2
  · exact hall.2.2

/-! ## The radios -/

/-- What the hardware of a radio answers to `init` and to the call of `configure` after it. -/
structure Hardware where
  init : InitOutcome
  configure : Outcome

/-- Both calls return ok. -/
def Hardware.Ok (hw : Hardware) : Prop := hw.init.error = .ok ∧ hw.configure.error = .ok

instance (hw : Hardware) : Decidable hw.Ok := inferInstanceAs (Decidable (_ ∧ _))

/-- The configuration that `create_radio` gives to a radio. -/
def radioConfig (channel : UInt8) : RadioConfig where
  freq := 869535
  channel
  channelSpacing := 200
  txPower := 10
  phyConfig := .ofdm { mcs := 6, opt := 0 }

section

variable (trxByFreq : UInt32 → Trx)

/-- `create_radio`; the hardware is that of the lines and the device of the configuration. -/
def createRadio (hw : RF215RadioConfig → Hardware) (config : RF215RadioConfig) (channel : UInt8) : Option RF215 :=
  let radio : RF215 := { device := Device.init }
  if (hw config).init.error ≠ .ok then none
  else
    let (radio, err) := radio.configure trxByFreq (radioConfig channel) (hw config).configure
    if err ≠ .ok then none else some radio

/-- The radios that `main` creates. The second block stands under `if (false)`. -/
def radios (hw : RF215RadioConfig → Hardware) (file : Option String) : List RF215 :=
  (createRadio trxByFreq hw (selectMachineConfig file).rfaConfig 11).toList

end

variable {trxByFreq : UInt32 → Trx} {hw : RF215RadioConfig → Hardware}

/-- A radio is created exactly when both calls return ok. -/
theorem isSome_createRadio_iff (config : RF215RadioConfig) (channel : UInt8) :
    (createRadio trxByFreq hw config channel).isSome ↔ (hw config).Ok := by
  unfold createRadio Hardware.Ok
  by_cases hi : (hw config).init.error = .ok
  · by_cases hc : (hw config).configure.error = .ok <;> simp [hi, RF215.configure, hc]
  · simp [hi]

/-- There is one radio or none. -/
theorem length_radios (file : Option String) :
    (radios trxByFreq hw file).length = if (hw (selectMachineConfig file).rfaConfig).Ok then 1 else 0 := by
  have hiff := @isSome_createRadio_iff trxByFreq hw (selectMachineConfig file).rfaConfig 11
  unfold radios
  cases h : createRadio trxByFreq hw (selectMachineConfig file).rfaConfig 11 with
  | none =>
    rw [h] at hiff
    rw [if_neg fun hok => Bool.false_ne_true (hiff.mpr hok)]
    rfl
  | some radio =>
    rw [h] at hiff
    rw [if_pos (hiff.mp rfl)]
    rfl

/-- **A radio that was created without a failure is configured as `create_radio` asks.** -/
theorem configured_createRadio {config : RF215RadioConfig} {channel : UInt8} {radio : RF215}
    (h : createRadio trxByFreq hw config channel = some radio)
    (hsucceeds : (hw config).configure.Succeeds (radioConfig channel)) :
    Configured trxByFreq (radioConfig channel) radio.device := by
  unfold createRadio at h
  dsimp only at h
  split at h
  · cases h
  · split at h
    · cases h
    · cases h
      exact configured_of_succeeded hsucceeds _

/-- The filter of such a radio is that of its carrier for the channels up to 32. -/
theorem keepsBand_radioConfig_iff (channel : UInt8) : KeepsBand (radioConfig channel) ↔ channel.toNat ≤ 32 := by
  have hcarrier : (freqOf (radioConfig channel)).carrier = 869535 + channel.toNat * 200 := rfl
  have hfreq : (radioConfig channel).freq.toNat = 869535 := rfl
  have hnot : ¬upperBand.Holds 869535 := by decide
  have hlower : lowerBand.Holds 869535 := by decide
  constructor
  · intro h
    have hle := h.lower (hfreq ▸ hlower)
    rw [hcarrier] at hle
    change 869535 + channel.toNat * 200 ≤ 876000 at hle
    omega
  · intro h
    refine ⟨fun hu => absurd (hfreq ▸ hu) hnot, fun _ => ?_, fun _ hl => absurd (hfreq ▸ hlower) hl⟩
    rw [hcarrier]
    change 869535 + channel.toNat * 200 ≤ 876000
    omega

/-! ## The service -/

/-- The listeners: `grpc_radio_listener`. -/
inductive Listener where
  | grpc
  deriving DecidableEq, Repr

/-- The service that `main` starts with so many radios. -/
def start (radios : Nat) : FanOut.State Listener where
  service := (radioService radios).attachListener (some .grpc)
  alive := fun _ => true
  attached := [.grpc]

/-- A step that attaches a listener. -/
def Attaches : FanOut.Act Listener → Prop
  | .attach _ => True
  | .expire _ => False
  | .receive _ _ => False

theorem run_start {n : Nat} {as : List (FanOut.Act Listener)} {s : FanOut.State Listener}
    (h : run FanOut.step (start n) as = some s) :
    run FanOut.step (FanOut.init n) (.attach (some .grpc) :: as) = some s := h

/-- The listener of gRPC stays the only one. -/
theorem attached_run {n : Nat} {as : List (FanOut.Act Listener)} {s : FanOut.State Listener}
    (has : ∀ a ∈ as, ¬Attaches a) (h : run FanOut.step (start n) as = some s) : s.attached = [.grpc] := by
  refine run_inv (I := fun s : FanOut.State Listener => s.attached = [.grpc]) (P := fun _ a => ¬Attaches a)
    ?_ rfl (along_of_forall (fun _ => has) _) h
  intro s a s' hs ha hstep
  cases a with
  | attach listener => exact absurd trivial ha
  | expire listener =>
    cases hstep
    exact hs
  | receive i data =>
    simp only [FanOut.step, Option.map_eq_some_iff] at hstep
    obtain ⟨r, -, rfl⟩ := hstep
    exact hs

/-- The client of gRPC is told what the radio service answered. -/
theorem reply_eq_ok_iff {front : GrpcService.Service} (hf : front.radioService = true) (isOk : Bool) (r : Request) :
    (FrontEnd.grpc front).reply isOk r = .status .ok ↔ isOk = true := by
  cases r <;> cases isOk <;> simp [FrontEnd.reply, GrpcService.configure, GrpcService.transmit, hf]

/-- What a radio is asked for a request: `Configure` leaves the power at its default and narrows the PHY, `Transmit`
packs the bytes. -/
def asked : Request → RadioRequest
  | .configure m => .configure
    { freq := m.freq
      channel := m.channel.toUInt8
      channelSpacing := m.channelSpacing
      txPower := 10
      phyConfig := GrpcService.phyConfig m.phyConfig }
  | .transmit m => .transmit (resize (bytes m.getFrame.data) m.getFrame.length.toNat 0)

/-- Both RPCs make one call of the radio service, for that. -/
theorem calls_asked {front : GrpcService.Service} (hf : front.radioService = true) (isOk : Bool) (r : Request) :
    (FrontEnd.grpc front).calls isOk r = [FrontEnd.callOf (moduleIndex (FrontEnd.module r)) (asked r)] := by
  cases r with
  | configure m => exact GrpcService.configure_calls hf m isOk
  | transmit m =>
    have hpack : grpcBufPack m.getFrame front.txFrame = resize (bytes m.getFrame.data) m.getFrame.length.toNat 0 :=
      packBuffer_eq _ _
    simp only [FrontEnd.calls, GrpcService.grpcCalls, GrpcService.transmit, hf, Bool.not_true, Bool.false_eq_true,
      if_false, hpack]
    rfl

/-- **A request is forwarded as it is asked to the radio of the lowest byte of its module, and the client is told what
this radio answers; or it is refused.** -/
theorem handle_asked {n : Nat} {s : RadioService Listener} (hs : s.Wired n) {front : GrpcService.Service}
    (hf : front.radioService = true) (answer : Nat → RadioRequest → ErrorCode) (r : Request) :
    let module := (moduleIndex (FrontEnd.module r)).toNat
    let handled := (FrontEnd.grpc front).handle s answer r
    if module < n then
      handled.forwarded = [(module, asked r)] ∧ (handled.reply = .status .ok ↔ answer module (asked r) = .ok)
    else handled.forwarded = [] ∧ handled.reply.Refuses := by
  have hready : FrontEnd.Ready (.grpc front) := hf
  simp only [FrontEnd.handle, calls_asked hf, List.map_cons, List.map_nil, FrontEnd.serve_callOf, forward_eq hs]
  split
  · refine ⟨rfl, (reply_eq_ok_iff hf _ r).trans ?_⟩
    simp
  · exact ⟨rfl, FrontEnd.reply_refuses hready r⟩

/-- A request reaches the radio of `main`. -/
def Reaches (hw : Hardware) (r : Request) : Prop := hw.Ok ∧ (FrontEnd.module r).toInt % 256 = 0

/-- What the service does: a frame of a radio that it has goes to the listener of gRPC, once and while it is alive; a
request that reaches the radio is forwarded to it as it is asked, and no other one is; and the client is told what the
radio answered, or of an error. -/
structure Serves (n : Nat) (hw : Hardware) (s : FanOut.State Listener) (front : GrpcService.Service) : Prop where
  frame : ∀ i < n, ∀ data, FanOut.deliveries s i data = some (if s.alive .grpc then [(.grpc, data)] else [])
  reached : ∀ answer r, Reaches hw r →
    ((FrontEnd.grpc front).handle s.service answer r).forwarded = [(0, asked r)] ∧
    (((FrontEnd.grpc front).handle s.service answer r).reply = .status .ok ↔ answer 0 (asked r) = .ok)
  refused : ∀ answer r, ¬Reaches hw r → ((FrontEnd.grpc front).handle s.service answer r).forwarded = [] ∧
    ((FrontEnd.grpc front).handle s.service answer r).reply.Refuses

/-- **After the start every frame and every request is served**, in every run in which nobody else attaches a listener,
whichever machine it is and whatever its hardware answers. -/
theorem started_serves (file : Option String) {as : List (FanOut.Act Listener)} {s : FanOut.State Listener}
    (has : ∀ a ∈ as, ¬Attaches a) (h : run FanOut.step (start (radios trxByFreq hw file).length) as = some s)
    {front : GrpcService.Service} (hf : front.radioService = true) :
    Serves (radios trxByFreq hw file).length (hw (selectMachineConfig file).rfaConfig) s front := by
  have hwired := wired_run (run_start h)
  have hlen := @length_radios trxByFreq hw file
  have hreaches : ∀ r, Reaches (hw (selectMachineConfig file).rfaConfig) r ↔
      (moduleIndex (FrontEnd.module r)).toNat < (radios trxByFreq hw file).length := by
    intro r
    have hmod := FrontEnd.toNat_moduleIndex (FrontEnd.module r)
    rw [hlen, Reaches]
    split
    · rename_i hok
      rw [and_iff_right hok]
      omega
    · rename_i hok
      exact iff_of_false (fun h => hok h.1) (Nat.not_lt_zero _)
  refine ⟨fun i hi data => ?_, fun answer r hr => ?_, fun answer r hr => ?_⟩
  · have hone : (radios trxByFreq hw file).length = 1 := by
      rw [hlen] at hi ⊢
      split at hi
      · exact if_pos ‹_›
      · exact absurd hi (Nat.not_lt_zero i)
    rw [FanOut.deliveries_eq (run_start h) hi, attached_run has h, hone]
    cases halive : s.alive .grpc <;> simp [halive]
  · have hlt := (hreaches r).mp hr
    have hzero : (moduleIndex (FrontEnd.module r)).toNat = 0 := by
      rw [hlen] at hlt
      split at hlt <;> omega
    have hhandled := handle_asked hwired hf answer r
    dsimp only at hhandled
    rwa [if_pos hlt, hzero] at hhandled
  · have hhandled := handle_asked hwired hf answer r
    dsimp only at hhandled
    rwa [if_neg fun hlt => hr ((hreaches r).mpr hlt)] at hhandled

/-- Hardware without failures. -/
def sound : Hardware where
  init :=
    { spiOpen := .ok, irqGpio := true, rstGpio := true, fltSelV1Gpio := true, fltSelV2Gpio := true
      fltSel24Gpio := true, rf215Init := 0, rf215Probe := 0x34 }
  configure := { lands := fun _ => true, writeRegSet := 0, setFreq := 0 }

/-- A frame on the radio of a machine without a name. -/
theorem started_serves_sound : ∃ s,
    run FanOut.step (start (radios (fun _ => .rf09) (fun _ => sound) none).length) [.receive 0 [7, 8]] = some s ∧
      Serves (radios (fun _ => .rf09) (fun _ => sound) none).length sound s { radioService := true } :=
  have h : run FanOut.step (start (radios (fun _ => .rf09) (fun _ => sound) none).length) [.receive 0 [7, 8]] =
      some ((run FanOut.step (start (radios (fun _ => .rf09) (fun _ => sound) none).length)
        [.receive 0 [7, 8]]).get rfl) := rfl
  ⟨_, h, started_serves none (fun a ha => by cases List.mem_singleton.mp ha; exact id) h rfl⟩

end KaonicComm.Startup
