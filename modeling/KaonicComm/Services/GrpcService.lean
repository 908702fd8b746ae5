import KaonicComm.Proto.Wire
import KaonicComm.Services.SerialService

/-!
# `grpc_service`: `Configure` and `Transmit`

Each RPC is one call of the radio service, whose result becomes its status. `Configure` carries the fields of the
request over by hand: it reads `tx_power` and leaves it out, and it narrows `sfd0` and `sfd1` to eight bits where
`radio_phy_config_fsk` has sixteen. So a request that fits the fields of `radio_config` arrives as it is exactly when
its power is the default one and both delimiters fit a byte (`configures_faithfully_iff`).

The serial front end makes the same call for a `TransmitRequest`, and leaves out the PHY selection of a
`ConfigurationRequest` (`agree_iff`).
-/

namespace KaonicComm.GrpcService

open SerialService (RadioCall)

/-- `::grpc::StatusCode`. -/
inductive StatusCode where
  | failedPrecondition
  | internal
  deriving DecidableEq, Repr

/-- `::grpc::Status`. -/
inductive Status where
  | ok
  | error (code : StatusCode) (message : String)
  deriving DecidableEq, Repr

/-- The members of `grpc_service` that the two RPCs use. -/
structure Service where
  /-- Whether `_radio_service` is set. -/
  radioService : Bool
  txFrame : List UInt8 := []
  deriving DecidableEq, Repr

/-- The variable `phy_config` of `Configure` for a PHY selection. -/
def phyConfig : PhyConfig → RadioPhyConfig
  | .notSet => .ofdm {}
  | .ofdm c => .ofdm { mcs := c.mcs, opt := c.opt }
  | .fsk c => .fsk
    { bt := c.bt.toUInt8
      midxs := c.midxs.toUInt8
      midx := c.midx.toUInt8
      mord := c.mord.toUInt8
      preambleLength := c.preambleLength.toUInt16
      freqInversion := c.freqInversion
      srate := c.srate.toUInt8
      pdtm := c.pdtm.toUInt8
      rxo := c.rxo.toUInt8
      rxpto := c.rxpto.toUInt8
      mse := c.mse.toUInt8
      preambleInversion := c.preambleInversion
      fecs := c.fecs.toUInt8
      fecie := c.fecie
      sfdt := c.sfdt.toUInt8
      pdt := c.pdt.toUInt8
      sftq := c.sftq
      sfd32 := c.sfd32.toUInt8
      rawbit := c.rawbit
      csfd1 := c.csfd1.toUInt8
      csfd0 := c.csfd0.toUInt8
      -- the casts name `uint8_t`, the fields are `uint16_t`
      sfd0 := c.sfd0.toUInt8.toUInt16
      sfd1 := c.sfd1.toUInt8.toUInt16
      sfd := c.sfd.toUInt8
      dw := c.dw.toUInt8
      pe := c.pe
      en := c.en
      fskpe0 := c.fskpe0.toUInt8
      fskpe1 := c.fskpe1.toUInt8
      fskpe2 := c.fskpe2.toUInt8 }

/-- The variable `config` of `Configure`. -/
def radioConfig (request : ConfigurationRequest) : RadioConfig where
  freq := request.freq
  channel := request.channel.toUInt8
  channelSpacing := request.channelSpacing
  phyConfig := phyConfig request.phyConfig

/-- `grpc_service::Configure`, with the calls it makes; `isOk` is whether the radio service succeeds. -/
def configure (s : Service) (request : ConfigurationRequest) (isOk : Bool) : Service × List RadioCall × Status :=
  if !s.radioService then
    (s, [], .error .failedPrecondition "Unable to configure radio: radio service wasn't initialized")
  else
    (s, [.configure (moduleIndex request.module) (radioConfig request)],
      if isOk then .ok else .error .internal "Unable to configure radio")

/-- `grpc_service::Transmit`, with the calls it makes. -/
def transmit (s : Service) (request : TransmitRequest) (isOk : Bool) : Service × List RadioCall × Status :=
  if !s.radioService then
    (s, [], .error .failedPrecondition "Unable to transmit: radio service wasn't initialized")
  else
    let txFrame := grpcBufPack request.getFrame s.txFrame
    ({ s with txFrame }, [.transmit (moduleIndex request.module) txFrame],
      if isOk then .ok else .error .internal "Unable to transmit")

/-- With a radio service, `Configure` makes one call, whatever the service answers. -/
theorem configure_calls {s : Service} (hs : s.radioService = true) (m : ConfigurationRequest) (isOk : Bool) :
    (configure s m isOk).2.1 = [.configure (moduleIndex m.module) (radioConfig m)] := by
  simp only [configure, hs, Bool.not_true, Bool.false_eq_true, if_false]

/-! ## What `Configure` carries over -/

/-- The values of the fields of `radio_phy_config_fsk`, in their order. -/
def fskValues (c : RadioPhyConfigFsk) : List Nat :=
  [c.bt.toNat, c.midxs.toNat, c.midx.toNat, c.mord.toNat, c.preambleLength.toNat, c.freqInversion.toNat,
    c.srate.toNat, c.pdtm.toNat, c.rxo.toNat, c.rxpto.toNat, c.mse.toNat, c.preambleInversion.toNat, c.fecs.toNat,
    c.fecie.toNat, c.sfdt.toNat, c.pdt.toNat, c.sftq.toNat, c.sfd32.toNat, c.rawbit.toNat, c.csfd1.toNat,
    c.csfd0.toNat, c.sfd0.toNat, c.sfd1.toNat, c.sfd.toNat, c.dw.toNat, c.pe.toNat, c.en.toNat, c.fskpe0.toNat,
    c.fskpe1.toNat, c.fskpe2.toNat]

/-- How many bits each of these fields has. -/
def fskWidths : List Nat :=
  [8, 8, 8, 8, 16, 1, 8, 8, 8, 8, 8, 1, 8, 1, 8, 8, 1, 8, 1, 8, 8, 16, 16, 8, 8, 1, 1, 8, 8, 8]

/-- Every field of the request fits the field of `radio_config` or of the PHY variant that has its name. -/
def Fits (m : ConfigurationRequest) : Prop :=
  m.channel.toNat < 2 ^ 8 ∧ ∀ c, m.phyConfig = .fsk c → List.Forall₂ (fun n w => n < 2 ^ w) c.values fskWidths

/-- A PHY variant with the values of the one that the request selects, the default one if it selects none. -/
def CarriesPhy (phy : RadioPhyConfig) : PhyConfig → Prop
  | .notSet => phy = .ofdm {}
  | .ofdm c => phy = .ofdm { mcs := c.mcs, opt := c.opt }
  | .fsk c => ∃ f, phy = .fsk f ∧ fskValues f = c.values

/-- A configuration with the values of the request. -/
structure Carries (config : RadioConfig) (m : ConfigurationRequest) : Prop where
  freq : config.freq = m.freq
  channel : config.channel.toNat = m.channel.toNat
  channelSpacing : config.channelSpacing = m.channelSpacing
  txPower : config.txPower = m.txPower
  phy : CarriesPhy config.phyConfig m.phyConfig

/-- Whatever `Configure` was called for before and whatever the radio service answers, it configures the radio once,
with the values of the request. -/
def ConfiguresFaithfully (m : ConfigurationRequest) : Prop :=
  ∀ (s : Service) (isOk : Bool), s.radioService = true →
    ∃ config, (configure s m isOk).2.1 = [.configure (moduleIndex m.module) config] ∧ Carries config m

/-- The start-of-frame delimiters of an FSK selection fit a byte. -/
def SfdFits : PhyConfig → Prop
  | .fsk c => c.sfd0.toNat < 2 ^ 8 ∧ c.sfd1.toNat < 2 ^ 8
  | _ => True

theorem carriesPhy_iff {phy : PhyConfig}
    (h : ∀ c, phy = .fsk c → List.Forall₂ (fun n w => n < 2 ^ w) c.values fskWidths) :
    CarriesPhy (phyConfig phy) phy ↔ SfdFits phy := by
  cases phy with
  | notSet => simp [CarriesPhy, phyConfig, SfdFits]
  | ofdm c => simp [CarriesPhy, phyConfig, SfdFits]
  | fsk c =>
    have h := h c rfl
    simp only [RadioPhyConfigFSK.values, fskWidths, List.forall₂_cons] at h
    simp [CarriesPhy, phyConfig, SfdFits, fskValues, RadioPhyConfigFSK.values]
    omega

/-- The power of the configuration is the default one, whatever was asked for. -/
theorem carries_iff {m : ConfigurationRequest} (h : Fits m) :
    Carries (radioConfig m) m ↔ m.txPower = 10 ∧ SfdFits m.phyConfig := by
  have hchannel : m.channel.toUInt8.toNat = m.channel.toNat := by
    rw [UInt32.toNat_toUInt8]
    exact Nat.mod_eq_of_lt h.1
  constructor
  · intro hc
    exact ⟨hc.txPower.symm, (carriesPhy_iff h.2).mp hc.phy⟩
  · rintro ⟨hp, hs⟩
    exact ⟨rfl, hchannel, rfl, hp.symm, (carriesPhy_iff h.2).mpr hs⟩

/-- **`Configure` carries a request that fits exactly when it asks for the default power and its delimiters fit a
byte.** -/
theorem configures_faithfully_iff {m : ConfigurationRequest} (h : Fits m) :
    ConfiguresFaithfully m ↔ m.txPower = 10 ∧ SfdFits m.phyConfig := by
  rw [← carries_iff h]
  constructor
  · intro hf
    obtain ⟨config, hcall, hc⟩ := hf { radioService := true } true rfl
    rw [configure_calls rfl] at hcall
    cases hcall
    exact hc
  · intro hc s isOk hs
    exact ⟨_, configure_calls hs m isOk, hc⟩

/-- A request for the band around 869 MHz with an OFDM selection. -/
def ofdmRequest (txPower : UInt32) : ConfigurationRequest where
  freq := 869535
  channel := 11
  channelSpacing := 200
  txPower := txPower
  phyConfig := .ofdm { mcs := 3, opt := 1 }

theorem fits_ofdmRequest (txPower : UInt32) : Fits (ofdmRequest txPower) :=
  ⟨show (11 : UInt32).toNat < 2 ^ 8 by decide, fun _ h => by cases h⟩

theorem configures_faithfully_ofdmRequest : ConfiguresFaithfully (ofdmRequest 10) :=
  (configures_faithfully_iff (fits_ofdmRequest 10)).mpr ⟨rfl, trivial⟩

/-- The power that is asked for does not reach the radio. -/
theorem power_dropped : ¬∀ m, Fits m → ConfiguresFaithfully m := by
  intro h
  obtain ⟨config, hcall, hc⟩ := h (ofdmRequest 5) (fits_ofdmRequest 5) { radioService := true } true rfl
  cases hcall
  exact absurd hc.txPower (by decide)

/-! ## The two front ends -/

/-- A request that both front ends take. -/
inductive Request where
  | configure (m : ConfigurationRequest)
  | transmit (m : TransmitRequest)
  deriving DecidableEq, Repr

/-- The packet that carries a request on the serial line. -/
def Request.payload : Request → Packet.Payload
  | .configure m => .configurationRequest m
  | .transmit m => .transmitRequest m

/-- The calls of `serial_service::handle_packet`. -/
def serialCalls (s : SerialService.Service) (r : Request) : List RadioCall :=
  (SerialService.handlePacket s r.payload).2

/-- The calls of `Configure` or `Transmit`. -/
def grpcCalls (s : Service) (isOk : Bool) : Request → List RadioCall
  | .configure m => (configure s m isOk).2.1
  | .transmit m => (transmit s m isOk).2.1

/-- Both front ends make the same calls, whatever each of them handled before. -/
def Agree (r : Request) : Prop :=
  ∀ (serial : SerialService.Service) (grpc : Service) (isOk : Bool), grpc.radioService = true →
    serialCalls serial r = grpcCalls grpc isOk r

/-- The request selects no PHY, or the default one. -/
def DefaultPhy : Request → Prop
  | .configure m => m.phyConfig = .notSet ∨ m.phyConfig = .ofdm { mcs := 6, opt := 0 }
  | .transmit _ => True

/-- The default variant stands for these selections. -/
theorem phyConfig_eq_default_iff (phy : PhyConfig) :
    phyConfig phy = .ofdm {} ↔ phy = .notSet ∨ phy = .ofdm { mcs := 6, opt := 0 } := by
  cases phy with
  | notSet => simp [phyConfig]
  | ofdm c =>
    obtain ⟨mcs, opt⟩ := c
    simp [phyConfig]
  | fsk c => simp [phyConfig]

/-- **The front ends agree exactly when no other PHY than the default one is selected.** -/
theorem agree_iff (r : Request) : Agree r ↔ DefaultPhy r := by
  cases r with
  | configure m =>
    have hserial : ∀ serial, serialCalls serial (.configure m) =
        [.configure (moduleIndex m.module) { radioConfig m with phyConfig := .ofdm {} }] := fun _ => rfl
    rw [DefaultPhy, ← phyConfig_eq_default_iff]
    constructor
    · intro h
      have h := h SerialService.init { radioService := true } true rfl
      rw [hserial, grpcCalls, configure_calls rfl] at h
      simp only [List.cons.injEq, RadioCall.configure.injEq, true_and, and_true] at h
      exact (congrArg RadioConfig.phyConfig h).symm
    · intro h serial grpc isOk hs
      rw [hserial, grpcCalls, configure_calls hs, ← h]
      rfl
  | transmit m =>
    refine ⟨fun _ => trivial, fun _ serial grpc isOk hs => ?_⟩
    -- the buffers that the two services reuse have no influence
    have hpack : bufPack m.getFrame serial.frame = grpcBufPack m.getFrame grpc.txFrame := by
      rw [bufPack, grpcBufPack, packBuffer_eq, packBuffer_eq]
    simp only [serialCalls, Request.payload, SerialService.handlePacket, grpcCalls, transmit, hs, hpack, Bool.not_true,
      Bool.false_eq_true, if_false]

/-- The serial line leaves the radio with OFDM where gRPC selects FSK. -/
theorem front_ends_differ : ¬∀ r, Agree r := by
  intro h
  have h := h (.configure { freq := 869535, channel := 11, channelSpacing := 200, txPower := 10, phyConfig := .fsk {} })
  exact absurd (h SerialService.init { radioService := true } true rfl) (by decide)

end KaonicComm.GrpcService
