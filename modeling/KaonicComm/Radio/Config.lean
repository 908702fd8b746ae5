import Mathlib.Data.List.Basic

/-!
# `radio_config`

The configuration that the services hand to a radio, with the default values of `radio.hpp`.
-/

namespace KaonicComm

/-- `data_max_size`. -/
def dataMaxSize : Nat := 2048

/-- `radio_phy_config_ofdm`. -/
structure RadioPhyConfigOfdm where
  mcs : UInt32 := 6
  opt : UInt32 := 0
  deriving DecidableEq, Repr

/-- `radio_phy_config_fsk`. -/
structure RadioPhyConfigFsk where
  bt : UInt8 := 0x03
  midxs : UInt8 := 0x01
  midx : UInt8 := 0x03
  mord : UInt8 := 0x00
  preambleLength : UInt16 := 0
  freqInversion : Bool := false
  srate : UInt8 := 0x00
  pdtm : UInt8 := 0x00
  rxo : UInt8 := 0x02
  rxpto : UInt8 := 0x00
  mse : UInt8 := 0x00
  preambleInversion : Bool := false
  fecs : UInt8 := 0x00
  fecie : Bool := true
  sfdt : UInt8 := 0x08
  pdt : UInt8 := 0x05
  sftq : Bool := false
  sfd32 : UInt8 := 0
  rawbit : Bool := true
  csfd1 : UInt8 := 0x02
  csfd0 : UInt8 := 0x00
  sfd0 : UInt16 := 0x7209
  sfd1 : UInt16 := 0x72F6
  sfd : UInt8 := 0x00
  dw : UInt8 := 0x01
  pe : Bool := false
  en : Bool := false
  fskpe0 : UInt8 := 0x00
  fskpe1 : UInt8 := 0x00
  fskpe2 : UInt8 := 0x00
  deriving DecidableEq, Repr

/-- `radio_phy_config_t`. -/
inductive RadioPhyConfig where
  | ofdm (c : RadioPhyConfigOfdm)
  | fsk (c : RadioPhyConfigFsk)
  deriving DecidableEq, Repr

/-- `radio_config`. -/
structure RadioConfig where
  freq : UInt32 := 869535
  channel : UInt8 := 1
  channelSpacing : UInt32 := 200
  txPower : UInt32 := 10
  phyConfig : RadioPhyConfig := .ofdm {}
  deriving DecidableEq, Repr

end KaonicComm
