import Mathlib.Data.List.Basic

/-!
# The messages of `kaonic.proto`

One structure for each message that the serial and gRPC services read or write. `uint32` fields are `UInt32`, `int32`
fields and the open proto3 enum `RadioModule` are `Int32` (any value can arrive), a message field is an `Option`
(proto3 keeps whether it is set), and the getter of an unset message field returns the default message.
-/

namespace KaonicComm

/-- `message RadioFrame`. -/
structure RadioFrame where
  data : List UInt32 := []
  length : UInt32 := 0
  deriving DecidableEq, Repr

/-- `message RadioPhyConfigOFDM`. -/
structure RadioPhyConfigOFDM where
  mcs : UInt32 := 0
  opt : UInt32 := 0
  deriving DecidableEq, Repr

/-- `message RadioPhyConfigFSK`, the fields in the order of their numbers `1` to `30`. -/
structure RadioPhyConfigFSK where
  bt : UInt32 := 0
  midxs : UInt32 := 0
  midx : UInt32 := 0
  mord : UInt32 := 0
  preambleLength : UInt32 := 0
  freqInversion : Bool := false
  srate : UInt32 := 0
  pdtm : UInt32 := 0
  rxo : UInt32 := 0
  rxpto : UInt32 := 0
  mse : UInt32 := 0
  preambleInversion : Bool := false
  fecs : UInt32 := 0
  fecie : Bool := false
  sfdt : UInt32 := 0
  pdt : UInt32 := 0
  sftq : Bool := false
  sfd32 : UInt32 := 0
  rawbit : Bool := false
  csfd1 : UInt32 := 0
  csfd0 : UInt32 := 0
  sfd0 : UInt32 := 0
  sfd1 : UInt32 := 0
  sfd : UInt32 := 0
  dw : UInt32 := 0
  pe : Bool := false
  en : Bool := false
  fskpe0 : UInt32 := 0
  fskpe1 : UInt32 := 0
  fskpe2 : UInt32 := 0
  deriving DecidableEq, Repr

/-- `oneof phy_config` of `ConfigurationRequest`. -/
inductive PhyConfig where
  | notSet
  | ofdm (c : RadioPhyConfigOFDM)
  | fsk (c : RadioPhyConfigFSK)
  deriving DecidableEq, Repr

/-- `message ConfigurationRequest`. -/
structure ConfigurationRequest where
  module : Int32 := 0
  freq : UInt32 := 0
  channel : UInt32 := 0
  channelSpacing : UInt32 := 0
  txPower : UInt32 := 0
  phyConfig : PhyConfig := .notSet
  deriving DecidableEq, Repr

/-- `message TransmitRequest`. -/
structure TransmitRequest where
  module : Int32 := 0
  frame : Option RadioFrame := none
  deriving DecidableEq, Repr

/-- `message ReceiveResponse`. -/
structure ReceiveResponse where
  module : Int32 := 0
  frame : Option RadioFrame := none
  rssi : Int32 := 0
  latency : UInt32 := 0
  deriving DecidableEq, Repr

/-- The getter `frame()`. -/
def TransmitRequest.getFrame (m : TransmitRequest) : RadioFrame := m.frame.getD {}

/-- The getter `frame()`. -/
def ReceiveResponse.getFrame (m : ReceiveResponse) : RadioFrame := m.frame.getD {}

/-- The implicit conversion of a `RadioModule` to the `uint8_t module` of `radio_service`. -/
def moduleIndex (module : Int32) : UInt8 := module.toUInt32.toUInt8

end KaonicComm
