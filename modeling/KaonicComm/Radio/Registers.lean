import KaonicComm.Radio.Config

/-!
# The registers that `rf215_radio::configure` writes

The chip has two transceivers, each with its radio and baseband registers. `commonValues` are the registers written one
by one at the start, `modValues` the set written for the modulation, as the two branches of the visitor compute it.
-/

namespace KaonicComm.Radio

/-- `rf215_trx::type`. -/
inductive Trx where
  | rf09
  | rf24
  deriving DecidableEq, Repr

/-- `radio_regs` of a transceiver. -/
inductive RadioReg where
  | cmd | irqm | pac | padfe | auxs | rxbwc | rxdfe | txcutc | txdfe | edd | agcc | agcs
  deriving DecidableEq, Repr

/-- `baseband_regs` of a transceiver. -/
inductive BasebandReg where
  | irqm | pc | ofdmc | ofdmphrtx | ofdmsw | fskc0 | fskc1 | fskc2 | fskc3 | fskc4 | fskpll | fsksfd0l | fsksfd0h
  | fsksfd1l | fsksfd1h | fskphrtx | fskdm | fskpe0 | fskpe1 | fskpe2
  deriving DecidableEq, Repr

/-- A register of the chip. -/
inductive Reg where
  | rfClko
  | radio (trx : Trx) (reg : RadioReg)
  | baseband (trx : Trx) (reg : BasebandReg)
  deriving DecidableEq, Repr

/-! ## Front end -/

/-- The variables `txdfe`, `txcutc`, `rxdfe` and `rxbwc`. -/
structure FrontEnd where
  txdfe : UInt8 := 0
  txcutc : UInt8 := 0
  rxdfe : UInt8 := 0
  rxbwc : UInt8 := 0
  deriving DecidableEq, Repr

/-- `v << n` of a constant. -/
def shl (v n : UInt8) : UInt8 := v <<< n

/-- The `switch` on `phy_config.opt`, with `ofdmsw`. -/
def ofdmFrontEnd (opt : UInt32) (trxType : Trx) : FrontEnd × UInt8 :=
  match opt.toNat with
  | 0 =>
    ({ txdfe := 0x03 ||| shl 0x04 5, txcutc := 0x0A, rxdfe := 0x03 ||| shl 0x04 5
       rxbwc := match trxType with | .rf09 => 0x09 ||| 0b10000 | .rf24 => 0x0A ||| 0b10000 }, 0b10000 ||| shl 5 5)
  | 1 =>
    ({ txdfe := 0x03 ||| shl 0x03 5, txcutc := 0x08, rxdfe := 0x03 ||| shl 0x02 5, rxbwc := 0x07 ||| 0b10000 },
      0b10000 ||| shl 5 5)
  | 2 =>
    ({ txdfe := 0x06 ||| shl 0x03 5, txcutc := 0x05
       rxdfe := match trxType with | .rf09 => 0x06 ||| shl 0x02 5 | .rf24 => 0x06 ||| shl 0x03 5
       rxbwc := match trxType with | .rf09 => 0x04 | .rf24 => 0x05 ||| 0b10000 }, 0b10000 ||| shl 4 5)
  | 3 =>
    ({ txdfe := 0x06 ||| shl 0x02 5, txcutc := 0x03, rxdfe := 0x06 ||| shl 0x01 5
       rxbwc := match trxType with | .rf09 => 0x02 ||| 0b10000 | .rf24 => 0x03 }, 0b10000 ||| shl 3 5)
  | _ => ({}, 0b10000)

/-- The `switch` on `phy_config.srate` and the assignment after it; `narrow` is `midx == 0`. -/
def fskFrontEnd (srate midx : UInt8) (trxType : Trx) : FrontEnd :=
  let narrow := midx = 0
  let f : FrontEnd :=
    match srate.toNat with
    | 0 =>
      { txdfe := 8, txcutc := shl 3 6 ||| (if narrow then 0 else 0)
        rxdfe := 10 ||| (match trxType with | .rf09 => if narrow then 0 else 0 | .rf24 => if narrow then 0 else shl 1 5)
        rxbwc := match trxType with
          | .rf09 => (if narrow then 0 else 0) ||| (if narrow then 0 else 0)
          | .rf24 => (if narrow then 0 else 1) ||| (if narrow then 0 else 1) }
    | 1 =>
      { txdfe := 4, txcutc := shl 2 6 ||| (if narrow then 1 else 3)
        rxdfe := 5 ||| (match trxType with | .rf09 => if narrow then 0 else 0 | .rf24 => if narrow then 0 else shl 1 5)
        rxbwc := match trxType with
          | .rf09 => (if narrow then 1 else 3) ||| (if narrow then 0 else 0)
          | .rf24 => (if narrow then 1 else 4) ||| (if narrow then 0 else 0) }
    | 2 =>
      { txdfe := 2, txcutc := shl 2 6 ||| (if narrow then 3 else 5)
        rxdfe := 4 ||| (match trxType with | .rf09 => if narrow then 0 else 0 | .rf24 => if narrow then 0 else shl 2 5)
        rxbwc := match trxType with
          | .rf09 => (if narrow then 3 else 4) ||| (if narrow then 0 else 0)
          | .rf24 => (if narrow then 3 else 6) ||| (if narrow then 0 else 0) }
    | 3 =>
      { txdfe := 2, txcutc := shl 2 6 ||| (if narrow then 4 else 6)
        rxdfe := 4 ||| (match trxType with
          | .rf09 => if narrow then shl 1 5 else shl 1 5
          | .rf24 => if narrow then shl 1 5 else shl 3 5)
        rxbwc := match trxType with
          | .rf09 => (if narrow then 3 else 5) ||| (if narrow then 0 else 0b1000)
          | .rf24 => (if narrow then 4 else 6) ||| (if narrow then 0 else 0) }
    | 4 =>
      { txdfe := 1, txcutc := shl 1 6 ||| (if narrow then 6 else 8)
        rxdfe := 2 ||| (match trxType with | .rf09 => if narrow then 0 else 0 | .rf24 => if narrow then 0 else shl 1 5)
        rxbwc := match trxType with
          | .rf09 => (if narrow then 5 else 6) ||| (if narrow then 1 else 0)
          | .rf24 => (if narrow then 6 else 7) ||| (if narrow then 0 else 0) }
    | 5 =>
      { txdfe := 1, txcutc := shl 1 6 ||| (if narrow then 7 else 9)
        rxdfe := 2 ||| (match trxType with
          | .rf09 => if narrow then 0 else shl 1 5
          | .rf24 => if narrow then shl 1 5 else shl 2 5)
        rxbwc := match trxType with
          | .rf09 => (if narrow then 6 else 8) ||| (if narrow then 0 else 0b1000)
          | .rf24 => (if narrow then 7 else 8) ||| (if narrow then 0 else 0b1000) }
    | _ => {}
  { f with txdfe := f.txdfe ||| (if narrow then 0 else shl 4 5) }

/-! ## The register set of the modulation -/

/-- `cond ? a : 0`. -/
def bit (cond : Bool) (a : UInt8) : UInt8 := if cond then a else 0

/-- `mod_values` of the OFDM branch. -/
def ofdmValues (c : RadioPhyConfigOfdm) (trxType active : Trx) : List (Reg × UInt8) :=
  let (f, ofdmsw) := ofdmFrontEnd c.opt trxType
  [(.radio active .rxbwc, f.rxbwc), (.radio active .rxdfe, f.rxdfe), (.radio active .txcutc, f.txcutc),
    (.radio active .txdfe, f.txdfe), (.radio active .edd, 0x7A),
    (.baseband active .pc, 0b1110),
    (.baseband active .ofdmc, (min c.opt 3).toUInt8),
    (.baseband active .ofdmphrtx, (min c.mcs 6).toUInt8),
    (.baseband active .ofdmsw, ofdmsw)]

/-- `mod_values` of the FSK branch. -/
def fskValues (c : RadioPhyConfigFsk) (trxType active : Trx) : List (Reg × UInt8) :=
  let f := fskFrontEnd c.srate c.midx trxType
  [(.radio active .rxbwc, f.rxbwc), (.radio active .rxdfe, f.rxdfe), (.radio active .edd, 0x7A),
    (.radio active .txcutc, f.txcutc), (.radio active .txdfe, f.txdfe),
    (.radio active .agcc, 0b1000000 ||| 0b1), (.radio active .agcs, 0b100000 ||| 0b10111),
    (.baseband active .pc, 0b1101),
    (.baseband active .fskc0,
      ((c.bt &&& 0b11) <<< 6) ||| ((c.midxs &&& 0b11) <<< 4) ||| ((c.midx &&& 0b111) <<< 1) ||| (c.mord &&& 0b1)),
    (.baseband active .fskc1,
      bit c.freqInversion 0b10000 ||| (c.srate &&& 0b1111) ||| (c.preambleLength &&& 0b1100000000).toUInt8),
    (.baseband active .fskc2,
      ((c.pdtm &&& 1) <<< 7) ||| ((c.rxo &&& 0b11) <<< 5) ||| ((c.rxpto &&& 1) <<< 4) ||| ((c.mse &&& 1) <<< 3) |||
        bit c.preambleInversion 0b100 ||| ((c.fecs &&& 1) <<< 1) ||| bit c.fecie 1),
    (.baseband active .fskc3, ((c.sfdt &&& 0b1111) <<< 4) ||| (c.pdt &&& 0b1111)),
    (.baseband active .fskc4,
      bit c.sftq 0b1000000 ||| ((c.sfd32 &&& 0b1) <<< 5) ||| bit c.rawbit 0b10000 ||| ((c.csfd1 &&& 0b11) <<< 2) |||
        (c.csfd0 &&& 0b11)),
    (.baseband active .fskpll, (c.preambleLength &&& 0b11111111).toUInt8),
    (.baseband active .fsksfd0l, (c.sfd0 &&& 0b11111111).toUInt8),
    (.baseband active .fsksfd0h, ((c.sfd0 >>> 8) &&& 0b11111111).toUInt8),
    (.baseband active .fsksfd1l, (c.sfd1 &&& 0b11111111).toUInt8),
    (.baseband active .fsksfd1h, ((c.sfd1 >>> 8) &&& 0b11111111).toUInt8),
    (.baseband active .fskphrtx, ((c.sfd &&& 0b1) <<< 3) ||| ((c.dw &&& 0b1) <<< 2)),
    (.baseband active .fskdm, bit c.pe 0b10 ||| bit c.en 0b01),
    (.baseband active .fskpe0, c.fskpe0), (.baseband active .fskpe1, c.fskpe1), (.baseband active .fskpe2, c.fskpe2)]

/-- `mod_values`, for the local `trx_type` and the transceiver that `_active_trx` points to. -/
def modValues (c : RadioPhyConfig) (trxType active : Trx) : List (Reg × UInt8) :=
  match c with
  | .ofdm c => ofdmValues c trxType active
  | .fsk c => fskValues c trxType active

/-- The length of `mod_values`, which the modulation alone decides. -/
def modCount : RadioPhyConfig → Nat
  | .ofdm _ => 9
  | .fsk _ => 23

theorem length_modValues (c : RadioPhyConfig) (trxType active : Trx) :
    (modValues c trxType active).length = modCount c := by
  cases c <;> rfl

/-! ## Registers written one by one -/

/-- How `configure` names a register: one of the chip, or one of the transceiver that `_active_trx` points to. -/
inductive Target where
  | fixed (reg : Reg)
  | activeRadio (reg : RadioReg)
  | activeBaseband (reg : BasebandReg)
  deriving DecidableEq, Repr

/-- The register that is meant. -/
def Target.resolve (active : Trx) : Target → Reg
  | .fixed reg => reg
  | .activeRadio reg => .radio active reg
  | .activeBaseband reg => .baseband active reg

/-- The common registers with their values, in the order of the writes. -/
def commonValues (config : RadioConfig) : List (Target × UInt8) :=
  let txPower := (min config.txPower 12).toUInt8
  [(.fixed .rfClko, 0x02), (.activeRadio .cmd, 0x02), (.fixed (.radio .rf24 .irqm), 0x00),
    (.fixed (.radio .rf09 .irqm), 0x00), (.activeRadio .irqm, 0x1F), (.activeRadio .pac, 0b01100000 ||| txPower),
    (.activeRadio .padfe, 0b10000000), (.activeRadio .auxs, 0b01000010), (.fixed (.baseband .rf24 .irqm), 0x00),
    (.fixed (.baseband .rf09 .irqm), 0x00), (.activeBaseband .irqm, 0x12)]

end KaonicComm.Radio
