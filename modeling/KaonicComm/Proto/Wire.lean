import KaonicComm.Lib.Proto3
import KaonicComm.Proto.Messages
import Mathlib.Algebra.Group.Int.Defs
import Mathlib.Data.Bool.Basic

/-!
# Serializing the messages of `kaonic.proto`

The services use the generated classes only through `SerializeToArray` and `ParseFromArray`, of which they rely on one
fact: parsing undoes serializing (`Codec`). `protobuf` is the codec of each message in the proto3 format.
-/

namespace KaonicComm

open Proto3

/-- `INT_MAX`, the longest message that `SerializeToArray` and `ParseFromArray` take. -/
def intMax : Nat := 2 ^ 31 - 1

/-- Serializing and parsing the messages of one type. -/
structure Codec (M : Type) where
  serialize : M → List UInt8
  parse : List UInt8 → Option M
  parse_serialize : ∀ m, (serialize m).length ≤ intMax → parse (serialize m) = some m

/-- The codecs of the messages that travel on the serial line. -/
structure Protobuf where
  configurationRequest : Codec ConfigurationRequest
  transmitRequest : Codec TransmitRequest
  receiveResponse : Codec ReceiveResponse

/-! ## Messages as fields -/

/-- A message given by its fields is a codec if its fields fit and give it back, as far as it can be serialized. -/
def codecOf {M : Type} (fields : M → List Field) (ofFields : List Field → Option M)
    (fits : ∀ m, (putFields (fields m)).length ≤ intMax → ∀ f ∈ fields m, f.Fits)
    (ofFields_fields : ∀ m, (putFields (fields m)).length ≤ intMax → ofFields (fields m) = some m) : Codec M where
  serialize m := putFields (fields m)
  parse bytes := (getFields bytes).bind ofFields
  parse_serialize m h := by rw [getFields_putFields (fits m h), Option.bind_some, ofFields_fields m h]

theorem length_le_of_len {fs : List Field} {k : Nat} {bytes : List UInt8} (h : ⟨k, .len bytes⟩ ∈ fs) :
    bytes.length ≤ (putFields fs).length := by
  refine Nat.le_trans ?_ (length_le_of_mem h)
  simp only [Field.put, Value.put, List.length_append]
  omega

/-- The varint of an `int32`: its sign is extended to 64 bits. -/
def int32Varint (x : Int32) : Nat := (x.toInt % 2 ^ 64).toNat

theorem ofInt_int32Varint (x : Int32) : Int32.ofInt (int32Varint x) = x := by
  have h : ((int32Varint x : Nat) : Int) = x.toInt % 2 ^ 64 := Int.toNat_of_nonneg (by omega)
  have hlo := x.le_toInt
  have hhi := x.toInt_lt
  rw [h, ← Int32.toInt_inj, Int32.toInt_ofInt, Int.bmod_def]
  simp only [Int32.size] at *
  omega

theorem int32Varint_lt (x : Int32) : int32Varint x < 2 ^ 64 := by
  unfold int32Varint
  omega

theorem varints_cons {n : Nat} {ns : List Nat} (h : n < 2 ^ 64) (hs : ∀ m ∈ ns, m < 2 ^ 64) :
    ∀ m ∈ n :: ns, m < 2 ^ 64 :=
  List.forall_mem_cons.mpr ⟨h, hs⟩

theorem toNat_lt_varint (x : UInt32) : x.toNat < 2 ^ 64 := Nat.lt_trans x.toNat_lt (by decide)

/-- A message in a field fits if what it is part of can be serialized. -/
theorem fits_len {fs : List Field} {k : Nat} {bytes : List UInt8} (hk : 0 < k ∧ k < 2 ^ 29)
    (hf : ⟨k, .len bytes⟩ ∈ fs) (h : (putFields fs).length ≤ intMax) : (⟨k, .len bytes⟩ : Field).Fits :=
  ⟨hk.1, hk.2, Nat.lt_of_le_of_lt (Nat.le_trans (length_le_of_len hf) h) (by decide)⟩

/-- The fields of a message with a message between scalars. -/
def fieldsAround (ns : List Nat) (k : Nat) (m : Option (List UInt8)) (ms : List Nat) : List Field :=
  scalarFields 1 ns ++ (messageField k m ++ scalarFields (k + 1) ms)

theorem fits_fieldsAround {ns ms : List Nat} {k : Nat} {m : Option (List UInt8)}
    (hk : 0 < k ∧ ns.length + k + ms.length < 2 ^ 28) (hns : ∀ n ∈ ns, n < 2 ^ 64) (hms : ∀ n ∈ ms, n < 2 ^ 64)
    (h : (putFields (fieldsAround ns k m ms)).length ≤ intMax) : ∀ f ∈ fieldsAround ns k m ms, f.Fits := by
  intro f hf
  have hmem := hf
  rcases List.mem_append.mp hf with hf | hf
  · exact fits_scalarFields (by omega) hns f hf
  rcases List.mem_append.mp hf with hf | hf
  · cases m with
    | none => cases hf
    | some bytes =>
      rw [messageField, List.mem_singleton] at hf
      subst hf
      exact fits_len (by omega) hmem h
  · exact fits_scalarFields (by omega) hms f hf

/-- The message in the field `k`, if it is set. -/
def getMessage {M : Type} (c : Codec M) (k : Nat) (fs : List Field) : Option (Option M) :=
  match oneofFrom none [k] fs with
  | none => some none
  | some (_, bytes) => (c.parse bytes).map some

theorem getMessage_fieldsAround {M : Type} (c : Codec M) {k : Nat} {ns ms : List Nat} {m : Option M}
    (h : (putFields (fieldsAround ns k (m.map c.serialize) ms)).length ≤ intMax) :
    getMessage c k (fieldsAround ns k (m.map c.serialize) ms) = some m := by
  rw [getMessage, fieldsAround, oneofFrom_messageField (List.mem_singleton_self k)]
  cases m with
  | none => rfl
  | some x =>
    have hmem : ⟨k, .len (c.serialize x)⟩ ∈ fieldsAround ns k (some (c.serialize x)) ms := by
      simp [fieldsAround, messageField]
    simp [c.parse_serialize x (Nat.le_trans (length_le_of_len hmem) h)]

/-- How long a message with a message between scalars is at most. -/
theorem length_fieldsAround_le (ns : List Nat) (k : Nat) (m : Option (List UInt8)) (ms : List Nat) :
    (putFields (fieldsAround ns k m ms)).length ≤ 20 * (ns.length + ms.length + 1) + (m.getD []).length := by
  have hns := length_scalarFields_le 1 ns
  have hm := length_messageField_le k m
  have hms := length_scalarFields_le (k + 1) ms
  rw [fieldsAround, putFields_append, putFields_append, List.length_append, List.length_append]
  omega

/-! ## `RadioFrame` -/

namespace RadioFrame

def fields (m : RadioFrame) : List Field :=
  packedField 1 (m.data.map UInt32.toNat) ++ scalarField 2 m.length.toNat

def ofFields (fs : List Field) : Option RadioFrame :=
  (numbersOf 1 fs).map fun ns => { data := ns.map UInt32.ofNat, length := UInt32.ofNat (scalarFrom 0 2 fs) }

theorem fits (m : RadioFrame) (h : (putFields m.fields).length ≤ intMax) : ∀ f ∈ m.fields, f.Fits := by
  intro f hf
  rcases List.mem_append.mp hf with hp | hs
  · unfold packedField at hp
    split at hp
    · cases hp
    · rw [List.mem_singleton] at hp
      subst hp
      exact fits_len (by decide) hf h
  · exact fits_scalarField (by decide) (toNat_lt_varint m.length) f hs

theorem ofFields_fields (m : RadioFrame) : ofFields m.fields = some m := by
  have hdata : ∀ n ∈ m.data.map UInt32.toNat, n < 2 ^ 64 := by
    intro n hn
    obtain ⟨x, -, rfl⟩ := List.mem_map.mp hn
    exact toNat_lt_varint x
  have hlength : (if m.length.toNat = 0 then 0 else m.length.toNat) = m.length.toNat := by
    split <;> omega
  rw [ofFields, fields, numbersOf_packedField hdata (numbersOf_scalarField (by decide) _)]
  simp [hlength, Function.comp_def]

def codec : Codec RadioFrame := codecOf fields ofFields fits fun m _ => ofFields_fields m

/-- A word of the frame takes at most five bytes. -/
theorem length_serialize_le (m : RadioFrame) : (codec.serialize m).length ≤ 40 + 5 * m.data.length := by
  have hdata := @length_packedField_le 1 (m.data.map UInt32.toNat) (by
    intro n hn
    obtain ⟨x, -, rfl⟩ := List.mem_map.mp hn
    exact x.toNat_lt)
  have hlength := length_scalarField_le 2 m.length.toNat
  show (putFields m.fields).length ≤ _
  rw [fields, putFields_append, List.length_append]
  rw [List.length_map] at hdata
  omega

/-- The same of a frame that may be unset. -/
theorem length_serialize_getD_le (m : Option RadioFrame) :
    ((m.map codec.serialize).getD []).length ≤ 40 + 5 * (m.getD {}).data.length := by
  cases m with
  | none => exact Nat.zero_le _
  | some m => exact length_serialize_le m

end RadioFrame

/-! ## `TransmitRequest` and `ReceiveResponse` -/

namespace TransmitRequest

def fields (m : TransmitRequest) : List Field :=
  fieldsAround [int32Varint m.module] 2 (m.frame.map RadioFrame.codec.serialize) []

def ofFields (fs : List Field) : Option TransmitRequest :=
  (getMessage RadioFrame.codec 2 fs).map fun frame => { module := Int32.ofInt (scalarFrom 0 1 fs), frame }

theorem fits (m : TransmitRequest) (h : (putFields m.fields).length ≤ intMax) : ∀ f ∈ m.fields, f.Fits :=
  fits_fieldsAround (by simp) (varints_cons (int32Varint_lt _) nofun) nofun h

theorem ofFields_fields (m : TransmitRequest) (h : (putFields m.fields).length ≤ intMax) :
    ofFields m.fields = some m := by
  rw [ofFields, fields, getMessage_fieldsAround _ h]
  simp [fieldsAround, ofInt_int32Varint]

def codec : Codec TransmitRequest := codecOf fields ofFields fits ofFields_fields

theorem length_serialize_le (m : TransmitRequest) :
    (codec.serialize m).length ≤ 80 + 5 * m.getFrame.data.length := by
  have hframe := RadioFrame.length_serialize_getD_le m.frame
  refine Nat.le_trans (length_fieldsAround_le [int32Varint m.module] 2 (m.frame.map RadioFrame.codec.serialize) []) ?_
  simp only [getFrame, List.length_cons, List.length_nil] at hframe ⊢
  omega

-- the module, and a frame of one word (a packed varint) and its length
example : codec.serialize { module := 1, frame := some { data := [0x04030201], length := 4 } } =
    [0x08, 0x01, 0x12, 0x08, 0x0A, 0x04, 0x81, 0x84, 0x8C, 0x20, 0x10, 0x04] := by decide +kernel

end TransmitRequest

namespace ReceiveResponse

def fields (m : ReceiveResponse) : List Field :=
  fieldsAround [int32Varint m.module] 2 (m.frame.map RadioFrame.codec.serialize)
    [int32Varint m.rssi, m.latency.toNat]

def ofFields (fs : List Field) : Option ReceiveResponse :=
  (getMessage RadioFrame.codec 2 fs).map fun frame =>
    { module := Int32.ofInt (scalarFrom 0 1 fs)
      frame
      rssi := Int32.ofInt (scalarFrom 0 3 fs)
      latency := UInt32.ofNat (scalarFrom 0 4 fs) }

theorem fits (m : ReceiveResponse) (h : (putFields m.fields).length ≤ intMax) : ∀ f ∈ m.fields, f.Fits :=
  fits_fieldsAround (by simp) (varints_cons (int32Varint_lt _) nofun)
    (varints_cons (int32Varint_lt _) (varints_cons (toNat_lt_varint _) nofun)) h

theorem ofFields_fields (m : ReceiveResponse) (h : (putFields m.fields).length ≤ intMax) :
    ofFields m.fields = some m := by
  rw [ofFields, fields, getMessage_fieldsAround _ h]
  simp [fieldsAround, scalarFrom_scalarFields_of_lt, ofInt_int32Varint]

def codec : Codec ReceiveResponse := codecOf fields ofFields fits ofFields_fields

theorem length_serialize_le (m : ReceiveResponse) :
    (codec.serialize m).length ≤ 120 + 5 * m.getFrame.data.length := by
  have hframe := RadioFrame.length_serialize_getD_le m.frame
  refine Nat.le_trans (length_fieldsAround_le [int32Varint m.module] 2 (m.frame.map RadioFrame.codec.serialize)
    [int32Varint m.rssi, m.latency.toNat]) ?_
  simp only [getFrame, List.length_cons, List.length_nil] at hframe ⊢
  omega

end ReceiveResponse

/-! ## `ConfigurationRequest` -/

namespace RadioPhyConfigOFDM

def fields (m : RadioPhyConfigOFDM) : List Field := scalarFields 1 [m.mcs.toNat, m.opt.toNat]

def ofFields (fs : List Field) : Option RadioPhyConfigOFDM :=
  some { mcs := UInt32.ofNat (scalarFrom 0 1 fs), opt := UInt32.ofNat (scalarFrom 0 2 fs) }

def codec : Codec RadioPhyConfigOFDM :=
  codecOf fields ofFields
    (fun _ _ => fits_scalarFields (by simp) (varints_cons (toNat_lt_varint _) (varints_cons (toNat_lt_varint _) nofun)))
    fun m _ => by simp [ofFields, fields]

end RadioPhyConfigOFDM

namespace RadioPhyConfigFSK

/-- The values of the fields, in the order of their numbers. -/
def values (m : RadioPhyConfigFSK) : List Nat :=
  [m.bt.toNat, m.midxs.toNat, m.midx.toNat, m.mord.toNat, m.preambleLength.toNat, m.freqInversion.toNat,
    m.srate.toNat, m.pdtm.toNat, m.rxo.toNat, m.rxpto.toNat, m.mse.toNat, m.preambleInversion.toNat, m.fecs.toNat,
    m.fecie.toNat, m.sfdt.toNat, m.pdt.toNat, m.sftq.toNat, m.sfd32.toNat, m.rawbit.toNat, m.csfd1.toNat,
    m.csfd0.toNat, m.sfd0.toNat, m.sfd1.toNat, m.sfd.toNat, m.dw.toNat, m.pe.toNat, m.en.toNat, m.fskpe0.toNat,
    m.fskpe1.toNat, m.fskpe2.toNat]

def fields (m : RadioPhyConfigFSK) : List Field := scalarFields 1 m.values

def ofFields (fs : List Field) : Option RadioPhyConfigFSK :=
  let uint32 (k : Nat) : UInt32 := UInt32.ofNat (scalarFrom 0 k fs)
  let bool (k : Nat) : Bool := scalarFrom 0 k fs != 0
  some
    { bt := uint32 1, midxs := uint32 2, midx := uint32 3, mord := uint32 4, preambleLength := uint32 5
      freqInversion := bool 6, srate := uint32 7, pdtm := uint32 8, rxo := uint32 9, rxpto := uint32 10
      mse := uint32 11, preambleInversion := bool 12, fecs := uint32 13, fecie := bool 14, sfdt := uint32 15
      pdt := uint32 16, sftq := bool 17, sfd32 := uint32 18, rawbit := bool 19, csfd1 := uint32 20
      csfd0 := uint32 21, sfd0 := uint32 22, sfd1 := uint32 23, sfd := uint32 24, dw := uint32 25, pe := bool 26
      en := bool 27, fskpe0 := uint32 28, fskpe1 := uint32 29, fskpe2 := uint32 30 }

theorem toNat_lt_varint (b : Bool) : b.toNat < 2 ^ 64 := Nat.lt_trans (Bool.toNat_lt b) (by decide)

theorem fits (m : RadioPhyConfigFSK) : ∀ f ∈ m.fields, f.Fits := by
  refine fits_scalarFields (by simp [values]) ?_
  have uint32 (x : UInt32) : x.toNat < 2 ^ 64 := KaonicComm.toNat_lt_varint x
  have bool (b : Bool) : b.toNat < 2 ^ 64 := toNat_lt_varint b
  simp only [Nat.reducePow] at uint32 bool
  simp [values, uint32, bool]

theorem ofFields_fields (m : RadioPhyConfigFSK) : ofFields m.fields = some m := by
  simp [ofFields, fields, values]

def codec : Codec RadioPhyConfigFSK := codecOf fields ofFields (fun m _ => fits m) fun m _ => ofFields_fields m

end RadioPhyConfigFSK

namespace ConfigurationRequest

/-- The member of the oneof that is set: its number and the message. -/
def phyField : PhyConfig → Nat × Option (List UInt8)
  | .notSet => (8, none)
  | .ofdm c => (8, some (RadioPhyConfigOFDM.codec.serialize c))
  | .fsk c => (9, some (RadioPhyConfigFSK.codec.serialize c))

def fields (m : ConfigurationRequest) : List Field :=
  fieldsAround [int32Varint m.module, m.freq.toNat, m.channel.toNat, m.channelSpacing.toNat, m.txPower.toNat]
    (phyField m.phyConfig).1 (phyField m.phyConfig).2 []

/-- The oneof. -/
def getPhy (fs : List Field) : Option PhyConfig :=
  match oneofFrom none [8, 9] fs with
  | none => some .notSet
  | some (8, bytes) => (RadioPhyConfigOFDM.codec.parse bytes).map .ofdm
  | some (_, bytes) => (RadioPhyConfigFSK.codec.parse bytes).map .fsk

def ofFields (fs : List Field) : Option ConfigurationRequest :=
  (getPhy fs).map fun phyConfig =>
    { module := Int32.ofInt (scalarFrom 0 1 fs)
      freq := UInt32.ofNat (scalarFrom 0 2 fs)
      channel := UInt32.ofNat (scalarFrom 0 3 fs)
      channelSpacing := UInt32.ofNat (scalarFrom 0 4 fs)
      txPower := UInt32.ofNat (scalarFrom 0 5 fs)
      phyConfig }

theorem fits (m : ConfigurationRequest) (h : (putFields m.fields).length ≤ intMax) : ∀ f ∈ m.fields, f.Fits := by
  refine fits_fieldsAround ?_ (varints_cons (int32Varint_lt _) <| varints_cons (toNat_lt_varint _) <|
    varints_cons (toNat_lt_varint _) <| varints_cons (toNat_lt_varint _) <| varints_cons (toNat_lt_varint _) nofun)
    nofun h
  cases m.phyConfig <;> simp [phyField]

theorem getPhy_fields (m : ConfigurationRequest) (h : (putFields m.fields).length ≤ intMax) :
    getPhy m.fields = some m.phyConfig := by
  have hk : (phyField m.phyConfig).1 ∈ [8, 9] := by cases m.phyConfig <;> simp [phyField]
  have hlen : ∀ bytes ∈ (phyField m.phyConfig).2, bytes.length ≤ intMax := by
    intro bytes hb
    refine Nat.le_trans (length_le_of_len (k := (phyField m.phyConfig).1) ?_) h
    have hb : (phyField m.phyConfig).2 = some bytes := hb
    simp [fields, fieldsAround, hb, messageField]
  rw [getPhy, fields, fieldsAround, oneofFrom_messageField hk]
  cases hp : m.phyConfig with
  | notSet => rfl
  | ofdm c =>
    simp [phyField, RadioPhyConfigOFDM.codec.parse_serialize c (hlen _ (by simp [hp, phyField]))]
  | fsk c =>
    simp [phyField, RadioPhyConfigFSK.codec.parse_serialize c (hlen _ (by simp [hp, phyField]))]

theorem ofFields_fields (m : ConfigurationRequest) (h : (putFields m.fields).length ≤ intMax) :
    ofFields m.fields = some m := by
  rw [ofFields, getPhy_fields m h]
  simp [fields, fieldsAround, ofInt_int32Varint]

def codec : Codec ConfigurationRequest := codecOf fields ofFields fits ofFields_fields

end ConfigurationRequest

/-- The codecs in the proto3 format. -/
def protobuf : Protobuf where
  configurationRequest := ConfigurationRequest.codec
  transmitRequest := TransmitRequest.codec
  receiveResponse := ReceiveResponse.codec

end KaonicComm
