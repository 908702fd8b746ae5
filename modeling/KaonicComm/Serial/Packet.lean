import KaonicComm.Proto.Wire

/-!
# Packets of the serial line

`packet::encode` writes a header of 20 bytes and the serialized message; `packet::decode` reads them. Two bytes of the
header are the magic number and two the packet type, in host order; `encode` assigns no other byte of it, so the 16
bytes of `reserved` are an argument of the model.
-/

namespace KaonicComm.Packet

/-- `payload_t`. -/
inductive Payload where
  | transmitRequest (m : TransmitRequest)
  | receiveResponse (m : ReceiveResponse)
  | configurationRequest (m : ConfigurationRequest)
  | errorPayload
  deriving DecidableEq, Repr

def magic : UInt16 := 0x22

/-- `packet_type`. -/
inductive PacketType where
  | unknown
  | config
  | transmit
  | receive
  deriving DecidableEq, Repr

def PacketType.toUInt16 : PacketType → UInt16
  | .unknown => 0
  | .config => 1
  | .transmit => 2
  | .receive => 3

/-- What `encode` leaves in `packet_header::reserved`. -/
abbrev Reserved := Vector UInt8 16

/-- `sizeof(packet_header)`. -/
def headerSize : Nat := 20

/-- A `uint16_t` in host order. -/
def bytes16 (x : UInt16) : List UInt8 := [UInt8.ofNat (x.toNat % 256), UInt8.ofNat (x.toNat / 256)]

/-- The bytes of a `packet_header`. -/
def header (type : PacketType) (reserved : Reserved) : List UInt8 :=
  bytes16 magic ++ bytes16 type.toUInt16 ++ reserved.toList

/-- The bytes after the header: `buffer.resize` filled them with zeros, and `SerializeToArray` writes nothing when the
message is longer than `INT_MAX`. -/
def body {M : Type} (c : Codec M) (m : M) : List UInt8 :=
  if (c.serialize m).length ≤ intMax then c.serialize m else List.replicate (c.serialize m).length 0

/-- `packet::encode`, the content of its buffer, which it clears first. -/
def encode (pb : Protobuf) (reserved : Reserved) : Payload → List UInt8
  | .configurationRequest m => header .config reserved ++ body pb.configurationRequest m
  | .transmitRequest m => header .transmit reserved ++ body pb.transmitRequest m
  | .receiveResponse m => header .receive reserved ++ body pb.receiveResponse m
  | .errorPayload => header .unknown reserved

/-- `ParseFromArray`. Its size is an `int`, to which the size of the buffer is converted; it takes no negative one. -/
def parseFromArray {M : Type} (c : Codec M) (bytes : List UInt8) : Option M :=
  let size := bytes.length % 2 ^ 32
  if size ≤ intMax then c.parse (bytes.take size) else none

/-- The message of a packet, or `error_payload`. -/
def parsed {M : Type} (c : Codec M) (payload : M → Payload) (bytes : List UInt8) : Payload :=
  match parseFromArray c bytes with
  | none => .errorPayload
  | some m => payload m

/-- `packet::decode`. -/
def decode (pb : Protobuf) (buffer : List UInt8) : Payload :=
  if buffer.length < headerSize then .errorPayload
  else if buffer.take 2 ≠ bytes16 magic then .errorPayload
  else if (buffer.drop 2).take 2 = bytes16 PacketType.config.toUInt16 then
    parsed pb.configurationRequest .configurationRequest (buffer.drop headerSize)
  else if (buffer.drop 2).take 2 = bytes16 PacketType.transmit.toUInt16 then
    parsed pb.transmitRequest .transmitRequest (buffer.drop headerSize)
  else if (buffer.drop 2).take 2 = bytes16 PacketType.receive.toUInt16 then
    parsed pb.receiveResponse .receiveResponse (buffer.drop headerSize)
  else .errorPayload

theorem decode_nil (pb : Protobuf) : decode pb [] = .errorPayload := rfl

/-- An encoded packet starts with the low byte of the magic number. -/
theorem encode_head (pb : Protobuf) (reserved : Reserved) (payload : Payload) :
    (encode pb reserved payload).head? = some 0x22 := by
  cases payload <;> rfl

theorem length_header (type : PacketType) (reserved : Reserved) : (header type reserved).length = headerSize := by
  simp [header, bytes16, headerSize]

/-- The message of a packet comes back. -/
theorem parsed_body {M : Type} (c : Codec M) (payload : M → Payload) {m : M} (h : (c.serialize m).length ≤ intMax) :
    parsed c payload (body c m) = payload m := by
  have hmod : (c.serialize m).length % 2 ^ 32 = (c.serialize m).length :=
    Nat.mod_eq_of_lt (Nat.lt_of_le_of_lt h (by decide))
  simp only [body, if_pos h, parsed, parseFromArray, hmod, List.take_length, c.parse_serialize m h]

/-- The fields of a header that `decode` reads. -/
theorem decode_header (pb : Protobuf) (type : PacketType) (reserved : Reserved) (bytes : List UInt8) :
    decode pb (header type reserved ++ bytes) =
      match type with
      | .unknown => .errorPayload
      | .config => parsed pb.configurationRequest .configurationRequest bytes
      | .transmit => parsed pb.transmitRequest .transmitRequest bytes
      | .receive => parsed pb.receiveResponse .receiveResponse bytes := by
  have hlen : ¬(header type reserved ++ bytes).length < headerSize := by
    rw [List.length_append, length_header]
    omega
  have hmagic : (header type reserved ++ bytes).take 2 = bytes16 magic := rfl
  have htype : ((header type reserved ++ bytes).drop 2).take 2 = bytes16 type.toUInt16 := rfl
  have hbody : (header type reserved ++ bytes).drop headerSize = bytes := by
    rw [← length_header type reserved, List.drop_left]
  rw [decode, if_neg hlen, hmagic, htype, hbody]
  cases type <;> rfl

/-- **Decoding undoes encoding** for a message that can be serialized. -/
theorem decode_encode_receive (pb : Protobuf) (reserved : Reserved) {m : ReceiveResponse}
    (h : (pb.receiveResponse.serialize m).length ≤ intMax) :
    decode pb (encode pb reserved (.receiveResponse m)) = .receiveResponse m := by
  rw [encode, decode_header, parsed_body _ _ h]

end KaonicComm.Packet
