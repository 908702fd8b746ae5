import KaonicComm.Serial.RoundTrip

/-!
# The memory behind an encoded header

`packet::encode` declares a `packet_header`, assigns two of its members and copies all of it into the buffer.
`encodeFrom` is `encode` with the 20 bytes that the header holds before; its members are written into them.

What is encoded is the packet with the last 16 of these bytes as `reserved` (`encodeFrom_eq`). So two runs write the
same bytes exactly when these were the same before (`encodes_payload_only_iff`), whatever the payload.
-/

namespace KaonicComm.Packet

open Bytes

/-! ## `packet::encode` on its stack -/

/-- The bytes of the local header before its members are assigned. -/
abbrev Storage := Vector UInt8 20

/-- The bytes that no member is assigned to. -/
def Storage.reserved (s : Storage) : Reserved := s.drop 4

/-- An assignment to the member of a header at some place. -/
def assign (header : List UInt8) (offset : Nat) (value : UInt16) : List UInt8 :=
  header.take offset ++ memcpy (header.drop offset) (bytes16 value)

/-- How `encode` writes a message into the buffer, with the header up to its type. -/
def encodeMessageFrom {M : Type} (c : Codec M) (type : PacketType) (header : List UInt8) (m : M)
    (buffer : List UInt8) : List UInt8 :=
  let header := assign header 2 type.toUInt16
  let size := (c.serialize m).length
  let buffer := resize buffer (size + headerSize) 0
  let buffer := memcpy buffer header
  -- `SerializeToArray` writes nothing when the size is more than `INT_MAX`
  if size ≤ intMax then buffer.take headerSize ++ memcpy (buffer.drop headerSize) (c.serialize m) else buffer

/-- `packet::encode`, on the buffer that it is given, with the bytes that it finds in its header. -/
def encodeFrom (pb : Protobuf) (storage : Storage) (payload : Payload) (buffer : List UInt8) : List UInt8 :=
  let header := assign storage.toList 0 magic
  let buffer := clear buffer
  match payload with
  | .configurationRequest m => encodeMessageFrom pb.configurationRequest .config header m buffer
  | .transmitRequest m => encodeMessageFrom pb.transmitRequest .transmit header m buffer
  | .receiveResponse m => encodeMessageFrom pb.receiveResponse .receive header m buffer
  | .errorPayload =>
    let header := assign header 2 PacketType.unknown.toUInt16
    memcpy (resize buffer headerSize 0) header

/-! ## What is written -/

theorem toList_reserved (storage : Storage) : storage.reserved.toList = storage.toList.drop 4 :=
  Vector.toList_drop

/-- The assignments leave the bytes of `reserved` as they were, and no other one. -/
theorem assign_assign (type : PacketType) (storage : Storage) :
    assign (assign storage.toList 0 magic) 2 type.toUInt16 = header type storage.reserved := by
  have hfirst : assign storage.toList 0 magic = bytes16 magic ++ storage.toList.drop 2 := rfl
  have htake : (bytes16 magic ++ storage.toList.drop 2).take 2 = bytes16 magic := rfl
  have hdrop : (bytes16 magic ++ storage.toList.drop 2).drop 2 = storage.toList.drop 2 := rfl
  have hlength : (bytes16 type.toUInt16).length = 2 := rfl
  rw [hfirst, assign, htake, hdrop, memcpy, hlength, List.drop_drop, header, toList_reserved, List.append_assoc]

theorem encodeMessageFrom_eq {M : Type} (c : Codec M) (type : PacketType) (storage : Storage) (m : M)
    (buffer : List UInt8) : encodeMessageFrom c type (assign storage.toList 0 magic) m (clear buffer) =
      encodeMessageInto c type storage.reserved m buffer := by
  simp only [encodeMessageFrom, encodeMessageInto, assign_assign]

/-- **What is encoded is the packet with the bytes that its header held as `reserved`**, whatever the buffer held. -/
theorem encodeFrom_eq (pb : Protobuf) (storage : Storage) (payload : Payload) (buffer : List UInt8) :
    encodeFrom pb storage payload buffer = encode pb storage.reserved payload := by
  rw [← encodeInto_eq pb storage.reserved payload buffer]
  cases payload with
  | configurationRequest m => exact encodeMessageFrom_eq _ _ _ _ _
  | transmitRequest m => exact encodeMessageFrom_eq _ _ _ _ _
  | receiveResponse m => exact encodeMessageFrom_eq _ _ _ _ _
  | errorPayload => simp only [encodeFrom, encodeInto, assign_assign]

/-- A packet shows what is in its `reserved`. -/
theorem drop_encode (pb : Protobuf) (reserved : Reserved) (payload : Payload) :
    ((encode pb reserved payload).drop 4).take 16 = reserved.toList := by
  have hheader : ∀ type rest, ((header type reserved ++ rest).drop 4).take 16 = reserved.toList := by
    intro type rest
    have hdrop : (header type reserved ++ rest).drop 4 = reserved.toList ++ rest := rfl
    rw [hdrop, List.take_left' reserved.length_toList]
  cases payload with
  | configurationRequest m => exact hheader _ _
  | transmitRequest m => exact hheader _ _
  | receiveResponse m => exact hheader _ _
  | errorPayload =>
    have h := hheader .unknown []
    rwa [List.append_nil] at h

/-- **Two runs encode the same bytes exactly when their headers held the same bytes behind the two members**, whatever
the payload and the buffers. -/
theorem encodes_payload_only_iff (pb : Protobuf) (payload : Payload) (buffer buffer' : List UInt8)
    (storage storage' : Storage) :
    encodeFrom pb storage payload buffer = encodeFrom pb storage' payload buffer' ↔
      storage.toList.drop 4 = storage'.toList.drop 4 := by
  rw [encodeFrom_eq, encodeFrom_eq, ← toList_reserved, ← toList_reserved]
  constructor
  · intro h
    rw [← drop_encode pb storage.reserved payload, h, drop_encode]
  · intro h
    rw [Vector.toList_inj.mp h]

/-- An error packet, encoded over zeros and over ones. -/
theorem stack_encoded : ¬∀ (pb : Protobuf) (payload : Payload) (buffer : List UInt8) (storage storage' : Storage),
    encodeFrom pb storage payload buffer = encodeFrom pb storage' payload buffer := by
  intro h
  have h := h protobuf .errorPayload [] (Vector.replicate 20 0) (Vector.replicate 20 1)
  exact absurd h (by decide +kernel)

end KaonicComm.Packet
