import KaonicComm.Frame
import KaonicComm.Serial.Hdlc
import KaonicComm.Serial.Packet

/-!
# The serial codec with reused buffers

The functions of the serial line write into vectors that their callers keep: `escapeInto`, `unescapeInto` and
`encodeInto` are `hdlc::escape`, `hdlc::unescape` and `packet::encode` with the vector that they find. What the vector
held before has no influence (`escapeInto_eq`, `unescapeInto_eq`, `encodeInto_eq`).

So a sequence of messages that all use the same objects comes back, every message with its fields and its bytes
(`comesBack_all`).
-/

namespace KaonicComm

open Bytes

/-- `std::vector::clear`. -/
def clear (buffer : List UInt8) : List UInt8 := resize buffer 0 0

theorem clear_eq (buffer : List UInt8) : clear buffer = [] := by
  simp only [clear, resize, List.take_zero, Nat.zero_sub, List.replicate_zero, List.append_nil]

namespace Hdlc

/-- `hdlc::escape`, on the output that it is given. -/
def escapeInto (data output : List UInt8) : List UInt8 :=
  let output := clear output
  let output := output ++ [flag]
  let output := data.foldl (fun output byte => output ++ escapeByte byte) output
  output ++ [flag]

/-- The loop of `hdlc::unescape`. -/
def unescapeLoop (inFrame escape : Bool) (output : List UInt8) : List UInt8 → List UInt8
  | [] => output
  | byte :: rest =>
    if inFrame ∧ byte = flag then output
    else if byte = flag then unescapeLoop true escape output rest
    else if inFrame then
      if byte = hdlcEsc then unescapeLoop inFrame true output rest
      else unescapeLoop inFrame false (output ++ [if escape then unescapeByte byte else byte]) rest
    else unescapeLoop inFrame escape output rest

/-- `hdlc::unescape`, on the output that it is given. -/
def unescapeInto (data output : List UInt8) : List UInt8 := unescapeLoop false false (clear output) data

theorem foldl_append_flatMap (f : UInt8 → List UInt8) (data output : List UInt8) :
    data.foldl (fun output byte => output ++ f byte) output = output ++ data.flatMap f := by
  induction data generalizing output with
  | nil => rw [List.foldl_nil, List.flatMap_nil, List.append_nil]
  | cons byte data ih => rw [List.foldl_cons, ih, List.flatMap_cons, List.append_assoc]

theorem escapeInto_eq (data output : List UInt8) : escapeInto data output = escape data := by
  simp only [escapeInto, clear_eq, foldl_append_flatMap]
  rfl

theorem unescapeLoop_eq (data : List UInt8) : ∀ (inFrame escape : Bool) (output : List UInt8),
    unescapeLoop inFrame escape output data = output ++ unescapeFrom inFrame escape data := by
  induction data with
  | nil =>
    intro _ _ output
    exact (List.append_nil output).symm
  | cons byte data ih =>
    intro inFrame escape output
    simp only [unescapeLoop, unescapeFrom, ih]
    by_cases h : inFrame = true ∧ byte = flag
    · rw [if_pos h, if_pos h, List.append_nil]
    · rw [if_neg h, if_neg h]
      split
      · rfl
      · cases inFrame with
        | false => rfl
        | true =>
          simp only [if_true]
          split
          · rfl
          · rw [List.append_assoc, List.singleton_append]

theorem unescapeInto_eq (data output : List UInt8) : unescapeInto data output = unescape data := by
  rw [unescapeInto, clear_eq, unescapeLoop_eq]
  rfl

end Hdlc

namespace Packet

/-- How `encode` writes a message with its header into the buffer that it is given. -/
def encodeMessageInto {M : Type} (c : Codec M) (type : PacketType) (reserved : Reserved) (m : M)
    (buffer : List UInt8) : List UInt8 :=
  let buffer := clear buffer
  let size := (c.serialize m).length
  let buffer := resize buffer (size + headerSize) 0
  let buffer := memcpy buffer (header type reserved)
  -- `SerializeToArray` writes nothing when the size is more than `INT_MAX`
  if size ≤ intMax then buffer.take headerSize ++ memcpy (buffer.drop headerSize) (c.serialize m) else buffer

/-- `packet::encode`, on the buffer that it is given. -/
def encodeInto (pb : Protobuf) (reserved : Reserved) (payload : Payload) (buffer : List UInt8) : List UInt8 :=
  match payload with
  | .configurationRequest m => encodeMessageInto pb.configurationRequest .config reserved m buffer
  | .transmitRequest m => encodeMessageInto pb.transmitRequest .transmit reserved m buffer
  | .receiveResponse m => encodeMessageInto pb.receiveResponse .receive reserved m buffer
  | .errorPayload => memcpy (resize (clear buffer) headerSize 0) (header .unknown reserved)

theorem encodeMessageInto_eq {M : Type} (c : Codec M) (type : PacketType) (reserved : Reserved) (m : M)
    (buffer : List UInt8) : encodeMessageInto c type reserved m buffer = header type reserved ++ body c m := by
  have hlen := length_header type reserved
  -- the buffer with the header, before the message is written
  have hheader : memcpy (resize (clear buffer) ((c.serialize m).length + headerSize) 0) (header type reserved) =
      header type reserved ++ List.replicate (c.serialize m).length 0 := by
    rw [clear_eq, memcpy, hlen]
    simp [resize]
  simp only [encodeMessageInto, hheader, body]
  split
  · rw [← hlen, List.take_left, List.drop_left, memcpy_all List.length_replicate]
  · rfl

theorem encodeInto_eq (pb : Protobuf) (reserved : Reserved) (payload : Payload) (buffer : List UInt8) :
    encodeInto pb reserved payload buffer = encode pb reserved payload := by
  cases payload with
  | configurationRequest m => exact encodeMessageInto_eq _ _ _ _ _
  | transmitRequest m => exact encodeMessageInto_eq _ _ _ _ _
  | receiveResponse m => exact encodeMessageInto_eq _ _ _ _ _
  | errorPayload =>
    rw [encodeInto, memcpy_all]
    · rfl
    · rw [length_resize, length_header]

end Packet

/-! ## A sequence of messages -/

namespace RoundTrip

open Packet

/-- A message to send: its scalar fields, and the bytes that its frame is unpacked from. -/
inductive Item where
  | transmit (module : Int32) (bytes : List UInt8)
  | receive (module : Int32) (rssi : Int32) (latency : UInt32) (bytes : List UInt8)
  | error
  deriving DecidableEq, Repr

/-- The bytes of the frame. -/
def Item.bytes : Item → List UInt8
  | .transmit _ bytes | .receive _ _ _ bytes => bytes
  | .error => []

/-- The objects that one message after the other uses. -/
structure Objects where
  request : TransmitRequest := {}
  response : ReceiveResponse := {}
  encoded : List UInt8 := []
  escaped : List UInt8 := []
  unescaped : List UInt8 := []
  payload : Payload := .transmitRequest {}
  packed : List UInt8 := []
  deriving DecidableEq, Repr

/-- Filling the message object of an item, which keeps the frame of the last one until `buf_unpack`. -/
def Objects.fill (o : Objects) : Item → Objects × Payload
  | .transmit module bytes =>
    let request := { o.request with module, frame := some (bufUnpack bytes o.request.getFrame) }
    ({ o with request }, .transmitRequest request)
  | .receive module rssi latency bytes =>
    let response := { module, frame := some (bufUnpack bytes o.response.getFrame), rssi, latency }
    ({ o with response }, .receiveResponse response)
  | .error => (o, .errorPayload)

/-- The frame of the decoded payload, packed. -/
def Objects.pack (o : Objects) : Objects :=
  match o.payload with
  | .transmitRequest m => { o with packed := bufPack m.getFrame o.packed }
  | .receiveResponse m => { o with packed := bufPack m.getFrame o.packed }
  | .configurationRequest _ | .errorPayload => o

/-- An item is filled in, encoded, escaped, unescaped, decoded and packed. -/
def Objects.send (pb : Protobuf) (reserved : Reserved) (o : Objects) (item : Item) : Objects :=
  let (o, message) := o.fill item
  let encoded := encodeInto pb reserved message o.encoded
  let escaped := Hdlc.escapeInto encoded o.escaped
  let unescaped := Hdlc.unescapeInto escaped o.unescaped
  -- every branch of `decode` assigns the payload
  let payload := decode pb unescaped
  { o with encoded, escaped, unescaped, payload }.pack

/-- The objects after each item, with what `encode` leaves in its header. -/
def Objects.sendAll (pb : Protobuf) : Objects → List (Item × Reserved) → List Objects
  | _, [] => []
  | o, (item, reserved) :: items => o.send pb reserved item :: (o.send pb reserved item).sendAll pb items

/-- The decoded payload is the item's alternative with its fields, and its frame packs to the item's bytes. -/
def ComesBack (o : Objects) : Item → Prop
  | .transmit module bytes => ∃ m, o.payload = .transmitRequest m ∧ m.module = module ∧ o.packed = bytes
  | .receive module rssi latency bytes =>
    ∃ m, o.payload = .receiveResponse m ∧ m.module = module ∧ m.rssi = rssi ∧ m.latency = latency ∧ o.packed = bytes
  | .error => o.payload = .errorPayload

/-- Serialized messages have the sizes of the proto3 format. -/
structure Sized (pb : Protobuf) : Prop where
  transmitRequest (m : TransmitRequest) :
    (pb.transmitRequest.serialize m).length = (protobuf.transmitRequest.serialize m).length
  receiveResponse (m : ReceiveResponse) :
    (pb.receiveResponse.serialize m).length = (protobuf.receiveResponse.serialize m).length

/-- A frame of less than `2 ^ 28` bytes has at most `2 ^ 26` words. -/
theorem length_bufUnpack_le {bytes : List UInt8} (h : bytes.length < 2 ^ 28) (frame : RadioFrame) :
    (bufUnpack bytes frame).data.length ≤ 2 ^ 26 := by
  rw [bufUnpack, length_unpackBuffer]
  unfold wordCount
  split <;> omega

theorem packBuffer_bufUnpack {bytes : List UInt8} (h : bytes.length < 2 ^ 28) (frame : RadioFrame)
    (dst : List UInt8) : bufPack (bufUnpack bytes frame) dst = bytes :=
  packBuffer_unpackBuffer (Nat.lt_trans h (by decide)) frame dst

section

variable {pb : Protobuf} (hpb : Sized pb)
include hpb

theorem length_transmit_le {m : TransmitRequest} (h : m.getFrame.data.length ≤ 2 ^ 26) :
    (pb.transmitRequest.serialize m).length ≤ intMax := by
  have hm : (protobuf.transmitRequest.serialize m).length ≤ _ := m.length_serialize_le
  rw [hpb.transmitRequest]
  unfold intMax
  omega

theorem length_receive_le {m : ReceiveResponse} (h : m.getFrame.data.length ≤ 2 ^ 26) :
    (pb.receiveResponse.serialize m).length ≤ intMax := by
  have hm : (protobuf.receiveResponse.serialize m).length ≤ _ := m.length_serialize_le
  rw [hpb.receiveResponse]
  unfold intMax
  omega

/-- What is decoded is what was filled in. -/
theorem decode_fill (o : Objects) {item : Item} (h : item.bytes.length < 2 ^ 28) (reserved : Reserved) :
    decode pb (encode pb reserved (o.fill item).2) = (o.fill item).2 := by
  cases item with
  | transmit module bytes =>
    simp only [Objects.fill]
    rw [encode, decode_header, parsed_body]
    exact length_transmit_le hpb (length_bufUnpack_le h _)
  | receive module rssi latency bytes =>
    exact decode_encode_receive pb reserved (length_receive_le hpb (length_bufUnpack_le h _))
  | error =>
    have h := decode_header pb .unknown reserved []
    rwa [List.append_nil] at h

/-- **A message comes back**, whatever the objects held before. -/
theorem comesBack_send (o : Objects) {item : Item} (h : item.bytes.length < 2 ^ 28) (reserved : Reserved) :
    ComesBack (o.send pb reserved item) item := by
  have hdecode := decode_fill hpb o h reserved
  have hunescape := Hdlc.unescape_escape (encode pb reserved (o.fill item).2) []
  rw [List.append_nil] at hunescape
  simp only [Objects.send, encodeInto_eq, Hdlc.escapeInto_eq, Hdlc.unescapeInto_eq, hunescape, hdecode]
  cases item with
  | transmit module bytes => exact ⟨_, rfl, rfl, packBuffer_bufUnpack h _ _⟩
  | receive module rssi latency bytes => exact ⟨_, rfl, rfl, rfl, rfl, packBuffer_bufUnpack h _ _⟩
  | error => rfl

/-- **Every message of a sequence comes back**, all of them using the same objects. -/
theorem comesBack_all (o : Objects) {items : List (Item × Reserved)}
    (h : ∀ i ∈ items, i.1.bytes.length < 2 ^ 28) :
    List.Forall₂ (fun i o => ComesBack o i.1) items (o.sendAll pb items) := by
  induction items generalizing o with
  | nil => exact .nil
  | cons i items ih =>
    obtain ⟨item, reserved⟩ := i
    refine .cons (comesBack_send hpb o (h _ List.mem_cons_self) reserved) ?_
    exact ih _ fun j hj => h j (List.mem_cons_of_mem _ hj)

end

theorem sized_protobuf : Sized protobuf := ⟨fun _ => rfl, fun _ => rfl⟩

/-- Messages of both kinds and an error, the later frames shorter than the ones before. -/
def mixedItems : List (Item × Reserved) :=
  [(.transmit 1 [0x7E, 0x7D, 0x5E, 0x5D, 5], Vector.replicate 16 0x7E),
    (.receive (-1) (-40) 7 [1, 2, 3, 4, 5, 6, 7, 8], Vector.replicate 16 0),
    (.error, Vector.replicate 16 0x7D),
    (.transmit 0 [9], Vector.replicate 16 1),
    (.receive 0 0 0 [], Vector.replicate 16 0xFF)]

theorem comesBack_all_mixedItems :
    List.Forall₂ (fun i o => ComesBack o i.1) mixedItems (Objects.sendAll protobuf {} mixedItems) :=
  comesBack_all sized_protobuf {} (by decide)

end RoundTrip

end KaonicComm
