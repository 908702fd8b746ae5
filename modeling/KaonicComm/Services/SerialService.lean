import KaonicComm.Frame
import KaonicComm.Radio.Config
import KaonicComm.Serial.Hdlc
import KaonicComm.Serial.Packet

/-!
# `serial_service`

The members of the service, `handle_packet` (a packet from the client becomes a call of the radio service) and
`receive_frame` (a frame from a radio becomes bytes for the client); the loop that reads from the client is in
`Services.SerialTx`.

`receive_frame` escapes the packet into `_escaped_buffer` and then writes `_rx_protobuf`, the packet before escaping.
The escaped buffer always holds what a client needs to recover the frame (`recovers_escapedBuffer`), but what is
written never does (`written_not_recovers`).
-/

namespace KaonicComm.SerialService

open Packet

/-- The members of `serial_service` that carry data. -/
structure Service where
  processor : Hdlc.Processor
  hdlcBuffer : List UInt8 := []
  unescapedBuffer : List UInt8 := []
  escapedBuffer : List UInt8 := []
  txPayload : Payload := .transmitRequest {}
  rxResponse : ReceiveResponse := {}
  rxProtobuf : List UInt8 := []
  frame : List UInt8 := []
  deriving DecidableEq, Repr

/-- `max_hdlc_size`. -/
def maxHdlcSize : Nat := 10240

/-- A service as its constructor leaves it. -/
def init : Service where
  processor := { maxHdlcSize }

/-- A call of the radio service. -/
inductive RadioCall where
  | configure (module : UInt8) (config : RadioConfig)
  | transmit (module : UInt8) (frame : List UInt8)
  deriving DecidableEq, Repr

/-- `serial_service::handle_packet`, with the calls it makes. -/
def handlePacket (s : Service) : Payload → Service × List RadioCall
  | .configurationRequest m =>
    (s, [.configure (moduleIndex m.module)
      { freq := m.freq, channel := m.channel.toUInt8, channelSpacing := m.channelSpacing }])
  | .transmitRequest m =>
    let frame := bufPack m.getFrame s.frame
    ({ s with frame }, [.transmit (moduleIndex m.module) frame])
  | .receiveResponse _ => (s, [])
  | .errorPayload => (s, [])

/-- `serial_service::receive_frame`, with the bytes it hands to `serial::write`. -/
def receiveFrame (pb : Protobuf) (reserved : Reserved) (s : Service) (frame : List UInt8) : Service × List UInt8 :=
  let radioFrame := bufUnpack frame s.rxResponse.getFrame
  let rxResponse := { s.rxResponse with frame := some radioFrame }
  let rxProtobuf := encode pb reserved (.receiveResponse rxResponse)
  let escapedBuffer := Hdlc.escape rxProtobuf
  ({ s with rxResponse, rxProtobuf, escapedBuffer }, rxProtobuf)

/-! ## From the radio to the client -/

/-- A call of `receive_frame`: the frame, and what `encode` leaves in the header. -/
structure Received where
  frame : List UInt8
  reserved : Reserved

/-- The calls of `receive_frame` in their order, with the bytes that each one writes. -/
def receiveFrames (pb : Protobuf) : Service → List Received → List (Received × List UInt8)
  | _, [] => []
  | s, r :: rs =>
    (r, (receiveFrame pb r.reserved s r.frame).2) :: receiveFrames pb (receiveFrame pb r.reserved s r.frame).1 rs

/-- The bytes `w` are one delimited frame from which a client recovers the mesh frame. -/
def Recovers (pb : Protobuf) (frame w : List UInt8) : Prop :=
  (∃ b, w = Hdlc.flag :: b ++ [Hdlc.flag] ∧ Hdlc.flag ∉ b) ∧
    ∃ m, decode pb (Hdlc.unescape w) = .receiveResponse m ∧ ∀ dst, bufPack m.getFrame dst = frame

/-- **What `receive_frame` writes is no delimited frame**: it starts with the magic number of the packet. -/
theorem written_not_recovers (pb : Protobuf) (reserved : Reserved) (s : Service) (frame : List UInt8) :
    ¬Recovers pb frame (receiveFrame pb reserved s frame).2 := by
  rintro ⟨⟨b, hb, -⟩, -⟩
  have h := encode_head pb reserved (.receiveResponse (receiveFrame pb reserved s frame).1.rxResponse)
  rw [show encode pb reserved _ = (receiveFrame pb reserved s frame).2 from rfl, hb, List.cons_append, List.head?_cons,
    Option.some.injEq] at h
  exact absurd h (by decide)

/-- **The escaped buffer is what the client needs**, for every frame that can be serialized and whatever the service
received before. -/
theorem recovers_escapedBuffer (pb : Protobuf) (reserved : Reserved) (s : Service) {frame : List UInt8}
    (hlen : frame.length < 2 ^ 32)
    (hsize : (pb.receiveResponse.serialize (receiveFrame pb reserved s frame).1.rxResponse).length ≤ intMax) :
    Recovers pb frame (receiveFrame pb reserved s frame).1.escapedBuffer := by
  refine ⟨⟨_, rfl, Hdlc.flag_notMem_escape _⟩, (receiveFrame pb reserved s frame).1.rxResponse, ?_, fun dst => ?_⟩
  · have h := Hdlc.unescape_escape (receiveFrame pb reserved s frame).1.rxProtobuf []
    rw [List.append_nil] at h
    show decode pb (Hdlc.unescape (Hdlc.escape (receiveFrame pb reserved s frame).1.rxProtobuf)) = _
    rw [h]
    exact decode_encode_receive pb reserved hsize
  · exact packBuffer_unpackBuffer hlen _ dst

/-- **A client recovers the frames exactly when there are none.** -/
theorem written_recovers_iff (pb : Protobuf) (s : Service) (rs : List Received) :
    (∀ x ∈ receiveFrames pb s rs, Recovers pb x.1.frame x.2) ↔ rs = [] := by
  constructor
  · intro h
    cases rs with
    | nil => rfl
    | cons r rs => exact absurd (h _ List.mem_cons_self) (written_not_recovers pb r.reserved s r.frame)
  · rintro rfl x hx
    cases hx

/-- One frame of ten bytes, as in the test of this direction. -/
theorem written_frame_lost : ¬∀ (pb : Protobuf) (rs : List Received),
    ∀ x ∈ receiveFrames pb init rs, Recovers pb x.1.frame x.2 := by
  intro h
  have h := h protobuf [⟨[1, 2, 3, 4, 5, 6, 7, 8, 9, 10], Vector.replicate 16 0⟩] _ List.mem_cons_self
  exact written_not_recovers protobuf (Vector.replicate 16 0) init _ h

end KaonicComm.SerialService
