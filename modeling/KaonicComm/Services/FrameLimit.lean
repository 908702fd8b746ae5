import KaonicComm.Serial.Escaping
import KaonicComm.Services.SerialService

/-!
# Radio frames and the frame limit of the serial line

A frame of the radio has at most `data_max_size` bytes, a frame of the serial line at most `max_hdlc_size`. Between them
are the words of a `RadioFrame`, up to five bytes each on the wire, the message and the header around them, and a byte
more for each escaped one.

The delimiter keeps a frame that is not too long (`fitsLimit_of_length_le`), and the message of every radio frame is not
(`radio_frame_fits`).
-/

namespace KaonicComm

open Hdlc Packet RoundTrip
open SerialService (maxHdlcSize)

/-! ## Sizes -/

theorem length_body {M : Type} (c : Codec M) (m : M) : (body c m).length = (c.serialize m).length := by
  unfold body
  split
  · rfl
  · exact List.length_replicate

/-- A radio frame has at most 512 words. -/
theorem length_bufUnpack_radio_le {bytes : List UInt8} (h : bytes.length ≤ dataMaxSize) (old : RadioFrame) :
    (bufUnpack bytes old).data.length ≤ 512 := by
  rw [bufUnpack, length_unpackBuffer, wordCount_eq]
  unfold dataMaxSize at h
  omega

/-- A frame of the serial line fits the limit, and the delimiter never discards a beginning of it. -/
structure FitsLimit (frame : List UInt8) : Prop where
  length_le : frame.length ≤ maxHdlcSize
  keeps : ∀ p : Processor, p.maxHdlcSize = maxHdlcSize → p.inFrame = true → ∀ output element,
    output ++ [element] <+: frame → (p.update element output).2.1 = output ++ [element]

/-- **The delimiter keeps what it has of a frame that is not too long.** -/
theorem fitsLimit_of_length_le {frame : List UInt8} (h : frame.length ≤ maxHdlcSize) : FitsLimit frame where
  length_le := h
  keeps p hmax hp output element hprefix := by
    refine update_of_inFrame hp ?_ element
    have hle := hprefix.length_le
    rw [List.length_append, List.length_singleton] at hle
    rw [hmax]
    exact Nat.le_trans hle h

/-- A packet whose message takes so many bytes fits. -/
theorem fitsLimit_of_length_serialize_le {M : Type} {c : Codec M} {m : M} (h : (c.serialize m).length ≤ 5000)
    (type : PacketType) (reserved : Reserved) : FitsLimit (escape (header type reserved ++ body c m)) := by
  apply fitsLimit_of_length_le
  have hescape := length_escape_le (header type reserved ++ body c m)
  rw [List.length_append, length_header, length_body] at hescape
  unfold headerSize at hescape
  unfold maxHdlcSize
  omega

/-- **Every radio frame fits the limit of the serial line**, as a request and as a response, with whatever is in the
other fields and in the buffers. -/
theorem radio_frame_fits {pb : Protobuf} (hpb : Sized pb) {bytes : List UInt8} (h : bytes.length ≤ dataMaxSize)
    (module rssi : Int32) (latency : UInt32) (old : RadioFrame) (reserved : Reserved) (buffer output : List UInt8) :
    FitsLimit (escapeInto (encodeInto pb reserved
        (.transmitRequest { module, frame := some (bufUnpack bytes old) }) buffer) output) ∧
      FitsLimit (escapeInto (encodeInto pb reserved
        (.receiveResponse { module, frame := some (bufUnpack bytes old), rssi, latency }) buffer) output) := by
  have hwords := length_bufUnpack_radio_le h old
  rw [escapeInto_eq, escapeInto_eq, encodeInto_eq, encodeInto_eq]
  constructor
  · apply fitsLimit_of_length_serialize_le
    have hm := TransmitRequest.length_serialize_le { module, frame := some (bufUnpack bytes old) }
    rw [hpb.transmitRequest]
    refine Nat.le_trans hm ?_
    simp only [TransmitRequest.getFrame, Option.getD_some]
    omega
  · apply fitsLimit_of_length_serialize_le
    have hm := ReceiveResponse.length_serialize_le { module, frame := some (bufUnpack bytes old), rssi, latency }
    rw [hpb.receiveResponse]
    refine Nat.le_trans hm ?_
    simp only [ReceiveResponse.getFrame, Option.getD_some]
    omega

/-- A frame of flags of the greatest size, with a negative module and a negative rssi. -/
theorem radio_frame_fits_flags :
    FitsLimit (escapeInto (encodeInto protobuf (Vector.replicate 16 0x7E)
        (.transmitRequest { module := -1, frame := some (bufUnpack (List.replicate 2048 0x7E) {}) }) []) []) ∧
      FitsLimit (escapeInto (encodeInto protobuf (Vector.replicate 16 0x7E)
        (.receiveResponse { module := -1, frame := some (bufUnpack (List.replicate 2048 0x7E) {}), rssi := -40 }) [])
        []) := by
  have h : (List.replicate 2048 (0x7E : UInt8)).length ≤ dataMaxSize := by
    rw [List.length_replicate]
    exact Nat.le_refl _
  exact radio_frame_fits sized_protobuf h (-1) (-40) 0 {} (Vector.replicate 16 0x7E) [] []

end KaonicComm
