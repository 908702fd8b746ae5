import KaonicComm.Lib.Bytes
import KaonicComm.Proto.Messages

/-!
# Frames as `RadioFrame` messages

A mesh frame is a byte vector; a `RadioFrame` carries it as 32-bit words and a length. `serial_service.cpp` and
`grpc_service.cpp` each hold their own copy of the two translations, `buf_pack`/`buf_unpack` and
`grpc_buf_pack`/`grpc_buf_unpack`, with the same bodies: they are `packBuffer` and `unpackBuffer` here.

What a message packs to does not depend on the buffer that is reused (`packBuffer_eq`), and a frame shorter than
`2 ^ 32` bytes comes back whatever message it was unpacked into (`packBuffer_unpackBuffer`). But the length that a
message claims is taken as it is, with zeros for the bytes that it does not have (`packBuffer_prefix_iff`), and the
last word of a message keeps the bytes of an earlier frame behind the frame (`depends_on_frame_only_iff`).
-/

namespace KaonicComm

open Bytes

/-- The body of `buf_pack` and `grpc_buf_pack`: the words of the message in memory, cut or filled up to its length. -/
def packBuffer (src : RadioFrame) (dst : List UInt8) : List UInt8 :=
  let dst := resize dst (src.data.length * 4) 0
  let dst := memcpy dst (bytes src.data)
  resize dst src.length.toNat 0

/-- The number of words for `n` bytes. -/
def wordCount (n : Nat) : Nat := n / 4 + if n - n / 4 * 4 = 0 then 0 else 1

/-- The body of `buf_unpack` and `grpc_buf_unpack`: the repeated field is resized, keeping old words, and the bytes
of the frame are copied over its memory. -/
def unpackBuffer (src : List UInt8) (dst : RadioFrame) : RadioFrame :=
  let data := resize dst.data (wordCount src.length) 0
  { data := words (memcpy (bytes data) src), length := UInt32.ofNat src.length }

/-- `buf_pack` of `serial_service.cpp`. -/
def bufPack (src : RadioFrame) (dst : List UInt8) : List UInt8 := packBuffer src dst

/-- `buf_unpack` of `serial_service.cpp`. -/
def bufUnpack (src : List UInt8) (dst : RadioFrame) : RadioFrame := unpackBuffer src dst

/-- `grpc_buf_pack` of `grpc_service.cpp`. -/
def grpcBufPack (src : RadioFrame) (dst : List UInt8) : List UInt8 := packBuffer src dst

/-- `grpc_buf_unpack` of `grpc_service.cpp`. -/
def grpcBufUnpack (src : List UInt8) (dst : RadioFrame) : RadioFrame := unpackBuffer src dst

theorem le_wordCount (n : Nat) : n ≤ 4 * wordCount n := by
  unfold wordCount
  split <;> omega

/-- The memory of the reused word field after the copy. -/
theorem bytes_unpackBuffer (src : List UInt8) (dst : RadioFrame) :
    bytes (unpackBuffer src dst).data = memcpy (bytes (resize dst.data (wordCount src.length) 0)) src := by
  apply bytes_words (n := wordCount src.length)
  rw [length_memcpy, length_bytes, length_resize]
  rw [length_bytes, length_resize]
  exact le_wordCount _

/-- A message holds one word for each four bytes begun. -/
theorem length_unpackBuffer (src : List UInt8) (dst : RadioFrame) :
    (unpackBuffer src dst).data.length = wordCount src.length := by
  have h := congrArg List.length (bytes_unpackBuffer src dst)
  rw [length_bytes, length_memcpy, length_bytes, length_resize] at h
  · omega
  · rw [length_bytes, length_resize]
    exact le_wordCount _

/-- **The buffer that is reused has no influence.** -/
theorem packBuffer_eq (src : RadioFrame) (dst : List UInt8) :
    packBuffer src dst = resize (bytes src.data) src.length.toNat 0 := by
  simp only [packBuffer]
  rw [memcpy_all]
  rw [length_resize, length_bytes, Nat.mul_comm]

/-- **A frame comes back.** Whatever the message held before, packing what a frame was unpacked into gives the frame. -/
theorem packBuffer_unpackBuffer {src : List UInt8} (hlen : src.length < 2 ^ 32) (msg : RadioFrame)
    (dst : List UInt8) : packBuffer (unpackBuffer src msg) dst = src := by
  have hl : (unpackBuffer src msg).length.toNat = src.length := by
    simp only [unpackBuffer, UInt32.toNat_ofNat']
    exact Nat.mod_eq_of_lt hlen
  rw [packBuffer_eq, hl, bytes_unpackBuffer, resize_memcpy]

/-- The bytes that are packed are those of the message exactly when it claims no more than it has. -/
theorem packBuffer_prefix_iff (src : RadioFrame) (dst : List UInt8) :
    packBuffer src dst <+: bytes src.data ↔ src.length.toNat ≤ 4 * src.data.length := by
  rw [packBuffer_eq, resize_prefix_iff, length_bytes]

/-! ## What a message keeps of earlier frames -/

/-- The memory of a message: the frame, and behind it what the message held there. -/
theorem bytes_unpackBuffer_eq (src : List UInt8) (dst : RadioFrame) :
    bytes (unpackBuffer src dst).data =
      src ++ (resize (bytes dst.data) (4 * wordCount src.length) 0).drop src.length := by
  rw [bytes_unpackBuffer, bytes_resize, memcpy]

theorem wordCount_eq (n : Nat) : wordCount n = (n + 3) / 4 := by
  unfold wordCount
  split <;> omega

/-- The bytes of a message that lie in its last word behind a frame that is unpacked into it. -/
def leftover (src : List UInt8) (dst : RadioFrame) : List UInt8 :=
  ((bytes dst.data).take (4 * ((src.length + 3) / 4))).drop src.length

/-- The message after a frame: what an empty message would be, with the bytes of the frame filled up with zeros to whole
words, and its length. -/
structure DependsOnFrameOnly (unpack : List UInt8 → RadioFrame → RadioFrame) (src : List UInt8) (dst : RadioFrame) :
    Prop where
  eq_empty : unpack src dst = unpack src {}
  words : (unpack src dst).data.length = (src.length + 3) / 4
  bytes : bytes (unpack src dst).data = src ++ List.replicate (4 * ((src.length + 3) / 4) - src.length) 0
  length : (unpack src dst).length.toNat = src.length

theorem bytes_unpackBuffer_iff (src : List UInt8) (dst : RadioFrame) :
    bytes (unpackBuffer src dst).data = src ++ List.replicate (4 * ((src.length + 3) / 4) - src.length) 0 ↔
      ∀ b ∈ leftover src dst, b = 0 := by
  rw [bytes_unpackBuffer_eq, List.append_right_inj, wordCount_eq]
  exact drop_resize_eq_replicate_iff _ _ _ _

/-- An empty message has nothing left. -/
theorem leftover_empty (src : List UInt8) : leftover src {} = [] := by
  simp [leftover, Bytes.bytes]

/-- A message is its bytes and its length. -/
theorem unpackBuffer_eq_iff (src : List UInt8) (dst dst' : RadioFrame) :
    unpackBuffer src dst = unpackBuffer src dst' ↔
      bytes (unpackBuffer src dst).data = bytes (unpackBuffer src dst').data := by
  constructor
  · intro h
    rw [h]
  · intro h
    have hdata : (unpackBuffer src dst).data = (unpackBuffer src dst').data := by
      rw [← words_bytes (unpackBuffer src dst).data, h, words_bytes]
    exact congrArg (fun data => RadioFrame.mk data (UInt32.ofNat src.length)) hdata

theorem dependsOnFrameOnly_iff {src : List UInt8} (hlen : src.length < 2 ^ 32) (dst : RadioFrame) :
    DependsOnFrameOnly unpackBuffer src dst ↔ ∀ b ∈ leftover src dst, b = 0 := by
  have hempty := (bytes_unpackBuffer_iff src {}).mpr (by simp [leftover_empty])
  constructor
  · intro h
    exact (bytes_unpackBuffer_iff src dst).mp h.bytes
  · intro h
    have hbytes := (bytes_unpackBuffer_iff src dst).mpr h
    refine ⟨(unpackBuffer_eq_iff _ _ _).mpr (hbytes.trans hempty.symm), ?_, hbytes, ?_⟩
    · rw [length_unpackBuffer, wordCount_eq]
    · simp only [unpackBuffer, UInt32.toNat_ofNat']
      exact Nat.mod_eq_of_lt hlen

/-- **A message depends on its frame only exactly when what it held behind the frame, in the last word, is zeros.** -/
theorem depends_on_frame_only_iff {src : List UInt8} (hlen : src.length < 2 ^ 32) (dst : RadioFrame) :
    (DependsOnFrameOnly bufUnpack src dst ↔ ∀ b ∈ leftover src dst, b = 0) ∧
      (DependsOnFrameOnly grpcBufUnpack src dst ↔ ∀ b ∈ leftover src dst, b = 0) :=
  ⟨dependsOnFrameOnly_iff hlen dst, dependsOnFrameOnly_iff hlen dst⟩

/-- After a frame of four bytes, one that fills its words. -/
theorem depends_on_frame_only_whole : DependsOnFrameOnly bufUnpack [5, 6, 7, 8] (bufUnpack [1, 2, 3, 4] {}) :=
  (depends_on_frame_only_iff (by decide) _).1.mpr (by decide +kernel)

/-- After a frame of four bytes, one of a single byte: the other three are still there. -/
theorem leftover_of_earlier_frame : ¬∀ (src : List UInt8) (dst : RadioFrame), src.length < 2 ^ 32 →
    DependsOnFrameOnly bufUnpack src dst ∧ DependsOnFrameOnly grpcBufUnpack src dst := by
  intro h
  have h := (h [5] (bufUnpack [1, 2, 3, 4] {}) (by decide)).1.eq_empty
  exact absurd h (by decide)

end KaonicComm
