import Mathlib.Data.Set.Function
import KaonicComm.Serial.RoundTrip

/-!
# What the HDLC encoder writes, and what the decoder accepts

The interior of an escaped frame is a sequence of units (`Units`): a byte other than the escape, or the escape and one
of the two bytes that it may stand before. The decoder is lenient: it accepts an escape before any byte, several in a
row, and one before the closing flag.

The decoder finds the first frame whatever stands around it (`unescapeInto_around`), the encoder writes units
(`units_escape`), and what it writes for the payload of a frame is that frame exactly when its interior is made of
units (`escape_unescape_iff`). On such frames the decoder is injective (`unescape_injOn`).
-/

namespace KaonicComm.Hdlc

/-! ## Shape and length of an escaped frame -/

/-- The bytes that the encoder escapes. -/
def Special (byte : UInt8) : Prop := byte = hdlcEsc ∨ byte = flag

instance (byte : UInt8) : Decidable (Special byte) := inferInstanceAs (Decidable (_ ∨ _))

theorem length_escapeByte (byte : UInt8) : (escapeByte byte).length = 1 + if Special byte then 1 else 0 := by
  unfold escapeByte Special
  by_cases hesc : byte = hdlcEsc
  · simp [hesc]
  · by_cases hflag : byte = flag
    · subst hflag
      rfl
    · simp [hesc, hflag]

theorem length_flatMap_escapeByte (data : List UInt8) :
    (data.flatMap escapeByte).length = data.length + data.countP (Special ·) := by
  induction data with
  | nil => rfl
  | cons byte data ih =>
    rw [List.flatMap_cons, List.length_append, ih, length_escapeByte, List.length_cons, List.countP_cons]
    simp only [decide_eq_true_eq]
    omega

/-- A frame is as long as its payload, with its flags and one byte more for each byte that is escaped. -/
theorem length_escape (data : List UInt8) :
    (escape data).length = data.length + 2 + data.countP (Special ·) := by
  rw [escape, List.length_append, List.length_cons, length_flatMap_escapeByte, List.length_singleton]
  omega

/-- A frame is at most twice as long as its payload, and its flags. -/
theorem length_escape_le (data : List UInt8) : (escape data).length ≤ 2 * data.length + 2 := by
  have hcount : data.countP (Special ·) ≤ data.length := List.countP_le_length
  rw [length_escape]
  omega

/-! ## The first frame of a sequence of bytes -/

/-- Outside a frame the decoder passes over bytes without a flag. -/
theorem unescape_flagFree_append {p : List UInt8} (hp : flag ∉ p) (rest : List UInt8) :
    unescape (p ++ rest) = unescape rest := by
  induction p with
  | nil => rfl
  | cons byte p ih =>
    have hbyte : byte ≠ flag := fun h => hp (h ▸ List.mem_cons_self)
    have hp : flag ∉ p := fun h => hp (List.mem_cons_of_mem _ h)
    rw [← ih hp]
    simp [unescape, unescapeFrom, hbyte]

/-- **The first frame is found in any context, and is delimited by its flags.** Whatever the vectors held before,
what stands before the frame, if it has no flag, and what follows it have no influence; the frame begins and ends with
a flag, has none in between, and is as long as its payload, with two flags and a byte more for each escaped one. -/
theorem unescapeInto_around {p : List UInt8} (hp : flag ∉ p) (x s encoded decoded : List UInt8) :
    unescapeInto (p ++ escapeInto x encoded ++ s) decoded = x ∧
      (∃ interior, escapeInto x encoded = flag :: interior ++ [flag] ∧ flag ∉ interior) ∧
      (escapeInto x encoded).length = x.length + 2 + x.countP (fun byte => byte = hdlcEsc ∨ byte = flag) := by
  rw [unescapeInto_eq, escapeInto_eq]
  refine ⟨?_, ⟨x.flatMap escapeByte, rfl, flag_notMem_escape x⟩, length_escape x⟩
  rw [List.append_assoc, unescape_flagFree_append hp]
  exact unescape_escape x s

/-- The two special bytes as a payload, after noise and before the rest of a stream. -/
theorem unescapeInto_around_special :
    unescapeInto ([0x7D, 0x5E] ++ escapeInto [0x7E, 0x7D] [1] ++ [0x7E]) [2] = [0x7E, 0x7D] :=
  (unescapeInto_around (p := [0x7D, 0x5E]) (by decide) [0x7E, 0x7D] [0x7E] [1] [2]).1

/-! ## Units -/

/-- **What the encoder writes between the flags**: bytes other than the escape, and the escape with a byte that it may
stand before. -/
inductive Units : List UInt8 → Prop
  | nil : Units []
  | byte {c : UInt8} {rest : List UInt8} : c ≠ hdlcEsc → Units rest → Units (c :: rest)
  | escaped {c : UInt8} {rest : List UInt8} :
      c = hdlcEsc ^^^ hdlcEscMask ∨ c = flag ^^^ hdlcEscMask → Units rest → Units (hdlcEsc :: c :: rest)

theorem units_escapeByte {rest : List UInt8} (h : Units rest) (byte : UInt8) : Units (escapeByte byte ++ rest) := by
  unfold escapeByte
  split
  · exact Units.escaped (Or.inl rfl) h
  · split
    · exact Units.escaped (Or.inr rfl) h
    · rename_i hesc _
      exact Units.byte hesc h

/-- **The encoder writes units.** -/
theorem units_escape (data : List UInt8) : Units (data.flatMap escapeByte) := by
  induction data with
  | nil => exact Units.nil
  | cons byte data ih => exact units_escapeByte ih byte

/-- The decoder reads a byte that stands for itself. -/
theorem unescapeFrom_byte {c : UInt8} (hesc : c ≠ hdlcEsc) (hflag : c ≠ flag) (rest : List UInt8) :
    unescapeFrom true false (c :: rest) = c :: unescapeFrom true false rest := by
  simp [unescapeFrom, hesc, hflag]

/-- Escaping what was read from units gives the units. -/
theorem flatMap_escapeByte_unescapeFrom {b : List UInt8} (h : Units b) (hflag : flag ∉ b) (rest : List UInt8) :
    (unescapeFrom true false (b ++ flag :: rest)).flatMap escapeByte = b := by
  induction h with
  | nil => rfl
  | @byte c b hesc _ ih =>
    have hc : c ≠ flag := fun h => hflag (h ▸ List.mem_cons_self)
    have hb : flag ∉ b := fun h => hflag (List.mem_cons_of_mem _ h)
    rw [List.cons_append, unescapeFrom_byte hesc hc, List.flatMap_cons, ih hb]
    simp [escapeByte, hesc, hc]
  | @escaped c b hc _ ih =>
    have hb : flag ∉ b := fun h => hflag (List.mem_cons_of_mem _ (List.mem_cons_of_mem _ h))
    rcases hc with rfl | rfl
    · exact congrArg (escapeByte hdlcEsc ++ ·) (ih hb)
    · exact congrArg (escapeByte flag ++ ·) (ih hb)

/-! ## Delimited frames -/

/-- A delimited frame: bytes without a flag between two flags. -/
structure Delimited where
  interior : List UInt8
  flagFree : flag ∉ interior

def Delimited.bytes (f : Delimited) : List UInt8 := flag :: f.interior ++ [flag]

theorem escape_unescape_of_units (f : Delimited) (h : Units f.interior) : escape (unescape f.bytes) = f.bytes := by
  have hinterior := flatMap_escapeByte_unescapeFrom h f.flagFree []
  have hframe : (unescape f.bytes).flatMap escapeByte = f.interior := hinterior
  rw [escape, hframe]
  rfl

theorem units_of_escape_unescape (f : Delimited) (h : escape (unescape f.bytes) = f.bytes) : Units f.interior := by
  have hinterior : (unescape f.bytes).flatMap escapeByte = f.interior := by
    rw [escape, Delimited.bytes, List.cons_append, List.cons_append] at h
    exact List.append_cancel_right (List.cons.inj h).2
  rw [← hinterior]
  exact units_escape _

/-- The decoder is injective on frames whose interior is made of units. -/
theorem unescape_injOn : Set.InjOn (fun f : Delimited => unescape f.bytes) {f | Units f.interior} := by
  intro f hf g hg h
  have h : unescape f.bytes = unescape g.bytes := h
  have hbytes : f.bytes = g.bytes := by
    rw [← escape_unescape_of_units f hf, ← escape_unescape_of_units g hg, h]
  obtain ⟨b, _⟩ := f
  obtain ⟨c, _⟩ := g
  have hinterior : b = c := List.append_cancel_right (List.cons.inj hbytes).2
  subst hinterior
  rfl

/-- **The image of the encoder.** A delimited frame is what the encoder writes for its payload exactly when its interior
is made of units; on these frames the decoder is injective, and any other delimited frame has a payload whose encoding
is another frame. -/
theorem escape_unescape_iff :
    (∀ f : Delimited, escape (unescape f.bytes) = f.bytes ↔ Units f.interior) ∧
      Set.InjOn (fun f : Delimited => unescape f.bytes) {f | Units f.interior} ∧
      ∀ f : Delimited, ¬Units f.interior → escape (unescape f.bytes) ≠ f.bytes := by
  refine ⟨fun f => ⟨units_of_escape_unescape f, escape_unescape_of_units f⟩, unescape_injOn, ?_⟩
  intro f hf h
  exact hf (units_of_escape_unescape f h)

/-- A doubled escape: the frame of the payload `7E`, with one more escape. -/
def doubled : Delimited where
  interior := [0x7D, 0x7D, 0x5E]
  flagFree := by decide

theorem not_units_doubled : ¬Units doubled.interior := by
  intro h
  cases h with
  | byte hc _ => exact hc rfl
  | escaped hc _ => exact absurd hc (by decide)

theorem escape_unescape_doubled : unescape doubled.bytes = [0x7E] ∧ escape (unescape doubled.bytes) ≠ doubled.bytes :=
  ⟨by decide, escape_unescape_iff.2.2 doubled not_units_doubled⟩

end KaonicComm.Hdlc
