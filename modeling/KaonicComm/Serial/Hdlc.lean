import Mathlib.Data.List.Basic

/-!
# HDLC framing of the serial line

`hdlc::escape` and `hdlc::unescape` turn a packet into a delimited frame and back; `hdlc_processor::update` finds the
frames in a byte stream, one byte a call.

Unescaping undoes escaping, whatever follows the frame (`unescape_escape`), and an escaped frame holds no flag inside
(`flag_notMem_escape`). `update` returns at the flag that opens a frame: it clears the output, enters the frame, and
the test for the closing flag, which comes next, sees the same byte (`update_of_not_inFrame`). So what it delivers of
any stream is single flags (`feed_flag`), and it delimits no stream with a frame in it (`delimits_iff`).
-/

namespace KaonicComm.Hdlc

def flag : UInt8 := 0x7E
def hdlcEsc : UInt8 := 0x7D
def hdlcEscMask : UInt8 := 0x20

/-- What `hdlc::escape` appends for a byte of the data. -/
def escapeByte (byte : UInt8) : List UInt8 :=
  if byte = hdlcEsc then [hdlcEsc, hdlcEsc ^^^ hdlcEscMask]
  else if byte = flag then [hdlcEsc, flag ^^^ hdlcEscMask]
  else [byte]

/-- `hdlc::escape`, the content of its output, which it clears first. -/
def escape (data : List UInt8) : List UInt8 := flag :: data.flatMap escapeByte ++ [flag]

/-- The byte that an escaped byte stands for. -/
def unescapeByte (byte : UInt8) : UInt8 :=
  let byte := if byte = flag ^^^ hdlcEscMask then flag else byte
  if byte = hdlcEsc ^^^ hdlcEscMask then hdlcEsc else byte

/-- The loop of `hdlc::unescape`, with its variables `in_frame` and `escape`. -/
def unescapeFrom (inFrame escape : Bool) : List UInt8 → List UInt8
  | [] => []
  | byte :: rest =>
    if inFrame ∧ byte = flag then []
    else if byte = flag then unescapeFrom true escape rest
    else if inFrame then
      if byte = hdlcEsc then unescapeFrom inFrame true rest
      else (if escape then unescapeByte byte else byte) :: unescapeFrom inFrame false rest
    else unescapeFrom inFrame escape rest

/-- `hdlc::unescape`, the content of its output, which it clears first. -/
def unescape (data : List UInt8) : List UInt8 := unescapeFrom false false data

/-! ## Frames -/

theorem unescapeFrom_escapeByte (byte : UInt8) (rest : List UInt8) :
    unescapeFrom true false (escapeByte byte ++ rest) = byte :: unescapeFrom true false rest := by
  unfold escapeByte
  split
  · rename_i h
    subst h
    rfl
  · split
    · rename_i h
      subst h
      rfl
    · rename_i hesc hflag
      simp [unescapeFrom, hesc, hflag]

theorem unescapeFrom_flatMap (data rest : List UInt8) :
    unescapeFrom true false (data.flatMap escapeByte ++ flag :: rest) = data := by
  induction data with
  | nil => rfl
  | cons byte data ih => rw [List.flatMap_cons, List.append_assoc, unescapeFrom_escapeByte, ih]

/-- **Unescaping undoes escaping**, and stops at the end of the frame. -/
theorem unescape_escape (data rest : List UInt8) : unescape (escape data ++ rest) = data := by
  rw [escape, List.append_assoc, List.cons_append]
  exact unescapeFrom_flatMap data rest

theorem flag_notMem_escapeByte (byte : UInt8) : flag ∉ escapeByte byte := by
  unfold escapeByte
  split
  · decide
  · split
    · decide
    · rename_i h
      simpa using Ne.symm h

theorem flag_notMem_escape (data : List UInt8) : flag ∉ data.flatMap escapeByte := by
  intro h
  obtain ⟨byte, -, hb⟩ := List.mem_flatMap.mp h
  exact flag_notMem_escapeByte byte hb

/-! ## The frame delimiter -/

/-- `hdlc_processor`. -/
structure Processor where
  maxHdlcSize : Nat
  inFrame : Bool := false
  deriving DecidableEq, Repr

/-- `hdlc_processor::update`: the processor, the output and the result. -/
def Processor.update (p : Processor) (element : UInt8) (output : List UInt8) : Processor × List UInt8 × Bool :=
  if p.inFrame ∧ output.length + 1 > p.maxHdlcSize then ({ p with inFrame := false }, [], false)
  else
    let opens := !p.inFrame ∧ element = flag
    let output := if opens then [] else output
    let inFrame := if opens then true else p.inFrame
    if inFrame ∧ element = flag then ({ p with inFrame := false }, output ++ [flag], true)
    else if inFrame then ({ p with inFrame }, output ++ [element], false)
    else ({ p with inFrame }, output, false)

/-- **Outside a frame, `update` returns at a flag, with nothing but the flag in the output**, and is outside a frame
again. -/
theorem update_of_not_inFrame {p : Processor} (hp : p.inFrame = false) (element : UInt8) (output : List UInt8) :
    p.update element output = if element = flag then (p, [flag], true) else (p, output, false) := by
  obtain ⟨m, f⟩ := p
  subst hp
  by_cases he : element = flag <;> simp [Processor.update, he]

/-- Inside a frame with room left, `update` appends the byte. -/
theorem update_of_inFrame {p : Processor} (hp : p.inFrame = true) {output : List UInt8}
    (hlen : output.length + 1 ≤ p.maxHdlcSize) (element : UInt8) :
    (p.update element output).2.1 = output ++ [element] := by
  obtain ⟨m, f⟩ := p
  subst hp
  have hroom : ¬output.length + 1 > m := Nat.not_lt.mpr hlen
  by_cases he : element = flag <;> simp [Processor.update, hroom, he]

/-! ## A stream of frames -/

/-- `update` on one byte after the other: where it returned, counted from `n`, and the output at that time. -/
def Processor.feed (p : Processor) (output : List UInt8) (n : Nat) : List UInt8 → List (Nat × List UInt8)
  | [] => []
  | element :: bytes =>
    let (p', output', found) := p.update element output
    if found then (n, output') :: p'.feed output' (n + 1) bytes else p'.feed output' (n + 1) bytes

/-- Payloads that a processor has room for, with what stands on the line before, between and after their frames. -/
structure Stream (maxHdlcSize : Nat) where
  /-- The noise before a frame, and its payload. -/
  frames : List (List UInt8 × List UInt8)
  last : List UInt8
  noise_flagFree : ∀ f ∈ frames, flag ∉ f.1
  last_flagFree : flag ∉ last
  length_le : ∀ f ∈ frames, (escape f.2).length ≤ maxHdlcSize

/-- The bytes of some frames with the noise before them. -/
def framesBytes (frames : List (List UInt8 × List UInt8)) : List UInt8 := frames.flatMap fun f => f.1 ++ escape f.2

def Stream.bytes {m : Nat} (x : Stream m) : List UInt8 := framesBytes x.frames ++ x.last

/-- The frames of a stream that starts at byte `n`: where each one is closed, and its bytes. -/
def closings (n : Nat) : List (List UInt8 × List UInt8) → List (Nat × List UInt8)
  | [] => []
  | f :: fs =>
    (n + (f.1 ++ escape f.2).length - 1, escape f.2) :: closings (n + (f.1 ++ escape f.2).length) fs

/-- A fresh processor returns exactly at the closing flag of each frame, with the frame in the output. -/
def Delimits {m : Nat} (x : Stream m) : Prop := Processor.feed ⟨m, false⟩ [] 0 x.bytes = closings 0 x.frames

instance {m : Nat} (x : Stream m) : Decidable (Delimits x) := inferInstanceAs (Decidable (_ = _))

/-- Outside a frame, all that is delivered is single flags. -/
theorem feed_flag {p : Processor} (hp : p.inFrame = false) (bytes : List UInt8) :
    ∀ (output : List UInt8) (n : Nat), ∀ d ∈ p.feed output n bytes, d.2 = [flag] := by
  induction bytes with
  | nil => exact fun _ _ _ h => by cases h
  | cons element bytes ih =>
    intro output n d hd
    rw [Processor.feed, update_of_not_inFrame hp] at hd
    by_cases he : element = flag
    · rw [if_pos he] at hd
      rcases List.mem_cons.mp hd with rfl | hd
      · rfl
      · exact ih _ _ d hd
    · rw [if_neg he] at hd
      exact ih _ _ d hd

/-- Bytes without a flag are passed over. -/
theorem feed_flagFree {p : Processor} (hp : p.inFrame = false) {bytes : List UInt8} (h : flag ∉ bytes) :
    ∀ (output : List UInt8) (n : Nat), p.feed output n bytes = [] := by
  induction bytes with
  | nil => exact fun _ _ => rfl
  | cons element bytes ih =>
    intro output n
    have he : element ≠ flag := fun e => h (e ▸ List.mem_cons_self)
    rw [Processor.feed, update_of_not_inFrame hp, if_neg he]
    exact ih (fun hb => h (List.mem_cons_of_mem _ hb)) output (n + 1)

/-- A frame is at least its two flags. -/
theorem two_le_length_escape (data : List UInt8) : 2 ≤ (escape data).length := by
  simp only [escape, List.cons_append, List.length_cons, List.length_append, List.length_nil]
  omega

/-- **A stream is delimited exactly when there is no frame in it.** -/
theorem delimits_iff {m : Nat} (x : Stream m) : Delimits x ↔ x.frames = [] := by
  obtain ⟨frames, last, hnoise, hlast, hlen⟩ := x
  constructor
  · intro h
    cases frames with
    | nil => rfl
    | cons f fs =>
      have h : Processor.feed ⟨m, false⟩ [] 0 (framesBytes (f :: fs) ++ last) = closings 0 (f :: fs) := h
      -- the first frame would be one of the deliveries
      have hflag := feed_flag (p := ⟨m, false⟩) rfl (framesBytes (f :: fs) ++ last) [] 0
      rw [h, closings] at hflag
      have hflag : escape f.2 = [flag] := hflag _ List.mem_cons_self
      have htwo := two_le_length_escape f.2
      rw [hflag] at htwo
      exact absurd htwo (by decide)
  · intro h
    have h : frames = [] := h
    subst h
    exact feed_flagFree rfl hlast [] 0

/-- The frame of the single byte `1` in a buffer that has exactly room for it. -/
def oneByteStream : Stream 3 where
  frames := [([], [1])]
  last := []
  noise_flagFree := by decide
  last_flagFree := by decide
  length_le := by decide

theorem not_delimits_oneByteStream : ¬Delimits oneByteStream := by decide

end KaonicComm.Hdlc
