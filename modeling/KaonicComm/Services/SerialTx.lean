import KaonicComm.Lib.Crc32
import KaonicComm.Lib.Runs
import KaonicComm.Services.SerialService
import Mathlib.Data.List.Infix
import Mathlib.Data.List.Induction

/-!
# The loop `serial_service::tx`

The loop reads one byte, hands it to `hdlc_processor::update`, and when that returns `true` reads four bytes of
checksum, compares, unescapes, decodes and handles the packet. One step of the model is one call of `serial::read`;
the event says what `select` and `::read` do in it.

The test `bytes_read < 0` is on a `size_t` and `bytes_read = 0` assigns, so `update` gets a byte after every read. It
returns at the first flag, and only ever with the flag alone in its output (`outside_step`). So the loop handles
nothing but `error_payload` and never calls the radio service (`handles_errors`).

A read that gets nothing does no harm where a checksum is awaited, which is after an odd number of single flags. If it
is idle anywhere else, it feeds `update`; in a delivery without such a read, every read of the checksum of a single flag
is an `error_payload` (`follows_run`). So timing changes the payloads of the streams that have a flag with its checksum,
and of no others (`timing_free_iff`).
-/

namespace KaonicComm.SerialTx

open Runs Packet SerialService

/-! ## Reading the port -/

/-- What `select` and `::read` do in one call of `serial::read`. -/
inductive PortEvent where
  | timeout
  | selectError
  | readError
  /-- `::read` delivers these bytes. -/
  | data (bytes : List UInt8)
  deriving DecidableEq, Repr

/-- The bytes that are delivered. -/
def PortEvent.bytes : PortEvent → List UInt8
  | .data bytes => bytes
  | _ => []

/-- `serial::read` into `buffer`: its result and the buffer. The errors are `-1` in a `size_t`. -/
def read (buffer : List UInt8) : PortEvent → UInt64 × List UInt8
  | .timeout => (0, buffer)
  | .selectError | .readError => (-1, buffer)
  | .data bytes => (UInt64.ofNat bytes.length, Bytes.memcpy buffer bytes)

/-! ## The loop -/

/-- The loop between two reads: the service, its variable `byte`, and which of the two reads comes next. The rest is
history (ghost): the payloads passed to `handle_packet`, its calls of the radio service, and how often `update` got a
byte after a read that delivered none. -/
structure Tx where
  service : Service
  byte : UInt8
  awaitsCrc : Bool
  handled : List Payload
  calls : List RadioCall
  emptyFeeds : Nat
  deriving DecidableEq, Repr

/-- The loop at its start. -/
def start : Tx where
  service := init
  byte := 0
  awaitsCrc := false
  handled := []
  calls := []
  emptyFeeds := 0

/-- How many bytes the next read asks for. -/
def Tx.request (t : Tx) : Nat := if t.awaitsCrc then 4 else 1

/-- The read of one byte and `update`. -/
def readByte (t : Tx) (e : PortEvent) : Tx :=
  let (bytesRead, buffer) := read [t.byte] e
  let t := { t with byte := buffer.headD t.byte }
  if bytesRead < 0 then t
  else
    -- the condition is an assignment
    let bytesRead : UInt64 := 0
    if bytesRead ≠ 0 then t
    else
      let (processor, hdlcBuffer, full) := t.service.processor.update t.byte t.service.hdlcBuffer
      { t with
        service := { t.service with processor, hdlcBuffer }
        awaitsCrc := full
        emptyFeeds := if e.bytes = [] then t.emptyFeeds + 1 else t.emptyFeeds }

/-- The read of the checksum and what follows. -/
def readCrc (pb : Protobuf) (crc32 : List UInt8 → UInt32) (t : Tx) (e : PortEvent) : Tx :=
  let (bytesRead, expectedCrc) := read [0, 0, 0, 0] e
  let t := { t with awaitsCrc := false }
  if bytesRead ≠ 4 then t
  else if Bytes.words expectedCrc ≠ [crc32 t.service.hdlcBuffer] then t
  else
    let unescapedBuffer := Hdlc.unescape t.service.hdlcBuffer
    let txPayload := decode pb unescapedBuffer
    let (service, calls) := handlePacket { t.service with unescapedBuffer, txPayload } txPayload
    { t with service, handled := t.handled ++ [txPayload], calls := t.calls ++ calls }

/-- One call of `serial::read` and what the loop does up to the next one. -/
def step (pb : Protobuf) (crc32 : List UInt8 → UInt32) (t : Tx) (e : PortEvent) : Option Tx :=
  if e.bytes.length ≤ t.request then some (if t.awaitsCrc then readCrc pb crc32 t e else readByte t e) else none

section

variable {pb : Protobuf} {crc32 : List UInt8 → UInt32}

/-! ## What the loop does -/

/-- The loop is outside of a frame after every read, the output holds a single flag when a checksum is awaited, and
nothing but `error_payload` was handled. -/
structure Outside (t : Tx) : Prop where
  inFrame : t.service.processor.inFrame = false
  buffer : t.awaitsCrc = true → t.service.hdlcBuffer = [Hdlc.flag]
  handled : ∀ payload ∈ t.handled, payload = .errorPayload
  calls : t.calls = []

theorem outside_start : Outside start where
  inFrame := rfl
  buffer h := by cases h
  handled _ h := by cases h
  calls := rfl

/-- The byte that `update` gets: the one that was read, else the one before. -/
def Tx.fedByte (t : Tx) (e : PortEvent) : UInt8 := e.bytes.headD t.byte

theorem headD_read (t : Tx) (e : PortEvent) : (read [t.byte] e).2.headD t.byte = t.fedByte e := by
  cases e with
  | data bytes => cases bytes <;> rfl
  | _ => rfl

/-- After every read of a byte, `update` gets a byte, and a checksum is awaited if it is a flag. -/
theorem readByte_eq {t : Tx} (ht : Outside t) (e : PortEvent) :
    readByte t e =
      { t with
        service := { t.service with
          hdlcBuffer := if t.fedByte e = Hdlc.flag then [Hdlc.flag] else t.service.hdlcBuffer }
        byte := t.fedByte e
        awaitsCrc := t.fedByte e = Hdlc.flag
        emptyFeeds := if e.bytes = [] then t.emptyFeeds + 1 else t.emptyFeeds } := by
  have hlt : ¬(read [t.byte] e).1 < 0 := UInt64.not_lt_zero
  simp only [readByte, hlt, if_false, headD_read, ne_eq, not_true_eq_false, Hdlc.update_of_not_inFrame ht.inFrame]
  by_cases h : t.fedByte e = Hdlc.flag <;> simp [h]

variable (crc32) in
/-- The checksum of a single flag, as it is on the wire. -/
def flagCrc : List UInt8 := Bytes.ofWord (crc32 [Hdlc.flag])

/-- A checksum is accepted if it is read whole and right. -/
theorem crc_accepted_iff {e : PortEvent} (he : e.bytes.length ≤ 4) (crc : UInt32) :
    ((read [0, 0, 0, 0] e).1 = 4 ∧ Bytes.words (read [0, 0, 0, 0] e).2 = [crc]) ↔ e.bytes = Bytes.ofWord crc := by
  cases e with
  | data bytes =>
    have he : bytes.length ≤ 4 := he
    have hlen : UInt64.ofNat bytes.length = 4 ↔ bytes.length = 4 := by
      rw [← UInt64.toNat_inj, UInt64.toNat_ofNat', Nat.mod_eq_of_lt (by omega)]
      rfl
    have hmem : bytes.length = 4 → Bytes.memcpy [0, 0, 0, 0] bytes = bytes := fun h4 => Bytes.memcpy_all h4.symm
    simp only [read, hlen, PortEvent.bytes]
    constructor
    · rintro ⟨h4, hw⟩
      have h : Bytes.bytes (Bytes.words bytes) = bytes := Bytes.bytes_words (n := 1) h4
      rw [hmem h4] at hw
      rw [hw] at h
      exact h.symm
    · rintro rfl
      refine ⟨rfl, ?_⟩
      rw [hmem rfl]
      exact Bytes.toWord_ofWord crc []
  | timeout | selectError | readError =>
    refine ⟨fun h => absurd h.1 (by simp only [read]; decide), fun h => ?_⟩
    cases h

/-- A checksum that is accepted leads to an `error_payload`: the frame before it is a single flag. -/
theorem readCrc_eq {t : Tx} (ht : Outside t) (hc : t.awaitsCrc = true) {e : PortEvent} (he : e.bytes.length ≤ 4) :
    readCrc pb crc32 t e =
      if e.bytes = flagCrc crc32 then
        { t with
          service := { t.service with unescapedBuffer := [], txPayload := .errorPayload }
          awaitsCrc := false
          handled := t.handled ++ [.errorPayload] }
      else { t with awaitsCrc := false } := by
  have hb := ht.buffer hc
  have hnil : decode pb (Hdlc.unescape [Hdlc.flag]) = .errorPayload := decode_nil pb
  by_cases h : e.bytes = flagCrc crc32
  · obtain ⟨h4, hw⟩ := (crc_accepted_iff he _).mpr h
    simp only [readCrc, h4, hb, hw, ne_eq, not_true_eq_false, if_false, hnil, handlePacket, List.append_nil, if_pos h]
    rfl
  · rw [if_neg h]
    have h' := fun h' => h ((crc_accepted_iff he (crc32 [Hdlc.flag])).mp h')
    by_cases h4 : (read [0, 0, 0, 0] e).1 = 4
    · have hw : Bytes.words (read [0, 0, 0, 0] e).2 ≠ [crc32 [Hdlc.flag]] := fun hw => h' ⟨h4, hw⟩
      simp only [readCrc, hb, h4, hw, ne_eq, not_true_eq_false, not_false_eq_true, if_false, if_true]
    · simp only [readCrc, h4, ne_eq, not_false_eq_true, if_true]

/-- **Every read keeps the loop outside of frames.** -/
theorem outside_step {t t' : Tx} {e : PortEvent} (ht : Outside t) (h : step pb crc32 t e = some t') : Outside t' := by
  simp only [step] at h
  split at h
  · rename_i he
    cases h
    by_cases hc : t.awaitsCrc
    · have he : e.bytes.length ≤ 4 := by simpa [Tx.request, hc] using he
      rw [if_pos hc, readCrc_eq ht hc he]
      split
      · refine ⟨ht.inFrame, nofun, fun payload hp => ?_, ht.calls⟩
        rcases List.mem_append.mp hp with hp | hp
        · exact ht.handled payload hp
        · exact List.mem_singleton.mp hp
      · exact ⟨ht.inFrame, nofun, ht.handled, ht.calls⟩
    · rw [if_neg hc, readByte_eq ht]
      refine ⟨ht.inFrame, fun hflag => ?_, ht.handled, ht.calls⟩
      exact if_pos (of_decide_eq_true hflag)
  · cases h

theorem outside_run {es : List PortEvent} {t : Tx} (h : run (step pb crc32) start es = some t) : Outside t :=
  run_keeps (fun _ _ _ ht hstep => outside_step ht hstep) outside_start h

/-- **Whatever the port delivers**, the loop handles nothing but `error_payload` and never calls the radio service. -/
theorem handles_errors {es : List PortEvent} {t : Tx} (h : run (step pb crc32) start es = some t) :
    (∀ payload ∈ t.handled, payload = .errorPayload) ∧ t.calls = [] :=
  ⟨(outside_run h).handled, (outside_run h).calls⟩

/-! ## Messages of a client -/

variable (pb crc32) in
/-- The loop reading a stream without a gap: every read gets what it asks for, while the stream has it. -/
def readAll : Tx → List UInt8 → Tx
  | t, [] => t
  | t, b :: rest =>
    if t.awaitsCrc then
      match rest with
      | b₁ :: b₂ :: b₃ :: rest => readAll (readCrc pb crc32 t (.data [b, b₁, b₂, b₃])) rest
      | _ => t
    else readAll (readByte t (.data [b])) rest

/-- Reading without a gap is a run. -/
theorem readAll_run (t : Tx) (stream : List UInt8) :
    ∃ es, run (step pb crc32) t es = some (readAll pb crc32 t stream) := by
  fun_induction readAll pb crc32 t stream with
  | case1 t => exact ⟨[], rfl⟩
  | case2 t b hc b₁ b₂ b₃ rest ih =>
    obtain ⟨es, h⟩ := ih
    refine ⟨.data [b, b₁, b₂, b₃] :: es, run_cons.mpr ⟨_, ?_, h⟩⟩
    simp [step, Tx.request, PortEvent.bytes, hc]
  | case3 t => exact ⟨[], rfl⟩
  | case4 t b rest hc ih =>
    obtain ⟨es, h⟩ := ih
    refine ⟨.data [b] :: es, run_cons.mpr ⟨_, ?_, h⟩⟩
    simp [step, Tx.request, PortEvent.bytes, hc]

/-- A message that a client sends. -/
inductive Message where
  | configuration (m : ConfigurationRequest)
  | transmit (m : TransmitRequest)
  deriving DecidableEq, Repr

def Message.payload : Message → Payload
  | .configuration m => .configurationRequest m
  | .transmit m => .transmitRequest m

def Message.module : Message → Int32
  | .configuration m => m.module
  | .transmit m => m.module

/-- A message with the noise before it and what `encode` leaves in its header. -/
structure Sent where
  noise : List UInt8
  reserved : Reserved
  message : Message

variable (pb) in
/-- The escaped packet of a message. -/
def Sent.frame (x : Sent) : List UInt8 := Hdlc.escape (encode pb x.reserved x.message.payload)

variable (pb crc32) in
/-- What a message is on the wire. -/
def Sent.wire (x : Sent) : List UInt8 := x.noise ++ (x.frame pb ++ Bytes.ofWord (crc32 (x.frame pb)))

variable (pb) in
/-- The noise has no flag, the module is one of so many radios, and the frame fits `max_hdlc_size`. -/
structure Sent.Valid (radios : Nat) (x : Sent) : Prop where
  noise : Hdlc.flag ∉ x.noise
  module : 0 ≤ x.message.module.toInt ∧ x.message.module.toInt < radios
  size : (x.frame pb).length ≤ maxHdlcSize

/-- The call of the radio service that a message asks for. -/
def Message.call : Message → RadioCall
  | .configuration m =>
    .configure (UInt8.ofNat m.module.toInt.toNat)
      { freq := m.freq, channel := m.channel.toUInt8, channelSpacing := m.channelSpacing }
  | .transmit m => .transmit (UInt8.ofNat m.module.toInt.toNat) (bufPack m.getFrame [])

variable (pb crc32) in
/-- Every message is handled once, in order, and makes its call of the radio service. -/
def Delivers (xs : List Sent) : Prop :=
  (readAll pb crc32 start (xs.flatMap (Sent.wire pb crc32))).handled = xs.map (fun x => x.message.payload) ∧
    (readAll pb crc32 start (xs.flatMap (Sent.wire pb crc32))).calls = xs.map (fun x => x.message.call)

/-- A message is never handled. -/
theorem not_delivers (x : Sent) (xs : List Sent) : ¬Delivers pb crc32 (x :: xs) := by
  rintro ⟨h, -⟩
  obtain ⟨es, hrun⟩ : ∃ es, run (step pb crc32) start es =
      some (readAll pb crc32 start ((x :: xs).flatMap (Sent.wire pb crc32))) := readAll_run _ _
  have herr := (handles_errors hrun).1 x.message.payload (by rw [h]; exact List.mem_cons_self)
  cases hm : x.message <;> rw [hm] at herr <;> cases herr

/-- **The messages are delivered exactly when there are none.** -/
theorem delivers_iff (xs : List Sent) : Delivers pb crc32 xs ↔ xs = [] := by
  constructor
  · intro h
    cases xs with
    | nil => rfl
    | cons x xs => exact absurd h (not_delivers x xs)
  · rintro rfl
    exact ⟨rfl, rfl⟩

/-- One frame for the second radio, as in the test of this direction. -/
def oneMessage : Sent where
  noise := []
  reserved := Vector.replicate 16 0
  message := .transmit
    { module := 1, frame := some (bufUnpack [11, 12, 13, 14, 15, 16, 17, 18, 19, 20] {}) }

/-- A single valid message is lost. -/
theorem message_lost : ¬∀ (pb : Protobuf) (crc32 : List UInt8 → UInt32) (radios : Nat) (xs : List Sent),
    (∀ x ∈ xs, x.Valid pb radios) → Delivers pb crc32 xs := by
  intro h
  refine not_delivers oneMessage [] (h protobuf Crc32.crc32 2 [oneMessage] fun x hx => ?_)
  rw [List.mem_singleton] at hx
  subst hx
  exact ⟨by decide, by decide, by decide +kernel⟩

/-! ## Deliveries of one stream -/

/-- How many reads at the end of a delivery got a single flag each, without another read between them. -/
def trailingFlags (es : List PortEvent) : Nat := (es.reverse.takeWhile fun e => e.bytes = [Hdlc.flag]).length

/-- A read gets nothing, and an even number of reads of a single flag come directly before it. -/
def Idle (es : List PortEvent) : Prop :=
  ∃ k, ∃ _ : k < es.length, es[k].bytes = [] ∧ trailingFlags (es.take k) % 2 = 0

instance (es : List PortEvent) : Decidable (Idle es) := inferInstanceAs (Decidable (∃ k, ∃ _ : k < es.length, _))

variable (crc32) in
/-- How many reads get exactly the checksum of a single flag. -/
def flagCrcs (es : List PortEvent) : Nat := es.countP fun e => e.bytes = flagCrc crc32

theorem length_flagCrc : (flagCrc crc32).length = 4 := rfl

theorem trailingFlags_concat (es : List PortEvent) (e : PortEvent) :
    trailingFlags (es ++ [e]) = if e.bytes = [Hdlc.flag] then trailingFlags es + 1 else 0 := by
  unfold trailingFlags
  rw [List.reverse_append, List.reverse_singleton, List.singleton_append, List.takeWhile_cons]
  by_cases h : e.bytes = [Hdlc.flag] <;> simp [h]

/-- The last of these reads. -/
theorem getLast_of_trailingFlags {es : List PortEvent} (h : trailingFlags es ≠ 0) :
    ∃ es' e, es = es' ++ [e] ∧ e.bytes = [Hdlc.flag] := by
  induction es using List.reverseRecOn with
  | nil => exact absurd rfl h
  | append_singleton es e _ =>
    rw [trailingFlags_concat] at h
    exact ⟨es, e, rfl, by_contra fun he => h (if_neg he)⟩

theorem idle_concat (es : List PortEvent) (e : PortEvent) :
    Idle (es ++ [e]) ↔ Idle es ∨ e.bytes = [] ∧ trailingFlags es % 2 = 0 := by
  constructor
  · rintro ⟨k, hk, hnil, heven⟩
    rcases Nat.lt_or_eq_of_le (Nat.le_of_lt_succ (by simpa using hk) : k ≤ es.length) with hlt | rfl
    · rw [List.getElem_append_left hlt] at hnil
      rw [List.take_append_of_le_length (Nat.le_of_lt hlt)] at heven
      exact Or.inl ⟨k, hlt, hnil, heven⟩
    · rw [List.getElem_concat_length rfl] at hnil
      rw [List.take_left] at heven
      exact Or.inr ⟨hnil, heven⟩
  · rintro (⟨k, hk, hnil, heven⟩ | ⟨hnil, heven⟩)
    · refine ⟨k, by simp; omega, ?_, ?_⟩
      · rw [List.getElem_append_left hk]
        exact hnil
      · rw [List.take_append_of_le_length (Nat.le_of_lt hk)]
        exact heven
    · refine ⟨es.length, by simp, ?_, ?_⟩
      · rw [List.getElem_concat_length rfl]
        exact hnil
      · rw [List.take_left]
        exact heven

theorem flagCrcs_concat (es : List PortEvent) (e : PortEvent) :
    flagCrcs crc32 (es ++ [e]) = flagCrcs crc32 es + if e.bytes = flagCrc crc32 then 1 else 0 := by
  rw [flagCrcs, flagCrcs, List.countP_append, List.countP_singleton]
  simp

/-- Two runs handle the same payloads, and no read that delivers nothing feeds `update`. -/
def TimingFree (t u : Tx) : Prop := t.handled = u.handled ∧ t.emptyFeeds = 0 ∧ u.emptyFeeds = 0

/-- A read of a checksum, in terms of the history. -/
theorem step_crc {t u : Tx} {e : PortEvent} (ht : Outside t) (hc : t.awaitsCrc = true)
    (h : step pb crc32 t e = some u) : u.awaitsCrc = false ∧ u.emptyFeeds = t.emptyFeeds ∧
      u.handled = t.handled ++ if e.bytes = flagCrc crc32 then [.errorPayload] else [] := by
  simp only [step] at h
  split at h
  · rename_i he
    have he : e.bytes.length ≤ 4 := by simpa [Tx.request, hc] using he
    rw [readCrc_eq ht hc he] at h
    cases h
    split
    · exact ⟨rfl, rfl, rfl⟩
    · exact ⟨rfl, rfl, (List.append_nil _).symm⟩
  · cases h

/-- A read of a byte, in terms of the history. -/
theorem step_byte {t u : Tx} {e : PortEvent} (ht : Outside t) (hc : t.awaitsCrc = false)
    (h : step pb crc32 t e = some u) : u.handled = t.handled ∧
      (e.bytes = [] → u.emptyFeeds = t.emptyFeeds + 1) ∧
      (e.bytes ≠ [] → u.emptyFeeds = t.emptyFeeds ∧ u.awaitsCrc = decide (e.bytes = [Hdlc.flag])) := by
  simp only [step] at h
  split at h
  · rename_i he
    have he : e.bytes.length ≤ 1 := by simpa [Tx.request, hc] using he
    rw [hc, if_neg Bool.false_ne_true, readByte_eq ht] at h
    cases h
    refine ⟨rfl, fun hnil => if_pos hnil, fun hne => ⟨if_neg hne, ?_⟩⟩
    obtain ⟨b, hb⟩ : ∃ b, e.bytes = [b] :=
      List.length_eq_one_iff.mp (by have := List.length_pos_iff.mpr hne; omega)
    simp [Tx.fedByte, hb]
  · cases h

/-- A read gets at most what it asks for. -/
theorem length_of_step {t u : Tx} {e : PortEvent} (h : step pb crc32 t e = some u) : e.bytes.length ≤ t.request := by
  simp only [step] at h
  split at h
  · assumption
  · cases h

variable (crc32) in
/-- How the loop stands after these reads: `update` was fed without a byte exactly if one of them was idle; if not, a
checksum is awaited after an odd number of flags, and every read of the checksum of a single flag was an
`error_payload`. -/
structure Follows (es : List PortEvent) (t : Tx) : Prop where
  feeds : t.emptyFeeds = 0 ↔ ¬Idle es
  awaitsCrc : ¬Idle es → t.awaitsCrc = decide (trailingFlags es % 2 = 1)
  handled : ¬Idle es → t.handled = List.replicate (flagCrcs crc32 es) .errorPayload

/-- The next read, where a checksum is awaited. -/
theorem Follows.crc {es : List PortEvent} {t u : Tx} {e : PortEvent} (hs : Follows crc32 es t) (ht : Outside t)
    (hc : t.awaitsCrc = true) (h : step pb crc32 t e = some u) : Follows crc32 (es ++ [e]) u := by
  obtain ⟨hcrc, hfeeds, hhandled⟩ := step_crc ht hc h
  have hodd : ¬Idle es → trailingFlags es % 2 = 1 := fun hidle => by simpa [hc] using hs.awaitsCrc hidle
  have hidle : Idle (es ++ [e]) ↔ Idle es := by
    rw [idle_concat]
    refine ⟨fun h => by_contra fun hidle => ?_, Or.inl⟩
    have := hodd hidle
    have := (h.resolve_left hidle).2
    omega
  refine ⟨?_, fun hne => ?_, fun hne => ?_⟩
  · rw [hfeeds, hidle]
    exact hs.feeds
  · have := hodd (hidle.not.mp hne)
    rw [trailingFlags_concat, hcrc, eq_comm, decide_eq_false_iff_not]
    split <;> omega
  · rw [hhandled, hs.handled (hidle.not.mp hne), flagCrcs_concat, List.replicate_add]
    split <;> rfl

/-- The next read, where a byte is. -/
theorem Follows.byte {es : List PortEvent} {t u : Tx} {e : PortEvent} (hs : Follows crc32 es t) (ht : Outside t)
    (hc : t.awaitsCrc = false) (h : step pb crc32 t e = some u) : Follows crc32 (es ++ [e]) u := by
  obtain ⟨hhandled, hnil, hne⟩ := step_byte ht hc h
  have heven : ¬Idle es → trailingFlags es % 2 = 0 := fun hidle => by
    have hcrc := hs.awaitsCrc hidle
    rw [hc, eq_comm, decide_eq_false_iff_not] at hcrc
    omega
  have hnot : e.bytes ≠ flagCrc crc32 := by
    intro he
    have hlen := length_of_step h
    rw [he, length_flagCrc, Tx.request, hc] at hlen
    exact absurd hlen (by decide)
  have hhandled : ¬Idle es → u.handled = List.replicate (flagCrcs crc32 (es ++ [e])) .errorPayload := fun hidle => by
    rw [hhandled, hs.handled hidle, flagCrcs_concat, if_neg hnot, Nat.add_zero]
  by_cases hb : e.bytes = []
  · have hfeeds := hnil hb
    have hidle : Idle (es ++ [e]) := by
      rw [idle_concat]
      by_cases hidle : Idle es
      · exact Or.inl hidle
      · exact Or.inr ⟨hb, heven hidle⟩
    exact ⟨iff_of_false (by omega) (not_not_intro hidle), absurd hidle, absurd hidle⟩
  · obtain ⟨hfeeds, hcrc⟩ := hne hb
    have hidle : Idle (es ++ [e]) ↔ Idle es := by
      rw [idle_concat]
      exact ⟨fun h => h.resolve_right fun h => hb h.1, Or.inl⟩
    refine ⟨?_, fun hno => ?_, fun hno => hhandled (hidle.not.mp hno)⟩
    · rw [hfeeds, hidle]
      exact hs.feeds
    · have := heven (hidle.not.mp hno)
      rw [trailingFlags_concat, hcrc, decide_eq_decide]
      split
      · exact iff_of_true ‹_› (by omega)
      · exact iff_of_false ‹_› (by omega)

/-- **What a delivery does**, in terms of its reads alone. -/
theorem follows_run {es : List PortEvent} : ∀ {t : Tx}, run (step pb crc32) start es = some t → Follows crc32 es t := by
  induction es using List.reverseRecOn with
  | nil =>
    intro t h
    cases h
    have hidle : ¬Idle [] := fun ⟨_, hk, _⟩ => Nat.not_lt_zero _ hk
    exact ⟨iff_of_true rfl hidle, fun _ => rfl, fun _ => rfl⟩
  | append_singleton es e ih =>
    intro u h
    obtain ⟨t, ht, hu⟩ := run_concat.mp h
    cases hc : t.awaitsCrc with
    | true => exact (ih ht).crc (outside_run ht) hc hu
    | false => exact (ih ht).byte (outside_run ht) hc hu

/-- **Two deliveries, of one stream or not, lead to the same payloads without an empty read feeding `update` exactly
when** no read of them is idle and both have the same number of reads that get the checksum of a single flag. -/
theorem timing_free_runs_iff {es fs : List PortEvent} {t u : Tx} (ht : run (step pb crc32) start es = some t)
    (hu : run (step pb crc32) start fs = some u) :
    TimingFree t u ↔ (¬Idle es ∧ ¬Idle fs) ∧ flagCrcs crc32 es = flagCrcs crc32 fs := by
  have ht := follows_run ht
  have hu := follows_run hu
  constructor
  · rintro ⟨hsame, ht0, hu0⟩
    have hes := ht.feeds.mp ht0
    have hfs := hu.feeds.mp hu0
    rw [ht.handled hes, hu.handled hfs] at hsame
    exact ⟨⟨hes, hfs⟩, by simpa using congrArg List.length hsame⟩
  · rintro ⟨⟨hes, hfs⟩, hcount⟩
    refine ⟨?_, ht.feeds.mpr hes, hu.feeds.mpr hfs⟩
    rw [ht.handled hes, hu.handled hfs, hcount]

/-! ## The streams that timing does not change -/

variable (pb crc32) in
/-- Every two deliveries of a stream without an idle read lead to the same payloads. -/
def TimingFreeStream (stream : List UInt8) : Prop :=
  ∀ (es fs : List PortEvent) (t u : Tx), es.flatMap PortEvent.bytes = stream → fs.flatMap PortEvent.bytes = stream →
    run (step pb crc32) start es = some t → run (step pb crc32) start fs = some u → ¬Idle es → ¬Idle fs →
    TimingFree t u

/-- A read that gets a checksum comes directly after a read of a single flag. -/
theorem flag_before_crc {es : List PortEvent} : ∀ {t : Tx}, run (step pb crc32) start es = some t → ¬Idle es →
    flagCrcs crc32 es ≠ 0 → Hdlc.flag :: flagCrc crc32 <:+: es.flatMap PortEvent.bytes := by
  induction es using List.reverseRecOn with
  | nil => exact fun _ _ h => absurd rfl h
  | append_singleton es e ih =>
    intro u h hidle hcount
    obtain ⟨t, ht, hu⟩ := run_concat.mp h
    have hes : ¬Idle es := fun hes => hidle ((idle_concat es e).mpr (Or.inl hes))
    by_cases he : e.bytes = flagCrc crc32
    · -- four bytes are read only where a checksum is awaited
      have hodd : trailingFlags es % 2 = 1 := by
        have hlen := length_of_step hu
        rw [he, length_flagCrc, Tx.request, (follows_run ht).awaitsCrc hes] at hlen
        by_contra hno
        rw [decide_eq_false hno] at hlen
        exact absurd hlen (by decide)
      obtain ⟨before, f, rfl, hf⟩ := @getLast_of_trailingFlags es (by omega)
      refine ⟨before.flatMap PortEvent.bytes, [], ?_⟩
      simp [List.flatMap_append, hf, he]
    · rw [flagCrcs_concat, if_neg he, Nat.add_zero] at hcount
      rw [List.flatMap_append]
      exact (ih ht hes hcount).trans (List.prefix_append _ _).isInfix

/-- A byte in a read of its own, with a timeout instead of the checksum after a flag. -/
def single (b : UInt8) : List PortEvent := if b = Hdlc.flag then [.data [b], .timeout] else [.data [b]]

theorem bytes_singles (bytes : List UInt8) : (bytes.flatMap single).flatMap PortEvent.bytes = bytes := by
  induction bytes with
  | nil => rfl
  | cons b bytes ih =>
    rw [List.flatMap_cons, List.flatMap_append, ih, single]
    split <;> rfl

/-- The loop goes from between two frames to between two frames, handles these payloads, and no empty read feeds
`update`. -/
structure Passes (t u : Tx) (payloads : List Payload) : Prop where
  outside : Outside u
  awaitsCrc : u.awaitsCrc = false
  emptyFeeds : u.emptyFeeds = t.emptyFeeds
  handled : u.handled = t.handled ++ payloads

theorem Passes.refl {t : Tx} (ht : Outside t) (hc : t.awaitsCrc = false) : Passes t t [] :=
  ⟨ht, hc, rfl, (List.append_nil _).symm⟩

theorem Passes.trans {t u v : Tx} {ps qs : List Payload} (h : Passes t u ps) (h' : Passes u v qs) :
    Passes t v (ps ++ qs) where
  outside := h'.outside
  awaitsCrc := h'.awaitsCrc
  emptyFeeds := h'.emptyFeeds.trans h.emptyFeeds
  handled := by rw [h'.handled, h.handled, List.append_assoc]

/-- A read that gets no more than it asks for can happen. -/
theorem step_of_length {t : Tx} {e : PortEvent} (h : e.bytes.length ≤ t.request) :
    ∃ u, step pb crc32 t e = some u := ⟨_, if_pos h⟩

/-- A flag and what is read for its checksum. -/
theorem passes_flag {t : Tx} (ht : Outside t) (hc : t.awaitsCrc = false) {e : PortEvent} (he : e.bytes.length ≤ 4) :
    ∃ u, run (step pb crc32) t [.data [Hdlc.flag], e] = some u ∧
      Passes t u (if e.bytes = flagCrc crc32 then [.errorPayload] else []) := by
  obtain ⟨u, hu⟩ := @step_of_length pb crc32 t (.data [Hdlc.flag]) (by rw [Tx.request, hc]; decide)
  have hout := outside_step ht hu
  obtain ⟨hhandled, -, hne⟩ := step_byte ht hc hu
  obtain ⟨hfeeds, hcrc⟩ := hne (List.cons_ne_nil _ _)
  have hcrc : u.awaitsCrc = true := hcrc.trans (decide_eq_true rfl)
  obtain ⟨v, hv⟩ := @step_of_length pb crc32 u e (by rw [Tx.request, hcrc]; exact he)
  obtain ⟨hbyte, hfeeds', hhandled'⟩ := step_crc hout hcrc hv
  refine ⟨v, run_cons.mpr ⟨u, hu, run_cons.mpr ⟨v, hv, rfl⟩⟩, outside_step hout hv, hbyte, hfeeds'.trans hfeeds, ?_⟩
  rw [hhandled', hhandled]

/-- Bytes in reads of their own are handled as nothing. -/
theorem passes_singles {bytes : List UInt8} : ∀ {t : Tx}, Outside t → t.awaitsCrc = false →
    ∃ u, run (step pb crc32) t (bytes.flatMap single) = some u ∧ Passes t u [] := by
  induction bytes with
  | nil => exact fun ht hc => ⟨_, rfl, .refl ht hc⟩
  | cons b bytes ih =>
    intro t ht hc
    obtain ⟨u, hu, hpass⟩ : ∃ u, run (step pb crc32) t (single b) = some u ∧ Passes t u [] := by
      by_cases hb : b = Hdlc.flag
      · rw [single, if_pos hb, hb]
        exact @passes_flag pb crc32 t ht hc .timeout (Nat.zero_le 4)
      · obtain ⟨u, hu⟩ := @step_of_length pb crc32 t (.data [b]) (by rw [Tx.request, hc]; exact Nat.le_refl 1)
        obtain ⟨hhandled, -, hne⟩ := step_byte ht hc hu
        obtain ⟨hfeeds, hcrc⟩ := hne (List.cons_ne_nil _ _)
        rw [single, if_neg hb]
        refine ⟨u, run_cons.mpr ⟨u, hu, rfl⟩, outside_step ht hu, hcrc.trans (decide_eq_false fun h => ?_), hfeeds,
          hhandled.trans (List.append_nil _).symm⟩
        exact hb (List.cons.inj h).1
    obtain ⟨v, hv, hrest⟩ := ih hpass.outside hpass.awaitsCrc
    refine ⟨v, ?_, hpass.trans hrest⟩
    rw [List.flatMap_cons, run_append, hu]
    exact hv

/-- A flag and its checksum in a stream: read whole, it is handled, and with a timeout after every flag it is not. -/
theorem not_timingFreeStream {stream : List UInt8} (h : Hdlc.flag :: flagCrc crc32 <:+: stream) :
    ¬TimingFreeStream pb crc32 stream := by
  obtain ⟨before, after, rfl⟩ := h
  intro hfree
  obtain ⟨t, ht, hpass⟩ := @passes_singles pb crc32 before start outside_start rfl
  obtain ⟨u, hu, hpass'⟩ :=
    @passes_flag pb crc32 t hpass.outside hpass.awaitsCrc (.data (flagCrc crc32)) (Nat.le_refl 4)
  obtain ⟨v, hv, hpass''⟩ := @passes_singles pb crc32 after u hpass'.outside hpass'.awaitsCrc
  have hwhole : run (step pb crc32) start
      (before.flatMap single ++ [.data [Hdlc.flag], .data (flagCrc crc32)] ++ after.flatMap single) = some v := by
    rw [run_append, run_append, ht, Option.bind_some, hu]
    exact hv
  obtain ⟨w, hw, hnone⟩ := @passes_singles pb crc32 (before ++ Hdlc.flag :: flagCrc crc32 ++ after) start
    outside_start rfl
  have hpassed := (hpass.trans hpass').trans hpass''
  have hbytes : List.flatMap PortEvent.bytes
      (before.flatMap single ++ [.data [Hdlc.flag], .data (flagCrc crc32)] ++ after.flatMap single) =
      before ++ Hdlc.flag :: flagCrc crc32 ++ after := by
    rw [List.flatMap_append, List.flatMap_append, bytes_singles, bytes_singles]
    simp [PortEvent.bytes]
  have hsame := (hfree _ _ v w hbytes (bytes_singles _) hwhole hw ((follows_run hwhole).feeds.mp hpassed.emptyFeeds)
    ((follows_run hw).feeds.mp hnone.emptyFeeds)).1
  rw [hpassed.handled, hnone.handled] at hsame
  simp [start, PortEvent.bytes] at hsame

/-- **Timing changes the payloads of a stream, with no idle read, exactly when it has a flag with its checksum.** -/
theorem timingFreeStream_iff (stream : List UInt8) :
    TimingFreeStream pb crc32 stream ↔ ¬Hdlc.flag :: flagCrc crc32 <:+: stream := by
  constructor
  · exact fun hfree h => not_timingFreeStream h hfree
  · intro h es fs t u hes hfs ht hu hidle hidle'
    have hzero : flagCrcs crc32 es = 0 := by_contra fun hne => h (hes ▸ flag_before_crc ht hidle hne)
    have hzero' : flagCrcs crc32 fs = 0 := by_contra fun hne => h (hfs ▸ flag_before_crc hu hidle' hne)
    exact (timing_free_runs_iff ht hu).mpr ⟨⟨hidle, hidle'⟩, hzero.trans hzero'.symm⟩

variable (pb crc32) in
/-- **When timing does not change what the service does.** Two deliveries lead to the same payloads without an empty
read feeding `update` exactly when no read of them is idle and they have equally many reads of the checksum of a single
flag. All deliveries of a stream without an idle read agree exactly if the stream has no flag with its checksum. -/
theorem timing_free_iff :
    (∀ (es fs : List PortEvent) (t u : Tx), run (step pb crc32) start es = some t →
      run (step pb crc32) start fs = some u →
      (TimingFree t u ↔ (¬Idle es ∧ ¬Idle fs) ∧ flagCrcs crc32 es = flagCrcs crc32 fs)) ∧
    ∀ stream : List UInt8, TimingFreeStream pb crc32 stream ↔ ¬Hdlc.flag :: flagCrc crc32 <:+: stream :=
  ⟨fun _ _ _ _ ht hu => timing_free_runs_iff ht hu, timingFreeStream_iff⟩

end

/-- The checksum of a single flag. -/
def crcBytes : List UInt8 := flagCrc Crc32.crc32

/-- A flag and its checksum, a flag and four other bytes, and a flag and its checksum. -/
def wholeCrc : List PortEvent :=
  [.data [0x7E], .data crcBytes, .data [0x7E], .data [1, 2, 3, 4], .data [0x7E], .data crcBytes]

/-- The same stream, the four bytes one by one after a timeout. -/
def lateCrc : List PortEvent :=
  [.data [0x7E], .data crcBytes, .data [0x7E], .timeout, .data [1], .data [2], .data [3], .data [4], .data [0x7E],
    .data crcBytes]

/-- The loop after a delivery, for the real checksum and codecs. -/
def after (es : List PortEvent) : Tx := (run (step protobuf Crc32.crc32) start es).getD start

theorem timing_free_lateCrc :
    (∃ t u, run (step protobuf Crc32.crc32) start wholeCrc = some t ∧
      run (step protobuf Crc32.crc32) start lateCrc = some u ∧ t.handled = [.errorPayload, .errorPayload] ∧
      TimingFree t u) ∧
    TimingFreeStream protobuf Crc32.crc32 [0x7E, 1, 2, 3, 4, 0x7E] := by
  have ht : run (step protobuf Crc32.crc32) start wholeCrc = some (after wholeCrc) := by decide +kernel
  have hu : run (step protobuf Crc32.crc32) start lateCrc = some (after lateCrc) := by decide +kernel
  have hidle : ¬Idle wholeCrc ∧ ¬Idle lateCrc := by decide +kernel
  obtain ⟨hruns, hstreams⟩ := timing_free_iff protobuf Crc32.crc32
  refine ⟨⟨_, _, ht, hu, by decide +kernel, (hruns _ _ _ _ ht hu).mpr ⟨hidle, by decide +kernel⟩⟩, ?_⟩
  exact (hstreams _).mpr (by decide +kernel)

/-- A flag and its checksum, twice. -/
def backToBack : List PortEvent := [.data [0x7E], .data crcBytes, .data [0x7E], .data crcBytes]

/-- The same stream with a timeout in the middle: the second flag is read with the checksum of the first one, which
`update` got again. -/
def idleBetween : List PortEvent :=
  [.data [0x7E], .data crcBytes, .timeout, .data (0x7E :: crcBytes.take 3), .data (crcBytes.drop 3)]

/-- An idle line between two frames changes what is handled. -/
theorem timing_changes_payloads : ¬∀ (pb : Protobuf) (crc32 : List UInt8 → UInt32) (es fs : List PortEvent) (t u : Tx),
    run (step pb crc32) start es = some t → run (step pb crc32) start fs = some u →
    es.flatMap PortEvent.bytes = fs.flatMap PortEvent.bytes → TimingFree t u := by
  intro h
  have h := h protobuf Crc32.crc32 backToBack idleBetween (after backToBack) (after idleBetween) (by decide +kernel)
    (by decide +kernel) (by decide +kernel)
  exact absurd h.1 (by decide +kernel)

end KaonicComm.SerialTx
