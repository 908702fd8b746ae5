import KaonicComm.Frame
import KaonicComm.Lib.Runs
import Mathlib.Logic.Function.Basic

/-!
# `grpc_service`: the receive path

`receive_frame` appends to `_frame_queue` under `_mut` and drops the oldest of 64 frames; `pop_frame` copies the head
of the queue into the member `_rx_frame` under `_mut`; each `ReceiveStream` call then fills its own response from
`_rx_frame`, without the mutex, and writes it. The steps of any number of calls interleave (`step`).

What a call did is read off the history: the frames it removed from the queue (`removed`), the frames a client gets
from its responses after the initial empty one (`delivered`), and the frame between the two (`inFlight`).
-/

namespace KaonicComm.ReceiveStream

/-- A frame in `_frame_queue`. The number of its arrival is ghost: it tells frames with the same bytes apart. -/
structure Queued where
  arrival : Nat
  buffer : List UInt8
  deriving DecidableEq, Repr

/-- Where a `ReceiveStream` call stands. -/
inductive Pc where
  /-- Before the first `Write`. -/
  | opening
  /-- At the head of the loop. -/
  | looping
  /-- `pop_frame` has copied a frame into `_rx_frame`; the frame it removed is ghost. -/
  | popped (q : Queued)
  /-- The response has been filled; the frame that was removed is ghost. -/
  | unpacked (q : Queued)
  /-- The call has returned. -/
  | closed
  deriving DecidableEq, Repr

/-- The members of `grpc_service` that the receive path uses, the calls by number, and the history (ghost). -/
structure State where
  /-- Whether `_radio_service` was given. -/
  radioService : Bool
  frameQueue : List Queued
  rxFrame : List UInt8
  pc : Nat → Pc
  /-- The local `response` of each call. -/
  response : Nat → ReceiveResponse
  /-- Every frame given to `receive_frame`. -/
  received : List Queued
  /-- Every frame that `receive_frame` dropped. -/
  evicted : List Queued
  /-- Every frame that `pop_frame` removed, with the call that removed it. -/
  pops : List (Nat × Queued)
  /-- Every response handed to `Write`, with the call that wrote it. -/
  writes : List (Nat × ReceiveResponse)

/-- Before any call. -/
def init (radioService : Bool) : State where
  radioService := radioService
  frameQueue := []
  rxFrame := []
  pc := fun _ => .opening
  response := fun _ => {}
  received := []
  evicted := []
  pops := []
  writes := []

/-- `receive_frame`. -/
def receiveFrame (s : State) (buffer : List UInt8) : State :=
  let q : Queued := ⟨s.received.length, buffer⟩
  let s :=
    if s.frameQueue.length ≥ 64 then
      { s with frameQueue := s.frameQueue.tail, evicted := s.evicted ++ s.frameQueue.head?.toList }
    else s
  { s with frameQueue := s.frameQueue ++ [q], received := s.received ++ [q] }

/-- `pop_frame` in call `i`: the frame it removed, or `none` when it returns `false` (the queue stayed empty). -/
def popFrame (s : State) (i : Nat) : Option Queued × State :=
  match s.frameQueue with
  | [] => (none, s)
  | q :: rest => (some q, { s with rxFrame := q.buffer, frameQueue := rest, pops := s.pops ++ [(i, q)] })

/-- One atomic step of the receive path; the copy to `_rx_frame` and `grpc_buf_unpack` from it are one step each. -/
inductive Act where
  | receiveFrame (buffer : List UInt8)
  /-- Call `i` checks `_radio_service` and writes the empty response. -/
  | openStream (i : Nat)
  /-- Call `i` finds its context cancelled. -/
  | cancel (i : Nat)
  | popFrame (i : Nat)
  /-- Call `i` runs `grpc_buf_unpack`. -/
  | unpack (i : Nat)
  /-- Call `i` writes its response; `ok` is what `Write` returns. -/
  | write (i : Nat) (ok : Bool)
  deriving DecidableEq, Repr

/-- The frame given to `receive_frame`. -/
def Act.frame? : Act → Option (List UInt8)
  | .receiveFrame buffer => some buffer
  | _ => none

/-- The call a step belongs to. -/
def Act.call? : Act → Option Nat
  | .receiveFrame _ => none
  | .openStream i | .cancel i | .popFrame i | .unpack i | .write i _ => some i

/-- The steps of `receive_frame` and of the `ReceiveStream` calls. -/
def step (s : State) : Act → Option State
  | .receiveFrame buffer => some (receiveFrame s buffer)
  | .openStream i =>
    if s.pc i = .opening then
      if s.radioService then
        let response : ReceiveResponse := { frame := some {} }
        some { s with
          pc := Function.update s.pc i .looping
          response := Function.update s.response i response
          writes := s.writes ++ [(i, response)] }
      else some { s with pc := Function.update s.pc i .closed }
    else none
  | .cancel i => if s.pc i = .looping then some { s with pc := Function.update s.pc i .closed } else none
  | .popFrame i =>
    if s.pc i = .looping then
      match popFrame s i with
      | (none, s) => some s
      | (some q, s) => some { s with pc := Function.update s.pc i (.popped q) }
    else none
  | .unpack i =>
    match s.pc i with
    | .popped q =>
      let response := { s.response i with frame := some (grpcBufUnpack s.rxFrame (s.response i).getFrame) }
      some { s with pc := Function.update s.pc i (.unpacked q), response := Function.update s.response i response }
    | _ => none
  | .write i ok =>
    match s.pc i with
    | .unpacked _ =>
      some { s with
        pc := Function.update s.pc i (if ok then .looping else .closed)
        writes := s.writes ++ [(i, s.response i)] }
    | _ => none

/-! ## What a step does -/

section

variable {s s' : State} {i : Nat}

theorem step_openStream (h : step s (.openStream i) = some s') : s.pc i = .opening ∧
    (s' = { s with
        pc := Function.update s.pc i .looping
        response := Function.update s.response i { frame := some {} }
        writes := s.writes ++ [(i, { frame := some {} })] } ∨
      s' = { s with pc := Function.update s.pc i .closed }) := by
  simp only [step] at h
  split at h
  · rename_i hpc
    split at h <;> cases h
    · exact ⟨hpc, Or.inl rfl⟩
    · exact ⟨hpc, Or.inr rfl⟩
  · cases h

theorem step_cancel (h : step s (.cancel i) = some s') :
    s.pc i = .looping ∧ s' = { s with pc := Function.update s.pc i .closed } := by
  simp only [step] at h
  split at h <;> cases h
  exact ⟨‹_›, rfl⟩

/-- A call finds the queue empty or removes its head. -/
theorem step_popFrame (h : step s (.popFrame i) = some s') : s.pc i = .looping ∧
    (s.frameQueue = [] ∧ s' = s ∨
      ∃ q rest, s.frameQueue = q :: rest ∧
        s' = { s with
          rxFrame := q.buffer
          frameQueue := rest
          pops := s.pops ++ [(i, q)]
          pc := Function.update s.pc i (.popped q) }) := by
  simp only [step] at h
  split at h
  · rename_i hpc
    cases hq : s.frameQueue with
    | nil =>
      simp only [popFrame, hq] at h
      cases h
      exact ⟨hpc, Or.inl ⟨rfl, rfl⟩⟩
    | cons q rest =>
      simp only [popFrame, hq] at h
      cases h
      exact ⟨hpc, Or.inr ⟨q, rest, rfl, rfl⟩⟩
  · cases h

theorem step_unpack (h : step s (.unpack i) = some s') : ∃ q, s.pc i = .popped q ∧
    s' = { s with
      pc := Function.update s.pc i (.unpacked q)
      response := Function.update s.response i
        { s.response i with frame := some (grpcBufUnpack s.rxFrame (s.response i).getFrame) } } := by
  simp only [step] at h
  split at h
  · rename_i q hpc
    cases h
    exact ⟨q, hpc, rfl⟩
  · cases h

theorem step_write {ok : Bool} (h : step s (.write i ok) = some s') : ∃ q, s.pc i = .unpacked q ∧
    s' = { s with
      pc := Function.update s.pc i (if ok then .looping else .closed)
      writes := s.writes ++ [(i, s.response i)] } := by
  simp only [step] at h
  split at h
  · rename_i q hpc
    cases h
    exact ⟨q, hpc, rfl⟩
  · cases h

end

/-! ## What a call did -/

/-- The entries of one call in a history. -/
def ofCall {β : Type} (i : Nat) (log : List (Nat × β)) : List β :=
  log.filterMap fun e => if e.1 = i then some e.2 else none

/-- One `ReceiveStream` call: where it stands, its response, the frames it removed and the responses it wrote. -/
structure Call where
  pc : Pc
  response : ReceiveResponse
  pops : List Queued
  writes : List ReceiveResponse

/-- Call `i` in a state. -/
def call (s : State) (i : Nat) : Call := ⟨s.pc i, s.response i, ofCall i s.pops, ofCall i s.writes⟩

/-- The frames that the call removed from the queue. -/
def Call.removed (c : Call) : List (List UInt8) := c.pops.map Queued.buffer

/-- The frames in the responses that the call wrote after the initial empty one. -/
def Call.delivered (c : Call) : List (List UInt8) := c.writes.tail.map fun r => grpcBufPack r.getFrame []

/-- The frame that the call has removed from the queue and not yet written. -/
def Call.inFlight (c : Call) : List (List UInt8) :=
  match c.pc with
  | .popped q | .unpacked q => [q.buffer]
  | _ => []

end KaonicComm.ReceiveStream
