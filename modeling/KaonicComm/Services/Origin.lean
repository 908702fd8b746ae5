import KaonicComm.Services.RadioService
import KaonicComm.Services.ReceiveStreamQueue
import KaonicComm.Services.SerialService

/-!
# Where a received frame comes from

A frame goes from the callback of its network through the broadcaster to the listeners: the gRPC listener queues it for
the `ReceiveStream` calls, the serial listener encodes it for the client. A `mesh::frame` is bytes and nothing else, no
call looks at the `module` of its request, and nothing sets the `module` of a response, which stays `0`
(`modules_zero`).

So the responses carry the radio of origin, and each stream gets the frames of its own radio, exactly when every frame
that is written came from radio `0` and every stream it is written to was opened for module `0` (`originKept_iff`).
-/

namespace KaonicComm.Origin

open Runs

/-- `grpc_radio_listener` and `serial_radio_listener`. -/
inductive Listener where
  | grpc
  | serial
  deriving DecidableEq, Repr

/-- A response that a `ReceiveStream` call wrote for a frame, with the radio that the frame in it arrived on. -/
structure Written where
  stream : Nat
  origin : Option Nat
  response : ReceiveResponse
  deriving DecidableEq, Repr

/-- The services, and for each network the calls of its callback that are still to be made. -/
structure State where
  fanOut : FanOut.State Listener
  pending : Nat → List (Listener × List UInt8)
  stream : ReceiveStream.State
  serial : SerialService.Service
  /-- The radio of each frame given to `grpc_service::receive_frame`, by the number of its arrival (ghost). -/
  origins : List Nat
  /-- The radio of the frame in `_rx_frame` (ghost). -/
  rxOrigin : Option Nat
  /-- The radio of the frame in the response of each `ReceiveStream` call (ghost). -/
  filled : Nat → Option Nat
  /-- The responses that were written for frames (ghost). -/
  written : List Written
  /-- The responses that `serial_service::receive_frame` encoded, with the radio of the frame (ghost). -/
  encoded : List (Nat × ReceiveResponse)

/-- So many radios, and nobody attached. -/
def init (radios : Nat) : State where
  fanOut := FanOut.init radios
  pending := fun _ => []
  stream := ReceiveStream.init true
  serial := SerialService.init
  origins := []
  rxOrigin := none
  filled := fun _ => none
  written := []
  encoded := []

/-- One step. -/
inductive Act where
  | attach (listener : Listener)
  | expire (listener : Listener)
  /-- The network of radio `i` gets a frame, and goes through the listeners of its broadcaster. -/
  | receive (i : Nat) (data : List UInt8)
  /-- The network of radio `i` calls the next listener. -/
  | deliver (i : Nat) (reserved : Packet.Reserved)
  /-- A step of a `ReceiveStream` call. -/
  | stream (a : ReceiveStream.Act)

section

-- the codec of the serial line, and the `module` of each `ReceiveRequest`
variable (pb : Protobuf) (module : Nat → Int32)

/-- A call of `on_receive` by the network of radio `i`, as one step: `serial_service::receive_frame` unpacks into
`_rx_response` and encodes it without a lock. -/
def onReceive (s : State) (i : Nat) (reserved : Packet.Reserved) : Listener → List UInt8 → State
  | .grpc, frame =>
    { s with stream := ReceiveStream.receiveFrame s.stream frame, origins := s.origins ++ [i] }
  | .serial, frame =>
    let serial := (SerialService.receiveFrame pb reserved s.serial frame).1
    { s with serial, encoded := s.encoded ++ [(i, serial.rxResponse)] }

/-- The response that a step of a `ReceiveStream` call writes for a frame. -/
def writtenBy (s : State) : ReceiveStream.Act → List Written
  | .write i _ =>
    match s.stream.pc i with
    | .unpacked _ => [⟨i, s.filled i, s.stream.response i⟩]
    | _ => []
  | _ => []

/-- The radio of the frame in `_rx_frame` after a step of a `ReceiveStream` call: `pop_frame` copies the head of the
queue. -/
def rxOriginAfter (s : State) : ReceiveStream.Act → Option Nat
  | .popFrame _ =>
    match s.stream.frameQueue with
    | [] => s.rxOrigin
    | q :: _ => s.origins[q.arrival]?
  | _ => s.rxOrigin

/-- The radios of the frames in the responses after a step of a `ReceiveStream` call. -/
def filledAfter (s : State) : ReceiveStream.Act → Nat → Option Nat
  | .unpack i => Function.update s.filled i s.rxOrigin
  | _ => s.filled

def step (s : State) : Act → Option State
  | .attach listener => (FanOut.step s.fanOut (.attach (some listener))).map fun fanOut => { s with fanOut }
  | .expire listener => (FanOut.step s.fanOut (.expire listener)).map fun fanOut => { s with fanOut }
  | .receive i data =>
    if s.pending i = [] then
      match s.fanOut.service.onReceive s.fanOut.alive i data with
      | none => none
      | some (service, calls) =>
        some { s with fanOut := { s.fanOut with service }, pending := Function.update s.pending i calls }
    else none
  | .deliver i reserved =>
    match s.pending i with
    | [] => none
    | (listener, frame) :: rest =>
      some (onReceive pb { s with pending := Function.update s.pending i rest } i reserved listener frame)
  | .stream a =>
    -- frames come from the networks only
    if a.frame? = none then
      (ReceiveStream.step s.stream a).map fun stream =>
        { s with
          stream
          rxOrigin := rxOriginAfter s a
          filled := filledAfter s a
          written := s.written ++ writtenBy s a }
    else none

/-- A response that was written to the stream of its radio, and says so. -/
def Written.Kept (w : Written) : Prop :=
  ∃ r : Nat, w.origin = some r ∧ w.response.module.toInt = r ∧ (module w.stream).toInt = r

/-- Every response carries the radio of origin, and every stream got frames of its own radio only. -/
structure OriginKept (s : State) : Prop where
  written : ∀ w ∈ s.written, w.Kept module
  encoded : ∀ e ∈ s.encoded, e.2.module.toInt = e.1

/-- What is written came from radio `0`, and the stream it is written to was opened for module `0`. -/
def FromRadioZero (s : State) : Act → Prop
  | .stream a => ∀ w ∈ writtenBy s a, w.origin = some 0 ∧ module w.stream = 0
  | .deliver i _ => (s.pending i).head?.map Prod.fst = some .serial → i = 0
  | .attach _ | .expire _ | .receive _ _ => True

instance (s : State) : ∀ a, Decidable (FromRadioZero module s a)
  | .stream a => inferInstanceAs (Decidable (∀ w ∈ writtenBy s a, _))
  | .deliver _ _ => inferInstanceAs (Decidable (_ → _))
  | .attach _ | .expire _ | .receive _ _ => isTrue trivial

variable {pb module}

/-! ## No response has a module -/

/-- The module of every response is `0`, and every frame of the queue has its origin. -/
structure Inv (s : State) : Prop where
  responses : ∀ i, (s.stream.response i).module = 0
  serial : s.serial.rxResponse.module = 0
  origins : s.stream.received.length = s.origins.length

theorem inv_init (radios : Nat) : Inv (init radios) := ⟨fun _ => rfl, rfl, rfl⟩

/-- A `ReceiveStream` call does not set the module of its response. -/
theorem response_step {s s' : ReceiveStream.State} {a : ReceiveStream.Act}
    (hs : ∀ i, (s.response i).module = 0) (h : ReceiveStream.step s a = some s') (i : Nat) :
    (s'.response i).module = 0 := by
  have hupdate : ∀ (j : Nat) (r : ReceiveResponse), r.module = 0 →
      (Function.update s.response j r i).module = 0 := by
    intro j r hr
    by_cases hij : i = j
    · subst hij
      rwa [Function.update_self]
    · rw [Function.update_of_ne hij]
      exact hs i
  cases a with
  | receiveFrame buffer =>
    cases h
    simp only [ReceiveStream.receiveFrame]
    split <;> exact hs i
  | openStream j =>
    obtain ⟨-, rfl | rfl⟩ := ReceiveStream.step_openStream h
    · exact hupdate j _ rfl
    · exact hs i
  | cancel j =>
    obtain ⟨-, rfl⟩ := ReceiveStream.step_cancel h
    exact hs i
  | popFrame j =>
    obtain ⟨-, ⟨-, rfl⟩ | ⟨q, rest, -, rfl⟩⟩ := ReceiveStream.step_popFrame h
    · exact hs i
    · exact hs i
  | unpack j =>
    obtain ⟨q, -, rfl⟩ := ReceiveStream.step_unpack h
    exact hupdate j _ (hs j)
  | write j ok =>
    obtain ⟨q, -, rfl⟩ := ReceiveStream.step_write h
    exact hs i

variable (module) in
/-- What a step does to the services: a call of a listener by a network, a step of a stream, or something else. -/
theorem step_cases {s s' : State} {a : Act} (h : step pb s a = some s') :
    (∃ i reserved listener frame rest, a = .deliver i reserved ∧ s.pending i = (listener, frame) :: rest ∧
      s' = onReceive pb { s with pending := Function.update s.pending i rest } i reserved listener frame) ∨
    (∃ b stream, a = .stream b ∧ b.frame? = none ∧ ReceiveStream.step s.stream b = some stream ∧
      s'.stream = stream ∧ s'.serial = s.serial ∧ s'.origins = s.origins ∧ s'.written = s.written ++ writtenBy s b ∧
      s'.encoded = s.encoded) ∨
    (FromRadioZero module s a ∧ s'.stream = s.stream ∧ s'.serial = s.serial ∧ s'.origins = s.origins ∧
      s'.written = s.written ∧ s'.encoded = s.encoded) := by
  cases a with
  | attach listener =>
    simp only [step, Option.map_eq_some_iff] at h
    obtain ⟨fanOut, -, rfl⟩ := h
    exact Or.inr (Or.inr ⟨trivial, rfl, rfl, rfl, rfl, rfl⟩)
  | expire listener =>
    simp only [step, Option.map_eq_some_iff] at h
    obtain ⟨fanOut, -, rfl⟩ := h
    exact Or.inr (Or.inr ⟨trivial, rfl, rfl, rfl, rfl, rfl⟩)
  | receive i data =>
    simp only [step] at h
    split at h
    · split at h
      · cases h
      · cases h
        exact Or.inr (Or.inr ⟨trivial, rfl, rfl, rfl, rfl, rfl⟩)
    · cases h
  | deliver i reserved =>
    simp only [step] at h
    split at h
    · cases h
    · rename_i listener frame rest hp
      cases h
      exact Or.inl ⟨i, reserved, listener, frame, rest, rfl, hp, rfl⟩
  | stream b =>
    simp only [step] at h
    split at h
    · rename_i hb
      obtain ⟨stream, hs, rfl⟩ := Option.map_eq_some_iff.mp h
      exact Or.inr (Or.inl ⟨b, stream, rfl, hb, hs, rfl, rfl, rfl, rfl, rfl⟩)
    · cases h

/-- Only `receive_frame` adds to the frames of the queue. -/
theorem received_step {s s' : ReceiveStream.State} {a : ReceiveStream.Act} (ha : a.frame? = none)
    (h : ReceiveStream.step s a = some s') : s'.received = s.received := by
  rcases ReceiveStream.step_queue h with ⟨buffer, rfl, -⟩ | ⟨i, q, t, -, hpop, rfl⟩ | ⟨-, hr, -⟩
  · cases ha
  · show t.received = s.received
    rw [← ReceiveStream.popFrame_received s i, hpop]
  · exact hr

/-- **Every step leaves the modules of the responses as they are.** -/
theorem inv_step {s s' : State} {a : Act} (hs : Inv s) (h : step pb s a = some s') : Inv s' := by
  rcases step_cases (fun _ => 0) h with ⟨i, reserved, listener, frame, rest, -, -, rfl⟩ |
    ⟨b, stream, -, hb, hstep, rfl, hserial, horigins, -, -⟩ | ⟨-, hstream, hserial, horigins, -, -⟩
  · cases listener with
    | grpc =>
      refine ⟨response_step hs.responses (a := .receiveFrame frame) rfl, hs.serial, ?_⟩
      simp only [onReceive, ReceiveStream.receiveFrame_received, List.length_append, List.length_singleton, hs.origins]
    | serial => exact ⟨hs.responses, hs.serial, hs.origins⟩
  · refine ⟨response_step hs.responses hstep, ?_, ?_⟩
    · rw [hserial]
      exact hs.serial
    · rw [horigins, ← hs.origins, ← received_step hb hstep]
  · refine ⟨?_, ?_, ?_⟩
    · rw [hstream]
      exact hs.responses
    · rw [hserial]
      exact hs.serial
    · rw [hstream, horigins]
      exact hs.origins

/-! ## When the origin is kept -/

/-- A response with module `0` keeps the origin exactly if it is radio `0`, on a stream for module `0`. -/
theorem Written.kept_iff {w : Written} (hw : w.response.module = 0) :
    w.Kept module ↔ w.origin = some 0 ∧ module w.stream = 0 := by
  have hzero : (0 : Int32).toInt = 0 := rfl
  simp only [Written.Kept, hw, hzero]
  constructor
  · rintro ⟨r, horigin, hr, hm⟩
    have hr0 : r = 0 := by omega
    subst hr0
    exact ⟨horigin, Int32.toInt_inj.mp hm⟩
  · rintro ⟨horigin, hm⟩
    exact ⟨0, horigin, rfl, by rw [hm]; rfl⟩

/-- What a stream writes has the module of its response. -/
theorem module_writtenBy {s : State} (hs : Inv s) (a : ReceiveStream.Act) :
    ∀ w ∈ writtenBy s a, w.response.module = 0 := by
  intro w hw
  cases a with
  | write i ok =>
    simp only [writtenBy] at hw
    split at hw
    · rw [List.mem_singleton.mp hw]
      exact hs.responses i
    · cases hw
  | receiveFrame buffer => cases hw
  | openStream i => cases hw
  | cancel i => cases hw
  | popFrame i => cases hw
  | unpack i => cases hw

/-- **A step keeps the origins exactly if what it writes came from radio `0`.** -/
theorem originKept_step {s s' : State} {a : Act} (hs : Inv s) (h : step pb s a = some s') :
    OriginKept module s' ↔ OriginKept module s ∧ FromRadioZero module s a := by
  rcases step_cases module h with ⟨i, reserved, listener, frame, rest, rfl, hp, rfl⟩ |
    ⟨b, stream, rfl, -, -, -, -, -, hw, he⟩ | ⟨hzero, -, -, -, hw, he⟩
  · cases listener with
    | grpc =>
      have hzero : FromRadioZero module s (.deliver i reserved) := by simp [FromRadioZero, hp]
      exact ⟨fun hk => ⟨⟨hk.written, hk.encoded⟩, hzero⟩, fun hk => ⟨hk.1.written, hk.1.encoded⟩⟩
    | serial =>
      have hzero : FromRadioZero module s (.deliver i reserved) ↔ i = 0 := by simp [FromRadioZero, hp]
      have hi : ((0 : Int32).toInt = (i : Int)) ↔ i = 0 := by
        have : (0 : Int32).toInt = 0 := rfl
        omega
      rw [hzero]
      constructor
      · intro hk
        have hlast := hk.encoded _ (List.mem_append_right _ List.mem_cons_self)
        refine ⟨⟨hk.written, fun e he => hk.encoded e (List.mem_append_left _ he)⟩, hi.mp ?_⟩
        rw [← hs.serial]
        exact hlast
      · rintro ⟨hk, rfl⟩
        refine ⟨hk.written, fun e he => ?_⟩
        rcases List.mem_append.mp he with he | he
        · exact hk.encoded e he
        · rw [List.mem_singleton.mp he]
          show s.serial.rxResponse.module.toInt = 0
          rw [hs.serial]
          rfl
  · have hnew : (∀ w ∈ writtenBy s b, w.Kept module) ↔ FromRadioZero module s (.stream b) :=
      forall₂_congr fun w hw => Written.kept_iff (module_writtenBy hs b w hw)
    rw [← hnew]
    constructor
    · intro hk
      have hwritten := hk.written
      rw [hw] at hwritten
      exact ⟨⟨fun w hmem => hwritten w (List.mem_append_left _ hmem), he ▸ hk.encoded⟩,
        fun w hmem => hwritten w (List.mem_append_right _ hmem)⟩
    · rintro ⟨hk, hb⟩
      refine ⟨fun w hmem => ?_, he.symm ▸ hk.encoded⟩
      rw [hw] at hmem
      rcases List.mem_append.mp hmem with hmem | hmem
      · exact hk.written w hmem
      · exact hb w hmem
  · constructor
    · intro hk
      exact ⟨⟨hw ▸ hk.written, he ▸ hk.encoded⟩, hzero⟩
    · intro hk
      exact ⟨hw.symm ▸ hk.1.written, he.symm ▸ hk.1.encoded⟩

/-- **The origins are kept by exactly the runs that write frames of radio `0` only**, to streams for module `0`. -/
theorem originKept_iff {radios : Nat} {as : List Act} {s : State} (h : run (step pb) (init radios) as = some s) :
    OriginKept module s ↔ Along (step pb) (FromRadioZero module) (init radios) as := by
  have hinit : OriginKept module (init radios) := ⟨fun _ hw => (by cases hw), fun _ he => (by cases he)⟩
  have hiff : OriginKept module s ↔
      OriginKept module (init radios) ∧ Along (step pb) (FromRadioZero module) (init radios) as :=
    run_iff (fun _ _ _ hs hstep => inv_step hs hstep) (fun _ _ _ hs hstep => originKept_step hs hstep)
      (inv_init radios) h
  rw [hiff]
  exact and_iff_right hinit

end

/-- One frame on radio `i`, written to the stream of a client. -/
def oneFrame (i : Nat) : List Act :=
  [.attach .grpc, .stream (.openStream 0), .receive i [1, 2, 3], .deliver i (Vector.replicate 16 0),
    .stream (.popFrame 0), .stream (.unpack 0), .stream (.write 0 true)]

theorem originKept_oneFrame :
    ∃ s, run (step protobuf) (init 1) (oneFrame 0) = some s ∧ OriginKept (fun _ => 0) s := by
  obtain ⟨s, h⟩ : ∃ s, run (step protobuf) (init 1) (oneFrame 0) = some s := ⟨_, rfl⟩
  exact ⟨s, h, (originKept_iff h).mpr (by decide +kernel)⟩

/-- A client that asks for the frames of radio `1` gets one with module `0`. -/
theorem origin_lost :
    ¬∀ (pb : Protobuf) module radios as s, run (step pb) (init radios) as = some s → OriginKept module s := by
  intro h
  have h := (h protobuf (fun _ => 1) 2 (oneFrame 1) _ rfl).written
    ⟨0, some 1, { frame := some { data := [0x030201], length := 3 } }⟩ (by decide +kernel)
  obtain ⟨r, horigin, hr, -⟩ := h
  cases horigin
  exact absurd hr (by decide)

end KaonicComm.Origin
