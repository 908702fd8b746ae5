import KaonicComm.Services.Origin
import KaonicComm.Services.Transmit

/-!
# From client to client

Any number of stations run the program. The `Transmit` calls of a station hand frames to its networks; what one station
handed over the networks of the others, and its own, may get, in any order, any number of times or never, but whole and
unchanged: this is all that is assumed of the network code between `rfnet_send` and `network::on_receive`. A frame that
a network gets then goes on to the listeners of that station, and is written to its clients.

No lock guards `_tx_frame`, `_rx_frame` and the response of the serial line. Each access to one of them is one step
here: `grpc_buf_pack` into `_tx_frame`, `rfnet_send` from it, the copy of the head of the queue to `_rx_frame`,
`grpc_buf_unpack` from it, and the unpacking and encoding for the serial line. Threads in two accesses to one of these
buffers at once are left out.

In every run of these steps, in whatever order they come, each frame that a client is given is that of a request to
transmit which was made before, on one of the stations (`given_was_requested`): no frame is cut, mixed or made up on the
way.
-/

namespace KaonicComm.Stations

open Runs
open Transmit (payload)

/-! ## The sending side -/

section

variable {networks : Option Nat} {request : Nat → TransmitRequest}

/-- A `Transmit` call that was made asked for the frame. -/
def Asked (request : Nat → TransmitRequest) (s : Transmit.State) (frame : List UInt8) : Prop :=
  ∃ i, s.pc i ≠ .called ∧ frame = payload request i

/-- While a call waits `_tx_frame` is the frame of a call, and so is everything that was sent. -/
structure Made (request : Nat → TransmitRequest) (s : Transmit.State) : Prop where
  frame : ∀ i, (s.pc i).waits = true → Asked request s s.txFrame
  sends : ∀ x ∈ s.sends, Asked request s x.bytes

/-- A call moves on: it packs its frame, it goes on waiting or stops, or it sends what `_tx_frame` holds. -/
inductive Moves (request : Nat → TransmitRequest) (s : Transmit.State) (i : Nat) (c : Transmit.Pc) :
    Transmit.State → Prop where
  | packs {s' : Transmit.State} : s'.pc = Function.update s.pc i c → s'.txFrame = payload request i →
      s'.sends = s.sends → Moves request s i c s'
  | goesOn {s' : Transmit.State} : s'.pc = Function.update s.pc i c → s'.txFrame = s.txFrame →
      s'.sends = s.sends → (c.waits = true → (s.pc i).waits = true) → Moves request s i c s'
  | sends {s' : Transmit.State} {x : Transmit.Send} : s'.pc = Function.update s.pc i c → s'.txFrame = s.txFrame →
      s'.sends = s.sends ++ [x] → x.bytes = s.txFrame → (s.pc i).waits = true → Moves request s i c s'

theorem moves_of_step {s s' : Transmit.State} {a : Transmit.Act}
    (h : Transmit.step networks request s a = some s') :
    (∃ i c, c ≠ .called ∧ Moves request s i c s') ∨
      s'.pc = s.pc ∧ s'.txFrame = s.txFrame ∧ s'.sends = s.sends := by
  cases a with
  | pack i =>
    simp only [Transmit.step] at h
    split at h
    · split at h
      · cases h
        exact Or.inl ⟨i, .returned .failedPrecondition, fun e => (by cases e),
          .goesOn rfl rfl rfl fun e => (by cases e)⟩
      · cases h
        exact Or.inl ⟨i, .packed, fun e => (by cases e), .packs rfl (Transmit.payload_eq i _) rfl⟩
    · cases h
  | dispatch i =>
    simp only [Transmit.step] at h
    split at h
    · rename_i hpc
      split at h
      · cases h
        exact Or.inl ⟨i, .returned .internal, fun e => (by cases e), .goesOn rfl rfl rfl fun e => (by cases e)⟩
      · cases h
        exact Or.inl ⟨i, .locking, fun e => (by cases e), .goesOn rfl rfl rfl fun _ => (by rw [hpc]; rfl)⟩
    · cases h
  | lock i =>
    simp only [Transmit.step] at h
    split at h
    · rename_i hpc
      cases h
      have hwaits : (s.pc i).waits = true := by rcases hpc.1 with hpc | hpc <;> rw [hpc] <;> rfl
      exact Or.inl ⟨i, .checking, fun e => (by cases e), .goesOn rfl rfl rfl fun _ => hwaits⟩
    · cases h
  | wait i =>
    simp only [Transmit.step] at h
    split at h
    · rename_i hpc
      cases h
      exact Or.inl ⟨i, .sleeping, fun e => (by cases e), .goesOn rfl rfl rfl fun _ => (by rw [hpc]; rfl)⟩
    · cases h
  | leave i =>
    simp only [Transmit.step] at h
    split at h
    · rename_i hpc
      cases h
      exact Or.inl ⟨i, .sending, fun e => (by cases e), .goesOn rfl rfl rfl fun _ => (by rw [hpc]; rfl)⟩
    · cases h
  | send i rc =>
    simp only [Transmit.step] at h
    split at h
    · rename_i hpc
      cases h
      exact Or.inl ⟨i, .returned (if rc ≠ 0 then .internal else .ok), fun e => (by cases e),
        .sends rfl rfl rfl rfl (by rw [hpc]; rfl)⟩
    · cases h
  | workerLock n =>
    simp only [Transmit.step] at h
    split at h
    · cases h
      exact Or.inr ⟨rfl, rfl, rfl⟩
    · cases h
  | workerUnlock n =>
    simp only [Transmit.step] at h
    split at h
    · cases h
      exact Or.inr ⟨rfl, rfl, rfl⟩
    · cases h

/-- A call that was made stays so. -/
theorem Asked.mono {s s' : Transmit.State} {frame : List UInt8} (h : Asked request s frame)
    (hpc : ∀ i, s.pc i ≠ .called → s'.pc i ≠ .called) : Asked request s' frame := by
  obtain ⟨i, hi, rfl⟩ := h
  exact ⟨i, hpc i hi, rfl⟩

/-- No step takes a call back. -/
theorem called_step {s s' : Transmit.State} {a : Transmit.Act} (h : Transmit.step networks request s a = some s')
    (i : Nat) (hi : s.pc i ≠ .called) : s'.pc i ≠ .called := by
  rcases moves_of_step h with ⟨j, c, hc, hm⟩ | ⟨hpc, -, -⟩
  · have hpc : s'.pc = Function.update s.pc j c := by cases hm <;> assumption
    rw [hpc]
    exact (Function.forall_update_iff s.pc fun i c => s.pc i ≠ .called → c ≠ .called).mpr
      ⟨fun _ => hc, fun _ _ hi => hi⟩ i hi
  · rwa [hpc]

/-- What was sent stays so. -/
theorem sends_step {s s' : Transmit.State} {a : Transmit.Act} (h : Transmit.step networks request s a = some s') :
    ∀ x ∈ s.sends, x ∈ s'.sends := by
  intro x hx
  rcases moves_of_step h with ⟨i, c, -, hm⟩ | ⟨-, -, hsends⟩
  · cases hm with
    | packs hpc htx hsends => rwa [hsends]
    | goesOn hpc htx hsends hc => rwa [hsends]
    | sends hpc htx hsends hbytes hi =>
      rw [hsends]
      exact List.mem_append_left _ hx
  · rwa [hsends]

/-- **What a station sends are frames that it was asked for**, whatever the interleaving of the calls. -/
theorem Made.step {s s' : Transmit.State} {a : Transmit.Act} (hs : Made request s)
    (h : Transmit.step networks request s a = some s') : Made request s' := by
  have hcalled := called_step h
  rcases moves_of_step h with ⟨i, c, hc, hm⟩ | ⟨hpc, htx, hsends⟩
  · cases hm with
    | packs hpc htx hsends =>
      refine ⟨fun j _ => ⟨i, ?_, htx⟩, fun x hx => ?_⟩
      · rwa [hpc, Function.update_self]
      · exact (hs.sends x (hsends ▸ hx)).mono hcalled
    | goesOn hpc htx hsends hc' =>
      have hwaits : ∀ j, (s'.pc j).waits = true → (s.pc j).waits = true := by
        rw [hpc]
        exact (Function.forall_update_iff s.pc fun j c => c.waits = true → (s.pc j).waits = true).mpr
          ⟨hc', fun _ _ => id⟩
      refine ⟨fun j hj => ?_, fun x hx => (hs.sends x (hsends ▸ hx)).mono hcalled⟩
      rw [htx]
      exact (hs.frame j (hwaits j hj)).mono hcalled
    | sends hpc htx hsends hx hi =>
      refine ⟨fun j hj => ?_, fun y hy => ?_⟩
      · rw [htx]
        exact (hs.frame i hi).mono hcalled
      · rw [hsends] at hy
        rcases List.mem_append.mp hy with hy | hy
        · exact (hs.sends y hy).mono hcalled
        · rw [List.mem_singleton.mp hy, hx]
          exact (hs.frame i hi).mono hcalled
  · refine ⟨fun j hj => ?_, fun x hx => (hs.sends x (hsends ▸ hx)).mono hcalled⟩
    rw [hpc] at hj
    rw [htx]
    exact (hs.frame j hj).mono hcalled

theorem made_init : Made request Transmit.init := ⟨fun _ h => (by cases h), fun _ h => (by cases h)⟩

/-- The length of a frame is a number of 32 bits. -/
theorem length_payload (request : Nat → TransmitRequest) (i : Nat) : (payload request i).length < 2 ^ 32 := by
  rw [payload, grpcBufPack, packBuffer_eq, Bytes.length_resize]
  exact UInt32.toNat_lt _

end

/-! ## The receiving side -/

section

variable {P : List UInt8 → Prop}

/-- Every frame in the receive path is one of `P`: those of the queue, the one in `_rx_frame` while a call relies on
it, and those of the responses that are about to be written. -/
structure StreamOf (P : List UInt8 → Prop) (s : ReceiveStream.State) : Prop where
  queue : ∀ q ∈ s.frameQueue, P q.buffer
  rxFrame : ∀ i q, s.pc i = .popped q → P s.rxFrame
  response : ∀ i q, s.pc i = .unpacked q → P (grpcBufPack (s.response i).getFrame [])

theorem streamOf_receiveFrame {s : ReceiveStream.State} (hs : StreamOf P s) {frame : List UInt8} (hP : P frame) :
    StreamOf P (ReceiveStream.receiveFrame s frame) := by
  have hmem : ∀ q ∈ (ReceiveStream.receiveFrame s frame).frameQueue, q ∈ s.frameQueue ∨ q.buffer = frame := by
    intro q hq
    unfold ReceiveStream.receiveFrame at hq
    split at hq
    · rcases List.mem_append.mp hq with hq | hq
      · exact Or.inl (List.mem_of_mem_tail hq)
      · exact Or.inr (by rw [List.mem_singleton.mp hq])
    · rcases List.mem_append.mp hq with hq | hq
      · exact Or.inl hq
      · exact Or.inr (by rw [List.mem_singleton.mp hq])
  refine ⟨fun q hq => ?_, ?_, ?_⟩
  · rcases hmem q hq with hq | rfl
    · exact hs.queue q hq
    · exact hP
  · unfold ReceiveStream.receiveFrame
    split <;> exact hs.rxFrame
  · unfold ReceiveStream.receiveFrame
    split <;> exact hs.response

/-- A step of call `i`, which goes to `c`: what it relies on there is one of `P`. -/
theorem StreamOf.call {s s' : ReceiveStream.State} (hs : StreamOf P s) {i : Nat} {c : ReceiveStream.Pc}
    (hpc : s'.pc = Function.update s.pc i c) (hqueue : ∀ q ∈ s'.frameQueue, q ∈ s.frameQueue)
    (hrx : s'.rxFrame = s.rxFrame ∨ P s'.rxFrame) (hresponse : ∀ j, j ≠ i → s'.response j = s.response j)
    (hpopped : ∀ q, c = .popped q → P s'.rxFrame)
    (hunpacked : ∀ q, c = .unpacked q → P (grpcBufPack (s'.response i).getFrame [])) : StreamOf P s' := by
  refine ⟨fun q hq => hs.queue q (hqueue q hq), ?_, ?_⟩
  · rw [hpc]
    refine (Function.forall_update_iff s.pc fun _ c => ∀ q, c = .popped q → P s'.rxFrame).mpr
      ⟨hpopped, fun j _ q hj => ?_⟩
    rcases hrx with hrx | hrx
    · rw [hrx]
      exact hs.rxFrame j q hj
    · exact hrx
  · rw [hpc]
    refine (Function.forall_update_iff s.pc fun j c =>
      ∀ q, c = .unpacked q → P (grpcBufPack (s'.response j).getFrame [])).mpr ⟨hunpacked, fun j hji q hj => ?_⟩
    rw [hresponse j hji]
    exact hs.response j q hj

theorem streamOf_step (hshort : ∀ frame, P frame → frame.length < 2 ^ 32) {s s' : ReceiveStream.State}
    {a : ReceiveStream.Act} (ha : a.frame? = none) (hs : StreamOf P s) (h : ReceiveStream.step s a = some s') :
    StreamOf P s' := by
  cases a with
  | receiveFrame buffer => cases ha
  | openStream i =>
    obtain ⟨-, rfl | rfl⟩ := ReceiveStream.step_openStream h
    · exact hs.call rfl (fun _ => id) (Or.inl rfl) (fun j hj => Function.update_of_ne hj _ _)
        (fun _ e => by cases e) fun _ e => by cases e
    · exact hs.call rfl (fun _ => id) (Or.inl rfl) (fun _ _ => rfl) (fun _ e => by cases e) fun _ e => by cases e
  | cancel i =>
    obtain ⟨-, rfl⟩ := ReceiveStream.step_cancel h
    exact hs.call rfl (fun _ => id) (Or.inl rfl) (fun _ _ => rfl) (fun _ e => by cases e) fun _ e => by cases e
  | popFrame i =>
    obtain ⟨-, ⟨-, rfl⟩ | ⟨q, rest, hq, rfl⟩⟩ := ReceiveStream.step_popFrame h
    · exact hs
    · have hP : P q.buffer := hs.queue q (hq ▸ List.mem_cons_self)
      exact hs.call rfl (fun p hp => hq ▸ List.mem_cons_of_mem q hp) (Or.inr hP) (fun _ _ => rfl) (fun _ _ => hP)
        fun _ e => by cases e
  | unpack i =>
    obtain ⟨q, hpc, rfl⟩ := ReceiveStream.step_unpack h
    have hrx := hs.rxFrame i q hpc
    refine hs.call rfl (fun _ => id) (Or.inl rfl) (fun j hj => Function.update_of_ne hj _ _) (fun _ e => by cases e)
      fun _ _ => ?_
    -- what is packed again is `_rx_frame`
    simp only [Function.update_self, ReceiveResponse.getFrame, Option.getD_some, grpcBufPack, grpcBufUnpack]
    rwa [packBuffer_unpackBuffer (hshort _ hrx)]
  | write i ok =>
    obtain ⟨q, -, rfl⟩ := ReceiveStream.step_write h
    have hrests : ∀ q, (if ok then ReceiveStream.Pc.looping else .closed) ≠ .popped q ∧
        (if ok then ReceiveStream.Pc.looping else .closed) ≠ .unpacked q := by
      intro q
      cases ok <;> exact ⟨fun e => (by cases e), fun e => (by cases e)⟩
    exact hs.call rfl (fun _ => id) (Or.inl rfl) (fun _ _ => rfl) (fun q e => absurd e (hrests q).1)
      fun q e => absurd e (hrests q).2

/-- Every frame on its way through a station, or given to a client, is one of `P`. -/
structure FramesOf (P : List UInt8 → Prop) (s : Origin.State) : Prop where
  pending : ∀ i, ∀ e ∈ s.pending i, P e.2
  stream : StreamOf P s.stream
  written : ∀ w ∈ s.written, P (grpcBufPack w.response.getFrame [])
  encoded : ∀ e ∈ s.encoded, P (bufPack e.2.getFrame [])

theorem framesOf_init (radios : Nat) : FramesOf P (Origin.init radios) where
  pending _ _ h := by cases h
  stream := ⟨fun _ h => (by cases h), fun _ _ h => (by cases h), fun _ _ h => (by cases h)⟩
  written _ h := by cases h
  encoded _ h := by cases h

theorem FramesOf.mono {Q : List UInt8 → Prop} {s : Origin.State} (hs : FramesOf P s)
    (h : ∀ frame, P frame → Q frame) : FramesOf Q s where
  pending i e he := h _ (hs.pending i e he)
  stream :=
    { queue q hq := h _ (hs.stream.queue q hq)
      rxFrame i q hi := h _ (hs.stream.rxFrame i q hi)
      response i q hi := h _ (hs.stream.response i q hi) }
  written w hw := h _ (hs.written w hw)
  encoded e he := h _ (hs.encoded e he)

/-- The listeners are called with the frame as the network got it. -/
theorem mem_onReceive {service service' : RadioService Origin.Listener} {alive : Origin.Listener → Bool} {i : Nat}
    {data : List UInt8} {calls : List (Origin.Listener × List UInt8)}
    (h : service.onReceive alive i data = some (service', calls)) : ∀ e ∈ calls, e.2 = data := by
  unfold RadioService.onReceive at h
  split at h
  · cases h
  · rename_i net hnet
    split at h
    · cases h
    · rename_i broadcaster hb
      cases h
      intro e he
      rw [FanOut.broadcast_eq] at he
      obtain ⟨listener, -, rfl⟩ := List.mem_map.mp he
      show Bytes.memcpy (Bytes.resize net.netFrame data.length 0) data = data
      rw [Bytes.memcpy_all (Bytes.length_resize _ _ _)]

/-- A network calls a listener. -/
theorem framesOf_deliver (hshort : ∀ frame, P frame → frame.length < 2 ^ 32) {pb : Protobuf} {s : Origin.State}
    (hs : FramesOf P s) (i : Nat) (reserved : Packet.Reserved) (listener : Origin.Listener) {frame : List UInt8}
    (hP : P frame) : FramesOf P (Origin.onReceive pb s i reserved listener frame) := by
  cases listener with
  | grpc => exact ⟨hs.pending, streamOf_receiveFrame hs.stream hP, hs.written, hs.encoded⟩
  | serial =>
    refine ⟨hs.pending, hs.stream, hs.written, fun e he => ?_⟩
    rcases List.mem_append.mp he with he | he
    · exact hs.encoded e he
    · rw [List.mem_singleton.mp he]
      simp only [SerialService.receiveFrame, ReceiveResponse.getFrame, Option.getD_some, bufPack, bufUnpack]
      rwa [packBuffer_unpackBuffer (hshort _ hP)]

theorem pending_update {pending : Nat → List (Origin.Listener × List UInt8)} (hs : ∀ i, ∀ e ∈ pending i, P e.2)
    {i : Nat} {calls : List (Origin.Listener × List UInt8)} (hc : ∀ e ∈ calls, P e.2) :
    ∀ j, ∀ e ∈ Function.update pending i calls j, P e.2 :=
  (Function.forall_update_iff pending fun _ calls => ∀ e ∈ calls, P e.2).mpr ⟨hc, fun j _ => hs j⟩

/-- **Each step of a station passes on the frames that its networks got**, as they are. -/
theorem framesOf_step (hshort : ∀ frame, P frame → frame.length < 2 ^ 32) {pb : Protobuf} {s s' : Origin.State}
    {a : Origin.Act} (hs : FramesOf P s) (ha : ∀ i data, a = .receive i data → P data)
    (h : Origin.step pb s a = some s') : FramesOf P s' := by
  cases a with
  | attach listener =>
    simp only [Origin.step, Option.map_eq_some_iff] at h
    obtain ⟨fanOut, -, rfl⟩ := h
    exact ⟨hs.pending, hs.stream, hs.written, hs.encoded⟩
  | expire listener =>
    simp only [Origin.step, Option.map_eq_some_iff] at h
    obtain ⟨fanOut, -, rfl⟩ := h
    exact ⟨hs.pending, hs.stream, hs.written, hs.encoded⟩
  | receive i data =>
    simp only [Origin.step] at h
    split at h
    · split at h
      · cases h
      · rename_i service calls hcalls
        cases h
        have hP : ∀ e ∈ calls, P e.2 := fun e he => (mem_onReceive hcalls e he).symm ▸ ha i data rfl
        exact ⟨pending_update hs.pending hP, hs.stream, hs.written, hs.encoded⟩
    · cases h
  | deliver i reserved =>
    simp only [Origin.step] at h
    split at h
    · cases h
    · rename_i listener frame rest hp
      cases h
      have hrest : ∀ e ∈ rest, P e.2 := fun e he => hs.pending i e (hp ▸ List.mem_cons_of_mem _ he)
      have hframe : P frame := hs.pending i (listener, frame) (hp ▸ List.mem_cons_self)
      have hcalled : FramesOf P { s with pending := Function.update s.pending i rest } :=
        ⟨pending_update hs.pending hrest, hs.stream, hs.written, hs.encoded⟩
      exact framesOf_deliver hshort hcalled i reserved listener hframe
  | stream b =>
    simp only [Origin.step] at h
    split at h
    · rename_i hb
      obtain ⟨stream, hstep, rfl⟩ := Option.map_eq_some_iff.mp h
      refine ⟨hs.pending, streamOf_step hshort hb hs.stream hstep, fun w hw => ?_, hs.encoded⟩
      rcases List.mem_append.mp hw with hw | hw
      · exact hs.written w hw
      · cases b with
        | write i ok =>
          simp only [Origin.writtenBy] at hw
          split at hw
          · rename_i q hpc
            rw [List.mem_singleton.mp hw]
            exact hs.stream.response i q hpc
          · cases hw
        | _ => cases hw
    · cases h

end

/-! ## The stations -/

/-- The two sides of each station. -/
structure State where
  sender : Nat → Transmit.State
  receiver : Nat → Origin.State

/-- Stations with so many radios each, before any call. -/
def init (radios : Nat → Nat) : State where
  sender := fun _ => Transmit.init
  receiver := fun k => Origin.init (radios k)

/-- One step, of one station. -/
inductive Act where
  /-- A step of the `Transmit` calls of station `k`. -/
  | send (k : Nat) (a : Transmit.Act)
  /-- The network of radio `i` of station `k` gets what station `j` handed to `rfnet_send` in its call number `n`. -/
  | hear (k i j n : Nat)
  /-- Any other step of the services of station `k`. -/
  | serve (k : Nat) (a : Origin.Act)

section

-- the codec of the serial lines, and for each station the number of its networks and the requests of its clients
variable (pb : Protobuf) (networks : Nat → Option Nat) (request : Nat → Nat → TransmitRequest)

/-- A step of the services of station `k`. -/
def receiverStep (s : State) (k : Nat) (a : Origin.Act) : Option State :=
  (Origin.step pb (s.receiver k) a).map fun t => { s with receiver := Function.update s.receiver k t }

def step (s : State) : Act → Option State
  | .send k a =>
    (Transmit.step (networks k) (request k) (s.sender k) a).map fun t =>
      { s with sender := Function.update s.sender k t }
  | .hear k i j n =>
    match (s.sender j).sends[n]? with
    | none => none
    | some x => receiverStep pb s k (.receive i x.bytes)
  | .serve k a =>
    match a with
    | .receive _ _ => none
    | .attach _ | .expire _ | .deliver _ _ | .stream _ => receiverStep pb s k a

/-- One of the stations was asked for the frame, and handed it to `rfnet_send`. -/
def Requested (s : State) (frame : List UInt8) : Prop :=
  ∃ k, Asked (request k) (s.sender k) frame ∧ ∃ x ∈ (s.sender k).sends, x.bytes = frame

variable {pb networks request}

theorem Requested.short {s : State} {frame : List UInt8} (h : Requested request s frame) :
    frame.length < 2 ^ 32 := by
  obtain ⟨k, ⟨i, -, rfl⟩, -⟩ := h
  exact length_payload (request k) i

variable (request) in
/-- Every station sends what it was asked for, and passes on what some station was asked for. -/
structure Inv (s : State) : Prop where
  sender : ∀ k, Made (request k) (s.sender k)
  receiver : ∀ k, FramesOf (Requested request s) (s.receiver k)

theorem inv_init (radios : Nat → Nat) : Inv request (init radios) where
  sender _ := made_init
  receiver k := framesOf_init (radios k)

theorem inv_receiverStep {s s' : State} {k : Nat} {a : Origin.Act} (hs : Inv request s)
    (ha : ∀ i data, a = .receive i data → Requested request s data) (h : receiverStep pb s k a = some s') :
    Inv request s' := by
  obtain ⟨t, ht, rfl⟩ := Option.map_eq_some_iff.mp h
  have hk := framesOf_step (fun _ => Requested.short) (hs.receiver k) ha ht
  exact ⟨hs.sender, (Function.forall_update_iff s.receiver fun _ t => FramesOf (Requested request s) t).mpr
    ⟨hk, fun j _ => hs.receiver j⟩⟩

/-- **Every step of a station keeps the frames those of requests.** -/
theorem inv_step {s s' : State} {a : Act} (hs : Inv request s) (h : step pb networks request s a = some s') :
    Inv request s' := by
  cases a with
  | send k a =>
    obtain ⟨t, ht, rfl⟩ := Option.map_eq_some_iff.mp h
    -- what was requested stays so
    have hkept : ∀ j frame x, Asked (request j) (s.sender j) frame → x ∈ (s.sender j).sends →
        Asked (request j) (Function.update s.sender k t j) frame ∧ x ∈ (Function.update s.sender k t j).sends :=
      (Function.forall_update_iff s.sender fun j t => ∀ frame x, Asked (request j) (s.sender j) frame →
        x ∈ (s.sender j).sends → Asked (request j) t frame ∧ x ∈ t.sends).mpr
        ⟨fun _ x hasked hx => ⟨hasked.mono (called_step ht), sends_step ht x hx⟩,
          fun _ _ _ _ hasked hx => ⟨hasked, hx⟩⟩
    have hmono : ∀ frame, Requested request s frame →
        Requested request { s with sender := Function.update s.sender k t } frame := by
      rintro frame ⟨j, hasked, x, hx, hbytes⟩
      obtain ⟨hasked, hx⟩ := hkept j frame x hasked hx
      exact ⟨j, hasked, x, hx, hbytes⟩
    refine ⟨?_, fun j => (hs.receiver j).mono hmono⟩
    exact (Function.forall_update_iff s.sender fun j t => Made (request j) t).mpr
      ⟨(hs.sender k).step ht, fun j _ => hs.sender j⟩
  | hear k i j n =>
    simp only [step] at h
    split at h
    · cases h
    · rename_i x hx
      refine inv_receiverStep hs (fun i data ha => ?_) h
      cases ha
      have hmem := List.mem_of_getElem? hx
      exact ⟨j, (hs.sender j).sends x hmem, x, hmem, rfl⟩
  | serve k a =>
    cases a with
    | receive i data => cases h
    | attach listener => exact inv_receiverStep hs (fun _ _ ha => by cases ha) h
    | expire listener => exact inv_receiverStep hs (fun _ _ ha => by cases ha) h
    | deliver i reserved => exact inv_receiverStep hs (fun _ _ ha => by cases ha) h
    | stream a => exact inv_receiverStep hs (fun _ _ ha => by cases ha) h

/-- **Whatever a client is given was requested**: the frame of each response that a stream wrote, and of each response
that was encoded for a serial line, is that of a request which was made on one of the stations. Each access to one of
the buffers without a lock is a step. -/
theorem given_was_requested {radios : Nat → Nat} {as : List Act} {s : State}
    (h : run (step pb networks request) (init radios) as = some s) (k : Nat) :
    (∀ w ∈ (s.receiver k).written, Requested request s (grpcBufPack w.response.getFrame [])) ∧
      ∀ e ∈ (s.receiver k).encoded, Requested request s (bufPack e.2.getFrame []) := by
  have hs : Inv request s := run_keeps (fun _ _ _ hs hstep => inv_step hs hstep) (inv_init radios) h
  exact ⟨(hs.receiver k).written, (hs.receiver k).encoded⟩

end

/-- Each client of station 0 asks for three bytes to be sent. -/
def threeBytes : Nat → Nat → TransmitRequest := fun _ _ => { frame := some { data := [0x030201], length := 3 } }

/-- Station 0 sends a frame, and station 1 gets it twice and writes it to a stream. -/
def heardTwice : List Act :=
  [.send 0 (.pack 0), .serve 1 (.attach .grpc), .send 0 (.dispatch 0), .send 0 (.lock 0),
    .serve 1 (.stream (.openStream 0)), .send 0 (.leave 0), .send 0 (.send 0 0), .hear 1 0 0 0,
    .serve 1 (.deliver 0 (Vector.replicate 16 0)), .hear 1 0 0 0, .serve 1 (.stream (.popFrame 0)),
    .serve 1 (.stream (.unpack 0)), .serve 1 (.stream (.write 0 true))]

theorem given_was_requested_heardTwice : ∃ s,
    run (step protobuf (fun _ => some 1) threeBytes) (init fun _ => 1) heardTwice = some s ∧
      (s.receiver 1).written.length = 1 ∧
      ∀ w ∈ (s.receiver 1).written, Requested threeBytes s (grpcBufPack w.response.getFrame []) := by
  obtain ⟨s, h⟩ : ∃ s, run (step protobuf (fun _ => some 1) threeBytes) (init fun _ => 1) heardTwice = some s :=
    ⟨_, rfl⟩
  exact ⟨s, h, by cases h; rfl, (given_was_requested h 1).1⟩

end KaonicComm.Stations
