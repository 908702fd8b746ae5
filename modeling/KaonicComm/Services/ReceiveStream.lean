import KaonicComm.Lib.Cell
import KaonicComm.Services.ReceiveStreamQueue

/-!
# What the receive streams deliver

`_rx_frame` is a scratch cell shared by all `ReceiveStream` calls (`rxCell`): a call relies on it from its `pop_frame`
to its `grpc_buf_unpack`. While every frame is removed under the condition of `Cell.sound_put` (`Undisturbed`), every
call has written exactly what it removed from the queue, up to the one frame in flight (`inv_run`).

- Several calls: the condition can fail, and then one frame is lost and another written twice
  (`streams_deliver_removed`, `streams_mix_frames`).
- A single call meets the condition in every run (`single_stream_drop_oldest`).
-/

namespace KaonicComm.ReceiveStream

open Runs

/-! ## The calls one by one -/

theorem ofCall_append_self {β : Type} (i : Nat) (log : List (Nat × β)) (x : β) :
    ofCall i (log ++ [(i, x)]) = ofCall i log ++ [x] := by
  simp [ofCall, List.filterMap_append]

theorem ofCall_append_of_ne {β : Type} {i j : Nat} (h : i ≠ j) (log : List (Nat × β)) (x : β) :
    ofCall j (log ++ [(i, x)]) = ofCall j log := by
  simp [ofCall, List.filterMap_append, h]

theorem call_receiveFrame (s : State) (buffer : List UInt8) (i : Nat) : call (receiveFrame s buffer) i = call s i := by
  unfold receiveFrame
  split <;> rfl

/-- A step of one call leaves the other calls alone. -/
theorem step_other {s s' : State} {a : Act} {j : Nat} (h : step s a = some s') (ha : a.call? ≠ some j) :
    call s' j = call s j := by
  cases a with
  | receiveFrame buffer =>
    cases h
    exact call_receiveFrame s buffer j
  | openStream i =>
    have hi : i ≠ j := fun e => ha (by rw [e]; rfl)
    obtain ⟨-, rfl | rfl⟩ := step_openStream h
    · simp [call, Function.update_of_ne hi.symm, ofCall_append_of_ne hi]
    · simp [call, Function.update_of_ne hi.symm]
  | cancel i =>
    have hi : i ≠ j := fun e => ha (by rw [e]; rfl)
    obtain ⟨-, rfl⟩ := step_cancel h
    simp [call, Function.update_of_ne hi.symm]
  | popFrame i =>
    have hi : i ≠ j := fun e => ha (by rw [e]; rfl)
    obtain ⟨-, ⟨-, rfl⟩ | ⟨q, rest, -, rfl⟩⟩ := step_popFrame h
    · rfl
    · simp [call, Function.update_of_ne hi.symm, ofCall_append_of_ne hi]
  | unpack i =>
    have hi : i ≠ j := fun e => ha (by rw [e]; rfl)
    obtain ⟨q, -, rfl⟩ := step_unpack h
    simp [call, Function.update_of_ne hi.symm]
  | write i ok =>
    have hi : i ≠ j := fun e => ha (by rw [e]; rfl)
    obtain ⟨q, -, rfl⟩ := step_write h
    simp [call, Function.update_of_ne hi.symm, ofCall_append_of_ne hi]

/-! ## The shared `_rx_frame` -/

/-- `_rx_frame`, on which a call relies between its `pop_frame` and its `grpc_buf_unpack`. -/
def rxCell (s : State) : Cell Nat (List UInt8) where
  value := s.rxFrame
  held i :=
    match s.pc i with
    | .popped q => some q.buffer
    | _ => none

/-- A call that has removed a frame relies on the cell. -/
theorem rxCell_put {s s' : State} {i : Nat} {q : Queued} (hrx : s'.rxFrame = q.buffer)
    (hpc : s'.pc = Function.update s.pc i (.popped q)) : rxCell s' = (rxCell s).put i q.buffer := by
  simp only [rxCell, Cell.put, hrx, hpc, Cell.mk.injEq, true_and]
  funext j
  by_cases hj : j = i
  · subst hj
    simp only [Function.update_self]
  · simp only [Function.update_of_ne hj]

/-- A call that moves elsewhere does not. -/
theorem rxCell_release {s s' : State} {i : Nat} {c : Pc} (hrx : s'.rxFrame = s.rxFrame)
    (hpc : s'.pc = Function.update s.pc i c) (hc : ∀ q, c ≠ .popped q) : rxCell s' = (rxCell s).release i := by
  simp only [rxCell, Cell.release, hrx, hpc, Cell.mk.injEq, true_and]
  funext j
  by_cases hj : j = i
  · subst hj
    cases c with
    | popped q => exact absurd rfl (hc q)
    | _ => simp only [Function.update_self]
  · simp only [Function.update_of_ne hj]

theorem sound_moved {s s' : State} (hs : (rxCell s).Sound) {i : Nat} {c : Pc} (hrx : s'.rxFrame = s.rxFrame)
    (hpc : s'.pc = Function.update s.pc i c) (hc : ∀ q, c ≠ .popped q) : (rxCell s').Sound := by
  rw [rxCell_release hrx hpc hc]
  exact hs.release i

/-- When every frame is removed while each other call that still relies on `_rx_frame` has a frame with the same
bytes there, and frames are shorter than `2 ^ 32` bytes. -/
def Undisturbed (s : State) : Act → Prop
  | .receiveFrame buffer => buffer.length < 2 ^ 32
  | .popFrame i =>
    ∀ q, s.frameQueue.head? = some q → ∀ j, j ≠ i → ∀ p, s.pc j = .popped p → p.buffer = q.buffer
  | _ => True

/-! ## The invariant -/

/-- What holds of each call. -/
structure Call.Ok (c : Call) : Prop where
  served : c.removed = c.delivered ++ c.inFlight
  fresh : c.pc = .opening → c.writes = []
  opened : c.pc ≠ .opening → c.pc ≠ .closed → c.writes ≠ []
  held : ∀ q, c.pc = .popped q → q.buffer.length < 2 ^ 32
  filled : ∀ q, c.pc = .unpacked q → grpcBufPack c.response.getFrame [] = q.buffer

/-- A call writes its first response. -/
theorem Call.Ok.start {c : Call} (h : c.Ok) (hpc : c.pc = .opening) (r : ReceiveResponse) :
    Call.Ok ⟨.looping, r, c.pops, c.writes ++ [r]⟩ where
  served := by
    have hs := h.served
    have hw := h.fresh hpc
    simp only [Call.removed, Call.delivered, Call.inFlight, hpc, hw, List.tail_nil, List.map_nil,
      List.append_nil] at hs
    simpa [Call.removed, Call.delivered, Call.inFlight, hw] using hs
  fresh := nofun
  opened _ _ := by simp
  held := nofun
  filled := nofun

/-- A call returns before it has removed a frame that it does not write. -/
theorem Call.Ok.close {c : Call} (h : c.Ok) (hpc : c.inFlight = []) :
    Call.Ok ⟨.closed, c.response, c.pops, c.writes⟩ where
  served := by
    have hs := h.served
    rw [hpc] at hs
    exact hs
  fresh := nofun
  opened _ hc := absurd rfl hc
  held := nofun
  filled := nofun

/-- A call removes a frame. -/
theorem Call.Ok.pop {c : Call} (h : c.Ok) (hpc : c.pc = .looping) {q : Queued} (hq : q.buffer.length < 2 ^ 32) :
    Call.Ok ⟨.popped q, c.response, c.pops ++ [q], c.writes⟩ where
  served := by
    have hs := h.served
    simp only [Call.removed, Call.delivered, Call.inFlight, hpc, List.append_nil] at hs
    simp only [Call.removed, Call.delivered, Call.inFlight, List.map_append, List.map_cons, List.map_nil, hs]
  fresh := nofun
  opened _ _ := h.opened (by simp [hpc]) (by simp [hpc])
  held p hp := by cases hp; exact hq
  filled := nofun

/-- A call fills its response from a cell that holds its frame. -/
theorem Call.Ok.fill {c : Call} (h : c.Ok) {q : Queued} (hpc : c.pc = .popped q) :
    Call.Ok ⟨.unpacked q, { c.response with frame := some (grpcBufUnpack q.buffer c.response.getFrame) }, c.pops,
      c.writes⟩ where
  served := by
    have hs := h.served
    simp only [Call.inFlight, hpc] at hs
    exact hs
  fresh := nofun
  opened _ _ := h.opened (by simp [hpc]) (by simp [hpc])
  held := nofun
  filled p hp := by
    cases hp
    exact packBuffer_unpackBuffer (h.held q hpc) _ _

/-- A call writes its response. -/
theorem Call.Ok.write {c : Call} (h : c.Ok) {q : Queued} (hpc : c.pc = .unpacked q) (ok : Bool) :
    Call.Ok ⟨if ok then .looping else .closed, c.response, c.pops, c.writes ++ [c.response]⟩ where
  served := by
    have hs := h.served
    have hw : c.writes ≠ [] := h.opened (by simp [hpc]) (by simp [hpc])
    simp only [Call.removed, Call.delivered, Call.inFlight, hpc] at hs
    cases ok <;>
      simp only [Call.removed, Call.delivered, Call.inFlight, Bool.false_eq_true, ↓reduceIte, List.append_nil,
        List.tail_append_of_ne_nil hw, List.map_append, List.map_cons, List.map_nil, h.filled q hpc, hs]
  fresh hpc' := by cases ok <;> simp at hpc'
  opened _ _ := by simp
  held p hp := by cases ok <;> simp at hp
  filled p hp := by cases ok <;> simp at hp

/-- The invariant of undisturbed runs. -/
structure Inv (s : State) : Prop where
  short : ∀ q ∈ s.frameQueue, q.buffer.length < 2 ^ 32
  cell : (rxCell s).Sound
  calls : ∀ i, (call s i).Ok

theorem inv_init (r : Bool) : Inv (init r) where
  short := nofun
  cell _ _ h := by cases h
  calls _ := ⟨rfl, fun _ => rfl, fun h => absurd rfl h, nofun, nofun⟩

/-- A step that belongs to one call keeps the other calls. -/
theorem calls_step {s s' : State} {a : Act} {i : Nat} (hs : Inv s) (h : step s a = some s') (ha : a.call? = some i)
    (hi : (call s' i).Ok) (j : Nat) : (call s' j).Ok := by
  by_cases hj : j = i
  · rw [hj]; exact hi
  · rw [step_other h (by rw [ha]; exact fun e => hj (Option.some.inj e).symm)]
    exact hs.calls j

theorem receiveFrame_short {s : State} {buffer : List UInt8} (hs : ∀ q ∈ s.frameQueue, q.buffer.length < 2 ^ 32)
    (hb : buffer.length < 2 ^ 32) : ∀ q ∈ (receiveFrame s buffer).frameQueue, q.buffer.length < 2 ^ 32 := by
  intro q hq
  have hq' : q ∈ s.frameQueue ∨ q = ⟨s.received.length, buffer⟩ := by
    unfold receiveFrame at hq
    split at hq
    · exact (List.mem_append.mp hq).imp List.mem_of_mem_tail List.mem_singleton.mp
    · exact (List.mem_append.mp hq).imp id List.mem_singleton.mp
  rcases hq' with hq' | rfl
  · exact hs q hq'
  · exact hb

theorem rxCell_receiveFrame (s : State) (buffer : List UInt8) : rxCell (receiveFrame s buffer) = rxCell s := by
  unfold receiveFrame
  split <;> rfl

/-- **Undisturbed steps keep the invariant.** -/
theorem inv_step {s s' : State} {a : Act} (hs : Inv s) (hu : Undisturbed s a) (h : step s a = some s') : Inv s' := by
  cases a with
  | receiveFrame buffer =>
    cases h
    exact ⟨receiveFrame_short hs.short hu, by rw [rxCell_receiveFrame]; exact hs.cell,
      fun i => by rw [call_receiveFrame]; exact hs.calls i⟩
  | openStream i =>
    have hc := hs.calls i
    obtain ⟨hpc, rfl | rfl⟩ := step_openStream h
    · refine ⟨hs.short, sound_moved hs.cell rfl rfl (fun _ h => by cases h), calls_step hs h rfl ?_⟩
      simpa [call, ofCall_append_self] using hc.start hpc { frame := some {} }
    · refine ⟨hs.short, sound_moved hs.cell rfl rfl (fun _ h => by cases h), calls_step hs h rfl ?_⟩
      simpa [call] using hc.close (by simp [Call.inFlight, call, hpc])
  | cancel i =>
    obtain ⟨hpc, rfl⟩ := step_cancel h
    refine ⟨hs.short, sound_moved hs.cell rfl rfl (fun _ h => by cases h), calls_step hs h rfl ?_⟩
    simpa [call] using (hs.calls i).close (by simp [Call.inFlight, call, hpc])
  | popFrame i =>
    obtain ⟨hpc, ⟨-, rfl⟩ | ⟨q, rest, hq, rfl⟩⟩ := step_popFrame h
    · exact hs
    · have hshort := hs.short
      rw [hq] at hshort
      refine ⟨fun p hp => hshort p (List.mem_cons_of_mem _ hp), ?_, calls_step hs h rfl ?_⟩
      · -- the step is allowed exactly when the cell stays sound
        rw [rxCell_put rfl rfl, Cell.sound_put]
        intro j hj w hw
        simp only [rxCell] at hw
        split at hw
        · rename_i p hp
          cases hw
          exact hu q (by rw [hq]; rfl) j hj p hp
        · cases hw
      · simpa [call, ofCall_append_self] using (hs.calls i).pop hpc (hshort q List.mem_cons_self)
  | unpack i =>
    obtain ⟨q, hpc, rfl⟩ := step_unpack h
    have hrx : s.rxFrame = q.buffer := hs.cell i q.buffer (by simp only [rxCell, hpc])
    refine ⟨hs.short, sound_moved hs.cell rfl rfl (fun _ h => by cases h), calls_step hs h rfl ?_⟩
    simpa [call, hrx] using (hs.calls i).fill hpc
  | write i ok =>
    obtain ⟨q, hpc, rfl⟩ := step_write h
    refine ⟨hs.short, sound_moved hs.cell rfl rfl (fun _ h => by cases ok <;> cases h), calls_step hs h rfl ?_⟩
    simpa [call, ofCall_append_self] using (hs.calls i).write hpc ok

theorem inv_run {r : Bool} {as : List Act} {s : State} (hu : Along step Undisturbed (init r) as)
    (h : run step (init r) as = some s) : Inv s :=
  run_inv (fun _ _ _ hs hP hstep => inv_step hs hP hstep) (inv_init r) hu h

/-! ## Several streams -/

/-- Every frame is removed once, and every call has written the frames it removed, in order and with their bytes, up
to the frame in flight. -/
def DeliversRemoved (s : State) : Prop :=
  (s.pops.map fun e => e.2.arrival).Nodup ∧
    ∀ i, (call s i).removed = (call s i).delivered ++ (call s i).inFlight

theorem pops_nodup {r : Bool} {as : List Act} {s : State} (h : run step (init r) as = some s) :
    (s.pops.map fun e => e.2.arrival).Nodup := by
  obtain ⟨d, -, hr, hp, -⟩ := refines_run h
  have hsub : (s.pops.map Prod.snd).Sublist s.received := by
    rw [hp, hr]
    exact (List.sublist_append_left _ _).trans d.order
  have hn : (s.received.map Queued.arrival).Nodup := by
    rw [arrivals_run h]
    exact List.nodup_range
  have := hn.sublist (hsub.map Queued.arrival)
  rwa [List.map_map] at this

/-- **Undisturbed streams deliver what they remove.** -/
theorem streams_deliver_removed {r : Bool} {as : List Act} {s : State} (hu : Along step Undisturbed (init r) as)
    (h : run step (init r) as = some s) : DeliversRemoved s :=
  ⟨pops_nodup h, fun i => ((inv_run hu h).calls i).served⟩

/-- Two streams, one after the other between `pop_frame` and `grpc_buf_unpack`. -/
def takingTurns : List Act :=
  [.openStream 0, .openStream 1, .receiveFrame [1], .receiveFrame [2, 3], .popFrame 0, .unpack 0, .popFrame 1,
    .write 0 true, .unpack 1, .write 1 true]

theorem undisturbed_takingTurns : Along step Undisturbed (init true) takingTurns := by
  refine .cons trivial rfl <| .cons trivial rfl <| .cons (by decide : [1].length < 2 ^ 32) rfl <|
    .cons (by decide : [2, 3].length < 2 ^ 32) rfl <| .cons ?_ rfl <| .cons trivial rfl <| .cons ?_ rfl <|
    .cons trivial rfl <| .cons trivial rfl <| .cons trivial rfl trivial
  all_goals
    intro q _ j _ p hp
    by_cases h0 : j = 0 <;> by_cases h1 : j = 1 <;> simp_all [init, receiveFrame, Function.update]

theorem streams_deliver_removed_takingTurns :
    ∃ s, run step (init true) takingTurns = some s ∧ DeliversRemoved s :=
  ⟨_, rfl, streams_deliver_removed undisturbed_takingTurns rfl⟩

/-- Two streams, both between `pop_frame` and `grpc_buf_unpack`. -/
def overlapping : List Act :=
  [.openStream 0, .openStream 1, .receiveFrame [1], .receiveFrame [2, 3], .popFrame 0, .popFrame 1, .unpack 0,
    .unpack 1, .write 0 true, .write 1 true]

/-- The second of two overlapping `pop_frame` calls replaces the frame of the first: it is lost, and the other frame is
written twice. -/
theorem streams_mix_frames : ¬∀ r as s, run step (init r) as = some s → DeliversRemoved s := by
  intro h
  have h := (h true overlapping _ rfl).2 0
  revert h
  decide

/-! ## One stream -/

/-- The only `ReceiveStream` call is `i`, and frames are shorter than `2 ^ 32` bytes. -/
def OneStream (i : Nat) (_ : State) (a : Act) : Prop :=
  (∀ j, a.call? = some j → j = i) ∧ ∀ buffer, a = .receiveFrame buffer → buffer.length < 2 ^ 32

/-- All other calls have done nothing. -/
theorem others_step {i : Nat} {s s' : State} {a : Act} (hs : ∀ j, j ≠ i → call s j = call (init s.radioService) j)
    (ha : OneStream i s a) (h : step s a = some s') {j : Nat} (hj : j ≠ i) :
    call s' j = call (init s.radioService) j := by
  rw [step_other h (fun e => hj (ha.1 j e))]
  exact hs j hj

theorem others_run {r : Bool} {i : Nat} {as : List Act} {s : State} (ha : Along step (OneStream i) (init r) as)
    (h : run step (init r) as = some s) {j : Nat} (hj : j ≠ i) : call s j = call (init r) j :=
  run_inv (I := fun s => ∀ j, j ≠ i → call s j = call (init r) j)
    (fun _ _ _ hs hP hstep _ hj => others_step hs hP hstep hj) (fun _ _ => rfl) ha h j hj

/-- A single stream is undisturbed. -/
theorem undisturbed_of_oneStream {r : Bool} {i : Nat} {as : List Act}
    (ha : Along step (OneStream i) (init r) as) : Along step Undisturbed (init r) as := by
  refine Along.of_inv (I := fun s => ∀ j, j ≠ i → call s j = call (init r) j)
    (fun _ _ _ hs hP hstep _ hj => others_step hs hP hstep hj) ?_ (fun _ _ => rfl) ha
  intro s a hs hP
  cases a with
  | receiveFrame buffer => exact hP.2 buffer rfl
  | popFrame k =>
    intro q _ j hj p hp
    have hji : j ≠ i := fun e => hj (e.trans (hP.1 k rfl).symm)
    have hpc : s.pc j = .opening := congrArg Call.pc (hs j hji)
    rw [hpc] at hp
    cases hp
  | _ => trivial

/-- All frames were removed by the one stream. -/
theorem pops_of_oneStream {i : Nat} : ∀ {log : List (Nat × Queued)}, (∀ j, j ≠ i → ofCall j log = []) →
    log.map Prod.snd = ofCall i log
  | [], _ => rfl
  | (j, q) :: log, h => by
    have hj : j = i := by
      by_contra hne
      have := h j hne
      simp [ofCall] at this
    subst hj
    have ih : log.map Prod.snd = ofCall j log := pops_of_oneStream fun k hk => by
      have := h k hk
      simpa [ofCall, hk.symm] using this
    simpa [ofCall] using ih

/-- **Drop-oldest delivery to a single stream.** The queue holds at most 64 frames, the newest ones received; the
responses written after the initial empty one carry the frames that were removed, up to the one in flight; frames are
removed in the order of their arrival and at most once; and a received frame is neither queued nor removed exactly when
some `receive_frame` found it the oldest of 64 queued frames. -/
theorem single_stream_drop_oldest {r : Bool} {i : Nat} {as : List Act} {s : State}
    (ha : Along step (OneStream i) (init r) as) (h : run step (init r) as = some s) :
    s.received.map Queued.buffer = as.filterMap Act.frame? ∧
    (s.frameQueue.length ≤ 64 ∧ s.frameQueue <:+ s.received) ∧
    (s.pops.map fun e => e.2.buffer) = (call s i).delivered ++ (call s i).inFlight ∧
    ((s.pops.map Prod.snd).Sublist s.received ∧ (s.pops.map Prod.snd).Nodup) ∧
    ∀ q ∈ s.received, q ∉ s.frameQueue ∧ q ∉ s.pops.map Prod.snd ↔ FoundOldest r as q := by
  obtain ⟨d, hq, hr, hp, he⟩ := refines_run h
  have hnd := received_nodup h
  have hsub : (s.pops.map Prod.snd).Sublist s.received := by
    rw [hp, hr]
    exact (List.sublist_append_left _ _).trans d.order
  refine ⟨received_run h, ⟨?_, ?_⟩, ?_, ⟨hsub, hnd.sublist hsub⟩, fun q hmem => ?_⟩
  · rw [hq]
    exact d.bound
  · rw [hq, hr]
    exact d.block
  · have hpops : s.pops.map Prod.snd = ofCall i s.pops :=
      pops_of_oneStream fun j hj => congrArg Call.pops (others_run ha h hj)
    rw [← ((inv_run (undisturbed_of_oneStream ha) h).calls i).served, Call.removed]
    simp only [call, ← hpops, List.map_map]
    rfl
  · rw [← evicted_iff h, he, hq, hp]
    exact d.missing_iff (by rw [← hr]; exact hnd) (by rw [← hr]; exact hmem)

/-- Two frames arrive; the client gets the first one. -/
def oneClient : List Act :=
  [.receiveFrame [1, 2, 3, 4, 5], .openStream 0, .receiveFrame [6], .popFrame 0, .unpack 0, .write 0 true]

theorem oneStream_oneClient : Along step (OneStream 0) (init true) oneClient := by
  refine along_of_forall (fun _ a ha => ?_) _
  simp only [oneClient, List.mem_cons, List.not_mem_nil, or_false] at ha
  rcases ha with rfl | rfl | rfl | rfl | rfl | rfl <;> simp [OneStream, Act.call?]

theorem single_stream_drop_oldest_oneClient : ∃ s, run step (init true) oneClient = some s ∧
    s.frameQueue <:+ s.received ∧ (s.pops.map fun e => e.2.buffer) = (call s 0).delivered ++ (call s 0).inFlight :=
  have h := single_stream_drop_oldest oneStream_oneClient (s := (run step (init true) oneClient).get rfl) rfl
  ⟨_, rfl, h.2.1.2, h.2.2.1⟩

end KaonicComm.ReceiveStream
