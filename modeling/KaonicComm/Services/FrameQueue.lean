import KaonicComm.Services.Locking
import KaonicComm.Services.ReceiveStreamQueue

/-!
# The frame queue under its mutex

`receive_frame` tests the size of the queue, removes the oldest frame and appends the new one; `pop_frame` tests
whether the queue is empty and removes a frame, in two critical sections or more when it waits (`QueueSection`). Since
the sections do not overlap, what the threads do is what they do when each `receive_frame` and each test of `pop_frame`
is one step, as in the model of the receive path (`queue_atomic`). In particular no thread removes a frame from an
empty queue.
-/

namespace KaonicComm.Locking

open Runs Locks
open ReceiveStream (Queued)

variable {listeners : Nat → List Listener}

/-! ## Critical sections -/

/-- What is done to the queue in one critical section. -/
inductive QueueSection : List Event → Prop
  | receive (frame : List UInt8) : QueueSection [.full false, .push frame]
  | receiveFull (front : Option (List UInt8)) (frame : List UInt8) :
    QueueSection [.full true, .drop front, .push frame]
  | wait : QueueSection [.empty true]
  | pop (front : Option (List UInt8)) : QueueSection [.empty false, .pop front]

/-- What a thread has done since it took the mutex of the queue, by the place where it stands. -/
def QueueAt : Pc → List Event → Prop
  | .receiving _ _ _, es | .testing, es | .lastTest, es => es = []
  | .dropping _ _ _, es => es = [.full true]
  | .pushing _ _ _, es => es = [.full false] ∨ ∃ front, es = [.full true, .drop front]
  | .received _ _ _, es =>
    ∃ frame, es = [.full false, .push frame] ∨ ∃ front, es = [.full true, .drop front, .push frame]
  | .blocking, es => es = [.empty true]
  | .popping, es => es = [.empty false]
  | .leaving, es => es = [.empty true] ∨ ∃ front, es = [.empty false, .pop front]
  | _, _ => False

theorem queueAt_inside {p : Pc} {es : List Event} (h : Inside (program listeners) .queue p es) : QueueAt p es := by
  induction h with
  | acquire hnext =>
    change next listeners _ _ = _ at hnext
    unfold next at hnext
    split at hnext <;> cases hnext <;> rfl
  | event _ hnext ih =>
    change next listeners _ _ = _ at hnext
    unfold next at hnext
    split at hnext <;> cases hnext
    · obtain rfl := ih
      rfl
    · obtain rfl := ih
      exact Or.inl rfl
    · obtain rfl := ih
      exact Or.inr ⟨_, rfl⟩
    · rcases ih with rfl | ⟨front, rfl⟩
      · exact ⟨_, Or.inl rfl⟩
      · exact ⟨_, Or.inr ⟨front, rfl⟩⟩
    · obtain rfl := ih
      rfl
    · obtain rfl := ih
      rfl
    · obtain rfl := ih
      exact Or.inl rfl
    · obtain rfl := ih
      rfl
    · obtain rfl := ih
      exact Or.inr ⟨_, rfl⟩
  | other _ hnext hm ih =>
    change next listeners _ _ = _ at hnext
    unfold next at hnext
    split at hnext <;> cases hnext
    all_goals first | exact ih | exact ih.elim | exact absurd rfl hm

theorem queue_section {es : List Event} (h : Section (program listeners) .queue es) : QueueSection es := by
  obtain ⟨p, c, q, hin, hnext⟩ := h
  have hat := queueAt_inside hin
  change next listeners _ _ = _ at hnext
  unfold next at hnext
  split at hnext <;> cases hnext
  · obtain ⟨frame, rfl | ⟨front, rfl⟩⟩ := hat
    · exact .receive frame
    · exact .receiveFull front frame
  · obtain rfl := hat
    exact .wait
  · rcases hat with rfl | ⟨front, rfl⟩
    · exact .wait
    · exact .pop front

/-! ## One section, one step -/

/-- A step of the receive path that uses the queue. -/
inductive QueueOp where
  | receiveFrame (frame : List UInt8)
  | popFrame
  deriving DecidableEq, Repr

/-- The step, by thread `t`. -/
def QueueOp.apply (t : Nat) (a : ReceiveStream.State) : QueueOp → ReceiveStream.State
  | .receiveFrame frame => ReceiveStream.receiveFrame a frame
  | .popFrame => (ReceiveStream.popFrame a t).2

/-- Steps one after the other, from the empty queue. -/
def applyAll (ops : List (Nat × QueueOp)) : ReceiveStream.State :=
  ops.foldl (fun a x => x.2.apply x.1 a) (ReceiveStream.init true)

theorem applyAll_concat (ops : List (Nat × QueueOp)) (t : Nat) (op : QueueOp) :
    applyAll (ops ++ [(t, op)]) = op.apply t (applyAll ops) := by
  simp only [applyAll, List.foldl_append, List.foldl_cons, List.foldl_nil]

/-- Every such queue is a `DropOldest` queue of 64 frames. -/
theorem refines_applyAll (ops : List (Nat × QueueOp)) : ∃ d, ReceiveStream.Refines (applyAll ops) d := by
  induction ops using List.reverseRecOn with
  | nil => exact ⟨_, ReceiveStream.refines_init true⟩
  | append_singleton ops x ih =>
    obtain ⟨d, hd⟩ := ih
    obtain ⟨t, op⟩ := x
    rw [applyAll_concat]
    cases op with
    | receiveFrame frame => exact ⟨_, ReceiveStream.receiveFrame_refines hd frame⟩
    | popFrame =>
      cases hpop : ReceiveStream.popFrame (applyAll ops) t with
      | mk front a =>
        simp only [QueueOp.apply, hpop]
        cases front with
        | some q => exact ⟨_, ReceiveStream.popFrame_refines hd hpop⟩
        | none =>
          unfold ReceiveStream.popFrame at hpop
          split at hpop <;> cases hpop
          exact ⟨d, hd⟩

/-- The frames that were appended. -/
def pushes (log : List (Nat × Event)) : List (List UInt8) :=
  log.filterMap fun x =>
    match x.2 with
    | .push frame => some frame
    | _ => none

/-- What `receive_frame` removed. -/
def drops (log : List (Nat × Event)) : List (Option (List UInt8)) :=
  log.filterMap fun x =>
    match x.2 with
    | .drop front => some front
    | _ => none

/-- What `pop_frame` removed, with the thread. -/
def pops (log : List (Nat × Event)) : List (Nat × Option (List UInt8)) :=
  log.filterMap fun x =>
    match x.2 with
    | .pop front => some (x.1, front)
    | _ => none

/-- The queue and its history after the calls of `log` are those of `a`. -/
structure Agrees (log : List (Nat × Event)) (a : ReceiveStream.State) : Prop where
  queue : queued (log.map Prod.snd) = a.frameQueue.map Queued.buffer
  pushed : pushes log = a.received.map Queued.buffer
  dropped : drops log = a.evicted.map fun q => some q.buffer
  popped : pops log = a.pops.map fun x => (x.1, some x.2.buffer)

theorem agrees_nil : Agrees [] (ReceiveStream.init true) := ⟨rfl, rfl, rfl, rfl⟩

theorem queued_append (history es : List Event) : queued (history ++ es) = es.foldl (fun q e =>
    match e with
    | .push frame => q ++ [frame]
    | .drop _ | .pop _ => q.tail
    | _ => q) (queued history) :=
  List.foldl_append ..

/-- **A critical section is one step.** -/
theorem Agrees.section {log : List (Nat × Event)} {a : ReceiveStream.State} (h : Agrees log a) {es : List Event}
    (hes : QueueSection es) {t : Nat} (hadm : Admitted (program listeners) .queue (log.map Prod.snd ++ es)) :
    ∃ op : QueueOp, Agrees (log ++ es.map (t, ·)) (op.apply t a) := by
  obtain ⟨hqueue, hpushed, hdropped, hpopped⟩ := h
  cases hes with
  | receive frame =>
    have hroom : ¬a.frameQueue.length ≥ 64 := by
      have hfull := hadm (log.map Prod.snd) (.full false) [.push frame] rfl
      simpa [program, admits, hqueue] using hfull
    have happly : QueueOp.apply t a (.receiveFrame frame) = { a with
        frameQueue := a.frameQueue ++ [⟨a.received.length, frame⟩]
        received := a.received ++ [⟨a.received.length, frame⟩] } := by
      simp only [QueueOp.apply, ReceiveStream.receiveFrame, if_neg hroom]
    refine ⟨.receiveFrame frame, ?_⟩
    rw [happly]
    constructor
    · simp [queued_append, hqueue]
    · simpa [pushes] using hpushed
    · simpa [drops] using hdropped
    · simpa [pops] using hpopped
  | receiveFull front frame =>
    have hfull : a.frameQueue.length ≥ 64 := by
      have hfull := hadm (log.map Prod.snd) (.full true) [.drop front, .push frame] rfl
      simpa [program, admits, hqueue] using hfull
    have hfront : front = a.frameQueue.head?.map Queued.buffer := by
      have hdrop := hadm (log.map Prod.snd ++ [.full true]) (.drop front) [.push frame] (by simp)
      simpa [program, admits, queued_append, hqueue] using hdrop
    have happly : QueueOp.apply t a (.receiveFrame frame) = { a with
        frameQueue := a.frameQueue.tail ++ [⟨a.received.length, frame⟩]
        evicted := a.evicted ++ a.frameQueue.head?.toList
        received := a.received ++ [⟨a.received.length, frame⟩] } := by
      simp only [QueueOp.apply, ReceiveStream.receiveFrame, if_pos hfull]
    refine ⟨.receiveFrame frame, ?_⟩
    rw [happly]
    constructor
    · simp [queued_append, hqueue]
    · simpa [pushes] using hpushed
    · cases hq : a.frameQueue with
      | nil => simp [hq] at hfull
      | cons q rest => simpa [drops, hfront, hq] using hdropped
    · simpa [pops] using hpopped
  | wait =>
    have hempty : a.frameQueue = [] := by
      have hempty := hadm (log.map Prod.snd) (.empty true) [] rfl
      simpa [program, admits, hqueue] using hempty
    refine ⟨.popFrame, ?_⟩
    simp only [QueueOp.apply, ReceiveStream.popFrame, hempty]
    constructor
    · simp [queued_append, hqueue]
    · simpa [pushes] using hpushed
    · simpa [drops] using hdropped
    · simpa [pops] using hpopped
  | pop front =>
    cases hq : a.frameQueue with
    | nil =>
      have hempty := hadm (log.map Prod.snd) (.empty false) [.pop front] rfl
      simp [program, admits, hqueue, hq] at hempty
    | cons q rest =>
      have hfront : front = some q.buffer := by
        have hpop := hadm (log.map Prod.snd ++ [.empty false]) (.pop front) [] (by simp)
        simpa [program, admits, queued_append, hqueue, hq] using hpop
      refine ⟨.popFrame, ?_⟩
      simp only [QueueOp.apply, ReceiveStream.popFrame, hq]
      constructor
      · simp [queued_append, hqueue, hq]
      · simpa [pushes] using hpushed
      · simpa [drops] using hdropped
      · simpa [pops, hfront] using hpopped

/-! ## Runs -/

theorem agrees_flatten {done : List (Nat × List Event)} (hdone : ∀ x ∈ done, QueueSection x.2)
    (hadm : Admitted (program listeners) .queue ((flatten done).map Prod.snd)) :
    ∃ ops, Agrees (flatten done) (applyAll ops) := by
  induction done using List.reverseRecOn with
  | nil => exact ⟨[], agrees_nil⟩
  | append_singleton done x ih =>
    obtain ⟨t, es⟩ := x
    rw [flatten_append, flatten_singleton] at hadm ⊢
    rw [List.map_append, List.map_map] at hadm
    obtain ⟨ops, hops⟩ := ih (fun y hy => hdone y (List.mem_append_left _ hy)) hadm.left
    have hes : es.map (Prod.snd ∘ (t, ·)) = es := List.map_id es
    rw [hes] at hadm
    obtain ⟨op, hop⟩ := hops.section (hdone (t, es) (by simp)) hadm (t := t)
    exact ⟨ops ++ [(t, op)], by rw [applyAll_concat]; exact hop⟩

/-- **Under its mutex the frame queue is used in whole steps**: when no thread holds the mutex, its content and its
history are those of `receive_frame` calls and tests of `pop_frame` one after the other, and so those of a queue of 64
frames that drops the oldest. -/
theorem queue_atomic {as : List (Nat × Choice)} {s : State Nat Mutex Pc Event}
    (h : run (step (program listeners)) (init fun _ => .idle) as = some s) (hfree : s.owner .queue = none) :
    ∃ ops d, Agrees (s.log .queue) (applyAll ops) ∧ ReceiveStream.Refines (applyAll ops) d := by
  obtain ⟨done, hdone, hlog, -⟩ := sections_run (L := Mutex) disciplined (fun _ => rfl) h .queue
  have hadm : Admitted (program listeners) .queue ((s.log .queue).map Prod.snd) := admitted_run h .queue
  rw [hlog hfree] at hadm ⊢
  obtain ⟨ops, hops⟩ := agrees_flatten (fun x hx => queue_section (hdone x hx)) hadm
  obtain ⟨d, hd⟩ := refines_applyAll ops
  exact ⟨ops, d, hops, hd⟩

/-- A reader that waits, an update that delivers a frame, and the reader that gets it. -/
def delivery : List (Nat × Choice) :=
  [(1, .call .popFrame), (1, .go), (0, .call (.update 0)), (1, .test true), (0, .go), (0, .go), (1, .go),
    (0, .deliver [7]), (0, .go), (0, .test false), (0, .go), (0, .go), (1, .go), (1, .test false),
    (1, .front (some [7])), (1, .go)]

theorem queue_atomic_delivery : ∃ s, run (step (program fun _ => [.grpc])) (init fun _ => .idle) delivery = some s ∧
    s.owner .queue = none ∧ ∃ ops d, Agrees (s.log .queue) (applyAll ops) ∧ ReceiveStream.Refines (applyAll ops) d :=
  ⟨_, rfl, rfl, @queue_atomic (fun _ => [.grpc]) delivery _ rfl rfl⟩

end KaonicComm.Locking
