import KaonicComm.Lib.Locks
import Mathlib.Data.Fintype.Order
import Mathlib.Order.Fin.Basic

/-!
# The mutexes of the service

Three kinds of mutex guard shared objects: that of each `network` its `rfnet`, that of `grpc_service` the queue
`_frame_queue`, and that of `serial` the port. Any number of threads call the functions that take them, in any order:
the update threads, the RPC handlers, the thread of `serial_service` (`next`). `network::update` calls the listeners
with the mutex of its network held, and these take one of the other two; nothing else is nested.

So no set of calls deadlocks (`no_deadlock`), and the calls of one `rfnet` do not overlap: an update is not interrupted,
and `rfnet_send` directly follows the `rfnet_is_tx_free` of the same thread that answered zero (`rfnet_sections`).
-/

namespace KaonicComm.Locking

open Runs Locks

/-- The mutexes. -/
inductive Mutex where
  /-- `network::_mut` of a module. -/
  | network (m : Nat)
  /-- `grpc_service::_mut`. -/
  | queue
  /-- `serial::_mut`. -/
  | port
  deriving DecidableEq, Repr

/-- A receiver that is attached to the broadcaster of a network. -/
inductive Listener where
  /-- `grpc_radio_listener`. -/
  | grpc
  /-- `serial_radio_listener`. -/
  | serial
  deriving DecidableEq, Repr

/-- A call on the file descriptor of the port. -/
inductive PortCall where
  | open
  | read
  | close
  deriving DecidableEq, Repr

/-- What is done to the objects, with the answers. -/
inductive Event where
  /-- `rfnet_update` begins and returns. -/
  | updateBegin
  | updateEnd
  /-- `rfnet_is_tx_free` returns `rc`. -/
  | isTxFree (rc : Int)
  /-- `rfnet_send` returns `rc`. -/
  | send (frame : List UInt8) (rc : Int)
  /-- `rfnet_get_stats`. -/
  | getStats
  /-- The test of `receive_frame`: 64 frames or more are queued. -/
  | full (b : Bool)
  /-- The predicate of `pop_frame`, negated: no frame is queued. -/
  | empty (b : Bool)
  /-- The oldest frame is removed by `receive_frame`, or by `pop_frame`; `none` on an empty queue. -/
  | drop (front : Option (List UInt8))
  | pop (front : Option (List UInt8))
  | push (frame : List UInt8)
  | port (call : PortCall)
  /-- `serial::write` of the packet of a frame. -/
  | write (frame : List UInt8)
  deriving DecidableEq, Repr

/-- A function that takes a mutex. -/
inductive Call where
  /-- `network::update`. -/
  | update (m : Nat)
  /-- `network::transmit`. -/
  | transmit (m : Nat) (frame : List UInt8)
  /-- `network::get_stats`. -/
  | getStats (m : Nat)
  /-- `grpc_service::pop_frame`. -/
  | popFrame
  /-- `serial::open`, `serial::read` and `serial::close`. -/
  | port (call : PortCall)
  deriving DecidableEq, Repr

/-- Where a thread stands. -/
inductive Pc where
  /-- Outside these functions. -/
  | idle
  | called (call : Call)
  /-- `network::update`: before `rfnet_update`, in it, after it. -/
  | updating (m : Nat)
  | inUpdate (m : Nat)
  | updated (m : Nat)
  /-- In `network_broadcast_receiver::on_receive`, with the listeners that are left. -/
  | delivering (m : Nat) (listeners : List Listener) (frame : List UInt8)
  /-- `grpc_service::receive_frame`: before the test, before the `pop`, before the `push`, after it. -/
  | receiving (m : Nat) (listeners : List Listener) (frame : List UInt8)
  | dropping (m : Nat) (listeners : List Listener) (frame : List UInt8)
  | pushing (m : Nat) (listeners : List Listener) (frame : List UInt8)
  | received (m : Nat) (listeners : List Listener) (frame : List UInt8)
  /-- `serial::write` in `serial_service::receive_frame`. -/
  | writing (m : Nat) (listeners : List Listener) (frame : List UInt8)
  | written (m : Nat) (listeners : List Listener) (frame : List UInt8)
  /-- `network::transmit`: before the test of its loop, before the unlock in it, in the sleep, after the loop, after
  `rfnet_send`. -/
  | checking (m : Nat) (frame : List UInt8)
  | waiting (m : Nat) (frame : List UInt8)
  | sleeping (m : Nat) (frame : List UInt8)
  | sending (m : Nat) (frame : List UInt8)
  | sent (m : Nat)
  /-- `network::get_stats`. -/
  | counting (m : Nat)
  | counted (m : Nat)
  /-- `pop_frame`: before the predicate of `wait_for`, before it sleeps, in its sleep, before the predicate after the
  timeout, before the frame is removed, before it returns. -/
  | testing
  | blocking
  | blocked
  | lastTest
  | popping
  | leaving
  /-- On the port, and after the call. -/
  | onPort (call : PortCall)
  | offPort
  deriving DecidableEq, Repr

/-- What picks the next move of a thread. -/
inductive Choice where
  /-- The only way on; in `rfnet_update`, its return. -/
  | go
  | call (call : Call)
  /-- `rfnet_update` calls `on_receive`. -/
  | deliver (frame : List UInt8)
  /-- The result of an `rfnet` function. -/
  | rc (rc : Int)
  | test (b : Bool)
  | front (front : Option (List UInt8))
  /-- The wait in `wait_for` ends with its timeout. -/
  | timeout
  deriving DecidableEq, Repr

/-- The test of the loop in `network::transmit`. -/
def tested (m : Nat) (frame : List UInt8) (rc : Int) : Pc := if rc ≠ 0 then .waiting m frame else .sending m frame

/-- The moves of a thread; `listeners` are those of the broadcaster of each network. -/
def next (listeners : Nat → List Listener) : Pc → Choice → Option (Move Mutex Pc Event)
  | .idle, .call call => some (.skip (.called call))
  | .called (.update m), .go => some (.acquire (.network m) (.updating m))
  | .updating m, .go => some (.event (.network m) .updateBegin (.inUpdate m))
  | .inUpdate m, .deliver frame => some (.skip (.delivering m (listeners m) frame))
  | .inUpdate m, .go => some (.event (.network m) .updateEnd (.updated m))
  | .updated m, .go => some (.release (.network m) .idle)
  | .delivering m [] _, .go => some (.skip (.inUpdate m))
  | .delivering m (.grpc :: rest) frame, .go => some (.acquire .queue (.receiving m rest frame))
  | .receiving m rest frame, .test true => some (.event .queue (.full true) (.dropping m rest frame))
  | .receiving m rest frame, .test false => some (.event .queue (.full false) (.pushing m rest frame))
  | .dropping m rest frame, .front front => some (.event .queue (.drop front) (.pushing m rest frame))
  | .pushing m rest frame, .go => some (.event .queue (.push frame) (.received m rest frame))
  | .received m rest frame, .go => some (.release .queue (.delivering m rest frame))
  | .delivering m (.serial :: rest) frame, .go => some (.acquire .port (.writing m rest frame))
  | .writing m rest frame, .go => some (.event .port (.write frame) (.written m rest frame))
  | .written m rest frame, .go => some (.release .port (.delivering m rest frame))
  | .called (.transmit m frame), .go => some (.acquire (.network m) (.checking m frame))
  | .checking m frame, .rc rc => some (.event (.network m) (.isTxFree rc) (tested m frame rc))
  | .waiting m frame, .go => some (.release (.network m) (.sleeping m frame))
  | .sleeping m frame, .go => some (.acquire (.network m) (.checking m frame))
  | .sending m frame, .rc rc => some (.event (.network m) (.send frame rc) (.sent m))
  | .sent m, .go => some (.release (.network m) .idle)
  | .called (.getStats m), .go => some (.acquire (.network m) (.counting m))
  | .counting m, .go => some (.event (.network m) .getStats (.counted m))
  | .counted m, .go => some (.release (.network m) .idle)
  | .called .popFrame, .go => some (.acquire .queue .testing)
  | .testing, .test true => some (.event .queue (.empty true) .blocking)
  | .testing, .test false => some (.event .queue (.empty false) .popping)
  | .blocking, .go => some (.release .queue .blocked)
  | .blocked, .go => some (.acquire .queue .testing)
  | .blocked, .timeout => some (.acquire .queue .lastTest)
  | .lastTest, .test true => some (.event .queue (.empty true) .leaving)
  | .lastTest, .test false => some (.event .queue (.empty false) .popping)
  | .popping, .front front => some (.event .queue (.pop front) .leaving)
  | .leaving, .go => some (.release .queue .idle)
  | .called (.port call), .go => some (.acquire .port (.onPort call))
  | .onPort call, .go => some (.event .port (.port call) .offPort)
  | .offPort, .go => some (.release .port .idle)
  | _, _ => none

/-- The mutexes that a thread holds at a place. -/
def holds : Pc → Finset Mutex
  | .idle | .called _ | .sleeping _ _ | .blocked => ∅
  | .updating m | .inUpdate m | .updated m | .delivering m _ _ | .checking m _ | .waiting m _ | .sending m _ | .sent m
  | .counting m | .counted m => {.network m}
  | .receiving m _ _ | .dropping m _ _ | .pushing m _ _ | .received m _ _ => {.queue, .network m}
  | .writing m _ _ | .written m _ _ => {.port, .network m}
  | .testing | .blocking | .lastTest | .popping | .leaving => {.queue}
  | .onPort _ | .offPort => {.port}

/-- `_frame_queue` after a history. -/
def queued (history : List Event) : List (List UInt8) :=
  history.foldl (fun q e =>
    match e with
    | .push frame => q ++ [frame]
    | .drop _ | .pop _ => q.tail
    | _ => q) []

/-- The queue answers as its content says; `rfnet` and the port may answer anything. -/
def admits (_ : Mutex) (history : List Event) : Event → Bool
  | .full b => b = decide (64 ≤ (queued history).length)
  | .empty b => b = (queued history).isEmpty
  | .drop front | .pop front => front = (queued history).head?
  | _ => true

/-- The program that every thread runs. -/
def program (listeners : Nat → List Listener) : Program Mutex Pc Event Choice where
  next := next listeners
  admits := admits
  holds := holds

/-- The order in which the mutexes are taken. -/
def rank : Mutex → Fin 2
  | .network _ => 0
  | .queue | .port => 1

variable {listeners : Nat → List Listener}

/-! ## Deadlock -/

theorem holds_tested (m : Nat) (frame : List UInt8) (rc : Int) : holds (tested m frame rc) = {.network m} := by
  unfold tested
  split <;> rfl

/-- A listener's mutex is taken after that of a network, and nothing else is nested. -/
theorem disciplined : Disciplined (program listeners) rank := by
  intro p c m h
  change next listeners p c = some m at h
  unfold next at h
  split at h <;> cases h
  all_goals simp only [Fits, program, holds_tested]
  all_goals simp [holds, rank]

/-- A thread that has called one of the functions takes a mutex, or goes on whatever the objects answered before. -/
theorem goes {p : Pc} (hp : p ≠ .idle) : Goes (program listeners) p := by
  cases p with
  | idle => exact absurd rfl hp
  | called call =>
    left
    cases call with
    | update m | transmit m frame | getStats m | popFrame | port call => exact ⟨.go, _, _, rfl⟩
  | sleeping m frame | blocked => exact Or.inl ⟨.go, _, _, rfl⟩
  | delivering m ls frame =>
    cases ls with
    | nil => exact Or.inr fun _ => ⟨.go, _, rfl, trivial⟩
    | cons listener rest => cases listener <;> exact Or.inl ⟨.go, _, _, rfl⟩
  | updated m | received m ls frame | written m ls frame | waiting m frame | sent m | counted m | blocking | leaving
  | offPort => exact Or.inr fun _ => ⟨.go, _, rfl, trivial⟩
  | updating m | inUpdate m | pushing m ls frame | writing m ls frame | counting m | onPort call =>
    exact Or.inr fun _ => ⟨.go, _, rfl, rfl⟩
  | checking m frame => exact Or.inr fun _ => ⟨.rc 0, _, rfl, rfl⟩
  | sending m frame => exact Or.inr fun _ => ⟨.rc 0, _, rfl, rfl⟩
  | receiving m ls frame =>
    refine Or.inr fun history => ?_
    cases hb : decide (64 ≤ (queued (history .queue)).length) with
    | true => exact ⟨.test true, _, rfl, by simp [Free, program, admits, hb]⟩
    | false => exact ⟨.test false, _, rfl, by simp [Free, program, admits, hb]⟩
  | testing | lastTest =>
    refine Or.inr fun history => ?_
    cases hb : (queued (history .queue)).isEmpty with
    | true => exact ⟨.test true, _, rfl, by simp [Free, program, admits, hb]⟩
    | false => exact ⟨.test false, _, rfl, by simp [Free, program, admits, hb]⟩
  | dropping m ls frame | popping =>
    exact Or.inr fun history => ⟨.front (queued (history .queue)).head?, _, rfl, by simp [Free, program, admits]⟩

/-- A thread that holds a mutex is in one of the functions. -/
theorem ne_idle {p : Pc} (hp : holds p ≠ ∅) : p ≠ .idle := by
  rintro rfl
  exact hp rfl

/-- **No set of calls deadlocks**: a thread in one of the functions waits, over the owners of mutexes, for a thread in
one of them that can go on. -/
theorem no_deadlock {as : List (Nat × Choice)} {s : State Nat Mutex Pc Event}
    (h : run (step (program listeners)) (init fun _ => .idle) as = some s) {t : Nat} (ht : s.pc t ≠ .idle) :
    ∃ u c s', Relation.ReflTransGen (Waits (program listeners) s) t u ∧ s.pc u ≠ .idle ∧
      step (program listeners) s (u, c) = some s' := by
  have hown : Owned (program listeners) s := owned_run disciplined (fun _ => rfl) h
  obtain ⟨u, c, s', hchain, hstep⟩ := progress disciplined hown (fun p hp => goes (ne_idle hp)) (goes ht)
  refine ⟨u, c, s', hchain, ?_, hstep⟩
  rcases hchain.cases_tail with rfl | ⟨v, -, c', l, q, -, howner⟩
  · exact ht
  · exact ne_idle (Finset.ne_empty_of_mem ((hown l u).mp howner))

/-- A transmission that waits for an update, which waits for a reader of the queue. -/
def nested : List (Nat × Choice) :=
  [(0, .call (.update 0)), (0, .go), (0, .go), (0, .deliver [1]), (2, .call .popFrame), (2, .go),
    (1, .call (.transmit 0 [2]))]

theorem no_deadlock_nested : ∃ s,
    run (step (program fun _ => [.grpc])) (init fun _ => .idle) nested = some s ∧ s.pc 1 ≠ .idle ∧
    ∃ u c s', Relation.ReflTransGen (Waits (program fun _ => [.grpc]) s) 1 u ∧ s.pc u ≠ .idle ∧
      step (program fun _ => [.grpc]) s (u, c) = some s' :=
  ⟨_, rfl, nofun, @no_deadlock _ nested _ rfl 1 nofun⟩

/-! ## The calls of one `rfnet` -/

/-- The calls of an `rfnet` in one critical section. -/
inductive RfnetSection : List Event → Prop
  | update : RfnetSection [.updateBegin, .updateEnd]
  | busy {rc : Int} : rc ≠ 0 → RfnetSection [.isTxFree rc]
  | send (frame : List UInt8) (rc : Int) : RfnetSection [.isTxFree 0, .send frame rc]
  | stats : RfnetSection [.getStats]

/-- What a thread has called since it took the mutex of network `m`, by the place where it stands. -/
def RfnetAt (m : Nat) : Pc → List Event → Prop
  | .updating k, es | .checking k _, es | .counting k, es => k = m ∧ es = []
  | .inUpdate k, es | .delivering k _ _, es | .receiving k _ _, es | .dropping k _ _, es | .pushing k _ _, es
  | .received k _ _, es | .writing k _ _, es | .written k _ _, es => k = m ∧ es = [.updateBegin]
  | .updated k, es => k = m ∧ es = [.updateBegin, .updateEnd]
  | .waiting k _, es => k = m ∧ ∃ rc, rc ≠ 0 ∧ es = [.isTxFree rc]
  | .sending k _, es => k = m ∧ es = [.isTxFree 0]
  | .sent k, es => k = m ∧ ∃ frame rc, es = [.isTxFree 0, .send frame rc]
  | .counted k, es => k = m ∧ es = [.getStats]
  | _, _ => False

theorem rfnetAt_tested {m : Nat} {frame : List UInt8} {rc : Int} :
    RfnetAt m (tested m frame rc) [.isTxFree rc] := by
  unfold tested
  split
  · exact ⟨rfl, rc, ‹_›, rfl⟩
  · rename_i h
    rw [Decidable.not_not.mp h]
    exact ⟨rfl, rfl⟩

/-- **The calls of a critical section on a network.** -/
theorem rfnetAt_inside {m : Nat} {p : Pc} {es : List Event}
    (h : Inside (program listeners) (.network m) p es) : RfnetAt m p es := by
  induction h with
  | acquire hnext =>
    change next listeners _ _ = _ at hnext
    unfold next at hnext
    split at hnext <;> cases hnext <;> exact ⟨rfl, rfl⟩
  | event _ hnext ih =>
    change next listeners _ _ = _ at hnext
    unfold next at hnext
    split at hnext <;> cases hnext
    all_goals obtain ⟨-, rfl⟩ := ih
    all_goals first | exact rfnetAt_tested | exact ⟨rfl, rfl⟩ | exact ⟨rfl, _, _, rfl⟩
  | other _ hnext hm ih =>
    change next listeners _ _ = _ at hnext
    unfold next at hnext
    split at hnext <;> cases hnext
    all_goals first | exact ih | exact ih.elim | exact absurd (congrArg (some ∘ Mutex.network) ih.1) hm

/-- What is called until the mutex is released. -/
theorem RfnetAt.rest {m : Nat} {p : Pc} {es : List Event} (h : RfnetAt m p es) : ∃ rest, RfnetSection (es ++ rest) := by
  cases p with
  | updating k | inUpdate k | updated k | delivering k ls frame | receiving k ls frame | dropping k ls frame
  | pushing k ls frame | received k ls frame | writing k ls frame | written k ls frame =>
    obtain ⟨-, rfl⟩ := h
    exact ⟨_, .update⟩
  | checking k frame | sending k frame =>
    obtain ⟨-, rfl⟩ := h
    exact ⟨_, .send frame 0⟩
  | sent k =>
    obtain ⟨-, frame, rc, rfl⟩ := h
    exact ⟨[], .send frame rc⟩
  | waiting k frame =>
    obtain ⟨-, rc, hrc, rfl⟩ := h
    exact ⟨[], .busy hrc⟩
  | counting k | counted k =>
    obtain ⟨-, rfl⟩ := h
    exact ⟨_, .stats⟩
  | idle | called call | sleeping k frame | testing | blocking | blocked | lastTest | popping | leaving | onPort call
  | offPort => exact h.elim

theorem rfnet_section {m : Nat} {es : List Event} (h : Section (program listeners) (.network m) es) :
    RfnetSection es := by
  obtain ⟨p, c, q, hin, hnext⟩ := h
  have hat := rfnetAt_inside hin
  change next listeners _ _ = _ at hnext
  unfold next at hnext
  split at hnext <;> cases hnext
  · obtain ⟨-, rfl⟩ := hat
    exact .update
  · obtain ⟨-, rc, hrc, rfl⟩ := hat
    exact .busy hrc
  · obtain ⟨-, frame, rc, rfl⟩ := hat
    exact .send frame rc
  · obtain ⟨-, rfl⟩ := hat
    exact .stats

/-- **The calls of one `rfnet` do not overlap**: they come in whole critical sections of one thread each, and in what
the owner of the mutex has begun. -/
theorem rfnet_sections {as : List (Nat × Choice)} {s : State Nat Mutex Pc Event}
    (h : run (step (program listeners)) (init fun _ => .idle) as = some s) (m : Nat) :
    ∃ done : List (Nat × List Event), (∀ x ∈ done, RfnetSection x.2) ∧
      ((s.owner (.network m) = none ∧ s.log (.network m) = flatten done) ∨
        ∃ t begun rest, s.owner (.network m) = some t ∧ RfnetSection (begun ++ rest) ∧
          s.log (.network m) = flatten done ++ begun.map (t, ·)) := by
  obtain ⟨done, hdone, hfree, hheld⟩ := sections_run (L := Mutex) disciplined (fun _ => rfl) h (.network m)
  refine ⟨done, fun x hx => rfnet_section (hdone x hx), ?_⟩
  cases howner : s.owner (.network m) with
  | none => exact Or.inl ⟨rfl, hfree howner⟩
  | some t =>
    obtain ⟨begun, hin, hlog⟩ := hheld t howner
    obtain ⟨rest, hrest⟩ := (rfnetAt_inside hin).rest
    exact Or.inr ⟨t, begun, rest, rfl, hrest, hlog⟩

/-- An update, a transmission that finds `rfnet` busy once, and a second update that has begun. -/
def updates : List (Nat × Choice) :=
  [(0, .call (.update 0)), (0, .go), (1, .call (.transmit 0 [2])), (0, .go), (0, .go), (0, .go), (1, .go), (1, .rc 1),
    (1, .go), (1, .go), (1, .rc 0), (1, .rc 0), (1, .go), (0, .call (.update 0)), (0, .go), (0, .go)]

theorem rfnet_sections_updates : ∃ s,
    run (step (program fun _ => [])) (init fun _ => .idle) updates = some s ∧
    ∃ done : List (Nat × List Event), (∀ x ∈ done, RfnetSection x.2) ∧
      ((s.owner (.network 0) = none ∧ s.log (.network 0) = flatten done) ∨
        ∃ t begun rest, s.owner (.network 0) = some t ∧ RfnetSection (begun ++ rest) ∧
          s.log (.network 0) = flatten done ++ begun.map (t, ·)) :=
  ⟨_, rfl, @rfnet_sections (fun _ => []) updates _ rfl 0⟩

end KaonicComm.Locking
