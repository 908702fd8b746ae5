import KaonicComm.Error
import KaonicComm.Services.SerialTx

/-!
# `serial_service::start_tx`, `stop_tx` and the destructor

`start_tx` stores `true` to `_is_active` and then creates the thread that runs `tx`; the creation can throw, and then
the service is active without a thread. `stop_tx` stores `false` and joins the thread. The destructor closes the port
and leaves the thread to the destructor of `std::thread`.

For calls one after the other, in any interleaving with the thread and whatever the port delivers, the service is a
switch (`refines_switch`): its calls return what those of the switch return, a thread runs exactly while the switch is
on with a thread, and the process is terminated exactly when the service is destroyed then.

`serial::read`, `serial::write` and `serial::close` lock `serial::_mut`, so a thread that sends a frame to the client
can keep the others out. `stop_tx` waits for three steps of its thread at most, and for nothing but the writes that are
before one of them (`stop_returns`).
-/

namespace KaonicComm.SerialWorker

open Runs Packet SerialService
open SerialTx (Tx PortEvent)

/-- Where the thread that calls the service stands. -/
inductive Ctrl where
  | idle
  /-- In `start_tx`, after the load of `false`. -/
  | storing
  /-- In `start_tx`, after the store of `true`. -/
  | creating
  /-- In `stop_tx`, after the load of `true`. -/
  | clearing
  /-- In `stop_tx`, after the store of `false`. -/
  | joining
  /-- In the destructor, after `_serial->close()`. -/
  | destroying
  | destroyed
  /-- `std::terminate`: a joinable `std::thread` was destroyed or assigned to. -/
  | terminated (inDestructor : Bool)
  deriving DecidableEq, Repr

/-- Where a thread that runs `tx` stands. -/
inductive Pc where
  /-- Before the test of `_is_active`. -/
  | testing
  /-- Before the read of a byte. -/
  | readingByte
  /-- Before the read of a checksum. -/
  | readingCrc
  | left
  deriving DecidableEq, Repr

/-- A thread that runs `tx`, with its variable `byte`. -/
structure Thread where
  pc : Pc
  byte : UInt8
  deriving DecidableEq, Repr

/-- A thread that has just been created. -/
def Thread.new : Thread := ⟨.testing, 0⟩

/-- How a call ends. -/
inductive Result where
  | returned (error : ErrorCode)
  /-- The constructor of `std::thread` throws. -/
  | raised
  deriving DecidableEq, Repr

/-- A call that ended. -/
inductive Ended where
  | startTx (result : Result)
  | stopTx (result : Result)
  deriving DecidableEq, Repr

/-- The service and its threads. -/
structure State where
  isActive : Bool
  /-- `_rx_thread`: the number of the thread it can join. -/
  rxThread : Option Nat
  /-- All threads created so far. -/
  threads : List Thread
  /-- The members that carry data, and what the loop did so far (ghost). Its locals stand in `threads`. -/
  tx : Tx
  /-- Another thread is in `serial::write` and holds `serial::_mut`. -/
  writing : Bool
  ctrl : Ctrl
  /-- The calls that ended (ghost). -/
  ended : List Ended
  deriving DecidableEq, Repr

def init : State where
  isActive := false
  rxThread := none
  threads := []
  tx := SerialTx.start
  writing := false
  ctrl := .idle
  ended := []

/-- One atomic step of the calling thread, of a thread that runs `tx` or of one that writes to the port. -/
inductive Act where
  /-- `start_tx` loads `_is_active`. -/
  | startTx
  | storeTrue
  /-- The assignment of a new `std::thread` to `_rx_thread`. -/
  | createThread (ok : Bool)
  /-- `stop_tx` loads `_is_active`. -/
  | stopTx
  | storeFalse
  | join
  /-- The destructor closes the port. -/
  | closePort
  /-- The destructor of `_rx_thread`. -/
  | destroyThread
  /-- Thread `w` tests `_is_active`. -/
  | test (w : Nat)
  /-- Thread `w` calls `serial::read`, and goes on to the next test or read. -/
  | read (w : Nat) (e : PortEvent)
  /-- `receive_frame` of another thread calls `serial::write`, which locks `serial::_mut`. -/
  | beginWrite
  /-- That call returns. -/
  | endWrite
  deriving DecidableEq, Repr

/-- The loop with the locals of a thread. -/
def State.loop (s : State) (t : Thread) : Tx := { s.tx with byte := t.byte, awaitsCrc := t.pc = .readingCrc }

/-- The process has not been terminated. -/
def State.goesOn (s : State) : Bool :=
  match s.ctrl with
  | .terminated _ => false
  | _ => true

/-- A thread before its next test or read. -/
def Thread.next (tx : Tx) : Thread := ⟨if tx.awaitsCrc then .readingCrc else .testing, tx.byte⟩

/-- The steps of the calling thread, of the threads that run `tx` and of those that write. A read and the closing of the
port wait for a write that holds the mutex. -/
def step (pb : Protobuf) (crc32 : List UInt8 → UInt32) (s : State) : Act → Option State
  | .startTx =>
    if s.ctrl = .idle then
      if s.isActive then some { s with ended := s.ended ++ [.startTx (.returned .preconditionFailed)] }
      else some { s with ctrl := .storing }
    else none
  | .storeTrue => if s.ctrl = .storing then some { s with ctrl := .creating, isActive := true } else none
  | .createThread ok =>
    if s.ctrl = .creating then
      if !ok then some { s with ctrl := .idle, ended := s.ended ++ [.startTx .raised] }
      else
        match s.rxThread with
        | some _ => some { s with ctrl := .terminated false, threads := s.threads ++ [.new] }
        | none =>
          some { s with
            ctrl := .idle
            rxThread := some s.threads.length
            threads := s.threads ++ [.new]
            ended := s.ended ++ [.startTx (.returned .ok)] }
    else none
  | .stopTx =>
    if s.ctrl = .idle then
      if s.isActive then some { s with ctrl := .clearing }
      else some { s with ended := s.ended ++ [.stopTx (.returned .preconditionFailed)] }
    else none
  | .storeFalse => if s.ctrl = .clearing then some { s with ctrl := .joining, isActive := false } else none
  | .join =>
    if s.ctrl = .joining then
      match s.rxThread with
      | none => some { s with ctrl := .idle, ended := s.ended ++ [.stopTx (.returned .ok)] }
      | some w =>
        if s.threads[w]?.map Thread.pc = some .left then
          some { s with ctrl := .idle, rxThread := none, ended := s.ended ++ [.stopTx (.returned .ok)] }
        else none
    else none
  | .closePort => if s.ctrl = .idle ∧ s.writing = false then some { s with ctrl := .destroying } else none
  | .destroyThread =>
    if s.ctrl = .destroying then
      match s.rxThread with
      | none => some { s with ctrl := .destroyed }
      | some _ => some { s with ctrl := .terminated true }
    else none
  | .test w =>
    match s.threads[w]? with
    | some ⟨.testing, byte⟩ =>
      if s.goesOn then
        some { s with threads := s.threads.set w ⟨if s.isActive then .readingByte else .left, byte⟩ }
      else none
    | _ => none
  | .read w e =>
    match s.threads[w]? with
    | some t =>
      if s.goesOn ∧ s.writing = false ∧ (t.pc = .readingByte ∨ t.pc = .readingCrc) then
        (SerialTx.step pb crc32 (s.loop t) e).map fun tx => { s with tx, threads := s.threads.set w (.next tx) }
      else none
    | none => none
  | .beginWrite => if s.goesOn ∧ s.writing = false then some { s with writing := true } else none
  | .endWrite => if s.goesOn ∧ s.writing = true then some { s with writing := false } else none

/-- Thread `w` was created and has not left its loop. -/
def Alive (s : State) (w : Nat) : Prop := ∃ t, s.threads[w]? = some t ∧ t.pc ≠ .left

/-! ## The switch -/

/-- What the service is for: it is off, or on with a thread or without one. -/
inductive Switch where
  | off
  | on (thread : Bool)
  deriving DecidableEq, Repr

/-- A call, with what the creation of a thread comes to if there is one. -/
inductive Call where
  | startTx (created : Bool)
  | stopTx
  deriving DecidableEq, Repr

/-- A call of the switch. -/
def Switch.call : Switch → Call → Switch × Ended
  | .off, .startTx true => (.on true, .startTx (.returned .ok))
  | .off, .startTx false => (.on false, .startTx .raised)
  | .on thread, .startTx _ => (.on thread, .startTx (.returned .preconditionFailed))
  | .off, .stopTx => (.off, .stopTx (.returned .preconditionFailed))
  | .on _, .stopTx => (.off, .stopTx (.returned .ok))

/-- A call of the switch, with the calls that ended. -/
def switchStep (x : Switch × List Ended) (c : Call) : Option (Switch × List Ended) :=
  some ((x.1.call c).1, x.2 ++ [(x.1.call c).2])

/-- The state of the switch shows in the threads and in how the service ends. -/
structure Shows (s : State) (x : Switch) : Prop where
  thread : s.ctrl = .idle → ((∃ w, Alive s w) ↔ x = .on true)
  single : ∀ v w, Alive s v → Alive s w → v = w
  destroyed : s.ctrl = .destroyed → x ≠ .on true ∧ ∀ w, ¬Alive s w
  terminated : ∀ inDestructor, s.ctrl = .terminated inDestructor → inDestructor = true ∧ x = .on true

section

variable {pb : Protobuf} {crc32 : List UInt8 → UInt32} {s s' : State} {w : Nat}

/-! ## What a step does -/

theorem step_startTx (h : step pb crc32 s .startTx = some s') : s.ctrl = .idle ∧
    (s.isActive = true ∧ s' = { s with ended := s.ended ++ [.startTx (.returned .preconditionFailed)] } ∨
      s.isActive = false ∧ s' = { s with ctrl := .storing }) := by
  simp only [step] at h
  split at h
  · refine ⟨‹_›, ?_⟩
    split at h <;> cases h
    · exact Or.inl ⟨‹_›, rfl⟩
    · exact Or.inr ⟨Bool.eq_false_iff.mpr ‹_›, rfl⟩
  · cases h

theorem step_storeTrue (h : step pb crc32 s .storeTrue = some s') :
    s.ctrl = .storing ∧ s' = { s with ctrl := .creating, isActive := true } := by
  simp only [step] at h
  split at h <;> cases h
  exact ⟨‹_›, rfl⟩

/-- The thread that an earlier call left, if any, decides how the assignment ends. -/
theorem step_createThread {ok : Bool} (h : step pb crc32 s (.createThread ok) = some s') : s.ctrl = .creating ∧
    (ok = false ∧ s' = { s with ctrl := .idle, ended := s.ended ++ [.startTx .raised] } ∨
      ok = true ∧ s.rxThread ≠ none ∧ s' = { s with ctrl := .terminated false, threads := s.threads ++ [.new] } ∨
      ok = true ∧ s.rxThread = none ∧
        s' = { s with
          ctrl := .idle
          rxThread := some s.threads.length
          threads := s.threads ++ [.new]
          ended := s.ended ++ [.startTx (.returned .ok)] }) := by
  simp only [step] at h
  split at h
  · refine ⟨‹_›, ?_⟩
    cases ok with
    | false =>
      cases h
      exact Or.inl ⟨rfl, rfl⟩
    | true =>
      simp only [Bool.not_true, Bool.false_eq_true, if_false] at h
      split at h <;> cases h
      · rename_i w hw
        exact Or.inr (Or.inl ⟨rfl, by rw [hw]; exact Option.some_ne_none w, rfl⟩)
      · exact Or.inr (Or.inr ⟨rfl, ‹_›, rfl⟩)
  · cases h

theorem step_stopTx (h : step pb crc32 s .stopTx = some s') : s.ctrl = .idle ∧
    (s.isActive = true ∧ s' = { s with ctrl := .clearing } ∨
      s.isActive = false ∧ s' = { s with ended := s.ended ++ [.stopTx (.returned .preconditionFailed)] }) := by
  simp only [step] at h
  split at h
  · refine ⟨‹_›, ?_⟩
    split at h <;> cases h
    · exact Or.inl ⟨‹_›, rfl⟩
    · exact Or.inr ⟨Bool.eq_false_iff.mpr ‹_›, rfl⟩
  · cases h

theorem step_storeFalse (h : step pb crc32 s .storeFalse = some s') :
    s.ctrl = .clearing ∧ s' = { s with ctrl := .joining, isActive := false } := by
  simp only [step] at h
  split at h <;> cases h
  exact ⟨‹_›, rfl⟩

/-- `join` returns when there is no thread or it has left its loop. -/
theorem step_join (h : step pb crc32 s .join = some s') : s.ctrl = .joining ∧
    (∀ w, s.rxThread = some w → s.threads[w]?.map Thread.pc = some .left) ∧
    s' = { s with ctrl := .idle, rxThread := none, ended := s.ended ++ [.stopTx (.returned .ok)] } := by
  simp only [step] at h
  split at h
  · refine ⟨‹_›, ?_⟩
    split at h
    · rename_i hnone
      cases h
      refine ⟨fun w hw => ?_, by rw [← hnone]⟩
      rw [hnone] at hw
      cases hw
    · rename_i v hv
      split at h <;> cases h
      refine ⟨fun w hw => ?_, rfl⟩
      rw [hv] at hw
      cases hw
      assumption
  · cases h

theorem step_closePort (h : step pb crc32 s .closePort = some s') :
    s.ctrl = .idle ∧ s.writing = false ∧ s' = { s with ctrl := .destroying } := by
  simp only [step] at h
  split at h <;> cases h
  rename_i hc
  exact ⟨hc.1, hc.2, rfl⟩

theorem step_destroyThread (h : step pb crc32 s .destroyThread = some s') : s.ctrl = .destroying ∧
    (s.rxThread = none ∧ s' = { s with ctrl := .destroyed } ∨
      s.rxThread ≠ none ∧ s' = { s with ctrl := .terminated true }) := by
  simp only [step] at h
  split at h
  · refine ⟨‹_›, ?_⟩
    split at h <;> cases h
    · exact Or.inl ⟨‹_›, rfl⟩
    · rename_i w hw
      exact Or.inr ⟨by rw [hw]; exact Option.some_ne_none w, rfl⟩
  · cases h

theorem step_test (h : step pb crc32 s (.test w) = some s') :
    ∃ byte, s.threads[w]? = some ⟨.testing, byte⟩ ∧ s.goesOn = true ∧
      s' = { s with threads := s.threads.set w ⟨if s.isActive then .readingByte else .left, byte⟩ } := by
  simp only [step] at h
  split at h
  · rename_i byte hw
    split at h <;> cases h
    exact ⟨byte, hw, ‹_›, rfl⟩
  · cases h

theorem step_read {e : PortEvent} (h : step pb crc32 s (.read w e) = some s') : ∃ t tx, s.threads[w]? = some t ∧
    (t.pc = .readingByte ∨ t.pc = .readingCrc) ∧ s.goesOn = true ∧ SerialTx.step pb crc32 (s.loop t) e = some tx ∧
    s' = { s with tx, threads := s.threads.set w (.next tx) } := by
  simp only [step] at h
  split at h
  · rename_i t hw
    split at h
    · rename_i hpc
      obtain ⟨tx, htx, rfl⟩ := Option.map_eq_some_iff.mp h
      exact ⟨t, tx, hw, hpc.2.2, hpc.1, htx, rfl⟩
    · cases h
  · cases h

/-- The steps of a write change nothing but who holds the mutex. -/
theorem step_write {a : Act} (ha : a = .beginWrite ∨ a = .endWrite) (h : step pb crc32 s a = some s') :
    ∃ writing, s' = { s with writing } := by
  rcases ha with rfl | rfl <;> simp only [step] at h <;> split at h <;> cases h
  · exact ⟨true, rfl⟩
  · exact ⟨false, rfl⟩

/-! ## The threads -/

theorem new_ne_left : Thread.new.pc ≠ .left := nofun

/-- A new thread lives, and so do the others. -/
theorem alive_append {t : Thread} (ht : t.pc ≠ .left) (h : s'.threads = s.threads ++ [t]) (v : Nat) :
    Alive s' v ↔ Alive s v ∨ v = s.threads.length := by
  simp only [Alive, h, List.getElem?_append]
  split
  · rename_i hv
    exact ⟨Or.inl, fun h => h.resolve_right (Nat.ne_of_lt hv)⟩
  · rename_i hv
    have hnone : s.threads[v]? = none := List.getElem?_eq_none (Nat.le_of_not_lt hv)
    rw [hnone]
    constructor
    · rintro ⟨u, hu, -⟩
      have := (List.getElem?_eq_some_iff.mp hu).1
      rw [List.length_singleton] at this
      exact Or.inr (by omega)
    · rintro (⟨u, hu, -⟩ | rfl)
      · cases hu
      · exact ⟨t, by simp, ht⟩

/-- A thread that lives takes a step. -/
theorem alive_set {t : Thread} (hw : Alive s w) (h : s'.threads = s.threads.set w t) (v : Nat) :
    Alive s' v ↔ if v = w then t.pc ≠ .left else Alive s v := by
  obtain ⟨u, hu, -⟩ := hw
  have hlt : w < s.threads.length := (List.getElem?_eq_some_iff.mp hu).1
  simp only [Alive, h]
  by_cases hv : v = w
  · subst hv
    simp [List.getElem?_set_self hlt]
  · rw [List.getElem?_set_ne (Ne.symm hv), if_neg hv]

/-! ## The invariant -/

/-- What holds where the calling thread stands. -/
def State.Placed (s : State) : Prop :=
  match s.ctrl with
  | .idle | .destroying => s.isActive = false → s.rxThread = none
  | .storing => s.isActive = false ∧ s.rxThread = none
  | .creating => s.isActive = true ∧ s.rxThread = none
  | .clearing => s.isActive = true
  | .joining => s.isActive = false
  | .destroyed => s.rxThread = none
  | .terminated inDestructor => inDestructor = true ∧ s.isActive = true ∧ s.rxThread ≠ none

/-- `_rx_thread` is the only thread that may be alive, and it is while the service is active. -/
structure Inv (s : State) : Prop where
  owner : ∀ w, Alive s w → s.rxThread = some w
  alive : s.isActive = true → ∀ w, s.rxThread = some w → Alive s w
  created : ∀ w, s.rxThread = some w → w < s.threads.length
  placed : s.Placed

theorem inv_init : Inv init where
  owner w h := by
    obtain ⟨t, h, -⟩ := h
    simp [init] at h
  alive := nofun
  created := nofun
  placed _ := rfl

/-- A step of the calling thread that leaves the threads alone. -/
theorem Inv.same (hs : Inv s) (hthreads : s'.threads = s.threads) (hrx : s'.rxThread = s.rxThread)
    (hactive : s'.isActive = true → s.isActive = true ∨ s.rxThread = none) (hplaced : s'.Placed) : Inv s' where
  owner w hw := by
    rw [hrx]
    exact hs.owner w (by rwa [Alive, hthreads] at hw)
  alive ha w hw := by
    rw [hrx] at hw
    rw [Alive, hthreads]
    rcases hactive ha with ha | hnone
    · exact hs.alive ha w hw
    · rw [hnone] at hw
      cases hw
  created w hw := by
    rw [hrx] at hw
    rw [hthreads]
    exact hs.created w hw
  placed := hplaced

/-- A step of a thread: it leaves only after `false` was stored. -/
theorem Inv.move (hs : Inv s) (hw : Alive s w) {t : Thread} {tx : Tx} (ht : s.isActive = true → t.pc ≠ .left) :
    Inv { s with tx, threads := s.threads.set w t } where
  owner v hv := by
    have hv := (alive_set hw rfl v).mp hv
    by_cases h : v = w
    · exact h ▸ hs.owner w hw
    · rw [if_neg h] at hv
      exact hs.owner v hv
  alive ha v hv := by
    refine (alive_set hw rfl v).mpr ?_
    split
    · exact ht ha
    · exact hs.alive ha v hv
  created v hv := by
    rw [List.length_set]
    exact hs.created v hv
  placed := hs.placed

/-- A thread does not leave at a read. -/
theorem next_ne_left (tx : Tx) : (Thread.next tx).pc ≠ .left := by
  cases htx : tx.awaitsCrc <;> simp [Thread.next, htx]

/-- **Every step keeps the invariant.** -/
theorem inv_step {a : Act} (hs : Inv s) (h : step pb crc32 s a = some s') : Inv s' := by
  have hplaced := hs.placed
  unfold State.Placed at hplaced
  cases a with
  | startTx =>
    obtain ⟨hc, ⟨-, rfl⟩ | ⟨ha, rfl⟩⟩ := step_startTx h <;> rw [hc] at hplaced
    · exact hs.same rfl rfl Or.inl (by simpa only [State.Placed, hc] using hplaced)
    · exact hs.same rfl rfl Or.inl ⟨ha, hplaced ha⟩
  | storeTrue =>
    obtain ⟨hc, rfl⟩ := step_storeTrue h
    rw [hc] at hplaced
    exact hs.same rfl rfl (fun _ => Or.inr hplaced.2) ⟨rfl, hplaced.2⟩
  | createThread ok =>
    obtain ⟨hc, hcase⟩ := step_createThread h
    rw [hc] at hplaced
    obtain ⟨ha, hnone⟩ := hplaced
    rcases hcase with ⟨-, rfl⟩ | ⟨-, hsome, -⟩ | ⟨-, -, rfl⟩
    · exact hs.same rfl rfl Or.inl fun _ => hnone
    · exact absurd hnone hsome
    · refine ⟨fun w hw => ?_, fun _ w hw => ?_, fun w hw => ?_, fun hf => ?_⟩
      · rcases (alive_append new_ne_left rfl w).mp hw with hw | rfl
        · have := hs.owner w hw
          rw [hnone] at this
          cases this
        · rfl
      · cases hw
        exact (alive_append new_ne_left rfl _).mpr (Or.inr rfl)
      · cases hw
        simp
      · rw [ha] at hf
        cases hf
  | stopTx =>
    obtain ⟨hc, ⟨ha, rfl⟩ | ⟨-, rfl⟩⟩ := step_stopTx h <;> rw [hc] at hplaced
    · exact hs.same rfl rfl Or.inl ha
    · exact hs.same rfl rfl Or.inl (by simpa only [State.Placed, hc] using hplaced)
  | storeFalse =>
    obtain ⟨-, rfl⟩ := step_storeFalse h
    exact hs.same rfl rfl nofun rfl
  | join =>
    obtain ⟨-, hleft, rfl⟩ := step_join h
    refine ⟨fun w hw => ?_, fun _ _ hw => (nomatch hw), fun _ hw => (nomatch hw), fun _ => rfl⟩
    -- the only thread that could be alive has left
    have hpc := hleft w (hs.owner w hw)
    obtain ⟨t, ht, hne⟩ := hw
    rw [ht] at hpc
    exact absurd (Option.some.inj hpc) hne
  | closePort =>
    obtain ⟨hc, -, rfl⟩ := step_closePort h
    rw [hc] at hplaced
    exact hs.same rfl rfl Or.inl hplaced
  | destroyThread =>
    obtain ⟨hc, ⟨hnone, rfl⟩ | ⟨hsome, rfl⟩⟩ := step_destroyThread h <;> rw [hc] at hplaced
    · exact hs.same rfl rfl Or.inl hnone
    · have ha : s.isActive = true := by_contra fun hf => hsome (hplaced (Bool.eq_false_iff.mpr hf))
      exact hs.same rfl rfl Or.inl ⟨rfl, ha, hsome⟩
  | test w =>
    obtain ⟨byte, hw, -, rfl⟩ := step_test h
    refine hs.move ⟨_, hw, nofun⟩ fun ha => ?_
    rw [ha]
    nofun
  | read w e =>
    obtain ⟨t, tx, hw, hpc, -, -, rfl⟩ := step_read h
    refine hs.move ⟨t, hw, ?_⟩ fun _ => next_ne_left tx
    rcases hpc with hpc | hpc <;> rw [hpc] <;> decide
  | beginWrite =>
    obtain ⟨writing, rfl⟩ := step_write (Or.inl rfl) h
    exact hs.same rfl rfl Or.inl hs.placed
  | endWrite =>
    obtain ⟨writing, rfl⟩ := step_write (Or.inr rfl) h
    exact hs.same rfl rfl Or.inl hs.placed

/-! ## The service as a switch -/

/-- The state of the switch. A call counts when it returns. -/
def State.switch (s : State) : Switch :=
  match s.ctrl with
  | .storing | .creating => .off
  | .joining => .on s.rxThread.isSome
  | _ => if s.isActive then .on s.rxThread.isSome else .off

/-- **A step is a call of the switch or none.** -/
theorem step_refines {a : Act} (hs : Inv s) (h : step pb crc32 s a = some s') :
    ∃ calls, run switchStep (s.switch, s.ended) calls = some (s'.switch, s'.ended) := by
  have hplaced := hs.placed
  unfold State.Placed at hplaced
  cases a with
  | startTx =>
    obtain ⟨hc, ⟨ha, rfl⟩ | ⟨ha, rfl⟩⟩ := step_startTx h
    · exact ⟨[.startTx true], by simp [run, switchStep, State.switch, hc, ha, Switch.call]⟩
    · exact ⟨[], by simp [run, State.switch, hc, ha]⟩
  | storeTrue =>
    obtain ⟨hc, rfl⟩ := step_storeTrue h
    exact ⟨[], by simp [run, State.switch, hc]⟩
  | createThread ok =>
    obtain ⟨hc, hcase⟩ := step_createThread h
    rw [hc] at hplaced
    obtain ⟨ha, hnone⟩ := hplaced
    refine ⟨[.startTx ok], ?_⟩
    rcases hcase with ⟨rfl, rfl⟩ | ⟨-, hsome, -⟩ | ⟨rfl, -, rfl⟩
    · simp [run, switchStep, State.switch, hc, ha, hnone, Switch.call]
    · exact absurd hnone hsome
    · simp [run, switchStep, State.switch, hc, ha, Switch.call]
  | stopTx =>
    obtain ⟨hc, ⟨ha, rfl⟩ | ⟨ha, rfl⟩⟩ := step_stopTx h
    · exact ⟨[], by simp [run, State.switch, hc, ha]⟩
    · exact ⟨[.stopTx], by simp [run, switchStep, State.switch, hc, ha, Switch.call]⟩
  | storeFalse =>
    obtain ⟨hc, rfl⟩ := step_storeFalse h
    rw [hc] at hplaced
    have ha : s.isActive = true := hplaced
    exact ⟨[], by simp [run, State.switch, hc, ha]⟩
  | join =>
    obtain ⟨hc, -, rfl⟩ := step_join h
    rw [hc] at hplaced
    have ha : s.isActive = false := hplaced
    exact ⟨[.stopTx], by simp [run, switchStep, State.switch, hc, ha, Switch.call]⟩
  | closePort =>
    obtain ⟨hc, -, rfl⟩ := step_closePort h
    exact ⟨[], by simp [run, State.switch, hc]⟩
  | destroyThread =>
    obtain ⟨hc, ⟨-, rfl⟩ | ⟨-, rfl⟩⟩ := step_destroyThread h <;> exact ⟨[], by simp [run, State.switch, hc]⟩
  | test w =>
    obtain ⟨byte, -, -, rfl⟩ := step_test h
    exact ⟨[], rfl⟩
  | read w e =>
    obtain ⟨t, tx, -, -, -, -, rfl⟩ := step_read h
    exact ⟨[], rfl⟩
  | beginWrite =>
    obtain ⟨writing, rfl⟩ := step_write (Or.inl rfl) h
    exact ⟨[], rfl⟩
  | endWrite =>
    obtain ⟨writing, rfl⟩ := step_write (Or.inr rfl) h
    exact ⟨[], rfl⟩

theorem Inv.shows (hs : Inv s) : Shows s s.switch := by
  have hplaced := hs.placed
  unfold State.Placed at hplaced
  refine ⟨fun hc => ?_, fun v w hv hw => ?_, fun hc => ?_, fun inDestructor hc => ?_⟩
  · rw [hc] at hplaced
    constructor
    · rintro ⟨w, hw⟩
      have hrx := hs.owner w hw
      have ha : s.isActive = true := by
        by_contra hf
        rw [hplaced (Bool.eq_false_iff.mpr hf)] at hrx
        cases hrx
      simp [State.switch, hc, ha, hrx]
    · intro hx
      cases ha : s.isActive with
      | false => simp [State.switch, hc, ha] at hx
      | true =>
        cases hrx : s.rxThread with
        | none => simp [State.switch, hc, ha, hrx] at hx
        | some w => exact ⟨w, hs.alive ha w hrx⟩
  · have hv := hs.owner v hv
    rw [hs.owner w hw] at hv
    exact (Option.some.inj hv).symm
  · rw [hc] at hplaced
    have hnone : s.rxThread = none := hplaced
    refine ⟨?_, fun w hw => ?_⟩
    · cases ha : s.isActive <;> simp [State.switch, hc, ha, hnone]
    · have hrx := hs.owner w hw
      rw [hnone] at hrx
      cases hrx
  · rw [hc] at hplaced
    obtain ⟨hd, ha, hrx⟩ := hplaced
    refine ⟨hd, ?_⟩
    simp [State.switch, hc, ha, Option.isSome_iff_ne_none.mpr hrx]

/-- **The service is a switch**: in every interleaving of its calls with the thread, the calls return what those of a
switch return, and the state of the switch shows in the threads and in how the service ends. -/
theorem refines_switch {as : List Act} (h : run (step pb crc32) init as = some s) :
    ∃ calls x, run switchStep (.off, []) calls = some (x, s.ended) ∧ Shows s x := by
  have hstep : ∀ (s : State) (a : Act) (s' : State) (y : Switch × List Ended),
      Inv s ∧ y = (s.switch, s.ended) → step pb crc32 s a = some s' →
      ∃ calls y', run switchStep y calls = some y' ∧ Inv s' ∧ y' = (s'.switch, s'.ended) := by
    rintro s a s' y ⟨hs, rfl⟩ h
    obtain ⟨calls, hcalls⟩ := step_refines hs h
    exact ⟨calls, _, hcalls, inv_step hs h, rfl⟩
  obtain ⟨calls, y, hcalls, hs, rfl⟩ := run_refines hstep ⟨inv_init, rfl⟩ h
  exact ⟨calls, s.switch, hcalls, hs.shows⟩

/-! ## The wait of `stop_tx` -/

/-- How many steps a thread can still take after the store of `false`. -/
def Pc.ahead : Pc → Nat
  | .testing => 1
  | .readingByte => 3
  | .readingCrc => 2
  | .left => 0

/-- The steps of the thread that `stop_tx` joins. -/
def State.ahead (s : State) : Nat :=
  match s.rxThread.bind fun w => s.threads[w]? with
  | some t => t.pc.ahead
  | none => 0

/-- How many bytes thread `w` asks for when it reads. -/
def State.request (s : State) (w : Nat) : Nat :=
  match s.threads[w]? with
  | some t => (s.loop t).request
  | none => 0

variable (pb crc32) in
/-- Thread `w` can take its next step, whatever the port delivers. -/
def Goes (s : State) (w : Nat) : Prop :=
  (∃ s', step pb crc32 s (.test w) = some s') ∨
    ∀ e : PortEvent, e.bytes.length ≤ s.request w → ∃ s', step pb crc32 s (.read w e) = some s'

variable (pb crc32) in
/-- Thread `w` waits for `serial::_mut`: a write of another thread holds it, which can return, and then thread `w` can
take its next step. -/
def Waits (s : State) (w : Nat) : Prop :=
  s.writing = true ∧ ∃ s', step pb crc32 s .endWrite = some s' ∧ Goes pb crc32 s' w

/-- A thread that is alive can take its next step while nobody writes. -/
theorem goes_of_alive (hgo : s.goesOn = true) (hfree : s.writing = false) (hw : Alive s w) : Goes pb crc32 s w := by
  obtain ⟨⟨pc, byte⟩, ht, hpc⟩ := hw
  have hread : (pc = .readingByte ∨ pc = .readingCrc) → Goes pb crc32 s w := by
    intro hpc
    right
    intro e he
    rw [State.request, ht] at he
    have hstep : ∃ tx, SerialTx.step pb crc32 (s.loop ⟨pc, byte⟩) e = some tx := ⟨_, if_pos he⟩
    obtain ⟨tx, htx⟩ := hstep
    refine ⟨{ s with tx, threads := s.threads.set w (.next tx) }, ?_⟩
    simp only [step, ht, hgo, hfree, hpc, and_self, if_true, htx, Option.map_some]
  cases pc with
  | testing =>
    left
    exact ⟨_, by simp only [step, ht, hgo, if_true]; rfl⟩
  | readingByte => exact hread (Or.inl rfl)
  | readingCrc => exact hread (Or.inr rfl)
  | left => exact absurd rfl hpc

/-- It can take its next step, or it waits for a write. -/
theorem goes_or_waits (hgo : s.goesOn = true) (hw : Alive s w) : Goes pb crc32 s w ∨ Waits pb crc32 s w := by
  cases hwriting : s.writing with
  | false => exact Or.inl (goes_of_alive hgo hwriting hw)
  | true =>
    right
    refine ⟨hwriting, { s with writing := false }, ?_, goes_of_alive hgo rfl hw⟩
    simp only [step, hgo, hwriting, and_self, if_true]

/-- While `stop_tx` waits, `join` returns, or a thread goes on or waits for a write. -/
theorem join_or_goes (hs : Inv s) (hc : s.ctrl = .joining) :
    (∃ s', step pb crc32 s .join = some s') ∨ ∃ w, Goes pb crc32 s w ∨ Waits pb crc32 s w := by
  have hgo : s.goesOn = true := by simp [State.goesOn, hc]
  cases hrx : s.rxThread with
  | none =>
    left
    simp [step, hc, hrx]
  | some w =>
    have hlt := hs.created w hrx
    have ht : s.threads[w]? = some s.threads[w] := List.getElem?_eq_getElem hlt
    by_cases hleft : s.threads[w].pc = .left
    · left
      simp [step, hc, hrx, ht, hleft]
    · exact Or.inr ⟨w, goes_or_waits hgo ⟨_, ht, hleft⟩⟩

/-- A checksum is not awaited twice. -/
theorem awaitsCrc_readCrc (tx : Tx) (e : PortEvent) : (SerialTx.readCrc pb crc32 tx e).awaitsCrc = false := by
  simp only [SerialTx.readCrc]
  split
  · rfl
  · split <;> rfl

theorem ahead_next (tx : Tx) : (Thread.next tx).pc.ahead = if tx.awaitsCrc then 2 else 1 := by
  cases htx : tx.awaitsCrc <;> simp [Thread.next, htx, Pc.ahead]

/-- A read brings the thread nearer to its end. -/
theorem ahead_read {t : Thread} {tx : Tx} {e : PortEvent} (hpc : t.pc = .readingByte ∨ t.pc = .readingCrc)
    (h : SerialTx.step pb crc32 (s.loop t) e = some tx) : (Thread.next tx).pc.ahead + 1 ≤ t.pc.ahead := by
  simp only [SerialTx.step] at h
  split at h
  · cases h
    rw [ahead_next]
    rcases hpc with hpc | hpc
    · -- a checksum may follow
      have hbyte : (s.loop t).awaitsCrc = false := decide_eq_false (by rw [hpc]; decide)
      rw [hbyte, if_neg Bool.false_ne_true, hpc, Pc.ahead]
      split <;> omega
    · have hcrc : (s.loop t).awaitsCrc = true := decide_eq_true hpc
      rw [if_pos hcrc, awaitsCrc_readCrc, hpc]
      exact Nat.le_refl 2
  · cases h

/-- A step of a thread that runs `tx`. -/
def Act.ofThread : Act → Bool
  | .test _ | .read _ _ => true
  | .startTx | .storeTrue | .createThread _ | .stopTx | .storeFalse | .join | .closePort | .destroyThread | .beginWrite
  | .endWrite => false

/-- While `stop_tx` waits, every step is one of a write, or one of the thread that brings it nearer to its end. -/
theorem ahead_step {a : Act} (hs : Inv s) (hc : s.ctrl = .joining) (ha : a ≠ .join)
    (h : step pb crc32 s a = some s') :
    s'.ctrl = .joining ∧ s'.ahead + (if a.ofThread then 1 else 0) ≤ s.ahead := by
  have hactive : s.isActive = false := by
    have := hs.placed
    rw [State.Placed, hc] at this
    exact this
  -- the thread that takes a step is the one that is joined
  have hset : ∀ {w : Nat} {t u : Thread} {tx : Tx}, s.threads[w]? = some t → t.pc ≠ .left →
      s.ahead = t.pc.ahead ∧ ({ s with tx, threads := s.threads.set w u } : State).ahead = u.pc.ahead := by
    intro w t u tx ht hpc
    have hrx := hs.owner w ⟨t, ht, hpc⟩
    have hlt := hs.created w hrx
    simp [State.ahead, hrx, ht, List.getElem?_set_self hlt]
  cases a with
  | join => exact absurd rfl ha
  | test w =>
    obtain ⟨byte, hw, -, rfl⟩ := step_test h
    obtain ⟨hold, hnew⟩ := @hset w _ ⟨if s.isActive then .readingByte else .left, byte⟩ s.tx hw nofun
    refine ⟨hc, ?_⟩
    rw [hold, hnew, hactive]
    exact Nat.le_refl 1
  | read w e =>
    obtain ⟨t, tx, hw, hpc, -, htx, rfl⟩ := step_read h
    obtain ⟨hold, hnew⟩ := @hset w t (.next tx) tx hw (by rcases hpc with hpc | hpc <;> rw [hpc] <;> decide)
    refine ⟨hc, ?_⟩
    rw [hold, hnew]
    exact ahead_read hpc htx
  | beginWrite =>
    obtain ⟨writing, rfl⟩ := step_write (Or.inl rfl) h
    exact ⟨hc, Nat.le_refl _⟩
  | endWrite =>
    obtain ⟨writing, rfl⟩ := step_write (Or.inr rfl) h
    exact ⟨hc, Nat.le_refl _⟩
  | startTx | storeTrue | createThread ok | stopTx | storeFalse | closePort | destroyThread =>
    simp only [step, hc] at h
    exact absurd h (by simp)

/-- **`stop_tx` returns**: after its store of `false` the thread takes three steps at most before `join` returns,
whatever the port delivers and whoever writes to it. Until then `join` returns, the thread can take its next step, or it
waits for a write of another thread that holds `serial::_mut`, and goes on when this has returned. -/
theorem stop_returns {as bs : List Act} (h : run (step pb crc32) init as = some s) (hc : s.ctrl = .joining)
    (h' : run (step pb crc32) s bs = some s') (hbs : .join ∉ bs) :
    s'.ctrl = .joining ∧ bs.countP Act.ofThread ≤ 3 ∧
      ((∃ t, step pb crc32 s' .join = some t) ∨ ∃ w, Goes pb crc32 s' w ∨ Waits pb crc32 s' w) := by
  have hs : Inv s := run_keeps (fun _ _ _ hs hstep => inv_step hs hstep) inv_init h
  have hstep : ∀ s a s', (Inv s ∧ s.ctrl = .joining) → a ≠ .join → step pb crc32 s a = some s' →
      Inv s' ∧ s'.ctrl = .joining :=
    fun _ _ _ hs ha hstep => ⟨inv_step hs.1 hstep, (ahead_step hs.1 hs.2 ha hstep).1⟩
  have halong : Along (step pb crc32) (fun _ a => a ≠ .join) s bs :=
    along_of_forall (fun _ a ha => ne_of_mem_of_not_mem ha hbs) s
  obtain ⟨hs', hc'⟩ := run_inv hstep ⟨hs, hc⟩ halong h'
  refine ⟨hc', ?_, join_or_goes hs' hc'⟩
  have hwait : Along (step pb crc32) (fun s a => (Inv s ∧ s.ctrl = .joining) ∧ a ≠ .join) s bs :=
    Along.of_inv hstep (fun _ _ hs ha => ⟨hs, ha⟩) ⟨hs, hc⟩ halong
  have hpot : s'.ahead + (bs.map fun a => if a.ofThread then 1 else 0).sum ≤ s.ahead + (bs.map fun _ => 0).sum :=
    run_potential (fun _ _ _ hP hstep => (ahead_step hP.1.1 hP.1.2 hP.2 hstep).2) hwait h'
  have hahead : s.ahead ≤ 3 := by
    unfold State.ahead
    split
    · rename_i t _
      cases t.pc <;> simp [Pc.ahead]
    · exact Nat.zero_le 3
  rw [sum_weight] at hpot
  simp only [List.map_const', List.sum_replicate_nat, Nat.one_mul, Nat.mul_zero] at hpot
  omega

end

/-- Start, a flag and a lost checksum, a second start, a frame for the client, stop, a third start whose thread cannot
be created, and the end of the service. -/
def startStop : List Act :=
  [.startTx, .storeTrue, .createThread true, .test 0, .read 0 (.data [Hdlc.flag]), .startTx, .read 0 .timeout,
    .beginWrite, .test 0, .endWrite, .stopTx, .storeFalse, .read 0 .readError, .read 0 (.data [1]), .test 0, .join,
    .stopTx, .startTx, .storeTrue, .createThread false, .closePort, .destroyThread]

/-- The service after a run. -/
def after (as : List Act) : State := (run (step protobuf Crc32.crc32) init as).getD init

theorem refines_switch_startStop :
    (after startStop).ctrl = .destroyed ∧ (after startStop).ended.length = 5 ∧
      ∃ calls x, run switchStep (.off, []) calls = some (x, (after startStop).ended) ∧ Shows (after startStop) x :=
  have h : run (step protobuf Crc32.crc32) init startStop = some (after startStop) := rfl
  ⟨rfl, rfl, refines_switch h⟩

/-- `stop_tx` up to its `join`, while the thread is about to read a byte. -/
def stopping : List Act := [.startTx, .storeTrue, .createThread true, .test 0, .stopTx, .storeFalse]

/-- After that the thread reads a flag, waits for a write, and takes its last two steps; a second write begins. -/
def lastSteps : List Act :=
  [.read 0 (.data [Hdlc.flag]), .beginWrite, .endWrite, .read 0 .timeout, .beginWrite, .test 0]

theorem stop_returns_stopping :
    (after (stopping ++ lastSteps)).ctrl = .joining ∧ lastSteps.countP Act.ofThread ≤ 3 ∧
      ((∃ t, step protobuf Crc32.crc32 (after (stopping ++ lastSteps)) .join = some t) ∨
        ∃ w, Goes protobuf Crc32.crc32 (after (stopping ++ lastSteps)) w ∨
          Waits protobuf Crc32.crc32 (after (stopping ++ lastSteps)) w) :=
  have h : run (step protobuf Crc32.crc32) init stopping = some (after stopping) := rfl
  have h' : run (step protobuf Crc32.crc32) (after stopping) lastSteps = some (after (stopping ++ lastSteps)) := rfl
  stop_returns h rfl h' (by decide)

end KaonicComm.SerialWorker
