import KaonicComm.Error
import KaonicComm.Lib.Descriptors
import KaonicComm.Lib.Runs

/-!
# `serial`: the descriptor of the serial port

`serial` stores a number, `_fd`. `open` closes it before it opens the device, and closes it when one of the calls that
set up the device fails; `read`, `write` and `close` use it as it is, and so does the destructor of `serial_service`,
which calls `close`. Between these calls the rest of the process opens and closes descriptors of its own.

Nothing gives `_fd` a value at construction, so whatever the calls are, the first one to use it uses a descriptor that
the port does not own (`not_owned_of_destroyed`). From a port that is open, the calls keep to its own descriptor as long
as no `open` fails after its `::close` and nothing but the destructor closes it (`owned_of_careful`).
-/

namespace KaonicComm.SerialPort

open Runs Descriptors

/-- Who opened a descriptor. -/
inductive Owner where
  | port
  | other
  deriving DecidableEq, Repr

/-- A system call of `serial` that the descriptor is given to. -/
inductive Name where
  | close
  | read
  | write
  deriving DecidableEq, Repr

/-- A system call that was made; whether the descriptor was one that the port opened and had not closed is ghost. -/
structure Syscall where
  name : Name
  fd : Int
  owned : Bool
  deriving DecidableEq, Repr

/-- Where a call of `serial` stands. It holds `_mut`, so there is one at a time. -/
inductive Pc where
  | idle
  /-- In `open`, before `::open`. -/
  | opening
  /-- In `open`, before the call number `k` of those that set up the device. -/
  | setup (k : Nat)
  /-- In `read`, before `::read`. -/
  | reading
  | destroyed
  deriving DecidableEq, Repr

/-- The port, the descriptors of the process, the results of `open`, and the system calls (ghost). -/
structure State where
  fd : Int
  pc : Pc := .idle
  table : Table Owner
  opened : List ErrorCode := []
  log : List Syscall := []
  deriving DecidableEq, Repr

/-- `supported_baudrates`. -/
def supportedBaudrates : List UInt32 :=
  [110, 150, 300, 1200, 2400, 4800, 9600, 19200, 38400, 57600, 115200, 230400, 460800, 921600, 1000000, 1152000,
    1500000, 2000000, 2500000, 3000000, 3500000, 4000000]

/-- `tcgetattr`, `cfsetispeed`, `cfsetospeed`, `tcflush` and `tcsetattr`. -/
def setupCalls : Nat := 5

/-- The number is a descriptor that the port opened and has not closed. -/
def State.owns (s : State) : Bool := 0 ≤ s.fd ∧ s.table.owner s.fd.toNat = some .port

/-- A system call on `_fd`. -/
def State.syscall (s : State) (name : Name) : State := { s with log := s.log ++ [⟨name, s.fd, s.owns⟩] }

/-- `::close(_fd)`, whoever the descriptor belongs to. -/
def State.closeFd (s : State) : State :=
  { s.syscall .close with table := if 0 ≤ s.fd then s.table.close s.fd.toNat else s.table }

/-- One step: the next part of a call of `serial`, up to a point where the rest of the process can come in between, or
a step of the rest of the process. -/
inductive Act where
  /-- `open`, up to `::open`. -/
  | open (pathExists : Bool) (baudRate : UInt32)
  /-- `::open`. -/
  | openTty (ok : Bool)
  /-- The next call that sets up the device. -/
  | setup (ok : Bool)
  /-- `read`, up to `::read`, with the result of `::select`. -/
  | select (selected : Int)
  | read
  | write
  | close
  /-- `serial_service::~serial_service`. -/
  | destroy
  /-- Another part of the process opens a descriptor. -/
  | otherOpen
  /-- Another part of the process closes one of its own. -/
  | otherClose (n : Nat)
  deriving DecidableEq, Repr

def step (s : State) : Act → Option State
  | .open pathExists baudRate =>
    if s.pc = .idle then
      if !pathExists then some { s with opened := s.opened ++ [.invalidArg] }
      else if baudRate ∉ supportedBaudrates then some { s with opened := s.opened ++ [.invalidArg] }
      else some { s.closeFd with pc := .opening }
    else none
  | .openTty ok =>
    if s.pc = .opening then
      if ok then some { s with fd := s.table.lowestFree, table := s.table.openLowest .port, pc := .setup 0 }
      else some { s with fd := -1, pc := .idle, opened := s.opened ++ [.fail] }
    else none
  | .setup ok =>
    match s.pc with
    | .setup k =>
      if !ok then some { s.closeFd with pc := .idle, opened := s.opened ++ [.fail] }
      else if k + 1 < setupCalls then some { s with pc := .setup (k + 1) }
      else some { s with pc := .idle, opened := s.opened ++ [.ok] }
    | _ => none
  | .select selected =>
    if s.pc = .idle then
      if selected = 0 then some s
      else if selected < 0 then some s
      else some { s with pc := .reading }
    else none
  | .read => if s.pc = .reading then some { s.syscall .read with pc := .idle } else none
  | .write => if s.pc = .idle then some (s.syscall .write) else none
  | .close => if s.pc = .idle then some s.closeFd else none
  | .destroy => if s.pc = .idle then some { s.closeFd with pc := .destroyed } else none
  | .otherOpen => some { s with table := s.table.openLowest .other }
  | .otherClose n => if s.table.owner n = some .other then some { s with table := s.table.close n } else none

/-- Every system call was made on a descriptor that the port opened and had not closed. -/
def Owned (s : State) : Prop := ∀ c ∈ s.log, c.owned = true

instance (s : State) : Decidable (Owned s) := inferInstanceAs (Decidable (∀ c ∈ s.log, _))

/-! ## What a step does -/

/-- The effect of a step. -/
inductive Effect (s : State) : Act → State → Prop where
  /-- A call of `open` that is refused, or a `select`. -/
  | idle {a : Act} {pc : Pc} {opened : List ErrorCode} : s.pc = .idle → pc = .idle ∨ pc = .reading →
      Effect s a { s with pc, opened }
  /-- A call that sets up the device succeeds. -/
  | setup {k : Nat} {pc : Pc} {opened : List ErrorCode} : s.pc = .setup k → pc = .idle ∨ pc = .setup (k + 1) →
      Effect s (.setup true) { s with pc, opened }
  /-- `open` closes the number that it finds. -/
  | beginOpen {b : Bool} {rate : UInt32} : s.pc = .idle → Effect s (.open b rate) { s.closeFd with pc := .opening }
  | setupFails {k : Nat} {opened : List ErrorCode} : s.pc = .setup k →
      Effect s (.setup false) { s.closeFd with pc := .idle, opened }
  | opens : s.pc = .opening → Effect s (.openTty true)
      { s with fd := s.table.lowestFree, table := s.table.openLowest .port, pc := .setup 0 }
  | openFails {opened : List ErrorCode} : s.pc = .opening →
      Effect s (.openTty false) { s with fd := -1, pc := .idle, opened }
  /-- `::read` or `::write`. -/
  | transfer {a : Act} {name : Name} : s.pc = .idle ∨ s.pc = .reading →
      Effect s a { s.syscall name with pc := .idle }
  | close : s.pc = .idle → Effect s .close s.closeFd
  | destroy : s.pc = .idle → Effect s .destroy { s.closeFd with pc := .destroyed }
  | otherOpen : Effect s .otherOpen { s with table := s.table.openLowest .other }
  | otherClose {n : Nat} : s.table.owner n = some .other → Effect s (.otherClose n) { s with table := s.table.close n }

theorem step_effect {s s' : State} {a : Act} (h : step s a = some s') : Effect s a s' := by
  cases a with
  | «open» pathExists baudRate =>
    simp only [step] at h
    split at h
    · rename_i hpc
      split at h
      · cases h
        exact .idle hpc (Or.inl hpc)
      · split at h
        · cases h
          exact .idle hpc (Or.inl hpc)
        · cases h
          exact .beginOpen hpc
    · cases h
  | openTty ok =>
    simp only [step] at h
    split at h
    · rename_i hpc
      cases ok with
      | true =>
        cases h
        exact .opens hpc
      | false =>
        cases h
        exact .openFails hpc
    · cases h
  | setup ok =>
    simp only [step] at h
    split at h
    · rename_i k hpc
      cases ok with
      | true =>
        simp only [Bool.not_true, Bool.false_eq_true, if_false] at h
        split at h
        · cases h
          exact .setup hpc (Or.inr rfl)
        · cases h
          exact .setup hpc (Or.inl rfl)
      | false =>
        cases h
        exact .setupFails hpc
    · cases h
  | select selected =>
    simp only [step] at h
    split at h
    · rename_i hpc
      split at h
      · cases h
        exact .idle hpc (Or.inl hpc)
      · split at h
        · cases h
          exact .idle hpc (Or.inl hpc)
        · cases h
          exact .idle hpc (Or.inr rfl)
    · cases h
  | read =>
    simp only [step] at h
    split at h
    · rename_i hpc
      cases h
      exact .transfer (Or.inr hpc)
    · cases h
  | write =>
    simp only [step] at h
    split at h
    · rename_i hpc
      cases h
      have hs : s.syscall .write = { s.syscall .write with pc := .idle } := by rw [← hpc]; rfl
      rw [hs]
      exact .transfer (Or.inl hpc)
    · cases h
  | close =>
    simp only [step] at h
    split at h
    · rename_i hpc
      cases h
      exact .close hpc
    · cases h
  | destroy =>
    simp only [step] at h
    split at h
    · rename_i hpc
      cases h
      exact .destroy hpc
    · cases h
  | otherOpen =>
    cases h
    exact .otherOpen
  | otherClose n =>
    simp only [step] at h
    split at h
    · rename_i hn
      cases h
      exact .otherClose hn
    · cases h

/-! ## From construction to destruction -/

/-- A port that has just been constructed: it has opened nothing, and its number is what the memory held. -/
structure Constructed (s : State) : Prop where
  idle : s.pc = .idle
  log : s.log = []
  unowned : ∀ n, s.table.owner n ≠ some .port

/-- The port has not used its number yet and owns nothing, or it has used a number that it did not own. -/
inductive Bad (s : State) : Prop where
  | unused (pc : s.pc = .idle ∨ s.pc = .reading) (unowned : ∀ n, s.table.owner n ≠ some .port)
  | stray (c : Syscall) (mem : c ∈ s.log) (owned : c.owned = false)

theorem owns_of_unowned {s : State} (h : ∀ n, s.table.owner n ≠ some .port) : s.owns = false := by
  simp [State.owns, h]

/-- The first system call of a port that owns nothing is a stray one. -/
theorem Bad.of_syscall {s s' : State} {name : Name} (h : ∀ n, s.table.owner n ≠ some .port)
    (hlog : s'.log = (s.syscall name).log) : Bad s' := by
  refine .stray ⟨name, s.fd, s.owns⟩ ?_ (owns_of_unowned h)
  rw [hlog]
  exact List.mem_append_right _ List.mem_cons_self

/-- The history only grows. -/
theorem Effect.mem_log {s s' : State} {a : Act} (h : Effect s a s') {c : Syscall} (hc : c ∈ s.log) : c ∈ s'.log := by
  cases h <;> first | exact hc | exact List.mem_append_left _ hc

theorem Bad.step {s s' : State} {a : Act} (hs : Bad s) (h : step s a = some s') : Bad s' := by
  have he := step_effect h
  cases hs with
  | stray c mem owned => exact .stray c (he.mem_log mem) owned
  | unused pc unowned =>
    cases he with
    | idle hpc hpc' => exact .unused hpc' unowned
    | setup hpc hpc' => rw [hpc] at pc; rcases pc with pc | pc <;> cases pc
    | beginOpen hpc => exact .of_syscall unowned rfl
    | setupFails hpc => rw [hpc] at pc; rcases pc with pc | pc <;> cases pc
    | opens hpc => rw [hpc] at pc; rcases pc with pc | pc <;> cases pc
    | openFails hpc => rw [hpc] at pc; rcases pc with pc | pc <;> cases pc
    | transfer hpc => exact .of_syscall unowned rfl
    | close hpc => exact .of_syscall unowned rfl
    | destroy hpc => exact .of_syscall unowned rfl
    | otherOpen =>
      refine .unused pc fun n hn => ?_
      simp only [Table.owner_openLowest] at hn
      split at hn
      · cases hn
      · exact unowned n hn
    | otherClose hother =>
      refine .unused pc fun n hn => ?_
      simp only [Table.owner_close] at hn
      split at hn
      · cases hn
      · exact unowned n hn

/-- **From construction to destruction, the port uses a descriptor that it does not own**, in every run. -/
theorem not_owned_of_destroyed {s s' : State} {as : List Act} (hs : Constructed s)
    (h : run step s (as ++ [.destroy]) = some s') : ¬Owned s' := by
  intro howned
  have hbad : Bad s' := run_keeps (fun _ _ _ hs h => hs.step h) (Bad.unused (Or.inl hs.idle) hs.unowned) h
  obtain ⟨t, -, hlast⟩ := run_concat.mp h
  cases hbad with
  | stray c mem owned =>
    rw [howned c mem] at owned
    cases owned
  | unused pc unowned =>
    -- the destructor has run
    simp only [step] at hlast
    split at hlast
    · cases hlast
      rcases pc with pc | pc <;> cases pc
    · cases hlast

/-- A port that is constructed where the memory holds `0`, in a process with its three standard descriptors. -/
def start : State where
  fd := 0
  table := ⟨[(2, .other), (1, .other), (0, .other)]⟩

theorem constructed_start : Constructed start := by
  refine ⟨rfl, rfl, fun n => ?_⟩
  simp only [start, Table.owner_cons]
  split
  · decide
  split
  · decide
  split
  · decide
  · exact fun e => by cases e

/-- The port is opened and closed, and another part of the process opens a descriptor, which gets the number. -/
def closedEarly : List Act :=
  [.open true 115200, .openTty true, .setup true, .setup true, .setup true, .setup true, .setup true, .close,
    .otherOpen]

theorem closedEarly_not_owned : ∃ s', run step start (closedEarly ++ [.destroy]) = some s' ∧ ¬Owned s' := by
  obtain ⟨s', h⟩ : ∃ s', run step start (closedEarly ++ [.destroy]) = some s' := ⟨_, rfl⟩
  exact ⟨s', h, not_owned_of_destroyed constructed_start h⟩

/-- The first `open` closes the standard input; the destructor closes the descriptor of the other part. -/
theorem others_descriptor_closed :
    ¬∀ s as s', Constructed s → run step s (as ++ [.destroy]) = some s' → Owned s' := by
  intro h
  exact absurd (h start closedEarly _ constructed_start rfl) (by decide)

/-! ## An open port -/

/-- The steps after which the port still has its descriptor. -/
def Careful : State → Act → Prop
  | _, .close | _, .destroy | _, .openTty false | _, .setup false => False
  | _, _ => True

/-- A port that has used its own descriptors only, and has one unless it is about to open it. -/
structure Open (s : State) : Prop where
  owned : Owned s
  owns : s.pc ≠ .opening → s.owns = true

/-- A descriptor that another part of the process opens or closes is not that of the port. -/
theorem owns_table {s : State} {t : Table Owner}
    (ht : ∀ n, s.table.owner n = some .port → t.owner n = some .port) (h : s.owns = true) :
    ({ s with table := t } : State).owns = true := by
  simp only [State.owns, decide_eq_true_eq] at h ⊢
  exact ⟨h.1, ht _ h.2⟩

/-- A system call on the port's own descriptor. -/
theorem owned_syscall {s s' : State} {name : Name} (hs : Owned s) (h : s.owns = true)
    (hlog : s'.log = (s.syscall name).log) : Owned s' := by
  intro c hc
  rw [hlog] at hc
  rcases List.mem_append.mp hc with hc | hc
  · exact hs c hc
  · rw [List.mem_singleton.mp hc]
    exact h

theorem Open.step {s s' : State} {a : Act} (hs : Open s) (ha : Careful s a) (h : step s a = some s') : Open s' := by
  cases step_effect h with
  | idle hpc hpc' => exact ⟨hs.owned, fun _ => hs.owns (by rw [hpc]; decide)⟩
  | setup hpc hpc' => exact ⟨hs.owned, fun _ => hs.owns (by rw [hpc]; exact fun e => by cases e)⟩
  | beginOpen hpc =>
    exact ⟨owned_syscall hs.owned (hs.owns (by rw [hpc]; decide)) rfl, fun hne => absurd rfl hne⟩
  | setupFails hpc => exact ha.elim
  | opens hpc =>
    refine ⟨hs.owned, fun _ => ?_⟩
    simp [State.owns, Table.owner_openLowest]
  | openFails hpc => exact ha.elim
  | transfer hpc =>
    have howns := hs.owns (by rcases hpc with hpc | hpc <;> rw [hpc] <;> decide)
    exact ⟨owned_syscall hs.owned howns rfl, fun _ => howns⟩
  | close hpc => exact ha.elim
  | destroy hpc => exact ha.elim
  | otherOpen => exact ⟨hs.owned, fun hne => owns_table (fun _ => Table.owner_openLowest_of_owned) (hs.owns hne)⟩
  | otherClose hother =>
    refine ⟨hs.owned, fun hne => owns_table (fun n hn => ?_) (hs.owns hne)⟩
    rw [Table.owner_close, if_neg, hn]
    rintro rfl
    rw [hother] at hn
    cases hn

/-- **A careful run from an open port to its destruction keeps to the port's descriptors.** -/
theorem owned_of_careful {s s' : State} {as : List Act} (hs : Open s) (ha : Along step Careful s as)
    (h : run step s (as ++ [.destroy]) = some s') : Owned s' := by
  obtain ⟨t, ht, hlast⟩ := run_concat.mp h
  have hopen : Open t := run_inv (fun _ _ _ hs ha h => hs.step ha h) hs ha ht
  cases hpc : t.pc with
  | idle =>
    have howns := hopen.owns (by rw [hpc]; decide)
    simp only [step, hpc, if_true, Option.some.injEq] at hlast
    subst hlast
    exact owned_syscall hopen.owned howns rfl
  | opening => simp [step, hpc] at hlast
  | setup k => simp [step, hpc] at hlast
  | reading => simp [step, hpc] at hlast
  | destroyed => simp [step, hpc] at hlast

end KaonicComm.SerialPort
