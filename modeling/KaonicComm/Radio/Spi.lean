import KaonicComm.Error
import KaonicComm.Lib.Descriptors
import KaonicComm.Lib.Runs

/-!
# `spi`: the bus between the driver and the chip

`rf215_radio` gives the driver three callbacks that go over SPI: `write`, `read` and `wait_irq`. Each makes one message
of two transfers, the register in big-endian order and the bytes. `spi` stores a number, `_device_fd`: `open` assigns
it, and closes it without forgetting it when one of the calls that set up the device fails; the callbacks use it as it
is. `init` calls `open` and does not return its error, so the callbacks are used after an `open` that failed, too.

In every run the messages are those that the callbacks were called for, one for each and in their order, and all of
them go to the device that was opened for the radio, with its settings, exactly when the last call before each of them
was an `open` that succeeded (`bus_carries`). A callback reports a success exactly when it sent a message that was
accepted (`succeeds_iff`).
-/

namespace KaonicComm.Spi

open Runs Descriptors

/-! ## Messages -/

/-- `spi_config`. -/
structure SpiConfig where
  dev : String := ""
  speed : UInt32 := 1000000
  mode : UInt8 := 0
  bitsPerWord : UInt8 := 8
  deriving DecidableEq, Repr

/-- `spi_ioc_transfer`; `rxBuf` is whether there is a buffer for what is received. -/
structure Transfer where
  txBuf : Option (List UInt8)
  rxBuf : Bool
  len : UInt32
  speedHz : UInt32
  bitsPerWord : UInt8
  deriving DecidableEq, Repr

/-- `htobe16`, in memory. -/
def htobe16 (x : UInt16) : List UInt8 := [UInt8.ofNat (x.toNat / 256), UInt8.ofNat (x.toNat % 256)]

/-- The first transfer of a message. -/
def SpiConfig.header (config : SpiConfig) (addr : UInt16) : Transfer where
  txBuf := some (htobe16 addr)
  rxBuf := false
  len := 2
  speedHz := config.speed
  bitsPerWord := config.bitsPerWord

/-- The message of `write_buffer`. -/
def SpiConfig.writeMessage (config : SpiConfig) (addr : UInt16) (buffer : List UInt8) : List Transfer :=
  [config.header addr,
    { txBuf := some buffer, rxBuf := false, len := UInt32.ofNat buffer.length
      speedHz := config.speed, bitsPerWord := config.bitsPerWord }]

/-- The message of `read_buffer`. -/
def SpiConfig.readMessage (config : SpiConfig) (addr : UInt16) (length : Nat) : List Transfer :=
  [config.header addr,
    { txBuf := none, rxBuf := true, len := UInt32.ofNat length
      speedHz := config.speed, bitsPerWord := config.bitsPerWord }]

/-- An access to registers: the bytes for a register and those after it, or the number of bytes that are read. -/
inductive Access where
  | write (reg : UInt16) (bytes : List UInt8)
  | read (reg : UInt16) (length : Nat)
  deriving DecidableEq, Repr

/-- What a message says to the chip: a register in big-endian order, and what is sent or read behind it. -/
def access : List Transfer → Option Access
  | [⟨some [hi, lo], false, 2, _, _⟩, ⟨txBuf, rxBuf, len, _, _⟩] =>
    let reg := UInt16.ofNat (hi.toNat * 256 + lo.toNat)
    match txBuf, rxBuf with
    | some bytes, false => some (.write reg (bytes.take len.toNat))
    | none, true => some (.read reg len.toNat)
    | _, _ => none
  | _ => none

theorem ofNat_htobe16 (x : UInt16) :
    UInt16.ofNat ((UInt8.ofNat (x.toNat / 256)).toNat * 256 + (UInt8.ofNat (x.toNat % 256)).toNat) = x := by
  have hx := x.toNat_lt
  apply UInt16.toNat_inj.mp
  rw [UInt16.toNat_ofNat', UInt8.toNat_ofNat', UInt8.toNat_ofNat']
  omega

/-- The transfers hold the lowest 32 bits of a length. -/
theorem access_writeMessage (config : SpiConfig) (addr : UInt16) (buffer : List UInt8) :
    access (config.writeMessage addr buffer) = some (.write addr (buffer.take (buffer.length % 2 ^ 32))) := by
  simp only [SpiConfig.writeMessage, SpiConfig.header, htobe16, access, ofNat_htobe16, UInt32.toNat_ofNat']

theorem access_readMessage (config : SpiConfig) (addr : UInt16) (length : Nat) :
    access (config.readMessage addr length) = some (.read addr (length % 2 ^ 32)) := by
  simp only [SpiConfig.readMessage, SpiConfig.header, htobe16, access, ofNat_htobe16, UInt32.toNat_ofNat']

/-! ## The bus -/

/-- Who opened a descriptor: the radio, with a configuration, or another part of the process. -/
inductive Owner where
  | spi (config : SpiConfig)
  | other
  deriving DecidableEq, Repr

/-- A message that was sent, with the descriptor, and whose it was (ghost). -/
structure Message where
  fd : Int
  device : Option Owner
  xfer : List Transfer
  deriving DecidableEq, Repr

/-- The message went to a device that was opened for the radio, with the settings that it was opened with. -/
def Message.Proper (m : Message) : Prop :=
  ∃ config, m.device = some (.spi config) ∧
    ∀ t ∈ m.xfer, t.speedHz = config.speed ∧ t.bitsPerWord = config.bitsPerWord

/-- How a call of `open` or `close` ended. -/
inductive Event where
  | opened (err : ErrorCode)
  | closed
  deriving DecidableEq, Repr

/-- Where a call stands. -/
inductive Pc where
  | idle
  /-- In `open` for a configuration, before the `ioctl` number `k`. -/
  | setup (config : SpiConfig) (k : Nat)
  deriving DecidableEq, Repr

/-- The members of `spi`, the descriptors of the process, and the calls and messages so far (ghost). -/
structure State where
  fd : Int
  config : SpiConfig := {}
  pc : Pc := .idle
  table : Table Owner
  events : List Event := []
  sent : List Message := []
  deriving DecidableEq, Repr

namespace State

/-- Who the stored number belongs to. -/
def device (s : State) : Option Owner := if 0 ≤ s.fd then s.table.owner s.fd.toNat else none

/-- The last call of `open` or `close` was an `open` that succeeded. -/
def Up (s : State) : Prop := s.events.getLast? = some (.opened .ok)

instance (s : State) : Decidable s.Up := inferInstanceAs (Decidable (_ = _))

/-- `ioctl(_device_fd, SPI_IOC_MESSAGE(2), xfer)`. -/
def message (s : State) (xfer : List Transfer) : State := { s with sent := s.sent ++ [⟨s.fd, s.device, xfer⟩] }

/-- `spi::write_buffer`; `retv` is what `ioctl` returns. -/
def writeBuffer (s : State) (addr : UInt16) (buffer : Option (List UInt8)) (retv : Int) : State × ErrorCode :=
  match buffer with
  | none => (s, .invalidArg)
  | some bytes =>
    if bytes.length = 0 then (s, .invalidArg)
    else
      let s := s.message (s.config.writeMessage addr bytes)
      if retv < 0 then (s, .fail) else (s, .ok)

/-- `spi::read_buffer`; `buffer` is whether there is one. -/
def readBuffer (s : State) (addr : UInt16) (buffer : Bool) (length : Nat) (retv : Int) : State × ErrorCode :=
  if !buffer || length = 0 then (s, .invalidArg)
  else
    let s := s.message (s.config.readMessage addr length)
    if retv < 0 then (s, .fail) else (s, .ok)

/-- `rf215_radio::write`. -/
def write (s : State) (reg : UInt16) (data : Option (List UInt8)) (retv : Int) : State × Int :=
  let (s, err) := s.writeBuffer reg data retv
  if err ≠ .ok then (s, -1) else (s, 0)

/-- `rf215_radio::read`. -/
def read (s : State) (reg : UInt16) (data : Bool) (len : Nat) (retv : Int) : State × Int :=
  let (s, err) := s.readBuffer reg data len retv
  if err ≠ .ok then (s, -1) else (s, 0)

/-- `rf215_radio::wait_irq`; `hasIrq` is whether there was an edge, `irqSize` is `sizeof(rf215_irq_data_t)`. -/
def waitIrq (irqSize : Nat) (s : State) (hasIrq : Bool) (retv : Int) : State × Bool :=
  if hasIrq then
    let (s, err) := s.readBuffer 0x0000 true irqSize retv
    if err ≠ .ok then (s, false) else (s, true)
  else (s, false)

/-- `::close(_device_fd)`. -/
def closeFd (s : State) : State := { s with table := if 0 ≤ s.fd then s.table.close s.fd.toNat else s.table }

end State

/-- The calls that set up the device: `SPI_IOC_WR_MODE`, `SPI_IOC_WR_BITS_PER_WORD` and `SPI_IOC_WR_MAX_SPEED_HZ`. -/
def setupCalls : Nat := 3

/-- One step: the next part of `open`, a call of one of the others, or a step of the rest of the process. -/
inductive Act where
  /-- `open`, up to the result of `::open`. -/
  | open (config : SpiConfig) (ok : Bool)
  /-- The next call that sets up the device. -/
  | ioctl (ok : Bool)
  | close
  | write (reg : UInt16) (data : Option (List UInt8)) (retv : Int)
  | read (reg : UInt16) (data : Bool) (len : Nat) (retv : Int)
  | waitIrq (hasIrq : Bool) (retv : Int)
  /-- Another part of the process opens a descriptor. -/
  | otherOpen
  /-- Another part of the process closes one of its own. -/
  | otherClose (n : Nat)
  deriving DecidableEq, Repr

/-- What a callback asks for, if it sends a message. -/
def Act.asks (irqSize : Nat) : Act → Option Access
  | .write reg (some bytes) _ =>
    if bytes.length = 0 then none else some (.write reg (bytes.take (bytes.length % 2 ^ 32)))
  | .read reg true len _ => if len = 0 then none else some (.read reg (len % 2 ^ 32))
  | .waitIrq true _ => if irqSize = 0 then none else some (.read 0x0000 (irqSize % 2 ^ 32))
  | _ => none

section

variable (irqSize : Nat)

def step (s : State) : Act → Option State
  | .open config ok =>
    if s.pc = .idle then
      if ok then
        some { s with fd := s.table.lowestFree, table := s.table.openLowest (.spi config), pc := .setup config 0 }
      else some { s with fd := -1, events := s.events ++ [.opened .fail] }
    else none
  | .ioctl ok =>
    match s.pc with
    | .setup config k =>
      if !ok then some { s.closeFd with pc := .idle, events := s.events ++ [.opened .fail] }
      else if k + 1 < setupCalls then some { s with pc := .setup config (k + 1) }
      else some { s with config, pc := .idle, events := s.events ++ [.opened .ok] }
    | .idle => none
  | .close => if s.pc = .idle then some { s.closeFd with events := s.events ++ [.closed] } else none
  | .write reg data retv => if s.pc = .idle then some (s.write reg data retv).1 else none
  | .read reg data len retv => if s.pc = .idle then some (s.read reg data len retv).1 else none
  | .waitIrq hasIrq retv => if s.pc = .idle then some (s.waitIrq irqSize hasIrq retv).1 else none
  | .otherOpen => some { s with table := s.table.openLowest .other }
  | .otherClose n => if s.table.owner n = some .other then some { s with table := s.table.close n } else none

end

/-! ## What a step does -/

/-- The message `m` is what a callback in the state `s` asks for. -/
structure Says (s : State) (m : Message) (x : Access) : Prop where
  device : m.device = s.device
  access : access m.xfer = some x
  settings : ∀ t ∈ m.xfer, t.speedHz = s.config.speed ∧ t.bitsPerWord = s.config.bitsPerWord
  nonempty : m.xfer ≠ []

/-- The effect of a step. -/
inductive Effect (irqSize : Nat) (s : State) : Act → State → Prop where
  | opens {config : SpiConfig} : s.pc = .idle → Effect irqSize s (.open config true)
      { s with fd := s.table.lowestFree, table := s.table.openLowest (.spi config), pc := .setup config 0 }
  | openFails {config : SpiConfig} : s.pc = .idle → Effect irqSize s (.open config false)
      { s with fd := -1, events := s.events ++ [.opened .fail] }
  | setup {config : SpiConfig} {k : Nat} : s.pc = .setup config k →
      Effect irqSize s (.ioctl true) { s with pc := .setup config (k + 1) }
  | setupDone {config : SpiConfig} {k : Nat} : s.pc = .setup config k →
      Effect irqSize s (.ioctl true) { s with config, pc := .idle, events := s.events ++ [.opened .ok] }
  | setupFails {config : SpiConfig} {k : Nat} : s.pc = .setup config k →
      Effect irqSize s (.ioctl false) { s.closeFd with pc := .idle, events := s.events ++ [.opened .fail] }
  | close : s.pc = .idle → Effect irqSize s .close { s.closeFd with events := s.events ++ [.closed] }
  /-- A callback sends a message. -/
  | message {a : Act} {m : Message} {x : Access} : s.pc = .idle → a.asks irqSize = some x → Says s m x →
      Effect irqSize s a { s with sent := s.sent ++ [m] }
  /-- A callback without a buffer, without a byte, or without an interrupt. -/
  | silent {a : Act} : s.pc = .idle → a.asks irqSize = none → Effect irqSize s a s
  | otherOpen : Effect irqSize s .otherOpen { s with table := s.table.openLowest .other }
  | otherClose {n : Nat} : s.table.owner n = some .other →
      Effect irqSize s (.otherClose n) { s with table := s.table.close n }

theorem State.write_fst (s : State) (reg : UInt16) (data : Option (List UInt8)) (retv : Int) :
    (s.write reg data retv).1 = (s.writeBuffer reg data retv).1 := by
  unfold State.write
  dsimp only
  split <;> rfl

theorem State.read_fst (s : State) (reg : UInt16) (data : Bool) (len : Nat) (retv : Int) :
    (s.read reg data len retv).1 = (s.readBuffer reg data len retv).1 := by
  unfold State.read
  dsimp only
  split <;> rfl

theorem State.waitIrq_fst (irqSize : Nat) (s : State) (retv : Int) :
    (s.waitIrq irqSize true retv).1 = (s.readBuffer 0x0000 true irqSize retv).1 := by
  unfold State.waitIrq
  rw [if_pos rfl]
  dsimp only
  split <;> rfl

theorem says_write (s : State) (addr : UInt16) (bytes : List UInt8) :
    Says s ⟨s.fd, s.device, s.config.writeMessage addr bytes⟩ (.write addr (bytes.take (bytes.length % 2 ^ 32))) := by
  refine ⟨rfl, access_writeMessage _ _ _, fun t ht => ?_, List.cons_ne_nil _ _⟩
  rcases List.mem_pair.mp ht with rfl | rfl <;> exact ⟨rfl, rfl⟩

theorem says_read (s : State) (addr : UInt16) (length : Nat) :
    Says s ⟨s.fd, s.device, s.config.readMessage addr length⟩ (.read addr (length % 2 ^ 32)) := by
  refine ⟨rfl, access_readMessage _ _ _, fun t ht => ?_, List.cons_ne_nil _ _⟩
  rcases List.mem_pair.mp ht with rfl | rfl <;> exact ⟨rfl, rfl⟩

theorem State.readBuffer_fst (s : State) (addr : UInt16) {length : Nat} (h : length ≠ 0) (retv : Int) :
    (s.readBuffer addr true length retv).1 = s.message (s.config.readMessage addr length) := by
  simp only [State.readBuffer, Bool.not_true, Bool.false_or, decide_eq_true_eq, if_neg h]
  split <;> rfl

variable {irqSize : Nat}

theorem effect_write {s : State} (hpc : s.pc = .idle) (reg : UInt16) (data : Option (List UInt8)) (retv : Int) :
    Effect irqSize s (.write reg data retv) (s.write reg data retv).1 := by
  rw [State.write_fst]
  cases data with
  | none => exact .silent hpc rfl
  | some bytes =>
    by_cases hlen : bytes.length = 0
    · rw [State.writeBuffer, if_pos hlen]
      exact .silent hpc (if_pos hlen)
    · have hfst : (s.writeBuffer reg (some bytes) retv).1 = s.message (s.config.writeMessage reg bytes) := by
        simp only [State.writeBuffer, if_neg hlen]
        split <;> rfl
      rw [hfst]
      exact .message hpc (if_neg hlen) (says_write s reg bytes)

theorem effect_read {s : State} (hpc : s.pc = .idle) (reg : UInt16) (data : Bool) (len : Nat) (retv : Int) :
    Effect irqSize s (.read reg data len retv) (s.read reg data len retv).1 := by
  rw [State.read_fst]
  cases data with
  | false => exact .silent hpc rfl
  | true =>
    by_cases hlen : len = 0
    · subst hlen
      exact .silent hpc rfl
    · rw [State.readBuffer_fst s reg hlen]
      exact .message hpc (if_neg hlen) (says_read s reg len)

theorem effect_waitIrq {s : State} (hpc : s.pc = .idle) (hasIrq : Bool) (retv : Int) :
    Effect irqSize s (.waitIrq hasIrq retv) (s.waitIrq irqSize hasIrq retv).1 := by
  cases hasIrq with
  | false => exact .silent hpc rfl
  | true =>
    rw [State.waitIrq_fst]
    by_cases hlen : irqSize = 0
    · subst hlen
      exact .silent hpc rfl
    · rw [State.readBuffer_fst s 0x0000 hlen]
      exact .message hpc (if_neg hlen) (says_read s 0x0000 irqSize)

theorem step_effect {s s' : State} {a : Act} (h : step irqSize s a = some s') : Effect irqSize s a s' := by
  cases a with
  | «open» config ok =>
    simp only [step] at h
    split at h
    · rename_i hpc
      cases ok with
      | true =>
        cases h
        exact .opens hpc
      | false =>
        cases h
        exact .openFails hpc
    · cases h
  | ioctl ok =>
    simp only [step] at h
    split at h
    · rename_i config k hpc
      cases ok with
      | true =>
        simp only [Bool.not_true, Bool.false_eq_true, if_false] at h
        split at h
        · cases h
          exact .setup hpc
        · cases h
          exact .setupDone hpc
      | false =>
        cases h
        exact .setupFails hpc
    · cases h
  | close =>
    simp only [step] at h
    split at h
    · rename_i hpc
      cases h
      exact .close hpc
    · cases h
  | write reg data retv =>
    simp only [step] at h
    split at h
    · rename_i hpc
      cases h
      exact effect_write hpc reg data retv
    · cases h
  | read reg data len retv =>
    simp only [step] at h
    split at h
    · rename_i hpc
      cases h
      exact effect_read hpc reg data len retv
    · cases h
  | waitIrq hasIrq retv =>
    simp only [step] at h
    split at h
    · rename_i hpc
      cases h
      exact effect_waitIrq hpc hasIrq retv
    · cases h
  | otherOpen =>
    cases h
    exact .otherOpen
  | otherClose n =>
    simp only [step] at h
    split at h
    · rename_i hn
      cases h
      exact .otherClose hn
    · cases h

/-! ## Whose the descriptor is -/

/-- A radio that has just been constructed: nothing was opened or sent, and the number is what the memory held. -/
structure Constructed (s : State) : Prop where
  idle : s.pc = .idle
  events : s.events = []
  sent : s.sent = []
  unowned : ∀ n config, s.table.owner n ≠ some (.spi config)

/-- The stored number is that of the radio's device, set up as `_config` says, after an `open` that succeeded, and not
after any other call of `open` or `close`; within `open` it is that of the device that is being set up. -/
structure Inv (s : State) : Prop where
  up : s.pc = .idle → s.Up → s.device = some (.spi s.config)
  down : s.pc = .idle → ¬s.Up → ∀ config, s.device ≠ some (.spi config)
  setup : ∀ config k, s.pc = .setup config k → s.device = some (.spi config)

theorem Constructed.inv {s : State} (hs : Constructed s) : Inv s := by
  refine ⟨fun _ hup => ?_, fun _ _ config h => ?_, fun config k hpc => ?_⟩
  · simp [State.Up, hs.events] at hup
  · unfold State.device at h
    split at h
    · exact hs.unowned _ config h
    · cases h
  · rw [hs.idle] at hpc
    cases hpc

/-- The events after a call of `open` or `close`. -/
theorem up_append {es : List Event} {e : Event} : (es ++ [e]).getLast? = some (.opened .ok) ↔ e = .opened .ok := by
  rw [List.getLast?_concat, Option.some.injEq]

/-- After `::close` the number is nobody's. -/
theorem State.device_closeFd (s : State) : s.closeFd.device = none := by
  unfold State.closeFd State.device
  by_cases hfd : 0 ≤ s.fd
  · simp only [hfd, if_true]
    rw [Table.owner_close, if_pos rfl]
  · simp only [hfd, if_false]

/-- Where another part of the process opens or closes a descriptor of its own, that of a device stays. -/
theorem device_table {s : State} {t : Table Owner}
    (ht : ∀ n config, t.owner n = some (.spi config) ↔ s.table.owner n = some (.spi config)) (config : SpiConfig) :
    ({ s with table := t } : State).device = some (.spi config) ↔ s.device = some (.spi config) := by
  unfold State.device
  by_cases hfd : 0 ≤ s.fd
  · simp only [hfd, if_true]
    exact ht _ _
  · simp only [hfd, if_false]

theorem Inv.of_table {s : State} (hs : Inv s) {t : Table Owner}
    (ht : ∀ n config, t.owner n = some (.spi config) ↔ s.table.owner n = some (.spi config)) :
    Inv { s with table := t } where
  up hpc hup := (device_table ht _).mpr (hs.up hpc hup)
  down hpc hup config h := hs.down hpc hup config ((device_table ht config).mp h)
  setup config k hpc := (device_table ht config).mpr (hs.setup config k hpc)

theorem Inv.step {s s' : State} {a : Act} (hs : Inv s) (h : step irqSize s a = some s') : Inv s' := by
  cases step_effect h with
  | opens hpc =>
    refine ⟨fun hpc => (by cases hpc), fun hpc => (by cases hpc), fun config k hpc => ?_⟩
    cases hpc
    simp [State.device, Table.owner_openLowest]
  | openFails hpc =>
    refine ⟨fun _ hup => ?_, fun _ _ config => ?_, fun config k hpc' => ?_⟩
    · cases up_append.mp hup
    · simp [State.device]
    · rw [show s.pc = _ from hpc'] at hpc
      cases hpc
  | setup hpc =>
    refine ⟨fun hpc => (by cases hpc), fun hpc => (by cases hpc), fun config k hpc' => ?_⟩
    cases hpc'
    exact hs.setup _ _ hpc
  | setupDone hpc =>
    refine ⟨fun _ _ => hs.setup _ _ hpc, fun _ hdown => ?_, fun config k hpc => by cases hpc⟩
    exact absurd (up_append.mpr rfl) hdown
  | setupFails hpc =>
    refine ⟨fun _ hup => ?_, fun _ _ config h => ?_, fun config k hpc => by cases hpc⟩
    · cases up_append.mp hup
    · change s.closeFd.device = _ at h
      rw [s.device_closeFd] at h
      cases h
  | close hpc =>
    refine ⟨fun _ hup => ?_, fun _ _ config h => ?_, fun config k hpc' => ?_⟩
    · cases up_append.mp hup
    · change s.closeFd.device = _ at h
      rw [s.device_closeFd] at h
      cases h
    · rw [show s.pc = _ from hpc'] at hpc
      cases hpc
  | message hpc hasks hm => exact ⟨hs.up, hs.down, hs.setup⟩
  | silent hpc hasks => exact hs
  | otherOpen =>
    refine hs.of_table fun n config => ?_
    constructor
    · intro h
      rw [Table.owner_openLowest] at h
      split at h
      · cases h
      · exact h
    · exact Table.owner_openLowest_of_owned
  | otherClose hother =>
    refine hs.of_table fun n config => ?_
    rw [Table.owner_close]
    split
    · rename_i hn
      subst hn
      rw [hother]
      exact ⟨fun h => (by cases h), fun h => (by cases h)⟩
    · exact Iff.rfl

/-! ## The messages of a run -/

/-- All messages went to the device of the radio. -/
def AllProper (s : State) : Prop := ∀ m ∈ s.sent, m.Proper

/-- A message goes to the device of the radio exactly when that was opened. -/
theorem Says.proper_iff {s : State} {m : Message} {x : Access} (hm : Says s m x) (hs : Inv s) (hpc : s.pc = .idle) :
    m.Proper ↔ s.Up := by
  constructor
  · rintro ⟨config, hdevice, -⟩
    by_contra hdown
    exact hs.down hpc hdown config (hm.device ▸ hdevice)
  · intro hup
    exact ⟨s.config, hm.device.trans (hs.up hpc hup), hm.settings⟩

theorem allProper_step {s s' : State} {a : Act} (hs : Inv s) (h : step irqSize s a = some s') :
    AllProper s' ↔ AllProper s ∧ (a.asks irqSize ≠ none → s.Up) := by
  cases step_effect h with
  | message hpc hasks hm =>
    rw [hasks, ← hm.proper_iff hs hpc]
    simp only [AllProper, List.forall_mem_append, List.forall_mem_singleton, ne_eq, reduceCtorEq, not_false_eq_true,
      forall_const]
  | silent hpc hasks => exact (and_iff_left fun hne => absurd hasks hne).symm
  | _ => exact (and_iff_left fun hne => absurd rfl hne).symm

/-- The messages that a step sends. -/
theorem sent_step {s s' : State} {a : Act} (h : step irqSize s a = some s') :
    s'.sent.map (fun m => access m.xfer) =
      s.sent.map (fun m => access m.xfer) ++ (a.asks irqSize).toList.map some := by
  cases step_effect h with
  | message hpc hasks hm => rw [hasks, List.map_append, List.map_singleton, hm.access]; rfl
  | silent hpc hasks => rw [hasks]; exact (List.append_nil _).symm
  | _ => exact (List.append_nil _).symm

/-- **The bus carries what the callbacks ask for, in their order, and all of it goes to the device of the radio exactly
when the last call of `open` or `close` before each message was an `open` that succeeded.** -/
theorem bus_carries {s s' : State} {as : List Act} (hs : Constructed s) (h : run (step irqSize) s as = some s') :
    s'.sent.map (fun m => access m.xfer) = (as.filterMap (Act.asks irqSize)).map some ∧
      (AllProper s' ↔ Along (step irqSize) (fun s a => a.asks irqSize ≠ none → s.Up) s as) := by
  constructor
  · rw [run_log (fun s a s' (h : step irqSize s a = some s') => sent_step h) h, hs.sent, List.map_nil, List.nil_append,
      List.filterMap_eq_flatMap_toList, List.map_flatMap]
  · have hempty : AllProper s := by
      rw [AllProper, hs.sent]
      exact fun m hm => absurd hm List.not_mem_nil
    rw [run_iff (fun _ _ _ hs => hs.step) (fun _ _ _ hs => allProper_step hs) hs.inv h, and_iff_right hempty]

/-- A radio in a process with its three standard descriptors. -/
def start : State where
  fd := 0
  table := ⟨[(2, .other), (1, .other), (0, .other)]⟩

theorem constructed_start : Constructed start := by
  refine ⟨rfl, rfl, rfl, fun n config => ?_⟩
  simp only [start, Table.owner_cons]
  -- the three are those of the process, and no other is open
  split
  · exact fun e => by cases e
  split
  · exact fun e => by cases e
  split
  · exact fun e => by cases e
  · exact fun e => by cases e

/-- The device is opened, a register is written, and an interrupt is read; another descriptor is opened in between. -/
def opened : List Act :=
  [.open { dev := "/dev/spidev6.0", speed := 5000000 } true, .ioctl true, .ioctl true, .otherOpen, .ioctl true,
    .write 0x0102 (some [0xAB]) 0, .waitIrq true 0]

theorem bus_carries_opened : ∃ s', run (step 4) start opened = some s' ∧
    s'.sent.map (fun m => access m.xfer) = [some (.write 0x0102 [0xAB]), some (.read 0 4)] ∧ AllProper s' :=
  have h : run (step 4) start opened = some ((run (step 4) start opened).get rfl) := rfl
  have hcarries := bus_carries constructed_start h
  ⟨_, h, hcarries.1, hcarries.2.mpr (by decide)⟩

/-- The last call of the setup fails, another part of the process opens a descriptor, and the chip is written to: the
message goes to that descriptor. -/
example : ((run (step 4) start [.open {} true, .ioctl true, .ioctl true, .ioctl false, .otherOpen,
    .write 0x0102 (some [0xAB]) 0]).map fun s => s.sent.map Message.device) = some [some .other] := by decide

/-! ## Results -/

/-- The driver is told that a callback succeeded. -/
def Act.succeeds (irqSize : Nat) (s : State) : Act → Bool
  | .write reg data retv => (s.write reg data retv).2 = 0
  | .read reg data len retv => (s.read reg data len retv).2 = 0
  | .waitIrq hasIrq retv => (s.waitIrq irqSize hasIrq retv).2
  | _ => false

/-- What `ioctl` returns. -/
def Act.retv : Act → Int
  | .write _ _ retv | .read _ _ _ retv | .waitIrq _ retv => retv
  | _ => 0

theorem State.readBuffer_snd_eq_ok_iff (s : State) (addr : UInt16) (buffer : Bool) (length : Nat) (retv : Int) :
    (s.readBuffer addr buffer length retv).2 = .ok ↔ buffer = true ∧ length ≠ 0 ∧ 0 ≤ retv := by
  cases buffer with
  | false => simp [State.readBuffer]
  | true =>
    by_cases hlen : length = 0
    · simp [State.readBuffer, hlen]
    · by_cases hretv : retv < 0
      · simp [State.readBuffer, hlen, hretv]
      · simp [State.readBuffer, hlen, hretv, Int.not_lt.mp hretv]

theorem State.writeBuffer_snd_eq_ok_iff (s : State) (addr : UInt16) (buffer : Option (List UInt8)) (retv : Int) :
    (s.writeBuffer addr buffer retv).2 = .ok ↔ (∃ bytes, buffer = some bytes ∧ bytes.length ≠ 0) ∧ 0 ≤ retv := by
  cases buffer with
  | none => simp [State.writeBuffer]
  | some bytes =>
    by_cases hlen : bytes = []
    · simp [State.writeBuffer, hlen]
    · by_cases hretv : retv < 0
      · simp [State.writeBuffer, hlen, hretv]
      · simp [State.writeBuffer, hlen, hretv, Int.not_lt.mp hretv]

/-- **A callback succeeds exactly when it sent a message that `ioctl` accepted.** -/
theorem succeeds_iff (s : State) (a : Act) : a.succeeds irqSize s = true ↔ a.asks irqSize ≠ none ∧ 0 ≤ a.retv := by
  cases a with
  | write reg data retv =>
    have hzero : (s.write reg data retv).2 = 0 ↔ (s.writeBuffer reg data retv).2 = .ok := by
      unfold State.write
      dsimp only
      split <;> simp_all
    rw [Act.succeeds, decide_eq_true_eq, hzero, s.writeBuffer_snd_eq_ok_iff]
    cases data with
    | none => simp [Act.asks]
    | some bytes => by_cases hlen : bytes = [] <;> simp [Act.asks, Act.retv, hlen]
  | read reg data len retv =>
    have hzero : (s.read reg data len retv).2 = 0 ↔ (s.readBuffer reg data len retv).2 = .ok := by
      unfold State.read
      dsimp only
      split <;> simp_all
    rw [Act.succeeds, decide_eq_true_eq, hzero, s.readBuffer_snd_eq_ok_iff]
    cases data with
    | false => simp [Act.asks]
    | true => by_cases hlen : len = 0 <;> simp [Act.asks, Act.retv, hlen]
  | waitIrq hasIrq retv =>
    cases hasIrq with
    | false => simp [Act.succeeds, State.waitIrq, Act.asks]
    | true =>
      have htrue : (s.waitIrq irqSize true retv).2 = true ↔ (s.readBuffer 0x0000 true irqSize retv).2 = .ok := by
        unfold State.waitIrq
        rw [if_pos rfl]
        dsimp only
        split <;> simp_all
      rw [Act.succeeds, htrue, s.readBuffer_snd_eq_ok_iff]
      by_cases hlen : irqSize = 0 <;> simp [Act.asks, Act.retv, hlen]
  | _ => exact iff_of_false Bool.false_ne_true fun h => h.1 rfl

end KaonicComm.Spi
