import KaonicComm.Frame
import KaonicComm.Lib.Cell
import KaonicComm.Lib.Runs

/-!
# `grpc_service::Transmit` in several threads

Each RPC packs its frame into the member `_tx_frame` (`pack`), enters `radio_service::transmit` and there, for a valid
module, `network::transmit`: it takes the mutex of the network, releases it and sleeps while `rfnet_is_tx_free` is not
zero, and calls `rfnet_send` with `_tx_frame` under the mutex. The mutex is that of one network; nothing guards
`_tx_frame`, which is a scratch cell shared by all RPCs (`txCell`).

While every RPC packs under the condition of `Cell.sound_put` (`Undisturbed`), every RPC sends its own bytes on its
own network (`transmit_sends_own`); otherwise one request's bytes can go out for another (`transmit_mixes_payloads`).
-/

namespace KaonicComm.Transmit

open Runs

/-- The status of an RPC. -/
inductive Status where
  | ok
  | failedPrecondition
  | internal
  deriving DecidableEq, Repr

/-- Where a `Transmit` RPC stands. -/
inductive Pc where
  /-- Before `grpc_buf_pack`. -/
  | called
  /-- In `radio_service::transmit`, with a reference to `_tx_frame`. -/
  | packed
  /-- In `network::transmit`, before the mutex is taken for the first time. -/
  | locking
  /-- With the mutex, at the head of the wait loop. -/
  | checking
  /-- In the wait loop, without the mutex. -/
  | sleeping
  /-- With the mutex, after the wait loop. -/
  | sending
  | returned (status : Status)
  deriving DecidableEq, Repr

/-- Who holds the mutex of a network. -/
inductive Holder where
  | rpc (i : Nat)
  /-- The update thread, in `network::update`. -/
  | worker
  deriving DecidableEq, Repr

/-- A call of `rfnet_send`, with its result. The RPC that made it is ghost. -/
structure Send where
  rpc : Nat
  network : UInt8
  bytes : List UInt8
  rc : Int
  deriving DecidableEq, Repr

/-- The members of the service and its networks that `Transmit` uses, the RPCs by number, and the history (ghost). -/
structure State where
  txFrame : List UInt8
  pc : Nat → Pc
  /-- The mutex of each network. -/
  mutex : UInt8 → Option Holder
  sends : List Send

/-- Before any RPC. -/
def init : State where
  txFrame := []
  pc := fun _ => .called
  mutex := fun _ => none
  sends := []

/-- One atomic step; packing and sending `_tx_frame`, which nothing guards, are one step each. The results of
`rfnet_is_tx_free` and `rfnet_send` are in the action. -/
inductive Act where
  /-- RPC `i` checks `_radio_service` and runs `grpc_buf_pack`. -/
  | pack (i : Nat)
  /-- `radio_service::transmit` checks the module index. -/
  | dispatch (i : Nat)
  /-- `network::transmit` takes the mutex. -/
  | lock (i : Nat)
  /-- `rfnet_is_tx_free` is not zero: the mutex is released. -/
  | wait (i : Nat)
  /-- `rfnet_is_tx_free` is zero. -/
  | leave (i : Nat)
  /-- `rfnet_send` returns `rc`. -/
  | send (i : Nat) (rc : Int)
  | workerLock (network : UInt8)
  | workerUnlock (network : UInt8)
  deriving DecidableEq, Repr

section

-- the number of networks of `_radio_service`, if there is one, and the request of each RPC
variable (networks : Option Nat) (request : Nat → TransmitRequest)

/-- The bytes of an RPC's own request. -/
def payload (i : Nat) : List UInt8 := grpcBufPack (request i).getFrame []

/-- The network index that `radio_service::transmit` gets. -/
def index (i : Nat) : UInt8 := moduleIndex (request i).module

/-- The steps of the RPCs and of the update threads. -/
def step (s : State) : Act → Option State
  | .pack i =>
    if s.pc i = .called then
      match networks with
      | none => some { s with pc := Function.update s.pc i (.returned .failedPrecondition) }
      | some _ =>
        some { s with
          txFrame := grpcBufPack (request i).getFrame s.txFrame
          pc := Function.update s.pc i .packed }
    else none
  | .dispatch i =>
    if s.pc i = .packed then
      if (index request i).toNat ≥ networks.getD 0 then
        some { s with pc := Function.update s.pc i (.returned .internal) }
      else some { s with pc := Function.update s.pc i .locking }
    else none
  | .lock i =>
    if (s.pc i = .locking ∨ s.pc i = .sleeping) ∧ s.mutex (index request i) = none then
      some { s with
        pc := Function.update s.pc i .checking
        mutex := Function.update s.mutex (index request i) (some (.rpc i)) }
    else none
  | .wait i =>
    if s.pc i = .checking then
      some { s with
        pc := Function.update s.pc i .sleeping
        mutex := Function.update s.mutex (index request i) none }
    else none
  | .leave i => if s.pc i = .checking then some { s with pc := Function.update s.pc i .sending } else none
  | .send i rc =>
    if s.pc i = .sending then
      some { s with
        pc := Function.update s.pc i (.returned (if rc ≠ 0 then .internal else .ok))
        mutex := Function.update s.mutex (index request i) none
        sends := s.sends ++ [⟨i, index request i, s.txFrame, rc⟩] }
    else none
  | .workerLock m =>
    if s.mutex m = none then some { s with mutex := Function.update s.mutex m (some .worker) } else none
  | .workerUnlock m =>
    if s.mutex m = some .worker then some { s with mutex := Function.update s.mutex m none } else none

/-! ## What the RPCs send -/

/-- The `rfnet_send` calls of RPC `i`. -/
def sendsOf (s : State) (i : Nat) : List Send := s.sends.filter fun x => x.rpc = i

/-- Every RPC calls `rfnet_send` at most once, with the bytes of its own request on the network of its own module, and
has done so with success when it returns `OK`. -/
def SendsOwn (s : State) : Prop :=
  ∀ i, (sendsOf s i).length ≤ 1 ∧ (s.pc i = .returned .ok → ∃ x ∈ sendsOf s i, x.rc = 0) ∧
    ∀ x ∈ sendsOf s i, x.bytes = payload request i ∧ (x.network.toNat : Int) = (request i).module.toInt

/-- Between packing and sending. -/
def Pc.waits : Pc → Bool
  | .packed | .locking | .checking | .sleeping | .sending => true
  | .called | .returned _ => false

/-- RPC `i` has packed its frame, has not sent it yet, and is not refused for its module. -/
def waiting (s : State) (i : Nat) : Bool := (s.pc i).waits && (index request i).toNat < networks.getD 0

/-- When every frame is packed while the RPCs that wait with another one have the same bytes, and its module number is
that of its network unless the network does not exist. -/
def Undisturbed (s : State) : Act → Prop
  | .pack i =>
    (((index request i).toNat : Int) = (request i).module.toInt ∨ networks.getD 0 ≤ (index request i).toNat) ∧
      ∀ j, j ≠ i → waiting networks request s j → payload request j = payload request i
  | _ => True

/-! ## The shared `_tx_frame` -/

/-- `_tx_frame`, on which an RPC relies from packing to sending. -/
def txCell (s : State) : Cell Nat (List UInt8) where
  value := s.txFrame
  held i := bif waiting networks request s i then some (payload request i) else none

variable {networks request}

theorem payload_eq (i : Nat) (dst : List UInt8) : grpcBufPack (request i).getFrame dst = payload request i := by
  simp only [payload, grpcBufPack, packBuffer_eq]

/-- An RPC that packs puts its bytes into the cell; it relies on them if it is not refused. -/
theorem sound_pack {s s' : State} {i : Nat} {c : Pc} (htx : s'.txFrame = payload request i)
    (hpc : s'.pc = Function.update s.pc i c)
    (hu : ∀ j, j ≠ i → waiting networks request s j → payload request j = payload request i) :
    (txCell networks request s').Sound := by
  have hput : ((txCell networks request s).put i (payload request i)).Sound := by
    rw [Cell.sound_put]
    intro j hj w hw
    cases hwait : waiting networks request s j with
    | true =>
      simp only [txCell, hwait, cond_true, Option.some.injEq] at hw
      exact hw ▸ hu j hj hwait
    | false => simp [txCell, hwait] at hw
  intro j w hw
  by_cases hj : j = i
  · subst hj
    have hw' : payload request j = w := by
      cases hwait : waiting networks request s' j with
      | true => simpa [txCell, hwait] using hw
      | false => simp [txCell, hwait] at hw
    show s'.txFrame = w
    rw [htx, hw']
  · show s'.txFrame = w
    rw [htx]
    refine hput j w ?_
    rw [Cell.put_held_of_ne _ _ hj]
    simpa only [txCell, waiting, hpc, Function.update_of_ne hj] using hw

/-- A step after which RPC `i` does not wait releases the cell. -/
theorem txCell_release {s s' : State} {i : Nat} {c : Pc} (htx : s'.txFrame = s.txFrame)
    (hpc : s'.pc = Function.update s.pc i c) (hc : c.waits = false) :
    txCell networks request s' = (txCell networks request s).release i := by
  simp only [txCell, Cell.release, htx, Cell.mk.injEq, true_and]
  funext j
  by_cases hj : j = i
  · subst hj
    simp only [Function.update_self, waiting, hpc, hc, Bool.false_and, cond_false]
  · simp only [Function.update_of_ne hj, waiting, hpc]

theorem sound_release {s s' : State} (hs : (txCell networks request s).Sound) {i : Nat} {c : Pc}
    (htx : s'.txFrame = s.txFrame) (hpc : s'.pc = Function.update s.pc i c) (hc : c.waits = false) :
    (txCell networks request s').Sound := by
  rw [txCell_release htx hpc hc]
  exact hs.release i

/-- A step that keeps who waits keeps the cell. -/
theorem txCell_same {s s' : State} {i : Nat} {c : Pc} (htx : s'.txFrame = s.txFrame)
    (hpc : s'.pc = Function.update s.pc i c) (hc : c.waits = (s.pc i).waits) :
    txCell networks request s' = txCell networks request s := by
  simp only [txCell, htx, Cell.mk.injEq, true_and]
  funext j
  by_cases hj : j = i
  · subst hj
    simp only [waiting, hpc, Function.update_self, hc]
  · simp only [waiting, hpc, Function.update_of_ne hj]

/-! ## The invariant -/

variable (networks request) in
/-- What holds of RPC `i`, which stands at `pc` and made the calls `sent`. -/
structure Ok (i : Nat) (pc : Pc) (sent : List Send) : Prop where
  unsent : (∀ status, pc ≠ .returned status) → sent = []
  one : sent.length ≤ 1
  ok : pc = .returned .ok → ∃ x ∈ sent, x.rc = 0
  own : ∀ x ∈ sent, x.bytes = payload request i ∧ (x.network.toNat : Int) = (request i).module.toInt
  routed : pc.waits = true → pc ≠ .packed → (index request i).toNat < networks.getD 0
  addressed : pc ≠ .called →
    ((index request i).toNat : Int) = (request i).module.toInt ∨ networks.getD 0 ≤ (index request i).toNat

/-- An RPC that moves on without sending. -/
theorem Ok.move {i : Nat} {pc pc' : Pc} {sent : List Send} (h : Ok networks request i pc sent)
    (hpc : ∀ status, pc ≠ .returned status) (hc : pc ≠ .called) (hok : pc' ≠ .returned .ok)
    (hr : pc'.waits = true → pc' ≠ .packed → (index request i).toNat < networks.getD 0) :
    Ok networks request i pc' sent where
  unsent _ := h.unsent hpc
  one := h.one
  ok e := absurd e hok
  own := h.own
  routed := hr
  addressed _ := h.addressed hc

/-- An RPC that packs its frame, or finds no radio service. -/
theorem Ok.pack {i : Nat} {sent : List Send} (h : Ok networks request i .called sent) {pc' : Pc}
    (hpc : pc' = .packed ∨ pc' = .returned .failedPrecondition)
    (hm : ((index request i).toNat : Int) = (request i).module.toInt ∨
      networks.getD 0 ≤ (index request i).toNat) : Ok networks request i pc' sent where
  unsent _ := h.unsent nofun
  one := h.one
  ok e := by rcases hpc with rfl | rfl <;> cases e
  own := h.own
  routed hw hp := by
    rcases hpc with rfl | rfl
    · exact absurd rfl hp
    · cases hw
  addressed _ := hm

/-- An RPC that sends what the cell holds. -/
theorem Ok.send {i : Nat} {sent : List Send} (h : Ok networks request i .sending sent) (rc : Int) :
    Ok networks request i (.returned (if rc ≠ 0 then .internal else .ok))
      (sent ++ [⟨i, index request i, payload request i, rc⟩]) where
  unsent e := absurd rfl (e _)
  one := by simp [h.unsent nofun]
  ok e := by
    by_cases hrc : rc = 0
    · exact ⟨_, List.mem_append_right _ (List.mem_singleton.mpr rfl), hrc⟩
    · simp [hrc] at e
  own x hx := by
    rw [h.unsent nofun, List.nil_append, List.mem_singleton] at hx
    subst hx
    have hr := h.routed rfl nofun
    rcases h.addressed nofun with ha | ha
    · exact ⟨rfl, ha⟩
    · omega
  routed hw := by cases hw
  addressed _ := h.addressed nofun

variable (networks request) in
/-- The invariant of undisturbed runs. -/
structure Inv (s : State) : Prop where
  cell : (txCell networks request s).Sound
  rpcs : ∀ i, Ok networks request i (s.pc i) (sendsOf s i)

theorem inv_init : Inv networks request init where
  cell _ _ h := by cases h
  rpcs _ := ⟨fun _ => rfl, Nat.zero_le _, nofun, nofun, nofun, fun h => absurd rfl h⟩

/-- A step of RPC `i` that sends nothing keeps the other RPCs. -/
theorem rpcs_move {s s' : State} (hs : Inv networks request s) {i : Nat} {c : Pc} (hsends : s'.sends = s.sends)
    (hpc : s'.pc = Function.update s.pc i c) (hi : Ok networks request i c (sendsOf s i)) (j : Nat) :
    Ok networks request j (s'.pc j) (sendsOf s' j) := by
  have hsj : sendsOf s' j = sendsOf s j := by simp only [sendsOf, hsends]
  rw [hsj, hpc]
  by_cases hj : j = i
  · subst hj
    rw [Function.update_self]
    exact hi
  · rw [Function.update_of_ne hj]
    exact hs.rpcs j

/-- The same of the step that sends. -/
theorem rpcs_send {s s' : State} (hs : Inv networks request s) {i : Nat} {c : Pc} {x : Send} (hx : x.rpc = i)
    (hsends : s'.sends = s.sends ++ [x]) (hpc : s'.pc = Function.update s.pc i c)
    (hi : Ok networks request i c (sendsOf s i ++ [x])) (j : Nat) :
    Ok networks request j (s'.pc j) (sendsOf s' j) := by
  rw [hpc]
  by_cases hj : j = i
  · subst hj
    have hsj : sendsOf s' j = sendsOf s j ++ [x] := by simp [sendsOf, hsends, hx]
    rw [hsj, Function.update_self]
    exact hi
  · have hsj : sendsOf s' j = sendsOf s j := by
      have hxj : x.rpc ≠ j := fun e => hj (e.symm.trans hx)
      simp [sendsOf, hsends, hxj]
    rw [hsj, Function.update_of_ne hj]
    exact hs.rpcs j

/-- A step of RPC `i` that neither packs, ends its waiting nor sends. -/
theorem inv_move {s s' : State} (hs : Inv networks request s) {i : Nat} {c : Pc} (htx : s'.txFrame = s.txFrame)
    (hsends : s'.sends = s.sends) (hpc : s'.pc = Function.update s.pc i c) (hc : c.waits = (s.pc i).waits)
    (hi : Ok networks request i c (sendsOf s i)) : Inv networks request s' where
  cell := by
    rw [txCell_same htx hpc hc]
    exact hs.cell
  rpcs := rpcs_move hs hsends hpc hi

/-- A step after which RPC `i` does not wait and has sent nothing. -/
theorem inv_leave {s s' : State} (hs : Inv networks request s) {i : Nat} {c : Pc} (htx : s'.txFrame = s.txFrame)
    (hsends : s'.sends = s.sends) (hpc : s'.pc = Function.update s.pc i c) (hc : c.waits = false)
    (hi : Ok networks request i c (sendsOf s i)) : Inv networks request s' where
  cell := sound_release hs.cell htx hpc hc
  rpcs := rpcs_move hs hsends hpc hi

/-- A step of RPC `i` in the queue of the mutex, or with it: it goes on waiting. -/
theorem inv_wait {s s' : State} (hs : Inv networks request s) {i : Nat} {pc c : Pc} (hi : s.pc i = pc)
    (hw : pc.waits = true) (hp : pc ≠ .packed) (hc : c.waits = true) (htx : s'.txFrame = s.txFrame)
    (hsends : s'.sends = s.sends) (hpc : s'.pc = Function.update s.pc i c) : Inv networks request s' := by
  have hok := hs.rpcs i
  rw [hi] at hok
  apply inv_move hs htx hsends hpc
  · rw [hi, hw, hc]
  · apply hok.move
    · rintro status rfl
      cases hw
    · rintro rfl
      cases hw
    · rintro rfl
      cases hc
    · exact fun _ _ => hok.routed hw hp

/-- **Undisturbed steps keep the invariant.** -/
theorem inv_step {s s' : State} {a : Act} (hs : Inv networks request s) (hu : Undisturbed networks request s a)
    (h : step networks request s a = some s') : Inv networks request s' := by
  cases a with
  | pack i =>
    simp only [step] at h
    split at h
    · rename_i hpc
      have hi := hs.rpcs i
      rw [hpc] at hi
      split at h
      · cases h
        exact inv_leave hs rfl rfl rfl rfl (hi.pack (Or.inr rfl) hu.1)
      · cases h
        exact ⟨sound_pack (payload_eq i _) rfl hu.2, rpcs_move hs rfl rfl (hi.pack (Or.inl rfl) hu.1)⟩
    · cases h
  | dispatch i =>
    simp only [step] at h
    split at h
    · rename_i hpc
      have hi := hs.rpcs i
      rw [hpc] at hi
      split at h
      · cases h
        exact inv_leave hs rfl rfl rfl rfl (hi.move nofun nofun nofun nofun)
      · rename_i hm
        cases h
        exact inv_move hs rfl rfl rfl (by rw [hpc]; rfl) (hi.move nofun nofun nofun fun _ _ => Nat.lt_of_not_le hm)
    · cases h
  | lock i =>
    simp only [step] at h
    split at h
    · rename_i hpc
      cases h
      rcases hpc.1 with hpc | hpc <;> exact inv_wait hs hpc rfl nofun rfl rfl rfl rfl
    · cases h
  | wait i =>
    simp only [step] at h
    split at h
    · rename_i hpc
      cases h
      exact inv_wait hs hpc rfl nofun rfl rfl rfl rfl
    · cases h
  | leave i =>
    simp only [step] at h
    split at h
    · rename_i hpc
      cases h
      exact inv_wait hs hpc rfl nofun rfl rfl rfl rfl
    · cases h
  | send i rc =>
    simp only [step] at h
    split at h
    · rename_i hpc
      have hi := hs.rpcs i
      rw [hpc] at hi
      -- the RPC still waits, so the cell holds its own bytes
      have htx : s.txFrame = payload request i := hs.cell i _ (by
        have hw : waiting networks request s i = true := by
          simp only [waiting, hpc, Pc.waits, Bool.true_and, decide_eq_true_eq]
          exact hi.routed rfl nofun
        simp only [txCell, hw, cond_true])
      cases h
      refine ⟨sound_release hs.cell rfl rfl (by split <;> rfl), rpcs_send hs rfl rfl rfl ?_⟩
      rw [htx]
      exact hi.send rc
    · cases h
  | workerLock m =>
    simp only [step] at h
    split at h
    · cases h
      exact ⟨hs.cell, hs.rpcs⟩
    · cases h
  | workerUnlock m =>
    simp only [step] at h
    split at h
    · cases h
      exact ⟨hs.cell, hs.rpcs⟩
    · cases h

/-- **Undisturbed RPCs send their own bytes.** -/
theorem transmit_sends_own {as : List Act} {s : State}
    (hu : Along (step networks request) (Undisturbed networks request) init as)
    (h : run (step networks request) init as = some s) : SendsOwn request s := by
  intro i
  have hi := (run_inv (fun _ _ _ hs hP hstep => inv_step hs hP hstep) inv_init hu h).rpcs i
  exact ⟨hi.one, hi.ok, hi.own⟩

end

/-- RPC `0` sends three bytes on network `0`, every other one sends one byte on network `1`. -/
def twoClients : Nat → TransmitRequest
  | 0 => { module := 0, frame := some { data := [0x030201], length := 3 } }
  | _ + 1 => { module := 1, frame := some { data := [9], length := 1 } }

/-- The first RPC waits for its slot; the second one is packed after the first is sent. -/
def sentFirst : List Act :=
  [.pack 0, .dispatch 0, .lock 0, .wait 0, .workerLock 0, .workerUnlock 0, .lock 0, .leave 0, .send 0 0, .pack 1,
    .dispatch 1, .lock 1, .leave 1, .send 1 0]

theorem undisturbed_sentFirst :
    Along (step (some 2) twoClients) (Undisturbed (some 2) twoClients) init sentFirst := by
  refine .cons ⟨by decide, ?_⟩ rfl <| .cons trivial rfl <| .cons trivial rfl <| .cons trivial rfl <|
    .cons trivial rfl <| .cons trivial rfl <| .cons trivial rfl <| .cons trivial rfl <| .cons trivial rfl <|
    .cons ⟨by decide, ?_⟩ rfl <| .cons trivial rfl <| .cons trivial rfl <| .cons trivial rfl <|
    .cons trivial rfl trivial
  -- nobody else waits
  · intro j _ hw
    cases hw
  · intro j hj hw
    by_cases h0 : j = 0
    · subst h0
      exact absurd hw (by decide)
    · have hpc : waiting (some 2) twoClients init j = true := by
        simpa only [waiting, Function.update_of_ne h0] using hw
      cases hpc

theorem transmit_sends_own_sentFirst :
    ∃ s, run (step (some 2) twoClients) init sentFirst = some s ∧ SendsOwn twoClients s :=
  ⟨_, rfl, transmit_sends_own undisturbed_sentFirst rfl⟩

/-- Both RPCs are packed before the first one sends. -/
def packedTwice : List Act :=
  [.pack 0, .dispatch 0, .lock 0, .wait 0, .pack 1, .lock 0, .leave 0, .send 0 0]

/-- An RPC that waits for its slot sends the frame of another one, and answers `OK`. -/
theorem transmit_mixes_payloads :
    ¬∀ networks request as s, run (step networks request) init as = some s → SendsOwn request s := by
  intro h
  have h := (h (some 2) twoClients packedTwice _ rfl 0).2.2 ⟨0, 0, [9], 0⟩ (by decide)
  exact absurd h.1 (by decide)

end KaonicComm.Transmit
