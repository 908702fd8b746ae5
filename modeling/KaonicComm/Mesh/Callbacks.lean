import KaonicComm.Lib.Bytes
import KaonicComm.Radio.Driver

/-!
# The callbacks of `network`

rfnet calls `network::tx`, `rx` and `on_receive`. All three go through `net_frame`; below it lie the `_tx_frame` and the
`_rx_frame` of `radio_network_interface`, and below these the frame of the driver. Every one of these buffers still
holds an earlier frame when it is used again.

`receiveFrame_eq` connects the radio on frames that are used again with the radio on bytes. `transmit_spec` and
`receive_spec` say what a call of the interface does with the buffers, `step_exact` what a callback does to the air, to
the receiver and to the buffer of its caller, and `byte_exact` that no order of callbacks leaks, cuts or repeats a byte.
-/

namespace KaonicComm.Mesh

open Bytes Radio

/-! ## Frames of the radio -/

/-- `radio_frame`. -/
structure RadioFrame where
  len : UInt16
  data : Vector UInt8 dataMaxSize

/-- `rf215_frame`, whose `data` has `capacity` bytes. -/
structure RF215Frame (capacity : Nat) where
  len : UInt16
  data : Vector UInt8 capacity

theorem length_take_memcpy {n : Nat} (dst : Vector UInt8 n) (src : List UInt8) :
    ((memcpy dst.toList src).take n).length = n := by
  simp only [memcpy, List.length_take, List.length_append, List.length_drop, Vector.length_toList]
  omega

/-- An array after bytes were copied over its beginning. -/
def copyTo {n : Nat} (dst : Vector UInt8 n) (src : List UInt8) : Vector UInt8 n :=
  ⟨((memcpy dst.toList src).take n).toArray, length_take_memcpy dst src⟩

/-- The bytes of a frame. -/
def RadioFrame.bytes (frame : RadioFrame) : List UInt8 := frame.data.toList.take frame.len.toNat

/-- The bytes that the driver sends of its frame. -/
def RF215Frame.bytes {capacity : Nat} (frame : RF215Frame capacity) : List UInt8 :=
  frame.data.toList.take frame.len.toNat

/-- The frame that `rf215_radio::transmit` fills for the driver. -/
def RadioFrame.toDriver (capacity : Nat) (frame : RadioFrame) : RF215Frame capacity where
  len := frame.len
  data := copyTo (Vector.replicate capacity 0) frame.bytes

/-- What `rf215_baseband_rx` does: besides its answer, it sets the length and leaves `data` in the buffer. -/
structure RxOutcome extends Answer where
  len : UInt16
  data : Vector UInt8 dataMaxSize

/-- The bytes that the driver delivers. -/
def RxOutcome.delivered (o : RxOutcome) : List UInt8 := o.data.toList.take o.len.toNat

/-- `rf215_radio::receive` on a frame that is used again. -/
def receiveFrame (r : RF215) (frame : RadioFrame) (o : RxOutcome) : RF215 × RadioFrame × ErrorCode :=
  match r.device.activeTrx with
  | none => (r, frame, .preconditionFailed)
  | some _ =>
    let r := { r with device := r.device.answered o.toAnswer }
    if o.rc = 0 ∧ o.len > 0 then
      ({ r with rxCounter := r.rxCounter + 1 }, { frame with data := o.data, len := o.len }, .ok)
    else (r, { frame with data := o.data }, .timeout)

/-! ## The interface and the network -/

/-- `radio_network_interface`. -/
structure RadioNetworkInterface where
  txFrame : RadioFrame
  rxFrame : RadioFrame
  radio : RF215

/-- `radio_network_interface::transmit`, with the calls of the baseband that it makes. -/
def RadioNetworkInterface.transmit (capacity : Nat) (i : RadioNetworkInterface) (frame : List UInt8)
    (answers : Nat → Answer) : RadioNetworkInterface × ErrorCode × List Use :=
  if frame.length > dataMaxSize then (i, .invalidArg, [])
  else
    let txFrame := { data := copyTo i.txFrame.data frame, len := UInt16.ofNat frame.length }
    let (radio, error, uses) := i.radio.transmit (txFrame.toDriver capacity).bytes answers
    ({ i with txFrame, radio }, error, uses)

/-- `radio_network_interface::receive` into `frame`. -/
def RadioNetworkInterface.receive (i : RadioNetworkInterface) (frame : List UInt8) (o : RxOutcome) :
    RadioNetworkInterface × List UInt8 × ErrorCode :=
  let (radio, rxFrame, error) := receiveFrame i.radio i.rxFrame o
  let i := { i with rxFrame, radio }
  if error ≠ .ok then (i, frame, .timeout)
  else (i, memcpy (resize frame rxFrame.len.toNat 0) rxFrame.bytes, .ok)

/-- `network`, with its interface. -/
structure Network where
  netFrame : List UInt8
  interface : RadioNetworkInterface
  /-- `_context.receiver` is set. -/
  receiver : Bool

/-- `network::tx`, with the calls of the baseband that it makes. -/
def Network.tx (capacity : Nat) (self : Network) (data : List UInt8) (answers : Nat → Answer) :
    Network × Int × List Use :=
  let netFrame := memcpy (resize self.netFrame data.length 0) data
  let (interface, error, uses) := self.interface.transmit capacity netFrame answers
  ({ self with netFrame, interface }, if error ≠ .ok then -1 else 0, uses)

/-- `network::rx` into `data`, with what `data` holds after it. -/
def Network.rx (self : Network) (maxLen : Nat) (data : List UInt8) (o : RxOutcome) : Network × Int × List UInt8 :=
  let (interface, netFrame, error) := self.interface.receive self.netFrame o
  let self := { self with netFrame, interface }
  if error ≠ .ok then (self, -1, data)
  else if netFrame.length > maxLen then (self, -1, data)
  else (self, (Int32.ofNat netFrame.length).toInt, memcpy data netFrame)

/-- `network::on_receive`, with the frame that the receiver gets. -/
def Network.onReceive (self : Network) (data : List UInt8) : Network × Option (List UInt8) :=
  let netFrame := memcpy (resize self.netFrame data.length 0) data
  ({ self with netFrame }, if self.receiver then some netFrame else none)

/-! ## Calls in any order -/

/-- The bytes that a call of the baseband can send. -/
def sentBytes (use : Use) : List UInt8 :=
  match use.call with
  | .ccaTxFrame frame => frame
  | .rx _ => []

/-- The frames that calls of the baseband put on the air; `sent k` says whether the one with the number `k` does, and
the first has the number `k`. -/
def aired (sent : Nat → Bool) : Nat → List Use → List (List UInt8)
  | _, [] => []
  | k, use :: uses => if sent k then sentBytes use :: aired sent (k + 1) uses else aired sent (k + 1) uses

/-- A callback with what its caller and the driver give it, or a configuration of the radio between two of them. -/
inductive Act where
  | tx (data : List UInt8) (answers : Nat → Answer) (sent : Nat → Bool)
  | rx (maxLen : Nat) (data : List UInt8) (o : RxOutcome)
  | onReceive (data : List UInt8)
  | configure (config : RadioConfig) (outcome : Outcome)

/-- What the driver documents: an attempt sends the frame if it returns `0` and nothing otherwise, and no length that is
received is larger than the buffer. -/
def Act.Documented : Act → Prop
  | .tx _ answers sent => ∀ k, sent k = true ↔ (answers k).rc = 0
  | .rx _ _ o => o.len.toNat ≤ dataMaxSize
  | .onReceive _ | .configure _ _ => True

/-- A callback that has returned. -/
inductive Done where
  /-- With `_tx_frame.len`, the calls of the baseband and what they put on the air. -/
  | tx (data : List UInt8) (result : Int) (len : UInt16) (uses : List Use) (onAir : List (List UInt8))
  /-- With the buffer of the caller before and after the call. -/
  | rx (maxLen : Nat) (data : List UInt8) (o : RxOutcome) (result : Int) (data' : List UInt8)
  | onReceive (data : List UInt8) (handed : Option (List UInt8))

/-- A network and what has happened to it. -/
structure State where
  network : Network
  /-- Every frame that went on the air. -/
  air : List (List UInt8)
  /-- Every frame that the receiver got. -/
  handed : List (List UInt8)
  done : List Done

section

variable (trxByFreq : UInt32 → Trx) (capacity : Nat)

/-- One callback. -/
def step (s : State) : Act → State
  | .tx data answers sent =>
    let (network, result, uses) := s.network.tx capacity data answers
    let onAir := aired sent 0 uses
    let call := Done.tx data result network.interface.txFrame.len uses onAir
    { s with network, air := s.air ++ onAir, done := s.done ++ [call] }
  | .rx maxLen data o =>
    let (network, result, data') := s.network.rx maxLen data o
    { s with network, done := s.done ++ [.rx maxLen data o result data'] }
  | .onReceive data =>
    let (network, handed) := s.network.onReceive data
    { s with network, handed := s.handed ++ handed.toList, done := s.done ++ [.onReceive data handed] }
  | .configure config outcome =>
    let (radio, _) := s.network.interface.radio.configure trxByFreq config outcome
    { s with network := { s.network with interface := { s.network.interface with radio } } }

/-- Callbacks one after the other. -/
def callbacks (s : State) (acts : List Act) : State := acts.foldl (step trxByFreq capacity) s

end

/-- A callback that did with its bytes what its result says. -/
def Done.Exact (receiver : Bool) : Done → Prop
  | .tx data result len uses onAir =>
    uses.length ≤ 4 ∧ (∀ u ∈ uses, u.call = .ccaTxFrame data) ∧ (uses ≠ [] → len.toNat = data.length) ∧
      (result = 0 ∧ onAir = [data] ∨ result = -1 ∧ onAir = [])
  | .rx maxLen data o result data' =>
    (∃ n : Nat, result = n ∧ n ≤ maxLen ∧ o.rc = 0 ∧ o.len.toNat = n ∧ o.delivered.length = n ∧
        data'.take n = o.delivered ∧ data'.drop n = data.drop n) ∨
      result = -1 ∧ data' = data
  | .onReceive data handed => handed = if receiver then some data else none

/-- The bytes that a callback promised to have sent. -/
def Done.sent : Done → Option (List UInt8)
  | .tx data result _ _ _ => if result = 0 then some data else none
  | .rx _ _ _ _ _ | .onReceive _ _ => none

/-- The bytes that a callback was given for the receiver. -/
def Done.received : Done → Option (List UInt8)
  | .onReceive data _ => some data
  | .tx _ _ _ _ _ | .rx _ _ _ _ _ => none

/-- A network before its first callback. -/
def State.init (network : Network) : State where
  network := network
  air := []
  handed := []
  done := []

/-- Every callback was exact, and nothing else went on the air or to the receiver. -/
structure ByteExact (s : State) : Prop where
  done : ∀ call ∈ s.done, call.Exact s.network.receiver
  air : s.air = s.done.filterMap Done.sent
  handed : s.handed = if s.network.receiver then s.done.filterMap Done.received else []

/-! ## Copies -/

theorem take_copyTo {n : Nat} (dst : Vector UInt8 n) {src : List UInt8} (h : src.length ≤ n) :
    (copyTo dst src).toList.take src.length = src := by
  have hlist : (copyTo dst src).toList = (memcpy dst.toList src).take n := rfl
  rw [hlist, List.take_take, Nat.min_eq_left h, memcpy, List.take_left]

/-- A vector that is resized for the bytes that overwrite it. -/
theorem memcpy_resize (v src : List UInt8) : memcpy (resize v src.length 0) src = src :=
  memcpy_all (length_resize v src.length 0)

/-- A frame as it goes into `_tx_frame`: the length is not cut, and nothing of an earlier frame is left in it. -/
theorem bytes_copyTo (dst : Vector UInt8 dataMaxSize) {frame : List UInt8} (h : frame.length ≤ dataMaxSize) :
    (UInt16.ofNat frame.length).toNat = frame.length ∧
      RadioFrame.bytes { len := UInt16.ofNat frame.length, data := copyTo dst frame } = frame := by
  have hlen : (UInt16.ofNat frame.length).toNat = frame.length := by
    rw [UInt16.toNat_ofNat']
    unfold dataMaxSize at h
    omega
  refine ⟨hlen, ?_⟩
  rw [RadioFrame.bytes, hlen]
  exact take_copyTo dst h

/-- The driver gets the bytes of the frame. -/
theorem bytes_toDriver {capacity : Nat} (hcapacity : dataMaxSize ≤ capacity) {frame : RadioFrame}
    (h : frame.len.toNat ≤ dataMaxSize) : (frame.toDriver capacity).bytes = frame.bytes := by
  have hlen : frame.bytes.length = frame.len.toNat := by
    rw [RadioFrame.bytes, List.length_take, Vector.length_toList, Nat.min_eq_left h]
  have hle : frame.bytes.length ≤ capacity := by omega
  rw [RF215Frame.bytes, RadioFrame.toDriver, ← hlen]
  exact take_copyTo _ hle

/-! ## What one callback does -/

theorem length_txLoop_le (use : Use) (answers : Nat → Answer) (n : Nat) :
    ∀ k d, (txLoop use answers k n d).2.2.length ≤ n := by
  induction n with
  | zero => exact fun _ _ => Nat.le_refl 0
  | succ n ih =>
    intro k d
    unfold txLoop
    split
    · exact Nat.succ_le_succ (ih (k + 1) _)
    · exact Nat.succ_le_succ (Nat.zero_le n)

/-- A driver that sends exactly when it returns `0` sends once if the loop ends with ok, and never otherwise. -/
theorem aired_txLoop (use : Use) {answers : Nat → Answer} {sent : Nat → Bool}
    (hsent : ∀ k, sent k = true ↔ (answers k).rc = 0) (n : Nat) : ∀ k d,
      (txLoop use answers k n d).2.1 = .ok ∧ aired sent k (txLoop use answers k n d).2.2 = [sentBytes use] ∨
        (txLoop use answers k n d).2.1 ≠ .ok ∧ aired sent k (txLoop use answers k n d).2.2 = [] := by
  induction n with
  | zero =>
    intro k d
    right
    exact ⟨ErrorCode.noConfusion, rfl⟩
  | succ n ih =>
    intro k d
    by_cases hrc : (answers k).rc = 0
    · have hk : sent k = true := (hsent k).mpr hrc
      left
      simp [txLoop, aired, hrc, hk]
    · have hk : ¬sent k = true := fun h => hrc ((hsent k).mp h)
      simp only [txLoop, ne_eq, hrc, not_false_eq_true, if_true, aired, if_neg hk]
      exact ih (k + 1) _

/-- The attempts to send a frame: at most four, each with the frame, and it is on the air once if the result is ok. -/
structure Attempts (frame : List UInt8) (sent : Nat → Bool) (error : ErrorCode) (uses : List Use) : Prop where
  count : uses.length ≤ 4
  frames : ∀ u ∈ uses, u.call = .ccaTxFrame frame
  onAir : error = .ok ∧ aired sent 0 uses = [frame] ∨ error ≠ .ok ∧ aired sent 0 uses = []

/-- A frame that is refused. -/
theorem Attempts.none {frame : List UInt8} {sent : Nat → Bool} {error : ErrorCode} (h : error ≠ .ok) :
    Attempts frame sent error [] where
  count := Nat.zero_le 4
  frames _ hu := absurd hu List.not_mem_nil
  onAir := .inr ⟨h, rfl⟩

/-- `rf215_radio::transmit` with such a driver. -/
theorem attempts_transmit {r r' : RF215} {frame : List UInt8} {answers : Nat → Answer} {sent : Nat → Bool}
    {error : ErrorCode} {uses : List Use} (hsent : ∀ k, sent k = true ↔ (answers k).rc = 0)
    (h : r.transmit frame answers = (r', error, uses)) : Attempts frame sent error uses := by
  unfold RF215.transmit at h
  split at h
  · cases h
    exact .none ErrorCode.noConfusion
  · cases h
    refine ⟨length_txLoop_le _ answers 4 0 _, fun u hu => ?_, aired_txLoop _ hsent 4 0 _⟩
    rw [mem_txLoop 0 4 _ u hu]

variable {capacity : Nat}

/-- **`radio_network_interface::transmit`**: whatever the buffers hold, each attempt is made with the frame itself. -/
theorem transmit_spec (hcapacity : dataMaxSize ≤ capacity) {i i' : RadioNetworkInterface} {frame : List UInt8}
    {answers : Nat → Answer} {sent : Nat → Bool} {error : ErrorCode} {uses : List Use}
    (hsent : ∀ k, sent k = true ↔ (answers k).rc = 0) (h : i.transmit capacity frame answers = (i', error, uses)) :
    Attempts frame sent error uses ∧ (uses ≠ [] → i'.txFrame.len.toNat = frame.length) := by
  by_cases hlarge : frame.length > dataMaxSize
  · rw [RadioNetworkInterface.transmit, if_pos hlarge] at h
    cases h
    exact ⟨.none ErrorCode.noConfusion, fun h => absurd rfl h⟩
  · have hle : frame.length ≤ dataMaxSize := Nat.le_of_not_lt hlarge
    obtain ⟨hlen, hbytes⟩ := bytes_copyTo i.txFrame.data hle
    have hdriver : (RadioFrame.toDriver capacity
        { data := copyTo i.txFrame.data frame, len := UInt16.ofNat frame.length }).bytes = frame := by
      rw [bytes_toDriver hcapacity (Nat.le_trans (Nat.le_of_eq hlen) hle)]
      exact hbytes
    simp only [RadioNetworkInterface.transmit, if_neg hlarge, hdriver] at h
    cases h
    exact ⟨attempts_transmit hsent rfl, fun _ => hlen⟩

theorem length_delivered {o : RxOutcome} (ho : o.len.toNat ≤ dataMaxSize) : o.delivered.length = o.len.toNat := by
  rw [RxOutcome.delivered, List.length_take, Vector.length_toList, Nat.min_eq_left ho]

/-- On a frame that is used again `rf215_radio::receive` does what it does on the bytes that the driver delivers. -/
theorem receiveFrame_eq {r r' : RF215} {frame frame' : RadioFrame} {o : RxOutcome} {error : ErrorCode} (timeout : Nat)
    (ho : o.len.toNat ≤ dataMaxSize) (h : receiveFrame r frame o = (r', frame', error)) :
    ∃ uses, r.receive timeout o.toAnswer o.delivered =
      (r', error, uses, if error = .ok then some frame'.bytes else none) := by
  have hpos : o.len > 0 ↔ o.delivered.length > 0 := by
    rw [length_delivered ho]
    exact UInt16.lt_iff_toNat_lt
  cases htrx : r.device.activeTrx with
  | none =>
    simp only [receiveFrame, htrx] at h
    cases h
    simp only [RF215.receive, htrx]
    exact ⟨_, rfl⟩
  | some trx =>
    by_cases hok : o.rc = 0 ∧ o.len > 0
    · simp only [receiveFrame, htrx, if_pos hok] at h
      cases h
      simp only [RF215.receive, htrx, if_pos (And.intro hok.1 (hpos.mp hok.2))]
      exact ⟨_, rfl⟩
    · have hbytes : ¬(o.rc = 0 ∧ o.delivered.length > 0) := fun hb => hok ⟨hb.1, hpos.mpr hb.2⟩
      simp only [receiveFrame, htrx, if_neg hok] at h
      cases h
      simp only [RF215.receive, htrx, if_neg hbytes]
      exact ⟨_, rfl⟩

/-- A frame that was received holds what the driver left in it. -/
theorem eq_of_receiveFrame_ok {r r' : RF215} {frame frame' : RadioFrame} {o : RxOutcome}
    (h : receiveFrame r frame o = (r', frame', .ok)) : o.rc = 0 ∧ frame' = { data := o.data, len := o.len } := by
  unfold receiveFrame at h
  split at h
  · cases h
  · split at h
    · next hok =>
      cases h
      exact ⟨hok.1, rfl⟩
    · cases h

/-- **`radio_network_interface::receive`**: the frame holds after it what the driver delivered, or what it held
before. -/
theorem receive_spec {i i' : RadioNetworkInterface} {frame frame' : List UInt8} {o : RxOutcome} {error : ErrorCode}
    (ho : o.len.toNat ≤ dataMaxSize) (h : i.receive frame o = (i', frame', error)) :
    error = .ok ∧ o.rc = 0 ∧ frame' = o.delivered ∨ error ≠ .ok ∧ frame' = frame := by
  have hcopy : memcpy (resize frame o.len.toNat 0) o.delivered = o.delivered := by
    rw [← length_delivered ho]
    exact memcpy_resize frame o.delivered
  cases hframe : receiveFrame i.radio i.rxFrame o with
  | mk radio out =>
    obtain ⟨rxFrame, result⟩ := out
    simp only [RadioNetworkInterface.receive, hframe] at h
    by_cases hok : result = .ok
    · subst hok
      obtain ⟨hrc, rfl⟩ := eq_of_receiveFrame_ok hframe
      rw [if_neg (not_not_intro rfl)] at h
      cases h
      exact .inl ⟨rfl, hrc, hcopy⟩
    · rw [if_pos hok] at h
      cases h
      exact .inr ⟨ErrorCode.noConfusion, rfl⟩

/-- `network::tx`. -/
theorem tx_exact (hcapacity : dataMaxSize ≤ capacity) {self self' : Network} {data : List UInt8}
    {answers : Nat → Answer} {sent : Nat → Bool} {result : Int} {uses : List Use}
    (hsent : ∀ k, sent k = true ↔ (answers k).rc = 0) (h : self.tx capacity data answers = (self', result, uses))
    (receiver : Bool) :
    (Done.tx data result self'.interface.txFrame.len uses (aired sent 0 uses)).Exact receiver := by
  rw [Network.tx, memcpy_resize] at h
  cases htransmit : self.interface.transmit capacity data answers with
  | mk interface out =>
    obtain ⟨error, uses'⟩ := out
    obtain ⟨hattempts, hlen⟩ := transmit_spec hcapacity hsent htransmit
    rw [htransmit] at h
    cases h
    refine ⟨hattempts.count, hattempts.frames, hlen, ?_⟩
    rcases hattempts.onAir with ⟨hok, hair⟩ | ⟨hfail, hair⟩
    · exact .inl ⟨if_neg (not_not_intro hok), hair⟩
    · exact .inr ⟨if_pos hfail, hair⟩

/-- `network::rx`. -/
theorem rx_exact {self self' : Network} {maxLen : Nat} {data data' : List UInt8} {o : RxOutcome} {result : Int}
    (ho : o.len.toNat ≤ dataMaxSize) (h : self.rx maxLen data o = (self', result, data')) (receiver : Bool) :
    (Done.rx maxLen data o result data').Exact receiver := by
  cases hreceive : self.interface.receive self.netFrame o with
  | mk interface out =>
    obtain ⟨netFrame, error⟩ := out
    simp only [Network.rx, hreceive] at h
    obtain ⟨rfl, hrc, hframe⟩ | ⟨hfail, -⟩ := receive_spec ho hreceive
    · rw [if_neg (not_not_intro rfl)] at h
      by_cases hlarge : netFrame.length > maxLen
      · rw [if_pos hlarge] at h
        cases h
        exact .inr ⟨rfl, rfl⟩
      · rw [if_neg hlarge] at h
        cases h
        have hlen : netFrame.length = o.len.toNat := by
          rw [hframe]
          exact length_delivered ho
        have hint : netFrame.length < 2 ^ 31 := by
          have hword := o.len.toNat_lt
          omega
        refine .inl ⟨netFrame.length, Int32.toInt_ofNat_of_lt hint, Nat.le_of_not_lt hlarge, hrc, hlen.symm,
          congrArg List.length hframe.symm, ?_, List.drop_left⟩
        rw [memcpy, List.take_left]
        exact hframe
    · rw [if_pos hfail] at h
      cases h
      exact .inr ⟨rfl, rfl⟩

/-- `network::on_receive`. -/
theorem onReceive_exact (self : Network) (data : List UInt8) :
    (Done.onReceive data (self.onReceive data).2).Exact self.receiver := by
  simp only [Done.Exact, Network.onReceive, memcpy_resize]

/-! ## What all of them do -/

variable {trxByFreq : UInt32 → Trx}

/-- No callback changes whether there is a receiver. -/
theorem receiver_step (s : State) (act : Act) :
    (step trxByFreq capacity s act).network.receiver = s.network.receiver := by
  cases act with
  | tx data answers sent => rfl
  | rx maxLen data o =>
    simp only [step, Network.rx]
    split
    · rfl
    · split <;> rfl
  | onReceive data => rfl
  | configure config outcome => rfl

/-- An exact `network::tx` has put on the air what it promised. -/
theorem Done.Exact.toList_sent {data : List UInt8} {result : Int} {len : UInt16} {uses : List Use}
    {onAir : List (List UInt8)} {receiver : Bool} (h : (Done.tx data result len uses onAir).Exact receiver) :
    (Done.tx data result len uses onAir).sent.toList = onAir := by
  obtain ⟨-, -, -, ⟨rfl, rfl⟩ | ⟨rfl, rfl⟩⟩ := h
  · rfl
  · rfl

/-- One more exact call, with its bytes on the air and at the receiver. -/
theorem ByteExact.append {s s' : State} {call : Done} (h : ByteExact s) (hcall : call.Exact s.network.receiver)
    (hreceiver : s'.network.receiver = s.network.receiver) (hdone : s'.done = s.done ++ [call])
    (hair : s'.air = s.air ++ call.sent.toList)
    (hhanded : s'.handed = s.handed ++ if s.network.receiver then call.received.toList else []) : ByteExact s' where
  done := by
    rw [hdone, hreceiver]
    intro call' hmem
    rcases List.mem_append.mp hmem with hmem | hmem
    · exact h.done call' hmem
    · rw [List.mem_singleton.mp hmem]
      exact hcall
  air := by
    rw [hair, hdone, List.filterMap_append, h.air]
    cases hsent : call.sent <;> simp [hsent]
  handed := by
    rw [hhanded, hreceiver, hdone, List.filterMap_append, h.handed]
    cases s.network.receiver with
    | false => rfl
    | true => cases hreceived : call.received <;> simp [hreceived]

/-- **One callback** is exact and changes nothing that was said before. -/
theorem step_exact (hcapacity : dataMaxSize ≤ capacity) {s : State} {act : Act} (h : ByteExact s)
    (hact : act.Documented) : ByteExact (step trxByFreq capacity s act) := by
  have hreceiver := @receiver_step capacity trxByFreq s act
  cases act with
  | tx data answers sent =>
    have hcall := tx_exact hcapacity hact (rfl : s.network.tx capacity data answers = _) s.network.receiver
    refine h.append hcall hreceiver rfl ?_ ?_
    · rw [hcall.toList_sent]
      rfl
    · simp [step, Done.received]
  | rx maxLen data o =>
    have hcall := rx_exact hact (rfl : s.network.rx maxLen data o = _) s.network.receiver
    refine h.append hcall hreceiver rfl ?_ ?_
    · simp [step, Done.sent]
    · simp [step, Done.received]
  | onReceive data =>
    have hcall := onReceive_exact s.network data
    refine h.append hcall hreceiver rfl ?_ ?_
    · simp [step, Done.sent]
    · have hhanded : (s.network.onReceive data).2 = if s.network.receiver then some data else none := hcall
      simp only [step, hhanded, Done.received]
      split <;> rfl
  | configure config outcome => exact ⟨h.done, h.air, h.handed⟩

/-- Callbacks in any order. -/
theorem ByteExact.callbacks (hcapacity : dataMaxSize ≤ capacity) {acts : List Act}
    (hacts : ∀ act ∈ acts, act.Documented) : ∀ {s : State}, ByteExact s →
    ByteExact (callbacks trxByFreq capacity s acts) := by
  induction acts with
  | nil => exact fun h => h
  | cons act acts ih =>
    intro s h
    have hstep := @step_exact capacity trxByFreq hcapacity s act h (hacts act List.mem_cons_self)
    exact ih (fun b hb => hacts b (List.mem_cons_of_mem _ hb)) hstep

theorem byteExact_init (network : Network) : ByteExact (.init network) where
  done _ hmem := absurd hmem List.not_mem_nil
  air := rfl
  handed := (ite_self []).symm

/-- **No order of callbacks leaks, cuts or repeats a byte**, whatever the buffers hold at the beginning. -/
theorem byte_exact (hcapacity : dataMaxSize ≤ capacity) (network : Network) {acts : List Act}
    (hacts : ∀ act ∈ acts, act.Documented) : ByteExact (callbacks trxByFreq capacity (.init network) acts) :=
  (byteExact_init network).callbacks hcapacity hacts

/-- A network whose buffers are full of old bytes. -/
def usedNetwork : Network where
  netFrame := List.replicate 7 0xAA
  interface :=
    { txFrame := { len := 2048, data := Vector.replicate dataMaxSize 0xAA }
      rxFrame := { len := 2048, data := Vector.replicate dataMaxSize 0xAA }
      radio := RF215.init }
  receiver := true

/-- A frame that comes in once the radio is configured, one that is sent after two busy attempts, one for the receiver,
and one that nobody sent. -/
def mixedCallbacks : List Act :=
  [.configure {} { lands := fun _ => true, writeRegSet := 0, setFreq := 0 },
    .rx 8 [9, 9, 9, 9, 9] { rc := 0, len := 3, data := copyTo (Vector.replicate dataMaxSize 0xBB) [1, 2, 3] },
    .tx [4, 5] (fun k => { rc := if k < 2 then -1 else 0 }) fun k => decide (2 ≤ k), .onReceive [6],
    .rx 8 [9, 9] { rc := -1, len := 0, data := Vector.replicate dataMaxSize 0xCC }]

theorem byte_exact_mixedCallbacks :
    ByteExact (callbacks bandOf dataMaxSize (.init usedNetwork) mixedCallbacks) ∧
      (callbacks bandOf dataMaxSize (.init usedNetwork) mixedCallbacks).air = [[4, 5]] := by
  refine ⟨byte_exact (Nat.le_refl _) usedNetwork fun act hact => ?_, by decide +kernel⟩
  simp only [mixedCallbacks, List.mem_cons, List.not_mem_nil, or_false] at hact
  rcases hact with rfl | rfl | rfl | rfl | rfl
  · trivial
  · show (3 : UInt16).toNat ≤ 2048
    decide
  · intro k
    by_cases hk : k < 2
    · simp [hk]
    · simp [hk, Nat.le_of_not_lt hk]
  · trivial
  · exact Nat.zero_le _

end KaonicComm.Mesh
