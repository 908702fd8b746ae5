import KaonicComm.Lib.Bytes
import KaonicComm.Lib.Runs

/-!
# `radio_service` and the fan-out of received frames

The constructor builds one `radio_network` for each radio and gives it a broadcaster as its receiver.
`_radio_broadcasters` is a vector constructed from a size and one `make_shared` element: copies of one pointer, so all
networks share one broadcaster, and `attach_listener`, which walks the vector, attaches a listener to it once for each
radio (`inv_step`).

A frame then reaches every living listener once for each radio (`deliveries_eq`), which is once in attachment order
exactly when there is one radio or nobody to reach (`fan_out_once_iff`).
-/

namespace KaonicComm

variable {L : Type*}

/-! ## The objects -/

/-- `network_broadcast_receiver`, with the weak pointers `_listeners`. -/
structure BroadcastReceiver (L : Type*) where
  listeners : List L
  deriving DecidableEq, Repr

/-- `network_broadcast_receiver::attach_listener`. -/
def BroadcastReceiver.attachListener (b : BroadcastReceiver L) : Option L → BroadcastReceiver L
  | none => b
  | some listener => ⟨b.listeners ++ [listener]⟩

/-- `network_broadcast_receiver::on_receive`: the calls it makes. `lock` fails for listeners that are not alive. -/
def BroadcastReceiver.onReceive (alive : L → Bool) (frame : List UInt8) (b : BroadcastReceiver L) :
    List (L × List UInt8) :=
  go b.listeners
where
  go : List L → List (L × List UInt8)
    | [] => []
    | listener :: rest => if alive listener then (listener, frame) :: go rest else go rest

/-- A `radio_network` with its `network`: the position of its radio, the pointer to its receiver, and `net_frame`. -/
structure RadioNetwork where
  idBase : UInt64
  radio : Nat
  receiver : Nat
  netFrame : List UInt8
  deriving DecidableEq, Repr

/-- The members of `radio_service`. Broadcasters live on a heap, pointers to them are positions in it. -/
structure RadioService (L : Type*) where
  heap : List (BroadcastReceiver L)
  radioBroadcasters : List Nat
  radioNetworks : List RadioNetwork
  deriving DecidableEq, Repr

/-- The constructor, for so many radios. -/
def radioService (radios : Nat) : RadioService L :=
  -- one `make_shared`, copied into every element
  let radioBroadcasters := List.replicate radios 0
  { heap := [⟨[]⟩]
    radioBroadcasters
    radioNetworks := radioBroadcasters.zipIdx.map fun (broadcaster, i) =>
      { idBase := UInt64.ofNat (i + 1), radio := i, receiver := broadcaster, netFrame := [] } }

/-- `radio_service::attach_listener`. -/
def RadioService.attachListener (s : RadioService L) : Option L → RadioService L
  | none => s
  | some listener =>
    { s with
      heap := s.radioBroadcasters.foldl
        (fun heap broadcaster => heap.modify broadcaster fun b => b.attachListener (some listener)) s.heap }

/-- `network::on_receive` copies the data into `net_frame`. -/
def RadioNetwork.store (net : RadioNetwork) (data : List UInt8) : RadioNetwork :=
  { net with netFrame := Bytes.memcpy (Bytes.resize net.netFrame data.length 0) data }

/-- `network::on_receive` of the network of radio `i`, and the calls that its receiver makes. -/
def RadioService.onReceive (alive : L → Bool) (s : RadioService L) (i : Nat) (data : List UInt8) :
    Option (RadioService L × List (L × List UInt8)) :=
  match s.radioNetworks[i]? with
  | none => none
  | some net =>
    match s.heap[(net.store data).receiver]? with
    | none => none
    | some broadcaster =>
      some ({ s with radioNetworks := s.radioNetworks.set i (net.store data) },
        broadcaster.onReceive alive (net.store data).netFrame)

/-! ## Runs -/

namespace FanOut

open Runs

/-- The service, the listeners that are still alive, and those attached so far (ghost). -/
structure State (L : Type*) where
  service : RadioService L
  alive : L → Bool
  attached : List L

/-- What happens to the service: a call of `attach_listener`, the end of a listener, a frame on radio `i`. -/
inductive Act (L : Type*) where
  | attach (listener : Option L)
  | expire (listener : L)
  | receive (i : Nat) (data : List UInt8)
  deriving DecidableEq, Repr

/-- A service for so many radios, without listeners. -/
def init (radios : Nat) : State L where
  service := radioService radios
  alive := fun _ => true
  attached := []

/-- One step. A listener is alive while it is being attached: its caller owns it. -/
def step [DecidableEq L] (s : State L) : Act L → Option (State L)
  | .attach none => some { s with service := s.service.attachListener none }
  | .attach (some listener) =>
    if s.alive listener then
      some { s with
        service := s.service.attachListener (some listener)
        attached := s.attached ++ [listener] }
    else none
  | .expire listener => some { s with alive := Function.update s.alive listener false }
  | .receive i data => (s.service.onReceive s.alive i data).map fun r => { s with service := r.1 }

/-- The calls of `on_receive` that a frame on radio `i` leads to. -/
def deliveries (s : State L) (i : Nat) (data : List UInt8) : Option (List (L × List UInt8)) :=
  (s.service.onReceive s.alive i data).map Prod.snd

/-- Each attached listener that is alive gets the frame once, in the order of attachment, and nobody else does. -/
def FanOutOnce (s : State L) (i : Nat) (data : List UInt8) : Prop :=
  deliveries s i data = some ((s.attached.filter s.alive).map fun listener => (listener, data))

instance [DecidableEq L] (s : State L) (i : Nat) (data : List UInt8) : Decidable (FanOutOnce s i data) :=
  inferInstanceAs (Decidable (_ = _))

/-! ## All networks share one broadcaster -/

/-- The one broadcaster holds every listener once for each radio. -/
structure Inv (radios : Nat) (s : State L) : Prop where
  broadcasters : s.service.radioBroadcasters = List.replicate radios 0
  heap : s.service.heap = [⟨s.attached.flatMap (List.replicate radios)⟩]
  networks : s.service.radioNetworks.length = radios
  receiver : ∀ net ∈ s.service.radioNetworks, net.receiver = 0

theorem inv_init (radios : Nat) : Inv radios (init radios : State L) where
  broadcasters := rfl
  heap := rfl
  networks := by simp [init, radioService]
  receiver net h := by
    simp only [init, radioService, List.mem_map] at h
    obtain ⟨⟨p, i⟩, hp, rfl⟩ := h
    exact (List.mem_replicate.mp (List.fst_mem_of_mem_zipIdx hp)).2

/-- Attaching through so many copies of one pointer. -/
theorem attach_replicate (listener : L) (n : Nat) : ∀ b : BroadcastReceiver L,
    (List.replicate n 0).foldl
        (fun heap broadcaster => heap.modify broadcaster fun b => b.attachListener (some listener)) [b] =
      [⟨b.listeners ++ List.replicate n listener⟩] := by
  induction n with
  | zero => simp
  | succ n ih =>
    intro b
    rw [List.replicate_succ, List.foldl_cons, List.modify_zero_cons, ih]
    simp [BroadcastReceiver.attachListener, List.replicate_succ]

/-- In the invariant every frame goes to the one broadcaster, as it came. -/
theorem onReceive_eq {radios : Nat} {s : State L} (hs : Inv radios s) {i : Nat} (hi : i < radios)
    (data : List UInt8) : ∃ net, s.service.radioNetworks[i]? = some net ∧
      s.service.onReceive s.alive i data =
        some ({ s.service with radioNetworks := s.service.radioNetworks.set i (net.store data) },
          BroadcastReceiver.onReceive s.alive data ⟨s.attached.flatMap (List.replicate radios)⟩) := by
  have hlt : i < s.service.radioNetworks.length := hs.networks ▸ hi
  have hr : (s.service.radioNetworks[i]).receiver = 0 := hs.receiver _ (List.getElem_mem hlt)
  refine ⟨s.service.radioNetworks[i], List.getElem?_eq_getElem hlt, ?_⟩
  simp [RadioService.onReceive, List.getElem?_eq_getElem hlt, RadioNetwork.store, hr, hs.heap, Bytes.memcpy_all]

variable [DecidableEq L]

/-- **Every step keeps the one shared broadcaster.** -/
theorem inv_step {radios : Nat} {s s' : State L} {a : Act L} (hs : Inv radios s) (h : step s a = some s') :
    Inv radios s' := by
  cases a with
  | attach listener =>
    cases listener with
    | none =>
      cases h
      exact ⟨hs.broadcasters, hs.heap, hs.networks, hs.receiver⟩
    | some listener =>
      simp only [step] at h
      split at h
      · cases h
        refine ⟨hs.broadcasters, ?_, hs.networks, hs.receiver⟩
        simp only [RadioService.attachListener, hs.broadcasters, hs.heap, attach_replicate]
        simp
      · cases h
  | expire listener =>
    cases h
    exact ⟨hs.broadcasters, hs.heap, hs.networks, hs.receiver⟩
  | receive i data =>
    simp only [step, Option.map_eq_some_iff] at h
    obtain ⟨r, hr, rfl⟩ := h
    by_cases hi : i < radios
    · obtain ⟨net, hnet, he⟩ := onReceive_eq hs hi data
      rw [he] at hr
      cases hr
      refine ⟨hs.broadcasters, hs.heap, ?_, fun net' hmem => ?_⟩
      · rw [List.length_set, hs.networks]
      · rcases List.mem_or_eq_of_mem_set hmem with hmem | rfl
        · exact hs.receiver net' hmem
        · exact hs.receiver net (List.mem_of_getElem? hnet)
    · have hnone : s.service.radioNetworks[i]? = none :=
        List.getElem?_eq_none (by have := hs.networks; omega)
      simp [RadioService.onReceive, hnone] at hr

theorem inv_run {radios : Nat} {as : List (Act L)} {s : State L} (h : run step (init radios) as = some s) :
    Inv radios s :=
  run_keeps (fun _ _ _ hs hstep => inv_step hs hstep) (inv_init radios) h

/-! ## Who gets a frame -/

omit [DecidableEq L] in
/-- A broadcaster calls its living listeners in their order. -/
theorem broadcast_eq (alive : L → Bool) (frame : List UInt8) (listeners : List L) :
    BroadcastReceiver.onReceive alive frame ⟨listeners⟩ =
      (listeners.filter alive).map fun listener => (listener, frame) := by
  show BroadcastReceiver.onReceive.go alive frame listeners = _
  induction listeners with
  | nil => rfl
  | cons listener rest ih =>
    rw [BroadcastReceiver.onReceive.go, ih]
    cases h : alive listener <;> simp [h]

omit [DecidableEq L] in
theorem filter_flatMap_replicate (alive : L → Bool) (n : Nat) (listeners : List L) :
    (listeners.flatMap (List.replicate n)).filter alive = (listeners.filter alive).flatMap (List.replicate n) := by
  induction listeners with
  | nil => rfl
  | cons listener rest ih =>
    rw [List.flatMap_cons, List.filter_append, ih, List.filter_replicate]
    cases h : alive listener <;> simp [h]

omit [DecidableEq L] in
/-- Repeating every element changes nothing only if each is repeated once or there is none. -/
theorem flatMap_replicate_eq_iff (n : Nat) (listeners : List L) :
    listeners.flatMap (List.replicate n) = listeners ↔ n = 1 ∨ listeners = [] := by
  constructor
  · intro h
    have hlen := congrArg List.length h
    simp only [List.length_flatMap, List.length_replicate, List.map_const', List.sum_replicate_nat] at hlen
    rcases Nat.eq_zero_or_pos listeners.length with h0 | h0
    · exact Or.inr (List.length_eq_zero_iff.mp h0)
    · exact Or.inl (Nat.eq_of_mul_eq_mul_left h0 (by omega))
  · rintro (rfl | rfl)
    · simp [List.replicate]
    · rfl

/-- **Every living listener gets a frame once for each radio.** -/
theorem deliveries_eq {radios : Nat} {as : List (Act L)} {s : State L} (h : run step (init radios) as = some s)
    {i : Nat} (hi : i < radios) (data : List UInt8) :
    deliveries s i data = some
      (((s.attached.filter s.alive).flatMap (List.replicate radios)).map fun listener => (listener, data)) := by
  obtain ⟨net, -, he⟩ := onReceive_eq (inv_run h) hi data
  rw [deliveries, he, Option.map_some, broadcast_eq, filter_flatMap_replicate]

/-- **A frame reaches every living listener once exactly when there is one radio or no living listener.** -/
theorem fan_out_once_iff {radios : Nat} {as : List (Act L)} {s : State L}
    (h : run step (init radios) as = some s) {i : Nat} (hi : i < radios) (data : List UInt8) :
    FanOutOnce s i data ↔ radios = 1 ∨ ∀ listener ∈ s.attached, s.alive listener = false := by
  have hnone : s.attached.filter s.alive = [] ↔ ∀ listener ∈ s.attached, s.alive listener = false := by
    simp [List.filter_eq_nil_iff]
  have hinj : Function.Injective fun listener : L => (listener, data) := fun a b e => (Prod.mk.inj e).1
  rw [FanOutOnce, deliveries_eq h hi, Option.some.injEq, (List.map_injective_iff.mpr hinj).eq_iff,
    flatMap_replicate_eq_iff, hnone]

/-- One radio, two listeners of which one ends before the frame. -/
def oneRadio : List (Act Nat) := [.attach (some 0), .attach none, .attach (some 1), .expire 0, .receive 0 [5]]

theorem fan_out_once_oneRadio :
    ∃ s, run step (init 1) oneRadio = some s ∧ FanOutOnce s 0 [7, 8] :=
  have h : run step (init 1) oneRadio = some ((run step (init 1) oneRadio).get rfl) := rfl
  ⟨_, h, (fan_out_once_iff h Nat.one_pos [7, 8]).mpr (Or.inl rfl)⟩

/-- With two radios the one listener gets the frame twice. -/
theorem fan_out_twice : ¬∀ (radios : Nat) (as : List (Act Nat)) s, run step (init radios) as = some s →
    s.attached.Nodup → ∀ i < radios, ∀ data, FanOutOnce s i data := by
  intro h
  have h := h 2 [.attach (some 0)] _ rfl (by decide) 0 (by decide) [7]
  exact absurd h (by decide)

end FanOut

end KaonicComm
