import KaonicComm.Error
import KaonicComm.Services.GrpcService
import KaonicComm.Services.RadioService

/-!
# From a request to a radio

A request reaches the radio service through gRPC or the serial line; the service forwards it to the network of the
module, or answers `invalid_arg` (`forward_eq`). The networks stay those of the radios in their order, whatever happens
to the service (`wired_run`).

The module of a request has 32 bits, the one of the radio service eight. So a request goes to the radio that it names
or is refused exactly when it names one of the radios, or its lowest byte names none (`addressed_exactly_iff`). What is
transmitted are bytes of the request exactly when it has as many as it claims (`sends_only_given_iff`).
-/

namespace KaonicComm

open Bytes
open GrpcService (Request Status)
open SerialService (RadioCall)

variable {L : Type*}

/-! ## The radio service -/

/-- What the network of a radio is asked for. -/
inductive RadioRequest where
  | configure (config : RadioConfig)
  | transmit (frame : List UInt8)
  deriving DecidableEq, Repr

/-- The body of `radio_service::configure` and `radio_service::transmit`: the radio that is asked, and the result;
`answer` is what the network of a radio answers. -/
def RadioService.forward (s : RadioService L) (answer : Nat → RadioRequest → ErrorCode) (module : UInt8)
    (x : RadioRequest) : List (Nat × RadioRequest) × ErrorCode :=
  if h : module.toNat ≥ s.radioNetworks.length then ([], .invalidArg)
  else
    let net := s.radioNetworks[module.toNat]
    ([(net.radio, x)], answer net.radio x)

/-- `radio_service::configure`. -/
def RadioService.configure (s : RadioService L) (answer : Nat → RadioRequest → ErrorCode) (module : UInt8)
    (config : RadioConfig) : List (Nat × RadioRequest) × ErrorCode :=
  s.forward answer module (.configure config)

/-- `radio_service::transmit`. -/
def RadioService.transmit (s : RadioService L) (answer : Nat → RadioRequest → ErrorCode) (module : UInt8)
    (frame : List UInt8) : List (Nat × RadioRequest) × ErrorCode :=
  s.forward answer module (.transmit frame)

/-- A call of the radio service. -/
def RadioService.serve (s : RadioService L) (answer : Nat → RadioRequest → ErrorCode) :
    RadioCall → List (Nat × RadioRequest) × ErrorCode
  | .configure module config => s.configure answer module config
  | .transmit module frame => s.transmit answer module frame

/-- The networks are those of so many radios, in their order. -/
def RadioService.Wired (s : RadioService L) (radios : Nat) : Prop :=
  s.radioNetworks.map RadioNetwork.radio = List.range radios

theorem wired_radioService (radios : Nat) : (radioService radios : RadioService L).Wired radios := by
  apply List.ext_getElem
  · simp [radioService]
  · intro i hi hi'
    simp [radioService]

/-- A frame leaves every network with its radio. -/
theorem wired_onReceive {radios : Nat} {s : RadioService L} (hs : s.Wired radios) {alive : L → Bool} {i : Nat}
    {data : List UInt8} {r : RadioService L × List (L × List UInt8)} (h : s.onReceive alive i data = some r) :
    r.1.Wired radios := by
  unfold RadioService.onReceive at h
  split at h
  · cases h
  · rename_i net hnet
    split at h
    · cases h
    · cases h
      obtain ⟨hi, rfl⟩ := List.getElem?_eq_some_iff.mp hnet
      have hset : (s.radioNetworks.map RadioNetwork.radio).set i s.radioNetworks[i].radio =
          s.radioNetworks.map RadioNetwork.radio := by
        rw [← List.map_set, List.set_getElem_self]
      rw [RadioService.Wired, List.map_set]
      exact hset.trans hs

/-- **The networks stay those of the radios**, in every run of the service. -/
theorem wired_run [DecidableEq L] {radios : Nat} {as : List (FanOut.Act L)} {s : FanOut.State L}
    (h : Runs.run FanOut.step (FanOut.init radios) as = some s) : s.service.Wired radios := by
  refine Runs.run_keeps (I := fun s : FanOut.State L => s.service.Wired radios) ?_ (wired_radioService radios) h
  intro s a s' hs hstep
  cases a with
  | attach listener =>
    cases listener with
    | none =>
      cases hstep
      exact hs
    | some listener =>
      simp only [FanOut.step] at hstep
      split at hstep
      · cases hstep
        exact hs
      · cases hstep
  | expire listener =>
    cases hstep
    exact hs
  | receive i data =>
    simp only [FanOut.step, Option.map_eq_some_iff] at hstep
    obtain ⟨r, hr, rfl⟩ := hstep
    exact wired_onReceive hs hr

/-- **The radio service asks the radio of the module, if there is one.** -/
theorem forward_eq {radios : Nat} {s : RadioService L} (hs : s.Wired radios)
    (answer : Nat → RadioRequest → ErrorCode) (module : UInt8) (x : RadioRequest) :
    s.forward answer module x =
      if module.toNat < radios then ([(module.toNat, x)], answer module.toNat x) else ([], .invalidArg) := by
  have hlen : s.radioNetworks.length = radios := by
    have h := congrArg List.length hs
    rwa [List.length_map, List.length_range] at h
  unfold RadioService.forward
  by_cases hm : module.toNat < radios
  · have hlt : module.toNat < s.radioNetworks.length := hlen ▸ hm
    have hradio : s.radioNetworks[module.toNat].radio = module.toNat := by
      have h := congrArg (·[module.toNat]?) hs
      simpa [hm, hlen] using h
    rw [dif_neg (by omega), if_pos hm]
    simp only [hradio]
  · rw [dif_pos (by omega), if_neg hm]

/-! ## The front ends -/

/-- A front end, with what it handled before. -/
inductive FrontEnd where
  | grpc (s : GrpcService.Service)
  | serial (s : SerialService.Service)

namespace FrontEnd

/-- The front end has a radio service. -/
def Ready : FrontEnd → Prop
  | .grpc s => s.radioService = true
  | .serial _ => True

/-- The calls of the radio service for a request; `isOk` is whether the service succeeds. -/
def calls (isOk : Bool) (r : Request) : FrontEnd → List RadioCall
  | .grpc s => GrpcService.grpcCalls s isOk r
  | .serial s => GrpcService.serialCalls s r

/-- What `serial_service::handle_packet` logs. -/
def warning (isOk : Bool) : Packet.Payload → Option String
  | .configurationRequest _ =>
    if isOk then none else some "[Serial Service] TX failed: unable to configure to the radio"
  | .transmitRequest _ => if isOk then none else some "[Serial Service] TX failed: unable to transmit to the radio"
  | .receiveResponse _ => none
  | .errorPayload => some "[Serial Service] TX failed: packet type is undefined"

/-- How a request ends: with a status for the client of gRPC, with a warning or none on the serial line. -/
inductive Reply where
  | status (s : Status)
  | log (warning : Option String)
  deriving DecidableEq, Repr

/-- The reply is an error. -/
def Reply.Refuses : Reply → Prop
  | .status s => s ≠ .ok
  | .log warning => warning ≠ none

def reply (isOk : Bool) (r : Request) : FrontEnd → Reply
  | .grpc s => .status <| match r with
    | .configure m => (GrpcService.configure s m isOk).2.2
    | .transmit m => (GrpcService.transmit s m isOk).2.2
  | .serial _ => .log (warning isOk r.payload)

/-- What a request leads to: what the radios are asked for, and the reply. -/
structure Handled where
  forwarded : List (Nat × RadioRequest)
  reply : Reply
  deriving DecidableEq, Repr

/-- A front end handles a request with the radio service. -/
def handle (s : RadioService L) (answer : Nat → RadioRequest → ErrorCode) (r : Request) (front : FrontEnd) :
    Handled :=
  -- the calls are made before their results are known: they are the same for `false`
  let served := (front.calls true r).map (s.serve answer)
  { forwarded := served.flatMap Prod.fst
    reply := front.reply (served.all fun x => x.2 = .ok) r }

/-- The module of a request. -/
def module : Request → Int32
  | .configure m => m.module
  | .transmit m => m.module

/-- What a radio is asked for is what the request says. Of a configuration this compares the frequency, the channel and
the spacing, not the power and the PHY. -/
def Carries : RadioRequest → Request → Prop
  | .configure config, .configure m =>
    config.freq = m.freq ∧ config.channel = m.channel.toUInt8 ∧ config.channelSpacing = m.channelSpacing
  | .transmit frame, .transmit m => frame = resize (bytes m.getFrame.data) m.getFrame.length.toNat 0
  | _, _ => False

/-- The call of the radio service for it. -/
def callOf (module : UInt8) : RadioRequest → RadioCall
  | .configure config => .configure module config
  | .transmit frame => .transmit module frame

theorem serve_callOf (s : RadioService L) (answer : Nat → RadioRequest → ErrorCode) (module : UInt8)
    (x : RadioRequest) : s.serve answer (callOf module x) = s.forward answer module x := by
  cases x <;> rfl

/-- **A front end makes one call, with the lowest byte of the module.** -/
theorem calls_eq {front : FrontEnd} (hf : front.Ready) (r : Request) :
    ∃ x, Carries x r ∧ ∀ isOk, front.calls isOk r = [callOf (moduleIndex (module r)) x] := by
  cases front with
  | grpc s =>
    have hf : s.radioService = true := hf
    cases r with
    | configure m =>
      refine ⟨.configure (GrpcService.radioConfig m), ⟨rfl, rfl, rfl⟩, fun isOk => ?_⟩
      exact GrpcService.configure_calls hf m isOk
    | transmit m =>
      refine ⟨.transmit (grpcBufPack m.getFrame s.txFrame), packBuffer_eq _ _, fun isOk => ?_⟩
      simp only [calls, GrpcService.grpcCalls, GrpcService.transmit, hf, Bool.not_true, Bool.false_eq_true, if_false]
      rfl
  | serial s =>
    cases r with
    | configure m => exact ⟨.configure _, ⟨rfl, rfl, rfl⟩, fun _ => rfl⟩
    | transmit m => exact ⟨.transmit (bufPack m.getFrame s.frame), packBuffer_eq _ _, fun _ => rfl⟩

/-- An error of the radio service is an error for the client. -/
theorem reply_refuses {front : FrontEnd} (hf : front.Ready) (r : Request) : (front.reply false r).Refuses := by
  cases front with
  | grpc s =>
    have hf : s.radioService = true := hf
    cases r <;> simp [reply, Reply.Refuses, GrpcService.configure, GrpcService.transmit, hf]
  | serial s => cases r <;> simp [reply, Reply.Refuses, Request.payload, warning]

/-- **A request is forwarded to the radio of the lowest byte of its module, or is refused.** -/
theorem handle_eq {radios : Nat} {s : RadioService L} (hs : s.Wired radios) {front : FrontEnd} (hf : front.Ready)
    (answer : Nat → RadioRequest → ErrorCode) (r : Request) :
    if (moduleIndex (module r)).toNat < radios then
      ∃ x, Carries x r ∧ (front.handle s answer r).forwarded = [((moduleIndex (module r)).toNat, x)]
    else (front.handle s answer r).forwarded = [] ∧ (front.handle s answer r).reply.Refuses := by
  obtain ⟨x, hx, hcalls⟩ := calls_eq hf r
  simp only [handle, hcalls, List.map_cons, List.map_nil, serve_callOf, forward_eq hs]
  split
  · exact ⟨x, hx, rfl⟩
  · exact ⟨rfl, reply_refuses hf r⟩

/-! ## Which radio -/

/-- The lowest byte of a module. -/
theorem toNat_moduleIndex (module : Int32) : ((moduleIndex module).toNat : Int) = module.toInt % 256 := by
  have h : (moduleIndex module).toNat = module.toBitVec.toNat % 2 ^ 8 := UInt32.toNat_toUInt8 _
  have hlt := module.toBitVec.isLt
  have hint : module.toInt = (module.toBitVec.toNat : Int).bmod (2 ^ 32) := BitVec.toInt_eq_toNat_bmod _
  rw [h, hint, Int.bmod_def]
  split <;> omega

/-- The module is one of so many radios. -/
def Served (radios : Nat) (r : Request) : Prop := 0 ≤ (module r).toInt ∧ (module r).toInt < radios

instance (radios : Nat) (r : Request) : Decidable (Served radios r) := inferInstanceAs (Decidable (_ ∧ _))

/-- Whatever the radios answer, a request for one of them is forwarded to exactly that one, and any other is refused
with an error and reaches no radio. -/
def AddressedExactly (radios : Nat) (s : RadioService L) (front : FrontEnd) (r : Request) : Prop :=
  ∀ answer, (Served radios r →
      ∃ x, Carries x r ∧ (front.handle s answer r).forwarded = [((module r).toInt.toNat, x)]) ∧
    (¬Served radios r → (front.handle s answer r).forwarded = [] ∧ (front.handle s answer r).reply.Refuses)

theorem addressedExactly_iff {radios : Nat} (hn : radios ≤ 256) {s : RadioService L} (hs : s.Wired radios)
    {front : FrontEnd} (hf : front.Ready) (r : Request) :
    AddressedExactly radios s front r ↔ Served radios r ∨ radios ≤ ((module r).toInt % 256).toNat := by
  have hindex := toNat_moduleIndex (module r)
  by_cases hserved : Served radios r
  · refine ⟨fun _ => Or.inl hserved, fun _ answer => ⟨fun _ => ?_, fun h => absurd hserved h⟩⟩
    obtain ⟨hnonneg, hlt⟩ := hserved
    have hm : (moduleIndex (module r)).toNat = (module r).toInt.toNat := by omega
    have hlt : (moduleIndex (module r)).toNat < radios := by omega
    have h := handle_eq hs hf answer r
    rwa [if_pos hlt, hm] at h
  · have hm : radios ≤ ((module r).toInt % 256).toNat ↔ ¬(moduleIndex (module r)).toNat < radios := by omega
    rw [hm]
    constructor
    · intro h
      right
      intro hlt
      have hforward := handle_eq hs hf (fun _ _ => .ok) r
      rw [if_pos hlt] at hforward
      obtain ⟨x, -, hx⟩ := hforward
      rw [((h fun _ _ => .ok).2 hserved).1] at hx
      cases hx
    · intro h answer
      refine ⟨fun hs => absurd hs hserved, fun _ => ?_⟩
      have hrefused := handle_eq hs hf answer r
      rwa [if_neg (h.resolve_left hserved)] at hrefused

/-- **A request reaches exactly the radio that it names, or is refused, exactly when it names one of the radios or the
lowest byte of its module names none.** -/
theorem addressed_exactly_iff [DecidableEq L] {radios : Nat} (hn : radios ≤ 256) {as : List (FanOut.Act L)}
    {s : FanOut.State L} (h : Runs.run FanOut.step (FanOut.init radios) as = some s) {front : FrontEnd}
    (hf : front.Ready) (r : Request) :
    AddressedExactly radios s.service front r ↔ Served radios r ∨ radios ≤ ((module r).toInt % 256).toNat :=
  addressedExactly_iff hn (wired_run h) hf r

/-- A request to transmit four bytes. -/
def transmitTo (module : Int32) : Request := .transmit { module, frame := some { data := [1], length := 4 } }

/-- Module 1 of two radios on the serial line. -/
theorem addressed_exactly_second :
    AddressedExactly 2 (FanOut.init 2 : FanOut.State Nat).service (.serial SerialService.init) (transmitTo 1) :=
  have h : Runs.run FanOut.step (FanOut.init 2 : FanOut.State Nat) [] = some (FanOut.init 2) := rfl
  have hf : Ready (.serial SerialService.init) := trivial
  (addressed_exactly_iff (by decide) h hf (transmitTo 1)).mpr (Or.inl (by decide))

/-- With two radios, module 256 is radio 0, for both front ends. -/
theorem module_aliased :
    ¬∀ radios ≤ 256, ∀ (front : FrontEnd) (r : Request), front.Ready →
      AddressedExactly radios (radioService radios : RadioService Nat) front r := by
  intro h
  have hserved : ¬Served 2 (transmitTo 256) := by decide
  have h := (h 2 (by decide) (.grpc { radioService := true }) (transmitTo 256) rfl fun _ _ => .ok).2 hserved
  exact absurd h.1 (by decide)

/-! ## What is transmitted -/

/-- Whatever the radio service answers, what it is given to transmit are bytes of the request, from the first one on,
and no more than its words hold. -/
def SendsOnlyGiven (front : FrontEnd) (m : TransmitRequest) : Prop :=
  ∀ isOk module frame, RadioCall.transmit module frame ∈ front.calls isOk (.transmit m) →
    frame <+: bytes m.getFrame.data ∧ frame.length ≤ 4 * m.getFrame.data.length

/-- **Only bytes of the request are sent exactly when it has as many as it claims**, whatever the front end handled
before. -/
theorem sends_only_given_iff {front : FrontEnd} (hf : front.Ready) (m : TransmitRequest) :
    SendsOnlyGiven front m ↔ m.getFrame.length.toNat ≤ 4 * m.getFrame.data.length := by
  obtain ⟨x, hx, hcalls⟩ := calls_eq hf (.transmit m)
  cases x with
  | configure config => exact absurd hx id
  | transmit frame =>
    have hx : frame = packBuffer m.getFrame [] := hx.trans (packBuffer_eq m.getFrame []).symm
    constructor
    · intro h
      have hframe := (h true _ frame (hcalls true ▸ List.mem_cons_self)).1
      rwa [hx, packBuffer_prefix_iff] at hframe
    · intro h isOk module frame' hmem
      rw [hcalls isOk] at hmem
      cases List.mem_singleton.mp hmem
      refine ⟨?_, ?_⟩
      · rwa [hx, packBuffer_prefix_iff]
      · rwa [hx, packBuffer_eq, length_resize]

/-- A frame that claims three of its four bytes. -/
theorem sends_only_given_three :
    SendsOnlyGiven (.grpc { radioService := true }) { frame := some { data := [1], length := 3 } } :=
  have hf : Ready (.grpc { radioService := true }) := rfl
  (sends_only_given_iff hf _).mpr (by decide)

/-- One word, and a length of five: a zero is sent with it. -/
theorem claimed_length_sent : ¬∀ (front : FrontEnd) (m : TransmitRequest), front.Ready → SendsOnlyGiven front m := by
  intro h
  have h := h (.grpc { radioService := true }) { frame := some { data := [1], length := 5 } } rfl
  exact absurd (h true _ _ List.mem_cons_self).2 (by decide)

end FrontEnd

end KaonicComm
