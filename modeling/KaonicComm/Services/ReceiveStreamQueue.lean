import KaonicComm.Lib.DropOldest
import KaonicComm.Services.ReceiveStreamDefs
import Mathlib.Data.List.Nodup

/-!
# The receive queue drops its oldest frame

The queue of the receive path with its history is a `DropOldest` queue of 64 frames: `receive_frame` pushes
(`receiveFrame_refines`), a successful `pop_frame` takes (`popFrame_refines`), and nothing else touches it
(`refines_run`). The arrival numbers tell all frames apart (`arrivals_run`), and a frame is in the history of dropped
frames exactly when some `receive_frame` found it the oldest of 64 queued frames (`evicted_iff`).
-/

namespace KaonicComm.ReceiveStream

open Runs

/-- The queue and its history in the service state. -/
def Refines (s : State) (d : DropOldest Queued 64) : Prop :=
  s.frameQueue = d.queue ∧ s.received = d.arrived ∧ s.pops.map Prod.snd = d.taken ∧ s.evicted = d.dropped

/-! ## Single steps -/

theorem receiveFrame_refines {s : State} {d : DropOldest Queued 64} (h : Refines s d) (buffer : List UInt8) :
    Refines (receiveFrame s buffer) (d.push (by decide) ⟨s.received.length, buffer⟩) := by
  obtain ⟨hq, hr, hp, he⟩ := h
  unfold receiveFrame DropOldest.push
  by_cases hfull : 64 ≤ d.queue.length
  · have hs : s.frameQueue.length ≥ 64 := by rw [hq]; exact hfull
    simp only [hs, hfull, ↓reduceIte, ↓reduceDIte]
    refine ⟨?_, ?_, hp, ?_⟩
    · simp only [DropOldest.append, DropOldest.drop, hq]
    · simp only [DropOldest.append, DropOldest.drop, hr]
    · simp only [DropOldest.append, DropOldest.drop, hq, he]
  · have hs : ¬s.frameQueue.length ≥ 64 := by rw [hq]; exact hfull
    simp only [hs, hfull, ↓reduceIte, ↓reduceDIte]
    exact ⟨by simp only [DropOldest.append, hq], by simp only [DropOldest.append, hr], hp, he⟩

theorem popFrame_refines {s s' : State} {d : DropOldest Queued 64} {i : Nat} {q : Queued} (h : Refines s d)
    (hpop : popFrame s i = (some q, s')) : Refines s' d.take := by
  obtain ⟨hq, hr, hp, he⟩ := h
  unfold popFrame at hpop
  split at hpop
  · cases hpop
  · rename_i q' rest hs
    cases hpop
    have hd : d.queue = q :: rest := by rw [← hq, hs]
    refine ⟨by simp only [DropOldest.take, hd, List.tail_cons], hr, ?_, he⟩
    simp only [DropOldest.take, hd, List.map_append, hp, List.map_cons, List.map_nil, List.head?_cons,
      Option.toList_some]

/-- What a step of one call does to the queue and its history. -/
theorem step_queue {s s' : State} {a : Act} (h : step s a = some s') :
    (∃ buffer, a = .receiveFrame buffer ∧ s' = receiveFrame s buffer) ∨
    (∃ i q t, a = .popFrame i ∧ popFrame s i = (some q, t) ∧
      s' = { t with pc := Function.update t.pc i (.popped q) }) ∨
    (s'.frameQueue = s.frameQueue ∧ s'.received = s.received ∧ s'.pops = s.pops ∧ s'.evicted = s.evicted ∧
      ∀ buffer, a ≠ .receiveFrame buffer) := by
  cases a with
  | receiveFrame buffer => exact Or.inl ⟨buffer, rfl, by simpa [step] using h.symm⟩
  | openStream i =>
    obtain ⟨-, rfl | rfl⟩ := step_openStream h
    · exact Or.inr (Or.inr ⟨rfl, rfl, rfl, rfl, fun _ ha => (by cases ha)⟩)
    · exact Or.inr (Or.inr ⟨rfl, rfl, rfl, rfl, fun _ ha => (by cases ha)⟩)
  | cancel i =>
    obtain ⟨-, rfl⟩ := step_cancel h
    exact Or.inr (Or.inr ⟨rfl, rfl, rfl, rfl, fun _ ha => (by cases ha)⟩)
  | popFrame i =>
    obtain ⟨-, ⟨-, rfl⟩ | ⟨q, rest, hq, rfl⟩⟩ := step_popFrame h
    · exact Or.inr (Or.inr ⟨rfl, rfl, rfl, rfl, fun _ ha => (by cases ha)⟩)
    · have hpop : popFrame s i = (some q, (popFrame s i).2) := by simp only [popFrame, hq]
      refine Or.inr (Or.inl ⟨i, q, _, rfl, hpop, ?_⟩)
      simp only [popFrame, hq]
  | unpack i =>
    obtain ⟨q, -, rfl⟩ := step_unpack h
    exact Or.inr (Or.inr ⟨rfl, rfl, rfl, rfl, fun _ ha => (by cases ha)⟩)
  | write i ok =>
    obtain ⟨q, -, rfl⟩ := step_write h
    exact Or.inr (Or.inr ⟨rfl, rfl, rfl, rfl, fun _ ha => (by cases ha)⟩)

/-! ## Runs -/

theorem refines_init (r : Bool) : Refines (init r) DropOldest.empty := ⟨rfl, rfl, rfl, rfl⟩

theorem refines_step {s s' : State} {a : Act} (hs : ∃ d, Refines s d) (h : step s a = some s') :
    ∃ d, Refines s' d := by
  obtain ⟨d, hd⟩ := hs
  rcases step_queue h with ⟨buffer, -, rfl⟩ | ⟨i, q, t, -, hpop, rfl⟩ | ⟨hq, hr, hp, he, -⟩
  · exact ⟨_, receiveFrame_refines hd buffer⟩
  · have ht := popFrame_refines hd hpop
    exact ⟨_, ht.1, ht.2⟩
  · exact ⟨d, by rw [hq]; exact hd.1, by rw [hr]; exact hd.2.1, by rw [hp]; exact hd.2.2.1, by rw [he]; exact hd.2.2.2⟩

/-- **Every reachable queue is a `DropOldest` queue.** -/
theorem refines_run {r : Bool} {as : List Act} {s : State} (h : run step (init r) as = some s) :
    ∃ d, Refines s d := run_keeps (fun _ _ _ => refines_step) ⟨_, refines_init r⟩ h

theorem receiveFrame_received (s : State) (buffer : List UInt8) :
    (receiveFrame s buffer).received = s.received ++ [⟨s.received.length, buffer⟩] := by
  unfold receiveFrame
  split <;> rfl

theorem popFrame_received (s : State) (i : Nat) : (popFrame s i).2.received = s.received := by
  unfold popFrame
  split <;> rfl

theorem popFrame_evicted (s : State) (i : Nat) : (popFrame s i).2.evicted = s.evicted := by
  unfold popFrame
  split <;> rfl

/-- Frames are numbered as they arrive. -/
theorem arrivals_run {r : Bool} {as : List Act} {s : State} (h : run step (init r) as = some s) :
    s.received.map Queued.arrival = List.range s.received.length := by
  refine run_keeps (I := fun s => s.received.map Queued.arrival = List.range s.received.length) ?_ rfl h
  intro s a s' hs hstep
  rcases step_queue hstep with ⟨buffer, -, rfl⟩ | ⟨i, q, t, -, hpop, rfl⟩ | ⟨-, hr, -, -, -⟩
  · rw [receiveFrame_received, List.map_append, hs, List.length_append, List.length_singleton, List.range_succ]
    rfl
  · have ht : t.received = s.received := by rw [← popFrame_received s i, hpop]
    simpa only [ht] using hs
  · rw [hr]
    exact hs

/-- The history of received frames is what the run's `receive_frame` calls were given. -/
theorem received_run {r : Bool} {as : List Act} {s : State} (h : run step (init r) as = some s) :
    s.received.map Queued.buffer = as.filterMap Act.frame? := by
  induction as using List.reverseRecOn generalizing s with
  | nil =>
    cases h
    rfl
  | append_singleton as a ih =>
    obtain ⟨t, ht, hstep⟩ := run_concat.mp h
    rw [List.filterMap_append, ← ih ht]
    rcases step_queue hstep with ⟨buffer, rfl, rfl⟩ | ⟨i, q, t', rfl, hpop, rfl⟩ | ⟨-, hr, -, -, hne⟩
    · simp [receiveFrame_received, Act.frame?]
    · have ht' : t'.received = t.received := by rw [← popFrame_received t i, hpop]
      simp [ht', Act.frame?]
    · have hf : a.frame? = none := by
        cases a with
        | receiveFrame buffer => exact absurd rfl (hne buffer)
        | _ => rfl
      simp [hr, hf]

theorem received_nodup {r : Bool} {as : List Act} {s : State} (h : run step (init r) as = some s) :
    s.received.Nodup := by
  apply List.Nodup.of_map Queued.arrival
  rw [arrivals_run h]
  exact List.nodup_range

/-! ## Dropped frames -/

/-- During the run, some `receive_frame` found `q` the oldest of 64 queued frames. -/
def FoundOldest (r : Bool) (as : List Act) (q : Queued) : Prop :=
  ∃ as₁ buffer as₂ t, as = as₁ ++ .receiveFrame buffer :: as₂ ∧ run step (init r) as₁ = some t ∧
    t.frameQueue.length = 64 ∧ t.frameQueue.head? = some q

theorem foundOldest_concat {r : Bool} {as : List Act} {a : Act} {q : Queued} :
    FoundOldest r (as ++ [a]) q ↔ FoundOldest r as q ∨
      ∃ buffer t, a = .receiveFrame buffer ∧ run step (init r) as = some t ∧ t.frameQueue.length = 64 ∧
        t.frameQueue.head? = some q := by
  constructor
  · rintro ⟨as₁, buffer, as₂, t, he, ht⟩
    rcases List.eq_nil_or_concat as₂ with rfl | ⟨as₂, b, rfl⟩
    · obtain ⟨rfl, hb⟩ := List.append_inj' he rfl
      cases hb
      exact Or.inr ⟨buffer, t, rfl, ht⟩
    · rw [List.concat_eq_append, ← List.cons_append, ← List.append_assoc] at he
      obtain ⟨rfl, -⟩ := List.append_inj' he rfl
      exact Or.inl ⟨as₁, buffer, as₂, t, rfl, ht⟩
  · rintro (⟨as₁, buffer, as₂, t, rfl, ht⟩ | ⟨buffer, t, rfl, ht⟩)
    · exact ⟨as₁, buffer, as₂ ++ [a], t, by simp, ht⟩
    · exact ⟨as, buffer, [], t, rfl, ht⟩

theorem receiveFrame_evicted {s : State} (hlen : s.frameQueue.length ≤ 64) (buffer : List UInt8) (q : Queued) :
    q ∈ (receiveFrame s buffer).evicted ↔
      q ∈ s.evicted ∨ (s.frameQueue.length = 64 ∧ s.frameQueue.head? = some q) := by
  unfold receiveFrame
  by_cases hfull : s.frameQueue.length ≥ 64
  · have h64 : s.frameQueue.length = 64 := by omega
    simp [h64]
  · have h64 : s.frameQueue.length ≠ 64 := by omega
    simp [hfull, h64]

/-- **The history of dropped frames** is what it says. -/
theorem evicted_iff {r : Bool} {as : List Act} {s : State} (h : run step (init r) as = some s) (q : Queued) :
    q ∈ s.evicted ↔ FoundOldest r as q := by
  induction as using List.reverseRecOn generalizing s with
  | nil =>
    cases h
    constructor
    · nofun
    · rintro ⟨as₁, _, _, _, he, -⟩
      simp at he
  | append_singleton as a ih =>
    obtain ⟨t, ht, hstep⟩ := run_concat.mp h
    obtain ⟨d, hd⟩ := refines_run ht
    have hlen : t.frameQueue.length ≤ 64 := by rw [hd.1]; exact d.bound
    have ht' : ∀ t', run step (init r) as = some t' ↔ t' = t := fun t' => by
      rw [ht, Option.some.injEq, eq_comm]
    rw [foundOldest_concat, ← ih ht]
    rcases step_queue hstep with ⟨buffer, rfl, rfl⟩ | ⟨i, q', t', rfl, hpop, rfl⟩ | ⟨-, -, -, he, hne⟩
    · rw [receiveFrame_evicted hlen]
      simp [ht']
    · have hev : t'.evicted = t.evicted := by rw [← popFrame_evicted t i, hpop]
      simp [hev]
    · simp [he, hne]

end KaonicComm.ReceiveStream
