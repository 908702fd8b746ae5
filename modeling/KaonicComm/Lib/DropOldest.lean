import Mathlib.Data.List.Perm.Basic
import Mathlib.Data.List.Infix

/-!
# A bounded queue that drops its oldest element

`DropOldest α cap` is such a queue together with its history: everything that arrived, was taken and was dropped, each
in order. The structure carries what the queue is for: it holds at most `cap` elements (`bound`), always the newest
ones (`block`), elements are taken in the order in which they arrived (`order`), and nothing is in two places or
missing (`parts`). `push` and `take` build the next queue, so every queue built with them has these properties.
-/

/-- A bounded queue with its history. -/
structure DropOldest (α : Type*) (cap : Nat) where
  arrived : List α
  queue : List α
  taken : List α
  dropped : List α
  /-- The bound of the queue. -/
  bound : queue.length ≤ cap
  /-- The queue holds the newest elements. -/
  block : queue <:+ arrived
  /-- Elements are taken in the order of their arrival. -/
  order : (taken ++ queue).Sublist arrived
  /-- Every element is at exactly one place. -/
  parts : (taken ++ dropped ++ queue).Perm arrived

namespace DropOldest

variable {α : Type*} {cap : Nat}

/-- The empty queue. -/
def empty : DropOldest α cap where
  arrived := []
  queue := []
  taken := []
  dropped := []
  bound := Nat.zero_le _
  block := List.suffix_refl _
  order := List.Sublist.refl _
  parts := List.Perm.refl _

/-- An element arrives at a queue with room for it. -/
def append (d : DropOldest α cap) (x : α) (h : d.queue.length < cap) : DropOldest α cap where
  arrived := d.arrived ++ [x]
  queue := d.queue ++ [x]
  taken := d.taken
  dropped := d.dropped
  bound := by
    rw [List.length_append]
    exact h
  block := (List.suffix_append_inj_of_length_eq rfl).mpr ⟨d.block, rfl⟩
  order := by
    rw [← List.append_assoc]
    exact d.order.append (List.Sublist.refl _)
  parts := by
    rw [← List.append_assoc]
    exact d.parts.append_right _

/-- The oldest element is dropped. -/
def drop (d : DropOldest α cap) : DropOldest α cap where
  arrived := d.arrived
  queue := d.queue.tail
  taken := d.taken
  dropped := d.dropped ++ d.queue.head?.toList
  bound := (by simp : d.queue.tail.length ≤ d.queue.length).trans d.bound
  block := (List.tail_suffix _).trans d.block
  order := (List.Sublist.append (List.Sublist.refl _) (List.tail_sublist _)).trans d.order
  parts := by
    have h : d.queue.head?.toList ++ d.queue.tail = d.queue := by cases d.queue <;> rfl
    rw [← List.append_assoc, List.append_assoc, h]
    exact d.parts

/-- The oldest element is taken. -/
def take (d : DropOldest α cap) : DropOldest α cap where
  arrived := d.arrived
  queue := d.queue.tail
  taken := d.taken ++ d.queue.head?.toList
  dropped := d.dropped
  bound := (by simp : d.queue.tail.length ≤ d.queue.length).trans d.bound
  block := (List.tail_suffix _).trans d.block
  order := by
    have h : d.queue.head?.toList ++ d.queue.tail = d.queue := by cases d.queue <;> rfl
    rw [List.append_assoc, h]
    exact d.order
  parts := by
    cases h : d.queue with
    | nil => simpa [h] using d.parts
    | cons q rest =>
      have hp := d.parts
      rw [h] at hp
      refine List.Perm.trans ?_ hp
      simp only [List.head?_cons, Option.toList_some, List.tail_cons, List.append_assoc, List.singleton_append]
      exact List.Perm.append_left _ List.perm_middle.symm

theorem length_drop (d : DropOldest α cap) (h : 0 < cap) (hfull : cap ≤ d.queue.length) :
    d.drop.queue.length < cap := by
  have hb := d.bound
  simp only [drop, List.length_tail]
  omega

/-- **An element arrives**: a full queue drops its oldest element first. -/
def push (d : DropOldest α cap) (h : 0 < cap) (x : α) : DropOldest α cap :=
  if hfull : cap ≤ d.queue.length then d.drop.append x (d.length_drop h hfull)
  else d.append x (Nat.lt_of_not_le hfull)

/-- **What is neither queued nor taken was dropped**, and nothing else was. -/
theorem missing_iff (d : DropOldest α cap) (hnd : d.arrived.Nodup) {x : α} (hx : x ∈ d.arrived) :
    x ∉ d.queue ∧ x ∉ d.taken ↔ x ∈ d.dropped := by
  have hmem := d.parts.mem_iff.mpr hx
  have hnd' := d.parts.nodup_iff.mpr hnd
  simp only [List.mem_append] at hmem
  rw [List.append_assoc, List.nodup_append, List.nodup_append] at hnd'
  obtain ⟨-, ⟨-, -, hdq⟩, ht⟩ := hnd'
  constructor
  · rintro ⟨hq, htk⟩
    rcases hmem with (h | h) | h
    · exact absurd h htk
    · exact h
    · exact absurd h hq
  · exact fun h => ⟨fun hq => hdq x h x hq rfl, fun htk => ht x htk x (List.mem_append_left _ h) rfl⟩

end DropOldest
