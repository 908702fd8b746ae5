import Mathlib.Algebra.Group.Nat.Defs
import Mathlib.Data.List.Basic

/-!
# Byte buffers and little-endian words

- `resize`, `memcpy`: what `std::vector::resize` (or a repeated field's `Resize`) and `memcpy` do to a buffer;
- `pwrite`: what a write at an offset does to a file. What is required of the bytes at each place (`Each`) is kept by it
  (`Each.pwrite`), and chunk after chunk of one source makes up the source (`pwrite_take`);
- `bytes`, `words`: a list of 32-bit words as it lies in little-endian memory, and back (`bytes_words`,
  `words_bytes`); resizing the words resizes the memory (`bytes_resize`).
-/

namespace Bytes

variable {α : Type*}

/-- A buffer cut or filled up with `x` to length `n`. -/
def resize (v : List α) (n : Nat) (x : α) : List α := v.take n ++ List.replicate (n - v.length) x

/-- The memory `dst` with its first bytes overwritten by `src`. -/
def memcpy (dst src : List α) : List α := src ++ dst.drop src.length

@[simp] theorem length_resize (v : List α) (n : Nat) (x : α) : (resize v n x).length = n := by
  simp only [resize, List.length_append, List.length_take, List.length_replicate]
  omega

theorem length_memcpy {dst src : List α} (h : src.length ≤ dst.length) : (memcpy dst src).length = dst.length := by
  simp only [memcpy, List.length_append, List.length_drop]
  omega

/-- A buffer overwritten over its whole length. -/
theorem memcpy_all {dst src : List α} (h : dst.length = src.length) : memcpy dst src = src := by
  rw [memcpy, List.drop_of_length_le (Nat.le_of_eq h), List.append_nil]

/-- Cutting an overwritten buffer to what was written. -/
theorem resize_memcpy {dst src : List α} (x : α) : resize (memcpy dst src) src.length x = src := by
  have hlen : src.length - (memcpy dst src).length = 0 := by simp [memcpy]
  rw [resize, hlen, memcpy, List.take_left]
  simp

/-- Behind some place of a resized buffer there is only fill, exactly when what was kept there is fill already. -/
theorem drop_resize_eq_replicate_iff (v : List α) (n k : Nat) (x : α) :
    (resize v n x).drop k = List.replicate (n - k) x ↔ ∀ b ∈ (v.take n).drop k, b = x := by
  rw [List.eq_replicate_iff, List.length_drop, length_resize, resize, List.drop_append]
  constructor
  · rintro ⟨-, h⟩ b hb
    exact h b (List.mem_append_left _ hb)
  · refine fun h => ⟨rfl, fun b hb => ?_⟩
    rcases List.mem_append.mp hb with hb | hb
    · exact h b hb
    · exact List.eq_of_mem_replicate (List.mem_of_mem_drop hb)

/-- A resized buffer is a part of the buffer exactly when it is not longer. -/
theorem resize_prefix_iff (v : List α) (n : Nat) (x : α) : resize v n x <+: v ↔ n ≤ v.length := by
  constructor
  · intro h
    have hle := h.length_le
    rwa [length_resize] at hle
  · intro h
    rw [resize, Nat.sub_eq_zero_of_le h, List.replicate_zero, List.append_nil]
    exact List.take_prefix n v

/-! ## Writing at an offset -/

/-- The file with `bytes` written at `offset`; a gap behind its end is filled up with `x`. -/
def pwrite (file : List α) (offset : Nat) (bytes : List α) (x : α) : List α :=
  resize file offset x ++ bytes ++ file.drop (offset + bytes.length)

/-- Writing the next part of a list behind its first part. -/
theorem pwrite_take {z bytes : List α} {offset : Nat} (h : offset ≤ z.length) (hpre : bytes <+: z.drop offset) (x : α) :
    pwrite (z.take offset) offset bytes x = z.take (offset + bytes.length) := by
  have hlen : (z.take offset).length = offset := List.length_take_of_le h
  have hkept : resize (z.take offset) offset x = z.take offset := by
    rw [resize, hlen, Nat.sub_self, List.replicate_zero, List.append_nil, List.take_take, Nat.min_self]
  have hdrop : (z.take offset).drop (offset + bytes.length) = [] := List.drop_of_length_le (by omega)
  rw [pwrite, hkept, hdrop, List.append_nil, List.take_add, ← List.prefix_iff_eq_take.mp hpre]

/-- What is required of a byte at each place holds of all the bytes. -/
def Each (P : Nat → α → Prop) (v : List α) : Prop := ∀ i b, v[i]? = some b → P i b

section Each

variable {P : Nat → α → Prop} {v w : List α}

theorem each_nil : Each P ([] : List α) := nofun

theorem Each.imp {Q : Nat → α → Prop} (h : Each P v) (hPQ : ∀ i b, P i b → Q i b) : Each Q v :=
  fun i b hb => hPQ i b (h i b hb)

theorem Each.take (h : Each P v) (n : Nat) : Each P (v.take n) := by
  intro i b hb
  rw [List.getElem?_take] at hb
  split at hb
  · exact h i b hb
  · cases hb

theorem Each.drop (h : Each P v) (n : Nat) : Each (fun i => P (n + i)) (v.drop n) := by
  intro i b hb
  rw [List.getElem?_drop] at hb
  exact h (n + i) b hb

/-- A list in two parts. -/
theorem Each.append (h : Each P v) (h' : Each (fun i => P (v.length + i)) w) : Each P (v ++ w) := by
  intro i b hb
  rcases Nat.lt_or_ge i v.length with hlt | hge
  · rw [List.getElem?_append_left hlt] at hb
    exact h i b hb
  · rw [List.getElem?_append_right hge] at hb
    have hplace : P (v.length + (i - v.length)) b := h' (i - v.length) b hb
    rwa [Nat.add_sub_cancel' hge] at hplace

theorem each_replicate {x : α} (h : ∀ i, P i x) (n : Nat) : Each P (List.replicate n x) := by
  intro i b hb
  rw [List.eq_of_mem_replicate (List.mem_of_getElem? hb)]
  exact h i

/-- **A write keeps what is required at each place**, when it holds of the fill and of what is written, where it goes.
-/
theorem Each.pwrite {x : α} {offset : Nat} (h : Each P v) (hx : ∀ i, P i x)
    (hw : Each (fun i => P (offset + i)) w) : Each P (pwrite v offset w x) := by
  have hkept : Each P (resize v offset x) :=
    (h.take offset).append (each_replicate (fun _ => hx _) _)
  have hlen : (resize v offset x ++ w).length = offset + w.length := by
    rw [List.length_append, length_resize]
  refine (hkept.append ?_).append ?_
  · rw [length_resize]
    exact hw
  · rw [hlen]
    exact h.drop _

end Each

/-! ## Words -/

/-- The four bytes of a word, lowest first. -/
def ofWord (w : UInt32) : List UInt8 :=
  [UInt8.ofNat w.toNat, UInt8.ofNat (w.toNat / 2 ^ 8), UInt8.ofNat (w.toNat / 2 ^ 16), UInt8.ofNat (w.toNat / 2 ^ 24)]

/-- The word of four bytes, lowest first. -/
def toWord (b₀ b₁ b₂ b₃ : UInt8) : UInt32 :=
  UInt32.ofNat (b₀.toNat + b₁.toNat * 2 ^ 8 + b₂.toNat * 2 ^ 16 + b₃.toNat * 2 ^ 24)

/-- A list of words in memory. -/
def bytes (ws : List UInt32) : List UInt8 := ws.flatMap ofWord

/-- The words of a piece of memory; a rest shorter than a word is left out. -/
def words : List UInt8 → List UInt32
  | b₀ :: b₁ :: b₂ :: b₃ :: bs => toWord b₀ b₁ b₂ b₃ :: words bs
  | _ => []

theorem bytes_cons (w : UInt32) (ws : List UInt32) : bytes (w :: ws) = ofWord w ++ bytes ws := rfl

@[simp] theorem length_bytes (ws : List UInt32) : (bytes ws).length = 4 * ws.length := by
  induction ws with
  | nil => rfl
  | cons w ws ih =>
    rw [bytes_cons, List.length_append, ih]
    simp only [ofWord, List.length_cons, List.length_nil]
    omega

theorem ofWord_toWord (b₀ b₁ b₂ b₃ : UInt8) : ofWord (toWord b₀ b₁ b₂ b₃) = [b₀, b₁, b₂, b₃] := by
  have h₀ := b₀.toNat_lt
  have h₁ := b₁.toNat_lt
  have h₂ := b₂.toNat_lt
  have h₃ := b₃.toNat_lt
  have hw : (toWord b₀ b₁ b₂ b₃).toNat =
      b₀.toNat + b₁.toNat * 2 ^ 8 + b₂.toNat * 2 ^ 16 + b₃.toNat * 2 ^ 24 := by
    rw [toWord, UInt32.toNat_ofNat', Nat.mod_eq_of_lt (by omega)]
  simp only [ofWord, hw, List.cons.injEq, and_true]
  refine ⟨?_, ?_, ?_, ?_⟩ <;> apply UInt8.toNat_inj.mp <;> rw [UInt8.toNat_ofNat'] <;> omega

theorem toWord_ofWord (w : UInt32) (bs : List UInt8) : words (ofWord w ++ bs) = w :: words bs := by
  have hw := w.toNat_lt
  simp only [ofWord, List.cons_append, List.nil_append, words, List.cons.injEq, and_true]
  apply UInt32.toNat_inj.mp
  rw [toWord, UInt32.toNat_ofNat']
  simp only [UInt8.toNat_ofNat']
  omega

/-- Memory of whole words is the memory of its words. -/
theorem bytes_words : ∀ {n : Nat} {bs : List UInt8}, bs.length = 4 * n → bytes (words bs) = bs
  | 0, bs, h => by
    rw [List.length_eq_zero_iff.mp h]
    rfl
  | n + 1, b₀ :: b₁ :: b₂ :: b₃ :: bs, h => by
    rw [words, bytes_cons, ofWord_toWord, bytes_words (n := n) (by simp only [List.length_cons] at h; omega)]
    rfl
  | _ + 1, [], h | _ + 1, [_], h | _ + 1, [_, _], h | _ + 1, [_, _, _], h => by
    simp only [List.length_cons, List.length_nil] at h
    omega

/-- The words of the memory of some words. -/
theorem words_bytes (ws : List UInt32) : words (bytes ws) = ws := by
  induction ws with
  | nil => rfl
  | cons w ws ih => rw [bytes_cons, toWord_ofWord, ih]

/-- The first words of a list lie in the first bytes of its memory. -/
theorem bytes_take (ws : List UInt32) (n : Nat) : bytes (ws.take n) = (bytes ws).take (4 * n) := by
  induction ws generalizing n with
  | nil => simp [bytes]
  | cons w ws ih =>
    cases n with
    | zero => rfl
    | succ n =>
      have hword : (ofWord w).length = 4 := rfl
      have hrest : 4 * (n + 1) - 4 = 4 * n := by omega
      have htake : (ofWord w).take (4 * (n + 1)) = ofWord w := List.take_of_length_le (by omega)
      rw [List.take_succ_cons, bytes_cons, bytes_cons, ih, List.take_append, hword, hrest, htake]

theorem bytes_replicate (n : Nat) : bytes (List.replicate n 0) = List.replicate (4 * n) 0 := by
  induction n with
  | zero => rfl
  | succ n ih =>
    rw [List.replicate_succ, bytes_cons, ih]
    rfl

/-- Resizing words resizes their memory. -/
theorem bytes_resize (ws : List UInt32) (n : Nat) : bytes (resize ws n 0) = resize (bytes ws) (4 * n) 0 := by
  have hfill : 4 * n - (bytes ws).length = 4 * (n - ws.length) := by
    rw [length_bytes]
    omega
  rw [resize, resize, hfill, ← bytes_take, ← bytes_replicate]
  exact List.flatMap_append

end Bytes
