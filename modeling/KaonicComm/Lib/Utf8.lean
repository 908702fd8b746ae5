import Mathlib.Data.List.Basic

/-!
# UTF-8

`decode` reads a list of bytes as text and refuses what is not well formed: stray or missing continuation bytes,
overlong forms, surrogates and values past the last code point. The text of a beginning of the bytes, where it is well
formed, is a beginning of the text (`decode_isPrefix`). `encode` writes a text, which is read back (`decode_encode`).
-/

namespace Utf8

def isContinuation (b : UInt8) : Bool := 0x80 ≤ b ∧ b < 0xC0

/-- The value of a lead byte without its length bits, followed by continuation bytes. -/
def value (lead : Nat) (bs : List UInt8) : Nat := bs.foldl (fun n b => n * 64 + (b.toNat - 0x80)) lead

/-- The first code point, and the bytes after it. -/
def decodeOne : List UInt8 → Option (Nat × List UInt8)
  | [] => none
  | b₀ :: rest =>
    if b₀ < 0x80 then some (b₀.toNat, rest)
    else if 0xC2 ≤ b₀ ∧ b₀ < 0xE0 then
      match rest with
      | b₁ :: rest => if isContinuation b₁ then some (value (b₀.toNat - 0xC0) [b₁], rest) else none
      | _ => none
    else if 0xE0 ≤ b₀ ∧ b₀ < 0xF0 then
      match rest with
      | b₁ :: b₂ :: rest =>
        let n := value (b₀.toNat - 0xE0) [b₁, b₂]
        if isContinuation b₁ ∧ isContinuation b₂ ∧ 0x800 ≤ n ∧ ¬(0xD800 ≤ n ∧ n < 0xE000) then some (n, rest) else none
      | _ => none
    else if 0xF0 ≤ b₀ ∧ b₀ < 0xF5 then
      match rest with
      | b₁ :: b₂ :: b₃ :: rest =>
        let n := value (b₀.toNat - 0xF0) [b₁, b₂, b₃]
        if isContinuation b₁ ∧ isContinuation b₂ ∧ isContinuation b₃ ∧ 0x10000 ≤ n ∧ n < 0x110000 then some (n, rest)
        else none
      | _ => none
    else none

/-- At most `fuel` code points. -/
def decodeFrom : Nat → List UInt8 → Option (List Char)
  | _, [] => some []
  | 0, _ :: _ => none
  | fuel + 1, b :: bs =>
    match decodeOne (b :: bs) with
    | none => none
    | some (n, rest) => (decodeFrom fuel rest).map (Char.ofNat n :: ·)

/-- The text of a list of bytes. -/
def decode (bs : List UInt8) : Option (List Char) := decodeFrom bs.length bs

/-- A code point is read from its own bytes. -/
theorem decodeOne_append {bs rest : List UInt8} {n : Nat} (h : decodeOne bs = some (n, rest)) (more : List UInt8) :
    decodeOne (bs ++ more) = some (n, rest ++ more) := by
  match bs with
  | [] => cases h
  | b₀ :: bs =>
    rw [List.cons_append]
    simp only [decodeOne] at h ⊢
    split at h
    · rename_i h₀
      cases h
      rw [if_pos h₀]
    · rename_i h₀
      rw [if_neg h₀]
      split at h
      · rename_i h₁
        rw [if_pos h₁]
        split at h
        · split at h
          · rename_i hc
            obtain ⟨rfl, rfl⟩ := Prod.mk.inj (Option.some.inj h)
            simp only [List.cons_append]
            rw [if_pos hc]
          · cases h
        · cases h
      · rename_i h₁
        rw [if_neg h₁]
        split at h
        · rename_i h₂
          rw [if_pos h₂]
          split at h
          · split at h
            · rename_i hc
              obtain ⟨rfl, rfl⟩ := Prod.mk.inj (Option.some.inj h)
              simp only [List.cons_append]
              rw [if_pos hc]
            · cases h
          · cases h
        · rename_i h₂
          rw [if_neg h₂]
          split at h
          · rename_i h₃
            rw [if_pos h₃]
            split at h
            · split at h
              · rename_i hc
                obtain ⟨rfl, rfl⟩ := Prod.mk.inj (Option.some.inj h)
                simp only [List.cons_append]
                rw [if_pos hc]
              · cases h
            · cases h
          · cases h

theorem decodeFrom_isPrefix : ∀ {f g : Nat} {bs more : List UInt8} {cs ds : List Char},
    decodeFrom f bs = some cs → decodeFrom g (bs ++ more) = some ds → cs <+: ds
  | _, _, [], _, cs, ds, hcs, _ => by
    have h : cs = [] := by
      rw [decodeFrom.eq_def] at hcs
      cases hcs
      rfl
    rw [h]
    exact List.nil_prefix
  | 0, _, _ :: _, _, _, _, hcs, _ => by cases hcs
  | f + 1, 0, b :: bs, more, cs, ds, _, hds => by cases hds
  | f + 1, g + 1, b :: bs, more, cs, ds, hcs, hds => by
    simp only [decodeFrom] at hcs
    split at hcs
    · cases hcs
    · rename_i n rest hone
      have hone' := decodeOne_append hone more
      rw [List.cons_append] at hds hone'
      simp only [decodeFrom, hone'] at hds
      obtain ⟨cs', hcs', rfl⟩ := Option.map_eq_some_iff.mp hcs
      obtain ⟨ds', hds', rfl⟩ := Option.map_eq_some_iff.mp hds
      rw [List.cons_prefix_cons]
      exact ⟨rfl, decodeFrom_isPrefix hcs' hds'⟩

/-- **The text of a beginning is a beginning of the text.** -/
theorem decode_isPrefix {bs bs' : List UInt8} {cs cs' : List Char} (h : bs <+: bs') (hcs : decode bs = some cs)
    (hcs' : decode bs' = some cs') : cs <+: cs' := by
  obtain ⟨more, rfl⟩ := h
  exact decodeFrom_isPrefix hcs hcs'

theorem decodeFrom_ascii : ∀ {bs : List UInt8}, (∀ b ∈ bs, b < 0x80) → ∀ fuel, bs.length ≤ fuel →
    decodeFrom fuel bs = some (bs.map fun b => Char.ofNat b.toNat)
  | [], _, fuel, _ => by cases fuel <;> rfl
  | b :: bs, h, 0, hfuel => absurd hfuel (Nat.not_succ_le_zero _)
  | b :: bs, h, fuel + 1, hfuel => by
    have hrest := decodeFrom_ascii (fun d hd => h d (List.mem_cons_of_mem _ hd)) fuel (Nat.le_of_succ_le_succ hfuel)
    simp only [decodeFrom, decodeOne, if_pos (h b List.mem_cons_self), hrest, Option.map_some, List.map_cons]

/-- ASCII bytes are a text. -/
theorem decode_ascii {bs : List UInt8} (h : ∀ b ∈ bs, b < 0x80) :
    decode bs = some (bs.map fun b => Char.ofNat b.toNat) :=
  decodeFrom_ascii h _ (Nat.le_refl _)

/-! ## Encoding -/

/-- The bytes of a text. -/
def encode (cs : List Char) : List UInt8 := cs.flatMap String.utf8EncodeChar

theorem toNat_ofNat {n : Nat} (h : n < 256) : (UInt8.ofNat n).toNat = n := by
  rw [UInt8.toNat_ofNat', Nat.mod_eq_of_lt h]

/-- A byte with a bound on its value. -/
theorem lt_iff {n : Nat} {b : UInt8} (hn : n < 256) : UInt8.ofNat n < b ↔ n < b.toNat := by
  rw [UInt8.lt_iff_toNat_lt, toNat_ofNat hn]

theorem le_iff {n : Nat} {b : UInt8} (hn : n < 256) : b ≤ UInt8.ofNat n ↔ b.toNat ≤ n := by
  rw [UInt8.le_iff_toNat_le, toNat_ofNat hn]

theorem isContinuation_ofNat {n : Nat} (h : n < 64) : isContinuation (UInt8.ofNat (n + 0x80)) = true := by
  have hn : n + 0x80 < 256 := by omega
  rw [isContinuation, decide_eq_true_eq, le_iff hn, lt_iff hn]
  exact ⟨Nat.le_add_left _ _, Nat.add_lt_add_right h 0x80⟩

theorem decodeOne_one {v : Nat} (h : v < 0x80) (rest : List UInt8) :
    decodeOne (UInt8.ofNat v :: rest) = some (v, rest) := by
  have hv : v < 256 := by omega
  have hlt : UInt8.ofNat v < 0x80 := (lt_iff hv).mpr h
  simp only [decodeOne, if_pos hlt, toNat_ofNat hv]

theorem decodeOne_two {a b : Nat} (ha : 2 ≤ a) (ha' : a < 0x20) (hb : b < 64) (rest : List UInt8) :
    decodeOne (UInt8.ofNat (a + 0xC0) :: UInt8.ofNat (b + 0x80) :: rest) = some (a * 64 + b, rest) := by
  have hlead : a + 0xC0 < 256 := by omega
  have hnext : b + 0x80 < 256 := by omega
  have h₁ : ¬UInt8.ofNat (a + 0xC0) < 0x80 := fun h => absurd ((lt_iff hlead).mp h) (by simp)
  have h₂ : 0xC2 ≤ UInt8.ofNat (a + 0xC0) ∧ UInt8.ofNat (a + 0xC0) < 0xE0 := by
    rw [le_iff hlead, lt_iff hlead]
    exact ⟨Nat.add_le_add_right ha 0xC0, Nat.add_lt_add_right ha' 0xC0⟩
  simp only [decodeOne, if_neg h₁, if_pos h₂, isContinuation_ofNat hb, if_true, value, List.foldl, toNat_ofNat hlead,
    toNat_ofNat hnext, Nat.add_sub_cancel]

theorem decodeOne_three {a b d : Nat} (ha : a < 0x10) (hb : b < 64) (hd : d < 64)
    (hlow : 0x800 ≤ (a * 64 + b) * 64 + d) (hsur : ¬(0xD800 ≤ (a * 64 + b) * 64 + d ∧ (a * 64 + b) * 64 + d < 0xE000))
    (rest : List UInt8) :
    decodeOne (UInt8.ofNat (a + 0xE0) :: UInt8.ofNat (b + 0x80) :: UInt8.ofNat (d + 0x80) :: rest) =
      some ((a * 64 + b) * 64 + d, rest) := by
  have hlead : a + 0xE0 < 256 := by omega
  have h₁ : ¬UInt8.ofNat (a + 0xE0) < 0x80 := fun h => absurd ((lt_iff hlead).mp h) (by simp)
  have h₂ : ¬(0xC2 ≤ UInt8.ofNat (a + 0xE0) ∧ UInt8.ofNat (a + 0xE0) < 0xE0) := fun h =>
    absurd ((lt_iff hlead).mp h.2) (by simp)
  have h₃ : 0xE0 ≤ UInt8.ofNat (a + 0xE0) ∧ UInt8.ofNat (a + 0xE0) < 0xF0 := by
    rw [le_iff hlead, lt_iff hlead]
    exact ⟨Nat.le_add_left _ _, Nat.add_lt_add_right ha 0xE0⟩
  have hvalue : value ((UInt8.ofNat (a + 0xE0)).toNat - 0xE0) [UInt8.ofNat (b + 0x80), UInt8.ofNat (d + 0x80)] =
      (a * 64 + b) * 64 + d := by
    simp only [value, List.foldl, toNat_ofNat hlead, toNat_ofNat (show b + 0x80 < 256 by omega),
      toNat_ofNat (show d + 0x80 < 256 by omega), Nat.add_sub_cancel]
  simp only [decodeOne, if_neg h₁, if_neg h₂, if_pos h₃, hvalue]
  exact if_pos ⟨isContinuation_ofNat hb, isContinuation_ofNat hd, hlow, hsur⟩

theorem decodeOne_four {a b d e : Nat} (ha : a < 5) (hb : b < 64) (hd : d < 64) (he : e < 64)
    (hlow : 0x10000 ≤ ((a * 64 + b) * 64 + d) * 64 + e) (hhigh : ((a * 64 + b) * 64 + d) * 64 + e < 0x110000)
    (rest : List UInt8) :
    decodeOne (UInt8.ofNat (a + 0xF0) :: UInt8.ofNat (b + 0x80) :: UInt8.ofNat (d + 0x80) :: UInt8.ofNat (e + 0x80) ::
      rest) = some (((a * 64 + b) * 64 + d) * 64 + e, rest) := by
  have hlead : a + 0xF0 < 256 := by omega
  have h₁ : ¬UInt8.ofNat (a + 0xF0) < 0x80 := fun h => absurd ((lt_iff hlead).mp h) (by simp)
  have h₂ : ¬(0xC2 ≤ UInt8.ofNat (a + 0xF0) ∧ UInt8.ofNat (a + 0xF0) < 0xE0) := fun h =>
    absurd ((lt_iff hlead).mp h.2) (by simp)
  have h₃ : ¬(0xE0 ≤ UInt8.ofNat (a + 0xF0) ∧ UInt8.ofNat (a + 0xF0) < 0xF0) := fun h =>
    absurd ((lt_iff hlead).mp h.2) (by simp)
  have h₄ : 0xF0 ≤ UInt8.ofNat (a + 0xF0) ∧ UInt8.ofNat (a + 0xF0) < 0xF5 := by
    rw [le_iff hlead, lt_iff hlead]
    exact ⟨Nat.le_add_left _ _, Nat.add_lt_add_right ha 0xF0⟩
  have hvalue : value ((UInt8.ofNat (a + 0xF0)).toNat - 0xF0)
      [UInt8.ofNat (b + 0x80), UInt8.ofNat (d + 0x80), UInt8.ofNat (e + 0x80)] =
        ((a * 64 + b) * 64 + d) * 64 + e := by
    simp only [value, List.foldl, toNat_ofNat hlead, toNat_ofNat (show b + 0x80 < 256 by omega),
      toNat_ofNat (show d + 0x80 < 256 by omega), toNat_ofNat (show e + 0x80 < 256 by omega), Nat.add_sub_cancel]
  simp only [decodeOne, if_neg h₁, if_neg h₂, if_neg h₃, if_pos h₄, hvalue]
  exact if_pos ⟨isContinuation_ofNat hb, isContinuation_ofNat hd, isContinuation_ofNat he, hlow, hhigh⟩

/-- **A code point is read back.** -/
theorem decodeOne_encodeChar (c : Char) (rest : List UInt8) :
    decodeOne (String.utf8EncodeChar c ++ rest) = some (c.toNat, rest) := by
  have hvalid : c.toNat < 0xD800 ∨ 0xDFFF < c.toNat ∧ c.toNat < 0x110000 := c.valid
  have hval : c.val.toNat = c.toNat := rfl
  unfold String.utf8EncodeChar
  simp only [hval]
  generalize c.toNat = v at hvalid
  split
  · exact decodeOne_one (by omega) rest
  · split
    · rw [List.cons_append, List.cons_append, decodeOne_two (by omega) (by omega) (by omega)]
      congr 2
      omega
    · split
      · rw [List.cons_append, List.cons_append, List.cons_append,
          decodeOne_three (by omega) (by omega) (by omega) (by omega) (by omega)]
        congr 2
        omega
      · rw [List.cons_append, List.cons_append, List.cons_append, List.cons_append,
          decodeOne_four (by omega) (by omega) (by omega) (by omega) (by omega) (by omega)]
        congr 2
        omega

theorem decodeFrom_encode (cs : List Char) :
    ∀ fuel, (encode cs).length ≤ fuel → decodeFrom fuel (encode cs) = some cs := by
  induction cs with
  | nil => exact fun fuel _ => by cases fuel <;> rfl
  | cons c cs ih =>
    intro fuel hfuel
    have hone := decodeOne_encodeChar c (encode cs)
    have hcons : encode (c :: cs) = String.utf8EncodeChar c ++ encode cs := List.flatMap_cons
    rw [hcons] at hfuel ⊢
    obtain ⟨b, bs, hb⟩ := List.exists_cons_of_ne_nil (@String.utf8EncodeChar_ne_nil c)
    rw [hb, List.cons_append] at hone
    rw [hb, List.cons_append] at hfuel ⊢
    obtain ⟨fuel, rfl⟩ : ∃ n, fuel = n + 1 := ⟨fuel - 1, by simp at hfuel; omega⟩
    simp only [decodeFrom, hone, ih fuel (by simp at hfuel; omega), Option.map_some, Char.ofNat_toNat]

/-- **A text is read back from its bytes.** -/
theorem decode_encode (cs : List Char) : decode (encode cs) = some cs := decodeFrom_encode cs _ (Nat.le_refl _)

end Utf8
