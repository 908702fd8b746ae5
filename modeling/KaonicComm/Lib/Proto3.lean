import Mathlib.Algebra.Group.Nat.Defs
import Mathlib.Data.List.Basic

/-!
# The proto3 wire format

A message on the wire is a list of fields, each a number with a value (`Field`). Varints carry seven bits a byte,
lowest first, in at most ten bytes (`putVarint`, `getVarint`).

- `getVarint_putVarint`, `getFields_putFields`: reading gives back what was written;
- `scalarFrom`, `numbersOf`, `oneofFrom`: what a parser keeps of the fields of a number (the last scalar, all elements,
  the merged message), with their lemmas on the fields of a serializer, `scalarFields`, `packedField` and
  `messageField`;
- `length_scalarFields_le`, `length_packedField_le`, `length_messageField_le`: how long these fields are at most.
-/

namespace Proto3

/-! ## Varints -/

/-- The groups of `n`, at most `fuel + 1` of them. -/
def putGroups : Nat → Nat → List UInt8
  | 0, n => [UInt8.ofNat n]
  | fuel + 1, n =>
    if n < 128 then [UInt8.ofNat n] else UInt8.ofNat (n % 128 + 128) :: putGroups fuel (n / 128)

/-- Read at most `fuel + 1` groups. -/
def getGroups : Nat → List UInt8 → Option (Nat × List UInt8)
  | _, [] => none
  | 0, b :: rest => if b.toNat < 128 then some (b.toNat, rest) else none
  | fuel + 1, b :: rest =>
    if b.toNat < 128 then some (b.toNat, rest)
    else (getGroups fuel rest).map fun (n, rest) => (b.toNat - 128 + 128 * n, rest)

def putVarint (n : Nat) : List UInt8 := putGroups 9 n

def getVarint (bytes : List UInt8) : Option (Nat × List UInt8) := getGroups 9 bytes

theorem getGroups_putGroups (rest : List UInt8) : ∀ (fuel n : Nat), n < 128 ^ (fuel + 1) →
    getGroups fuel (putGroups fuel n ++ rest) = some (n, rest)
  | 0, n, h => by
    have hn : (UInt8.ofNat n).toNat = n := by simp; omega
    simp only [putGroups, List.cons_append, List.nil_append, getGroups, hn]
    rw [if_pos (by omega)]
  | fuel + 1, n, h => by
    unfold putGroups
    split
    · rename_i hlt
      have hn : (UInt8.ofNat n).toNat = n := by simp; omega
      simp only [List.cons_append, List.nil_append, getGroups, hn]
      rw [if_pos hlt]
    · have hb : (UInt8.ofNat (n % 128 + 128)).toNat = n % 128 + 128 := by simp; omega
      have hlt : n / 128 < 128 ^ (fuel + 1) := by
        rw [Nat.div_lt_iff_lt_mul (by decide)]
        rwa [Nat.pow_succ] at h
      simp only [List.cons_append, getGroups, hb, getGroups_putGroups rest fuel _ hlt, Option.map_some]
      rw [if_neg (by omega), Option.some.injEq, Prod.mk.injEq]
      exact ⟨by omega, rfl⟩

/-- **Reading a varint gives it back**, with what follows it. -/
theorem getVarint_putVarint {n : Nat} (h : n < 2 ^ 64) (rest : List UInt8) :
    getVarint (putVarint n ++ rest) = some (n, rest) :=
  getGroups_putGroups rest 9 n (Nat.lt_of_lt_of_le h (by decide))

theorem length_putGroups_pos (fuel n : Nat) : 0 < (putGroups fuel n).length := by
  cases fuel with
  | zero => exact Nat.one_pos
  | succ fuel =>
    unfold putGroups
    split <;> simp

/-- All varints of a packed field. -/
def getVarints : Nat → List UInt8 → Option (List Nat)
  | _, [] => some []
  | 0, _ :: _ => none
  | fuel + 1, b :: bytes =>
    match getVarint (b :: bytes) with
    | none => none
    | some (n, rest) => (getVarints fuel rest).map (n :: ·)

theorem getVarints_flatMap : ∀ (ns : List Nat) (fuel : Nat), ns.length ≤ fuel → (∀ n ∈ ns, n < 2 ^ 64) →
    getVarints fuel (ns.flatMap putVarint) = some ns
  | [], fuel, _, _ => by cases fuel <;> rfl
  | n :: ns, 0, h, _ => by simp at h
  | n :: ns, fuel + 1, h, hns => by
    have hn := getVarint_putVarint (hns n List.mem_cons_self) (ns.flatMap putVarint)
    have ih := getVarints_flatMap ns fuel (by simpa using h) fun m hm => hns m (List.mem_cons_of_mem _ hm)
    rw [List.flatMap_cons]
    obtain ⟨b, bytes, hb⟩ : ∃ b bytes, putVarint n = b :: bytes :=
      List.exists_cons_of_length_pos (length_putGroups_pos 9 n)
    rw [hb, List.cons_append] at hn ⊢
    simp only [getVarints, hn, ih, Option.map_some]

theorem length_le_flatMap_putVarint (ns : List Nat) : ns.length ≤ (ns.flatMap putVarint).length := by
  induction ns with
  | nil => exact Nat.zero_le _
  | cons n ns ih =>
    have := length_putGroups_pos 9 n
    simp only [List.flatMap_cons, List.length_append, List.length_cons, putVarint] at ih ⊢
    omega

/-! ## Fields -/

/-- The value of a field. Its constructor is its wire type. -/
inductive Value where
  | varint (n : Nat)
  | fixed64 (bytes : List UInt8)
  | len (bytes : List UInt8)
  | fixed32 (bytes : List UInt8)
  deriving DecidableEq, Repr

/-- A field of a message on the wire. -/
structure Field where
  number : Nat
  value : Value
  deriving DecidableEq, Repr

def Value.wireType : Value → Nat
  | .varint _ => 0
  | .fixed64 _ => 1
  | .len _ => 2
  | .fixed32 _ => 5

def Value.put : Value → List UInt8
  | .varint n => putVarint n
  | .fixed64 bytes | .fixed32 bytes => bytes
  | .len bytes => putVarint bytes.length ++ bytes

def Field.put (f : Field) : List UInt8 := putVarint (f.number * 8 + f.value.wireType) ++ f.value.put

/-- So many bytes, and the rest. -/
def split (n : Nat) (bytes : List UInt8) : Option (List UInt8 × List UInt8) :=
  if n ≤ bytes.length then some (bytes.take n, bytes.drop n) else none

def Value.get (wireType : Nat) (bytes : List UInt8) : Option (Value × List UInt8) :=
  match wireType with
  | 0 => (getVarint bytes).map fun (n, rest) => (.varint n, rest)
  | 1 => (split 8 bytes).map fun (v, rest) => (.fixed64 v, rest)
  | 2 => (getVarint bytes).bind fun (n, rest) => (split n rest).map fun (v, rest) => (.len v, rest)
  | 5 => (split 4 bytes).map fun (v, rest) => (.fixed32 v, rest)
  | _ => none

def Field.get (bytes : List UInt8) : Option (Field × List UInt8) :=
  (getVarint bytes).bind fun (tag, rest) =>
    if tag / 8 = 0 then none
    else (Value.get (tag % 8) rest).map fun (value, rest) => (⟨tag / 8, value⟩, rest)

/-- A serialized message. -/
def putFields (fs : List Field) : List UInt8 := fs.flatMap Field.put

/-- At most `fuel` fields. -/
def getFieldsFrom : Nat → List UInt8 → Option (List Field)
  | _, [] => some []
  | 0, _ :: _ => none
  | fuel + 1, b :: bytes =>
    match Field.get (b :: bytes) with
    | none => none
    | some (f, rest) => (getFieldsFrom fuel rest).map (f :: ·)

/-- The fields of a serialized message. -/
def getFields (bytes : List UInt8) : Option (List Field) := getFieldsFrom bytes.length bytes

/-- What the format has room for. -/
def Value.Fits : Value → Prop
  | .varint n => n < 2 ^ 64
  | .fixed64 bytes => bytes.length = 8
  | .len bytes => bytes.length < 2 ^ 64
  | .fixed32 bytes => bytes.length = 4

def Field.Fits (f : Field) : Prop := 0 < f.number ∧ f.number < 2 ^ 29 ∧ f.value.Fits

theorem split_append (bytes rest : List UInt8) : split bytes.length (bytes ++ rest) = some (bytes, rest) := by
  simp [split]

theorem Value.get_put {v : Value} (h : v.Fits) (rest : List UInt8) :
    Value.get v.wireType (v.put ++ rest) = some (v, rest) := by
  cases v with
  | varint n => simp [Value.get, Value.put, Value.wireType, getVarint_putVarint h]
  | fixed64 bytes =>
    have h : bytes.length = 8 := h
    simp [Value.get, Value.put, Value.wireType, ← h, split_append]
  | len bytes =>
    have h : bytes.length < 2 ^ 64 := h
    simp [Value.get, Value.put, Value.wireType, getVarint_putVarint h, split_append]
  | fixed32 bytes =>
    have h : bytes.length = 4 := h
    simp [Value.get, Value.put, Value.wireType, ← h, split_append]

theorem Field.get_put {f : Field} (h : f.Fits) (rest : List UInt8) : Field.get (f.put ++ rest) = some (f, rest) := by
  obtain ⟨hpos, hlt, hv⟩ := h
  have hw : f.value.wireType < 8 := by cases f.value <;> simp [Value.wireType]
  have htag := getVarint_putVarint (n := f.number * 8 + f.value.wireType) (by omega) (f.value.put ++ rest)
  have hdiv : (f.number * 8 + f.value.wireType) / 8 = f.number := by omega
  have hmod : (f.number * 8 + f.value.wireType) % 8 = f.value.wireType := by omega
  rw [Field.put, List.append_assoc, Field.get, htag, Option.bind_some]
  simp only [hdiv, hmod, Value.get_put hv, Option.map_some]
  rw [if_neg (by omega)]

theorem length_put_pos (f : Field) : 0 < f.put.length := by
  rw [Field.put, List.length_append]
  exact Nat.add_pos_left (length_putGroups_pos 9 _) _

theorem getFieldsFrom_putFields : ∀ (fs : List Field) (fuel : Nat), fs.length ≤ fuel → (∀ f ∈ fs, f.Fits) →
    getFieldsFrom fuel (putFields fs) = some fs
  | [], fuel, _, _ => by cases fuel <;> rfl
  | f :: fs, 0, h, _ => by simp at h
  | f :: fs, fuel + 1, h, hfs => by
    have hf := Field.get_put (hfs f List.mem_cons_self) (putFields fs)
    have ih := getFieldsFrom_putFields fs fuel (by simpa using h) fun g hg => hfs g (List.mem_cons_of_mem _ hg)
    rw [putFields, List.flatMap_cons]
    obtain ⟨b, bytes, hb⟩ : ∃ b bytes, f.put = b :: bytes := List.exists_cons_of_length_pos (length_put_pos f)
    rw [hb, List.cons_append] at hf ⊢
    simp only [getFieldsFrom, show fs.flatMap Field.put = putFields fs from rfl, hf, ih, Option.map_some]

theorem length_le_putFields (fs : List Field) : fs.length ≤ (putFields fs).length := by
  induction fs with
  | nil => exact Nat.zero_le _
  | cons f fs ih =>
    have := length_put_pos f
    simp only [putFields, List.flatMap_cons, List.length_append, List.length_cons] at ih ⊢
    omega

/-- **Reading a serialized message gives back its fields.** -/
theorem getFields_putFields {fs : List Field} (h : ∀ f ∈ fs, f.Fits) : getFields (putFields fs) = some fs :=
  getFieldsFrom_putFields fs _ (length_le_putFields fs) h

/-- A field is no longer than its message. -/
theorem length_le_of_mem {fs : List Field} {f : Field} (h : f ∈ fs) : f.put.length ≤ (putFields fs).length := by
  induction fs with
  | nil => cases h
  | cons g fs ih =>
    simp only [putFields, List.flatMap_cons, List.length_append] at ih ⊢
    rcases List.mem_cons.mp h with rfl | h
    · omega
    · have := ih h
      omega

/-! ## What a serializer writes -/

/-- A scalar field; the default is left out. -/
def scalarField (k n : Nat) : List Field := if n = 0 then [] else [⟨k, .varint n⟩]

/-- Scalar fields with consecutive numbers. -/
def scalarFields : Nat → List Nat → List Field
  | _, [] => []
  | k, n :: ns => scalarField k n ++ scalarFields (k + 1) ns

@[simp] theorem scalarFields_nil (k : Nat) : scalarFields k [] = [] := rfl

/-- A repeated scalar field. -/
def packedField (k : Nat) (ns : List Nat) : List Field :=
  if ns = [] then [] else [⟨k, .len (ns.flatMap putVarint)⟩]

/-- A message field, with the serialized message if it is set. -/
def messageField (k : Nat) : Option (List UInt8) → List Field
  | none => []
  | some bytes => [⟨k, .len bytes⟩]

theorem fits_scalarField {k n : Nat} (hk : 0 < k ∧ k < 2 ^ 29) (hn : n < 2 ^ 64) : ∀ f ∈ scalarField k n, f.Fits := by
  intro f hf
  unfold scalarField at hf
  split at hf
  · cases hf
  · rw [List.mem_singleton] at hf
    subst hf
    exact ⟨hk.1, hk.2, hn⟩

theorem fits_scalarFields : ∀ {ns : List Nat} {k : Nat}, 0 < k ∧ k + ns.length ≤ 2 ^ 29 → (∀ n ∈ ns, n < 2 ^ 64) →
    ∀ f ∈ scalarFields k ns, f.Fits
  | [], _, _, _, f, hf => by cases hf
  | n :: ns, k, hk, hns, f, hf => by
    rw [List.length_cons] at hk
    rcases List.mem_append.mp hf with hf | hf
    · exact fits_scalarField (by omega) (hns n List.mem_cons_self) f hf
    · exact fits_scalarFields (by omega) (fun m hm => hns m (List.mem_cons_of_mem _ hm)) f hf

/-! ## Sizes -/

/-- A number below `128 ^ (k + 1)` takes at most `k + 1` groups. -/
theorem length_putGroups_le : ∀ (fuel k n : Nat), n < 128 ^ (k + 1) → (putGroups fuel n).length ≤ k + 1
  | 0, _, _, _ => Nat.succ_le_succ (Nat.zero_le _)
  | fuel + 1, 0, n, h => by
    unfold putGroups
    rw [if_pos (by omega)]
    exact Nat.le_refl 1
  | fuel + 1, k + 1, n, h => by
    unfold putGroups
    split
    · exact Nat.succ_le_succ (Nat.zero_le _)
    · have hlt : n / 128 < 128 ^ (k + 1) := by
        rw [Nat.div_lt_iff_lt_mul (by decide)]
        rwa [Nat.pow_succ] at h
      exact Nat.succ_le_succ (length_putGroups_le fuel k _ hlt)

theorem length_putGroups_le_fuel : ∀ (fuel n : Nat), (putGroups fuel n).length ≤ fuel + 1
  | 0, _ => Nat.le_refl 1
  | fuel + 1, n => by
    unfold putGroups
    split
    · exact Nat.succ_le_succ (Nat.zero_le _)
    · exact Nat.succ_le_succ (length_putGroups_le_fuel fuel _)

theorem length_putVarint_le (n : Nat) : (putVarint n).length ≤ 10 := length_putGroups_le_fuel 9 n

theorem length_putVarint_le_five {n : Nat} (h : n < 2 ^ 32) : (putVarint n).length ≤ 5 :=
  length_putGroups_le 9 4 n (Nat.lt_trans h (by decide))

@[simp] theorem putFields_nil : putFields [] = [] := rfl

@[simp] theorem putFields_append (fs gs : List Field) : putFields (fs ++ gs) = putFields fs ++ putFields gs :=
  List.flatMap_append

/-- A field with a length is its bytes and two varints. -/
theorem length_put_len_le (k : Nat) (bytes : List UInt8) :
    (putFields [⟨k, .len bytes⟩]).length ≤ 20 + bytes.length := by
  have htag := length_putVarint_le (k * 8 + 2)
  have hlen := length_putVarint_le bytes.length
  simp only [putFields, Field.put, Value.put, Value.wireType, List.flatMap_cons, List.flatMap_nil, List.append_nil,
    List.length_append]
  omega

theorem length_scalarField_le (k n : Nat) : (putFields (scalarField k n)).length ≤ 20 := by
  unfold scalarField
  split
  · exact Nat.zero_le _
  · have htag := length_putVarint_le (k * 8 + 0)
    have hn := length_putVarint_le n
    simp only [putFields, Field.put, Value.put, Value.wireType, List.flatMap_cons, List.flatMap_nil, List.append_nil,
      List.length_append]
    omega

theorem length_scalarFields_le (k : Nat) (ns : List Nat) :
    (putFields (scalarFields k ns)).length ≤ 20 * ns.length := by
  induction ns generalizing k with
  | nil => exact Nat.le_refl 0
  | cons n ns ih =>
    have hn := length_scalarField_le k n
    have hns := ih (k + 1)
    rw [scalarFields, putFields_append, List.length_append, List.length_cons]
    omega

/-- Words take at most five bytes each. -/
theorem length_packedField_le (k : Nat) {ns : List Nat} (h : ∀ n ∈ ns, n < 2 ^ 32) :
    (putFields (packedField k ns)).length ≤ 20 + 5 * ns.length := by
  have hbytes : (ns.flatMap putVarint).length ≤ 5 * ns.length := by
    induction ns with
    | nil => exact Nat.le_refl 0
    | cons n ns ih =>
      have hn := length_putVarint_le_five (h n List.mem_cons_self)
      have hns := ih fun m hm => h m (List.mem_cons_of_mem _ hm)
      rw [List.flatMap_cons, List.length_append, List.length_cons]
      omega
  unfold packedField
  split
  · exact Nat.zero_le _
  · have := length_put_len_le k (ns.flatMap putVarint)
    omega

theorem length_messageField_le (k : Nat) (m : Option (List UInt8)) :
    (putFields (messageField k m)).length ≤ 20 + (m.getD []).length := by
  cases m with
  | none => exact Nat.zero_le _
  | some bytes => exact length_put_len_le k bytes

/-! ## What a parser keeps -/

/-- The scalar of number `k`: the last one counts. -/
def scalarFrom (d k : Nat) : List Field → Nat
  | [] => d
  | ⟨number, .varint n⟩ :: fs => scalarFrom (if number = k then n else d) k fs
  | _ :: fs => scalarFrom d k fs

/-- The elements of the repeated scalar of number `k`, packed or not. -/
def numbersOf (k : Nat) : List Field → Option (List Nat)
  | [] => some []
  | ⟨number, .varint n⟩ :: fs => (numbersOf k fs).map fun ns => if number = k then n :: ns else ns
  | ⟨number, .len bytes⟩ :: fs =>
    if number = k then
      (getVarints bytes.length bytes).bind fun ms => (numbersOf k fs).map fun ns => ms ++ ns
    else numbersOf k fs
  | _ :: fs => numbersOf k fs

/-- The message among those of the numbers `ks`: the last number counts, and messages of one number are merged, which
is parsing them one after the other. -/
def oneofFrom (d : Option (Nat × List UInt8)) (ks : List Nat) : List Field → Option (Nat × List UInt8)
  | [] => d
  | ⟨number, .len bytes⟩ :: fs =>
    oneofFrom
      (if number ∈ ks then
        match d with
        | none => some (number, bytes)
        | some (k, old) => if k = number then some (k, old ++ bytes) else some (number, bytes)
      else d) ks fs
  | _ :: fs => oneofFrom d ks fs

@[simp] theorem scalarFrom_nil (d k : Nat) : scalarFrom d k [] = d := rfl

@[simp] theorem scalarFrom_append (d k : Nat) (fs gs : List Field) :
    scalarFrom d k (fs ++ gs) = scalarFrom (scalarFrom d k fs) k gs := by
  fun_induction scalarFrom d k fs with
  | case1 => rfl
  | case2 d number n fs ih => rw [← ih]; rfl
  | case3 d f fs hf ih =>
    rw [← ih]
    obtain ⟨number, value⟩ := f
    cases value <;> first | rfl | exact absurd rfl (hf _ _)

@[simp] theorem scalarFrom_scalarField (d j k n : Nat) :
    scalarFrom d k (scalarField j n) = if j = k ∧ n ≠ 0 then n else d := by
  unfold scalarField
  by_cases hn : n = 0
  · simp [hn]
  · by_cases hj : j = k <;> simp [hn, hj, scalarFrom]

theorem scalarFrom_scalarFields_of_lt (d : Nat) : ∀ {j k : Nat} (ns : List Nat), k < j →
    scalarFrom d k (scalarFields j ns) = d
  | _, _, [], _ => rfl
  | j, k, n :: ns, h => by
    rw [scalarFields, scalarFrom_append, scalarFrom_scalarField, if_neg (by omega)]
    exact scalarFrom_scalarFields_of_lt d ns (by omega)

/-- **A scalar is read back.** -/
@[simp] theorem scalarFrom_scalarFields : ∀ (j k : Nat) (ns : List Nat),
    scalarFrom 0 k (scalarFields j ns) = if k < j then 0 else ns.getD (k - j) 0
  | j, k, [] => by simp [scalarFields]
  | j, k, n :: ns => by
    rw [scalarFields, scalarFrom_append, scalarFrom_scalarField]
    rcases Nat.lt_trichotomy k j with h | h | h
    · rw [if_neg (by omega), if_pos h]
      exact scalarFrom_scalarFields_of_lt 0 ns (by omega)
    · subst h
      rw [scalarFrom_scalarFields_of_lt _ ns (by omega), if_neg (Nat.lt_irrefl k), Nat.sub_self]
      by_cases hn : n = 0 <;> simp [hn]
    · obtain ⟨i, hi⟩ : ∃ i, k - j = i + 1 := ⟨k - j - 1, by omega⟩
      rw [if_neg (by omega), if_neg (by omega), scalarFrom_scalarFields (j + 1) k ns, if_neg (by omega), hi,
        List.getD_cons_succ, show k - (j + 1) = i by omega]

@[simp] theorem scalarFrom_packedField (d j k : Nat) (ns : List Nat) : scalarFrom d k (packedField j ns) = d := by
  unfold packedField
  split <;> rfl

@[simp] theorem scalarFrom_messageField (d j k : Nat) (m : Option (List UInt8)) :
    scalarFrom d k (messageField j m) = d := by
  cases m <;> rfl

theorem numbersOf_scalarField {j k : Nat} (h : j ≠ k) (n : Nat) : numbersOf k (scalarField j n) = some [] := by
  unfold scalarField
  split
  · rfl
  · simp [numbersOf, h]

/-- **A repeated scalar is read back.** -/
theorem numbersOf_packedField {k : Nat} {ns : List Nat} (hns : ∀ n ∈ ns, n < 2 ^ 64) {fs : List Field}
    (hfs : numbersOf k fs = some []) : numbersOf k (packedField k ns ++ fs) = some ns := by
  unfold packedField
  split
  · rename_i h
    rw [h, List.nil_append, hfs]
  · have hget := getVarints_flatMap ns _ (length_le_flatMap_putVarint ns) hns
    simp only [List.cons_append, List.nil_append, numbersOf, hget, hfs, if_true, Option.bind_some, Option.map_some,
      List.append_nil]

theorem oneofFrom_scalarField (d : Option (Nat × List UInt8)) (ks : List Nat) (j n : Nat) (fs : List Field) :
    oneofFrom d ks (scalarField j n ++ fs) = oneofFrom d ks fs := by
  unfold scalarField
  split <;> rfl

theorem oneofFrom_scalarFields (d : Option (Nat × List UInt8)) (ks : List Nat) (fs : List Field) :
    ∀ (j : Nat) (ns : List Nat), oneofFrom d ks (scalarFields j ns ++ fs) = oneofFrom d ks fs
  | _, [] => rfl
  | j, n :: ns => by
    rw [scalarFields, List.append_assoc, oneofFrom_scalarField, oneofFrom_scalarFields d ks fs (j + 1) ns]

/-- **A message is read back** from between scalars. -/
theorem oneofFrom_messageField {k : Nat} {ks : List Nat} (hk : k ∈ ks) (m : Option (List UInt8)) (i j : Nat)
    (ns ms : List Nat) :
    oneofFrom none ks (scalarFields i ns ++ (messageField k m ++ scalarFields j ms)) =
      m.map fun bytes => (k, bytes) := by
  have hms : ∀ d, oneofFrom d ks (scalarFields j ms) = d := by
    intro d
    have h := oneofFrom_scalarFields d ks [] j ms
    rwa [List.append_nil] at h
  rw [oneofFrom_scalarFields]
  cases m with
  | none => exact hms none
  | some bytes => simp [messageField, oneofFrom, hk, hms]

end Proto3
