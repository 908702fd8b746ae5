import KaonicComm.Lib.Masks
import KaonicComm.Services.RadioService
import Mathlib.Data.List.Nodup

/-!
# The node ids of the networks of a device

`network::generate_id` reads eight bytes of the hardware UID, `network::gen_id` clears the lowest four bits of it and
ORs `id_base` into it, which `radio_service` counts from 1. The fields above the lowest four bits then mix.

The ids differ exactly when the last byte of the UID leaves clear every bit above these four whose value is below the
number of radios (`node_ids_unique_iff`), as it does for up to 16 radios.
-/

namespace KaonicComm.Mesh

/-! ## `gen_id` -/

/-- `network::generate_id`, with the bytes that it reads. -/
def generateId (uid : Vector UInt8 8) : UInt64 := uid.toList.foldl (fun id byte => id <<< 8 ||| byte.toUInt64) 0

/-- `network::gen_id`, for an `rfnet_node_id_t` of so many bits. -/
def genId (w : Nat) (uid : Vector UInt8 8) (idBase : UInt64) : BitVec w :=
  let id := (generateId uid).toBitVec.setWidth w
  let id := id &&& ~~~(BitVec.ofNat w 0x0F)
  id ||| idBase.toBitVec.setWidth w

/-- The node ids of the networks of a service. -/
def nodeIds {L : Type*} (w : Nat) (uid : Vector UInt8 8) (s : RadioService L) : List (BitVec w) :=
  s.radioNetworks.map fun net => genId w uid net.idBase

/-! ## The bits of an id -/

/-- What the id of the device brings into a node id. -/
def masked (w : Nat) (uid : Vector UInt8 8) : BitVec w :=
  (generateId uid).toBitVec.setWidth w &&& ~~~(BitVec.ofNat w 0x0F)

/-- The lowest byte of the id of the device is the last one of the UID. -/
theorem testBit_generateId (uid : Vector UInt8 8) {k : Nat} (hk : k < 8) :
    (generateId uid).toNat.testBit k = uid[7].toNat.testBit k := by
  have hlast : uid.toList = uid.toList.dropLast ++ [uid[7]] := by
    have hne : uid.toList ≠ [] := List.ne_nil_of_length_pos (by rw [Vector.length_toList]; decide)
    have hget : uid.toList.getLast hne = uid[7] := by
      simp [List.getLast_eq_getElem]
    rw [← hget, List.dropLast_append_getLast]
  have hshift : ∀ id : UInt64, (id <<< 8).toNat.testBit k = false := by
    intro id
    rw [UInt64.toNat_shiftLeft, show UInt64.toNat 8 % 64 = 8 from rfl, Nat.testBit_mod_two_pow,
      Nat.testBit_shiftLeft, decide_eq_false (Nat.not_le.mpr hk), Bool.false_and, Bool.and_false]
  rw [generateId, hlast, List.foldl_append, List.foldl_cons, List.foldl_nil, UInt64.toNat_or, Nat.testBit_or, hshift,
    Bool.false_or, UInt8.toNat_toUInt64]

theorem testBit_masked {w : Nat} (uid : Vector UInt8 8) (k : Nat) :
    (masked w uid).toNat.testBit k = (decide (4 ≤ k ∧ k < w) && (generateId uid).toNat.testBit k) := by
  have hmask : (0x0F : Nat).testBit k = decide (k < 4) := Nat.testBit_two_pow_sub_one 4 k
  rw [masked, BitVec.testBit_toNat, BitVec.getLsbD_and, BitVec.getLsbD_not, BitVec.getLsbD_setWidth,
    BitVec.getLsbD_ofNat, hmask]
  by_cases hw : k < w
  · by_cases hk : k < 4
    · simp [hk]
    · simp [hw, hk, Nat.le_of_not_lt hk, BitVec.getLsbD]
  · simp [hw]

/-- A node id is its base OR-ed into what the device brings. -/
theorem toNat_genId {w : Nat} (uid : Vector UInt8 8) {idBase : UInt64} (h : idBase.toNat < 2 ^ w) :
    (genId w uid idBase).toNat = (masked w uid).toNat ||| idBase.toNat := by
  have hbase : (idBase.toBitVec.setWidth w).toNat = idBase.toNat := by
    rw [BitVec.toNat_setWidth]
    exact Nat.mod_eq_of_lt h
  rw [← hbase]
  exact BitVec.toNat_or ..

/-! ## The ids of a device -/

theorem nodeIds_radioService {L : Type*} (w : Nat) (uid : Vector UInt8 8) (radios : Nat) :
    nodeIds w uid (radioService radios : RadioService L) =
      (List.range radios).map fun i => genId w uid (UInt64.ofNat (i + 1)) := by
  apply List.ext_getElem
  · simp [nodeIds, radioService]
  · intro i hi hi'
    simp [nodeIds, radioService]

/-- **The ids of a device differ exactly when its bases do, OR-ed into what the device brings.** -/
theorem nodup_nodeIds_iff {L : Type*} {w : Nat} (hw : 16 ≤ w) (uid : Vector UInt8 8) {radios : Nat}
    (hn : radios ≤ 256) : (nodeIds w uid (radioService radios : RadioService L)).Nodup ↔
      Set.InjOn ((masked w uid).toNat ||| ·) {a | 0 < a ∧ a ≤ radios} := by
  have hid : ∀ i < radios,
      (genId w uid (UInt64.ofNat (i + 1))).toNat = (masked w uid).toNat ||| (i + 1) := by
    intro i hi
    have hbase : (UInt64.ofNat (i + 1)).toNat = i + 1 := by
      rw [UInt64.toNat_ofNat']
      exact Nat.mod_eq_of_lt (by omega)
    rw [toNat_genId, hbase]
    rw [hbase]
    calc i + 1 ≤ 256 := by omega
      _ < 2 ^ 16 := by decide
      _ ≤ 2 ^ w := Nat.pow_le_pow_right Nat.two_pos hw
  rw [nodeIds_radioService, List.nodup_map_iff_inj_on List.nodup_range]
  constructor
  · intro h a ha b hb hab
    have hbelow : ∀ c, 0 < c ∧ c ≤ radios → ∃ i < radios, c = i + 1 :=
      fun c hc => ⟨c - 1, by omega, by omega⟩
    obtain ⟨i, hi, rfl⟩ := hbelow a ha
    obtain ⟨j, hj, rfl⟩ := hbelow b hb
    have hor : (masked w uid).toNat ||| (i + 1) = (masked w uid).toNat ||| (j + 1) := hab
    rw [← hid i hi, ← hid j hj] at hor
    rw [h i (List.mem_range.mpr hi) j (List.mem_range.mpr hj) (BitVec.eq_of_toNat_eq hor)]
  · intro h i hi j hj hij
    have hi := List.mem_range.mp hi
    have hj := List.mem_range.mp hj
    have hor := congrArg BitVec.toNat hij
    rw [hid i hi, hid j hj] at hor
    exact Nat.succ.inj (h ⟨i.succ_pos, hi⟩ ⟨j.succ_pos, hj⟩ hor)

/-- **The node ids of a device are unique exactly when the last byte of its UID leaves clear the bits from the fifth one
on whose value is below the number of radios.** -/
theorem node_ids_unique_iff {L : Type*} {w : Nat} (hw : 16 ≤ w) (uid : Vector UInt8 8) {radios : Nat}
    (hn : radios ≤ 256) : (nodeIds w uid (radioService radios : RadioService L)).Nodup ↔
      ∀ k, 4 ≤ k → 2 ^ k < radios → uid[7].toNat.testBit k = false := by
  have hzero : (masked w uid).toNat.testBit 0 = false := by
    rw [testBit_masked]
    rfl
  have hbyte : ∀ k, 2 ^ k < radios → k < 8 := by
    intro k hk
    exact (Nat.pow_lt_pow_iff_right Nat.one_lt_two).mp (Nat.lt_of_lt_of_le hk hn)
  have hbit : ∀ k, 2 ^ k < radios → ((masked w uid).toNat.testBit k = false ↔
      (4 ≤ k → uid[7].toNat.testBit k = false)) := by
    intro k hk
    have hk := hbyte k hk
    have hkw : k < w := by omega
    rw [testBit_masked, testBit_generateId uid hk]
    by_cases hlow : 4 ≤ k <;> simp [hlow, hkw]
  rw [nodup_nodeIds_iff hw uid hn, Masks.or_injOn_iff hzero]
  constructor
  · intro h k hlow hk
    exact (hbit k hk).mp (h k hk) hlow
  · intro h k hk
    exact (hbit k hk).mpr fun hlow => h k hlow hk

/-- Sixteen radios, whatever the UID. -/
theorem node_ids_unique_sixteen :
    (nodeIds 32 (Vector.replicate 8 0xFF) (radioService 16 : RadioService Nat)).Nodup := by
  refine (node_ids_unique_iff (by decide) _ (by decide)).mpr fun k hlow hk => ?_
  have hpow : 2 ^ 4 ≤ 2 ^ k := Nat.pow_le_pow_right Nat.two_pos hlow
  omega

/-- With 17 radios, the first and the last one have the same id if the fifth bit of the UID is set. -/
theorem node_ids_collide : ¬∀ (w : Nat) (uid : Vector UInt8 8) (radios : Nat), 16 ≤ w → radios ≤ 256 →
    (nodeIds w uid (radioService radios : RadioService Nat)).Nodup := by
  intro h
  have h := h 16 (Vector.replicate 8 0x10) 17 (by decide) (by decide)
  exact absurd h (by decide +kernel)

end KaonicComm.Mesh
