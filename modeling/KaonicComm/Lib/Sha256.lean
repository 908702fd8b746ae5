import Mathlib.Data.List.Basic

/-!
# SHA-256

The digest of a list of bytes, as 64 lower-case hexadecimal digits (`length_sha256`).
-/

namespace Sha256

/-- The constants of the 64 rounds. -/
def roundConstants : List UInt32 :=
  [0x428a2f98, 0x71374491, 0xb5c0fbcf, 0xe9b5dba5, 0x3956c25b, 0x59f111f1, 0x923f82a4, 0xab1c5ed5,
    0xd807aa98, 0x12835b01, 0x243185be, 0x550c7dc3, 0x72be5d74, 0x80deb1fe, 0x9bdc06a7, 0xc19bf174,
    0xe49b69c1, 0xefbe4786, 0x0fc19dc6, 0x240ca1cc, 0x2de92c6f, 0x4a7484aa, 0x5cb0a9dc, 0x76f988da,
    0x983e5152, 0xa831c66d, 0xb00327c8, 0xbf597fc7, 0xc6e00bf3, 0xd5a79147, 0x06ca6351, 0x14292967,
    0x27b70a85, 0x2e1b2138, 0x4d2c6dfc, 0x53380d13, 0x650a7354, 0x766a0abb, 0x81c2c92e, 0x92722c85,
    0xa2bfe8a1, 0xa81a664b, 0xc24b8b70, 0xc76c51a3, 0xd192e819, 0xd6990624, 0xf40e3585, 0x106aa070,
    0x19a4c116, 0x1e376c08, 0x2748774c, 0x34b0bcb5, 0x391c0cb3, 0x4ed8aa4a, 0x5b9cca4f, 0x682e6ff3,
    0x748f82ee, 0x78a5636f, 0x84c87814, 0x8cc70208, 0x90befffa, 0xa4506ceb, 0xbef9a3f7, 0xc67178f2]

/-- The eight working variables. -/
structure Working where
  a : UInt32
  b : UInt32
  c : UInt32
  d : UInt32
  e : UInt32
  f : UInt32
  g : UInt32
  h : UInt32

def Working.init : Working :=
  ⟨0x6a09e667, 0xbb67ae85, 0x3c6ef372, 0xa54ff53a, 0x510e527f, 0x9b05688c, 0x1f83d9ab, 0x5be0cd19⟩

def Working.toList (w : Working) : List UInt32 := [w.a, w.b, w.c, w.d, w.e, w.f, w.g, w.h]

def Working.add (v w : Working) : Working :=
  ⟨v.a + w.a, v.b + w.b, v.c + w.c, v.d + w.d, v.e + w.e, v.f + w.f, v.g + w.g, v.h + w.h⟩

def rotr (n x : UInt32) : UInt32 := (x >>> n) ||| (x <<< (32 - n))

/-- The next word of the message schedule; the words so far are given last first. -/
def nextWord (ws : List UInt32) : UInt32 :=
  let w15 := ws.getD 14 0
  let w2 := ws.getD 1 0
  let s0 := rotr 7 w15 ^^^ rotr 18 w15 ^^^ (w15 >>> 3)
  let s1 := rotr 17 w2 ^^^ rotr 19 w2 ^^^ (w2 >>> 10)
  ws.getD 15 0 + s0 + ws.getD 6 0 + s1

/-- So many more words of the message schedule. -/
def extend : Nat → List UInt32 → List UInt32
  | 0, ws => ws
  | n + 1, ws => extend n (nextWord ws :: ws)

/-- One round, with a constant and a word of the schedule. -/
def round (v : Working) (k w : UInt32) : Working :=
  let s1 := rotr 6 v.e ^^^ rotr 11 v.e ^^^ rotr 25 v.e
  let ch := (v.e &&& v.f) ^^^ (~~~v.e &&& v.g)
  let t1 := v.h + s1 + ch + k + w
  let s0 := rotr 2 v.a ^^^ rotr 13 v.a ^^^ rotr 22 v.a
  let maj := (v.a &&& v.b) ^^^ (v.a &&& v.c) ^^^ (v.b &&& v.c)
  ⟨t1 + (s0 + maj), v.a, v.b, v.c, v.d + t1, v.e, v.f, v.g⟩

/-- One block of 16 words. -/
def compress (v : Working) (block : List UInt32) : Working :=
  v.add ((roundConstants.zip (extend 48 block.reverse).reverse).foldl (fun v (k, w) => round v k w) v)

/-- The length of a message in bits and eight bytes. -/
def lengthBytes (n : Nat) : List UInt8 := [56, 48, 40, 32, 24, 16, 8, 0].map fun s => UInt8.ofNat ((8 * n) >>> s)

/-- A message with its padding. -/
def pad (bytes : List UInt8) : List UInt8 :=
  bytes ++ 0x80 :: List.replicate ((119 - bytes.length % 64) % 64) 0 ++ lengthBytes bytes.length

/-- The big-endian words of a list of bytes. -/
def bigEndian : List UInt8 → List UInt32
  | b₀ :: b₁ :: b₂ :: b₃ :: bs =>
    UInt32.ofNat (b₀.toNat <<< 24 + b₁.toNat <<< 16 + b₂.toNat <<< 8 + b₃.toNat) :: bigEndian bs
  | _ => []

/-- The first so many blocks of 16 words. -/
def blocks : Nat → List UInt32 → List (List UInt32)
  | 0, _ => []
  | n + 1, ws => ws.take 16 :: blocks n (ws.drop 16)

/-- The eight words of the digest. -/
def words (bytes : List UInt8) : List UInt32 :=
  ((blocks ((pad bytes).length / 64) (bigEndian (pad bytes))).foldl compress Working.init).toList

def hexDigit (n : Nat) : Char := if n < 10 then Char.ofNat (48 + n) else Char.ofNat (87 + n)

/-- A word in eight digits. -/
def hexWord (w : UInt32) : List Char :=
  [28, 24, 20, 16, 12, 8, 4, 0].map fun s => hexDigit ((w.toNat >>> s) % 16)

/-- The digest of a list of bytes. -/
def sha256 (bytes : List UInt8) : List Char := (words bytes).flatMap hexWord

-- the digest of "abc"
example : String.ofList (sha256 [0x61, 0x62, 0x63]) =
    "ba7816bf8f01cfea414140de5dae2223b00361a396177a9cb410ff61f20015ad" := by decide +kernel

theorem length_sha256 (bytes : List UInt8) : (sha256 bytes).length = 64 := rfl

/-- A digest consists of digits. -/
theorem mem_sha256 {bytes : List UInt8} {c : Char} (h : c ∈ sha256 bytes) : ∃ n < 16, c = hexDigit n := by
  obtain ⟨w, -, hw⟩ := List.mem_flatMap.mp h
  obtain ⟨s, -, rfl⟩ := List.mem_map.mp hw
  exact ⟨_, Nat.mod_lt _ (by decide), rfl⟩

end Sha256
