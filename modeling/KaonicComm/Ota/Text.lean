import KaonicComm.Lib.Sha256
import KaonicComm.Lib.Utf8
import Mathlib.Data.List.DropRight

/-!
# What the updater reads from a hash file

`readText` is `Path.read_text`, `strip` is `str.strip`, and `digestOf` is the two after one another, as every reader of
a hash file does it. A hash file that is cut short never shows another digest: where the text of a beginning is a digest
at all, it is that of the whole file (`digestOf_isPrefix`).
-/

namespace KaonicComm.Ota

/-- The line ends `\r\n` and `\r` become `\n`, as in a file opened in text mode; the first argument says whether the
character before was a carriage return. -/
def universalNewlines : Bool → List Char → List Char
  | _, [] => []
  | afterReturn, c :: cs =>
    if afterReturn ∧ c = '\n' then universalNewlines false cs
    else if c = '\r' then '\n' :: universalNewlines true cs
    else c :: universalNewlines false cs

/-- `Path.read_text`; `none` stands for `UnicodeDecodeError`. -/
def readText (bytes : List UInt8) : Option (List Char) := (Utf8.decode bytes).map (universalNewlines false)

/-- The code points for which `str.isspace` holds. -/
def isSpace (c : Char) : Bool :=
  let n := c.toNat
  (0x09 ≤ n ∧ n ≤ 0x0D) ∨ (0x1C ≤ n ∧ n ≤ 0x20) ∨ n = 0x85 ∨ n = 0xA0 ∨ n = 0x1680 ∨ (0x2000 ≤ n ∧ n ≤ 0x200A) ∨
    n = 0x2028 ∨ n = 0x2029 ∨ n = 0x202F ∨ n = 0x205F ∨ n = 0x3000

/-- `str.strip`. -/
def strip (cs : List Char) : List Char := (cs.dropWhile isSpace).rdropWhile isSpace

/-- The stripped text of a hash file. -/
def digestOf (bytes : List UInt8) : Option (List Char) := (readText bytes).map strip

-- the digits of a word, a carriage return and a line feed
example : digestOf [0x20, 0x66, 0x65, 0x0D, 0x0A] = some ['f', 'e'] := by decide +kernel

/-! ## Beginnings -/

theorem universalNewlines_isPrefix {cs ds : List Char} (h : cs <+: ds) :
    ∀ r : Bool, universalNewlines r cs <+: universalNewlines r ds := by
  induction cs generalizing ds with
  | nil => exact fun _ => List.nil_prefix
  | cons c cs ih =>
    intro r
    cases ds with
    | nil => simp at h
    | cons d ds =>
      obtain ⟨rfl, h'⟩ := List.cons_prefix_cons.mp h
      rw [universalNewlines, universalNewlines]
      split
      · exact ih h' false
      · split
        · exact List.cons_prefix_cons.mpr ⟨rfl, ih h' true⟩
        · exact List.cons_prefix_cons.mpr ⟨rfl, ih h' false⟩

theorem dropWhile_isPrefix {p : Char → Bool} : ∀ {cs ds : List Char}, cs <+: ds → cs.dropWhile p <+: ds.dropWhile p
  | [], _, _ => List.nil_prefix
  | c :: cs, [], h => by simp at h
  | c :: cs, d :: ds, h => by
    obtain ⟨rfl, h'⟩ := List.cons_prefix_cons.mp h
    rw [List.dropWhile_cons, List.dropWhile_cons]
    split
    · exact dropWhile_isPrefix h'
    · exact h

theorem strip_isPrefix (cs : List Char) : strip cs <+: cs.dropWhile isSpace := List.rdropWhile_prefix isSpace _

/-- **A hash file that is cut short shows no other digest.** -/
theorem digestOf_isPrefix {bs bs' : List UInt8} {d d' : List Char} (h : bs <+: bs') (hd : digestOf bs = some d)
    (hd' : digestOf bs' = some d') (hlen : d.length = d'.length) : d = d' := by
  simp only [digestOf, readText, Option.map_map, Option.map_eq_some_iff, Function.comp] at hd hd'
  obtain ⟨cs, hcs, rfl⟩ := hd
  obtain ⟨cs', hcs', rfl⟩ := hd'
  have hpre := dropWhile_isPrefix (p := isSpace) (universalNewlines_isPrefix (Utf8.decode_isPrefix h hcs hcs') false)
  have hstrip := (strip_isPrefix (universalNewlines false cs)).trans hpre
  have hstrip' := strip_isPrefix (universalNewlines false cs')
  exact (List.prefix_of_prefix_length_le hstrip hstrip' (Nat.le_of_eq hlen)).eq_of_length hlen

end KaonicComm.Ota
