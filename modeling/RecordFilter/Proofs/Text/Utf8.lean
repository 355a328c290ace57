import Mathlib.Tactic.IntervalCases
import Mathlib.Tactic.SplitIfs
import RecordFilter.Proofs.Text.Code

/-!
# Texts as bytes

A text is stored in UTF-8, in which a character takes one to four bytes.  The binary digits of its
code point are spread over them: the last six stand in the last byte, the six before in the byte
before, and what is left in the first byte (`word`).  The greater a code point, the more bytes it
takes, and the first byte tells how many, by the range that it lies in.  So of two characters that
take different numbers of bytes the first bytes are in order, and of two that take the same number
the first bytes in which they differ.

The bytes behind the first are of a kind that no character begins with.  Hence UTF-8 is a code that
keeps the order and can be searched.

* `lexAtMost_bytes_iff`: texts compare as bytes as they compare as code points.
* `infix_bytes_iff`: the bytes of a needle occur where its characters occur.
-/

namespace RecordFilter.Text

/-- The bytes of a text in UTF-8. -/
def bytes (s : String) : List UInt8 := s.toUTF8.data.toList

/-- The code points of the characters of a text. -/
def codePoints (s : String) : List Nat := s.toList.map Char.toNat

theorem bytes_eq_flatMap (s : String) : bytes s = s.toList.flatMap String.utf8EncodeChar := by
  conv => lhs; rw [← String.ofList_toList (s := s)]
  rw [bytes, String.toUTF8_eq_toByteArray, String.toByteArray_ofList, List.utf8Encode,
    List.toList_data_toByteArray]

theorem codePoints_eq_flatMap (s : String) :
    codePoints s = s.toList.flatMap fun c => [c.toNat] :=
  List.map_eq_flatMap

/-! ## Digits in bytes -/

theorem ofNat_lt_ofNat {m n : Nat} (h : m < n) (hn : n < 256) : UInt8.ofNat m < UInt8.ofNat n := by
  rw [UInt8.lt_iff_toNat_lt, UInt8.toNat_ofNat_of_lt' (Nat.lt_trans h hn),
    UInt8.toNat_ofNat_of_lt' hn]
  exact h

/-- The last six binary digits of a number, in a byte behind the first. -/
def lastDigits (v : Nat) : UInt8 := .ofNat (v % 64 + 128)

/-- The bytes of a number: its last binary digits by six in so many bytes, and those before them in
the first byte. -/
def word (first : Nat → UInt8) : Nat → Nat → List UInt8
  | 0, v => [first v]
  | behind + 1, v => word first behind (v / 64) ++ [lastDigits v]

theorem word_eq_cons (first : Nat → UInt8) (behind v : Nat) :
    ∃ rest, word first behind v = first (v / 64 ^ behind) :: rest := by
  induction behind generalizing v with
  | zero => exact ⟨[], by rw [word, Nat.pow_zero, Nat.div_one]⟩
  | succ behind ih =>
    obtain ⟨rest, hrest⟩ := ih (v / 64)
    rw [Nat.div_div_eq_div_mul, ← Nat.pow_succ'] at hrest
    exact ⟨rest ++ [lastDigits v], by rw [word, hrest, List.cons_append]⟩

/-- Words of one length are in order if their numbers are. -/
theorem partsBelow_word {first : Nat → UInt8} {room : Nat}
    (hfirst : ∀ {m n}, m < n → n < room → first m < first n) {behind v w : Nat} (hlt : v < w)
    (hw : w < room * 64 ^ behind) : PartsBelow (word first behind v) (word first behind w) := by
  induction behind generalizing v w with
  | zero => exact .of_lt (hfirst hlt (by simpa using hw)) [] []
  | succ behind ih =>
    rw [Nat.pow_succ, ← Nat.mul_assoc, Nat.mul_comm] at hw
    rcases Nat.lt_or_eq_of_le (Nat.div_le_div_right (c := 64) (Nat.le_of_lt hlt)) with hless | heq
    · -- The numbers differ before their last six digits.
      exact (ih hless (Nat.div_lt_of_lt_mul hw)).append _ _
    · have hdigits : lastDigits v < lastDigits w := ofNat_lt_ofNat (by omega) (by omega)
      rw [word, word, heq]
      exact ⟨_, _, _, hdigits, List.prefix_rfl, List.prefix_rfl⟩

/-! ## Characters in bytes -/

/-- How many bytes the character with a code point has behind the first. -/
def bytesBehind (v : Nat) : Nat :=
  if v ≤ 127 then 0 else if v ≤ 2047 then 1 else if v ≤ 65535 then 2 else 3

/-- How many numbers the first byte can hold, if so many follow. -/
def room : Nat → Nat
  | 0 => 128
  | 1 => 32
  | 2 => 16
  | _ => 8

/-- Where the range of the first byte starts, if so many follow. -/
def base : Nat → Nat
  | 0 => 0
  | 1 => 192
  | 2 => 224
  | _ => 240

/-- The first byte, if so many follow. -/
def firstByte (behind v : Nat) : UInt8 := .ofNat (v % room behind + base behind)

theorem bytesBehind_le (v : Nat) : bytesBehind v ≤ 3 := by
  unfold bytesBehind
  split_ifs <;> omega

theorem bytesBehind_mono {v w : Nat} (h : v ≤ w) : bytesBehind v ≤ bytesBehind w := by
  unfold bytesBehind
  split_ifs <;> omega

theorem lt_room_mul (c : Char) :
    c.toNat < room (bytesBehind c.toNat) * 64 ^ bytesBehind c.toNat := by
  have hvalid : c.toNat < 1114112 := by
    rcases c.valid with h | ⟨-, h⟩
    · exact Nat.lt_trans h (by decide)
    · exact h
  unfold bytesBehind
  split_ifs <;> simp only [room] <;> omega

theorem utf8EncodeChar_eq_word (c : Char) : String.utf8EncodeChar c =
    word (firstByte (bytesBehind c.toNat)) (bytesBehind c.toNat) c.toNat := by
  have hval : c.val.toNat = c.toNat := rfl
  unfold String.utf8EncodeChar bytesBehind
  simp only [hval]
  split_ifs with hone
  · simp [word, firstByte, room, base, Nat.mod_eq_of_lt (Nat.lt_succ_of_le hone)]
  all_goals simp [word, firstByte, room, base, lastDigits, Nat.div_div_eq_div_mul]

theorem room_pos (behind : Nat) : 0 < room behind := by
  rcases behind with _ | _ | _ | behind <;> simp [room]

theorem room_add_base_le (behind : Nat) : room behind + base behind ≤ 256 := by
  rcases behind with _ | _ | _ | behind <;> simp [room, base]

/-- The ranges of the first byte are in order. -/
theorem room_add_base_le_base {j k : Nat} (hjk : j < k) (hk : k ≤ 3) :
    room j + base j ≤ base k := by
  interval_cases k <;> interval_cases j <;> decide

theorem firstByte_lt_firstByte {behind m n : Nat} (hmn : m < n) (hn : n < room behind) :
    firstByte behind m < firstByte behind n := by
  have hrange := room_add_base_le behind
  rw [firstByte, firstByte, Nat.mod_eq_of_lt hn, Nat.mod_eq_of_lt (Nat.lt_trans hmn hn)]
  exact ofNat_lt_ofNat (by omega) (by omega)

/-- More bytes behind the first make the first greater. -/
theorem firstByte_lt_of_lt {j k : Nat} (hjk : j < k) (hk : k ≤ 3) (m n : Nat) :
    firstByte j m < firstByte k n := by
  have hranges := room_add_base_le_base hjk hk
  have hrange := room_add_base_le k
  have hm := Nat.mod_lt m (room_pos j)
  have hn := Nat.mod_lt n (room_pos k)
  exact ofNat_lt_ofNat (by omega) (by omega)

theorem orderedCode_utf8 : OrderedCode String.utf8EncodeChar where
  ne_nil _ := String.utf8EncodeChar_ne_nil
  partsBelow {c d} h := by
    have hlt : c.toNat < d.toNat := h
    rw [utf8EncodeChar_eq_word, utf8EncodeChar_eq_word]
    rcases Nat.lt_or_eq_of_le (bytesBehind_mono (Nat.le_of_lt hlt)) with hless | heq
    · obtain ⟨rest, hrest⟩ := word_eq_cons (firstByte (bytesBehind c.toNat)) (bytesBehind c.toNat)
        c.toNat
      obtain ⟨rest', hrest'⟩ := word_eq_cons (firstByte (bytesBehind d.toNat))
        (bytesBehind d.toNat) d.toNat
      rw [hrest, hrest']
      exact .of_lt (firstByte_lt_of_lt hless (bytesBehind_le _) _ _) rest rest'
    · rw [heq]
      exact partsBelow_word firstByte_lt_firstByte hlt (lt_room_mul d)

theorem orderedCode_codePoint : OrderedCode fun c : Char => [c.toNat] where
  ne_nil _ := List.cons_ne_nil _ _
  partsBelow {c d} h := .of_lt (show c.toNat < d.toNat from h) [] []

theorem markedCode_utf8 : MarkedCode UInt8.IsUTF8FirstByte String.utf8EncodeChar := by
  intro c
  obtain ⟨x, xs, hword⟩ := List.exists_cons_of_ne_nil (String.utf8EncodeChar_ne_nil (c := c))
  refine ⟨x, xs, hword, ?_, fun y hy => ?_⟩
  · have hfirst := UInt8.isUTF8FirstByte_getElem_zero_utf8EncodeChar (c := c)
    simpa only [hword, List.getElem_cons_zero] using hfirst
  · obtain ⟨i, hi, rfl⟩ := List.getElem_of_mem hy
    have hlength : i + 1 < (String.utf8EncodeChar c).length := by
      rw [hword]
      exact Nat.succ_lt_succ hi
    have hbehind : ¬ (String.utf8EncodeChar c)[i + 1].IsUTF8FirstByte := by
      rw [UInt8.isUTF8FirstByte_getElem_utf8EncodeChar]
      exact Nat.succ_ne_zero i
    simpa only [hword, List.getElem_cons_succ] using hbehind

/-! ## Texts -/

/-- **Comparing bytes is comparing code points.** -/
theorem lexAtMost_bytes_iff {s t : String} :
    LexAtMost (bytes s) (bytes t) ↔ LexAtMost (codePoints s) (codePoints t) := by
  rw [bytes_eq_flatMap, bytes_eq_flatMap, orderedCode_utf8.lexAtMost_iff, codePoints_eq_flatMap,
    codePoints_eq_flatMap, orderedCode_codePoint.lexAtMost_iff]

/-- **Searching bytes is searching characters.** -/
theorem infix_bytes_iff {needle s : String} :
    bytes needle <:+: bytes s ↔ needle.toList <:+: s.toList := by
  rw [bytes_eq_flatMap, bytes_eq_flatMap, orderedCode_utf8.infix_iff markedCode_utf8]

end RecordFilter.Text
