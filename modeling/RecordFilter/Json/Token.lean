import RecordFilter.Decimal.Numeral
import RecordFilter.Json.Numeral
import RecordFilter.Json.Reader

/-!
# Reading tokens

The scalars of JSON and the opening brackets.  Content that nobody asks for is *skipped*: it must
keep to the grammar, but nothing is asked of what it means, so that a number may be of any size and
half of a surrogate pair may stand alone.
-/

namespace RecordFilter.Json

/-! ## Strings -/

/-- The value of a hexadecimal digit. -/
def hexDigit? (c : Char) : Option Nat :=
  if '0' ≤ c ∧ c ≤ '9' then some (c.toNat - '0'.toNat)
  else if 'a' ≤ c ∧ c ≤ 'f' then some (c.toNat - 'a'.toNat + 10)
  else if 'A' ≤ c ∧ c ≤ 'F' then some (c.toNat - 'A'.toNat + 10)
  else none

/-- The value of four hexadecimal digits. -/
def fourHex? (a b c d : Char) : Option Nat := do
  return (((← hexDigit? a) * 16 + (← hexDigit? b)) * 16 + (← hexDigit? c)) * 16 + (← hexDigit? d)

/-- The number of octets of a text. -/
def octets (s : List Char) : Nat := s.foldl (fun n c => n + c.utf8Size) 0

namespace Reader

/-- Takes four hexadecimal digits.  Less than four octets of text are too few for them. -/
def fourHex : Reader Nat where
  read
    | a :: b :: c :: d :: rest =>
      match fourHex? a b c d with
      | some n => .ok (n, rest)
      | none => .error .malformed
    | s => if octets s < 4 then .error .truncated else .error .malformed
  shortens := by
    intro s n rest h
    split at h
    · split at h
      · cases h
        simp only [List.length_cons]
        omega
      · cases h
    · split at h <;> cases h

/-- Takes the digits of a `\u` escape, and the second escape of a surrogate pair. -/
def codePoint (skipping : Bool) : Reader Char := do
  let high ← fourHex
  if high < 0xD800 ∨ 0xDFFF < high then return Char.ofNat high
  else if skipping then return '\x00'
  else if 0xDC00 ≤ high then fail .malformed
  else
    symbol '\\'
    symbol 'u'
    let low ← fourHex
    if 0xDC00 ≤ low ∧ low ≤ 0xDFFF then
      return Char.ofNat (0x10000 + (high - 0xD800) * 0x400 + (low - 0xDC00))
    else fail .malformed

/-- The character of a short escape. -/
def shortEscape? (c : Char) : Option Char :=
  if c = '\"' ∨ c = '\\' ∨ c = '/' then some c
  else if c = 'b' then some '\x08'
  else if c = 'f' then some '\x0c'
  else if c = 'n' then some '\n'
  else if c = 'r' then some '\r'
  else if c = 't' then some '\t'
  else none

/-- Takes what follows the backslash of an escape. -/
def escaped (skipping : Bool) : Reader Char where
  read
    | [] => .error .truncated
    | c :: rest =>
      if c = 'u' then (codePoint skipping).read rest
      else match shortEscape? c with
        | some d => .ok (d, rest)
        | none => .error .malformed
  shortens := by
    intro s d rest h
    split at h
    · cases h
    · split at h
      · exact Nat.le_succ_of_le ((codePoint skipping).shortens h)
      · split at h
        · cases h
          exact Nat.le_succ _
        · cases h

/-- The characters of a string up to its closing quote, behind those taken so far, which are given
in reverse. -/
def stringFrom (skipping : Bool) (taken : List Char) (s : List Char) : Outcome String :=
  match s with
  | [] => .error .truncated
  | c :: rest =>
    if c = '\"' then .ok (String.ofList taken.reverse, rest)
    else if c = '\\' then
      match _h : (escaped skipping).read rest with
      | .error e => .error e
      | .ok (d, rest') => stringFrom skipping (d :: taken) rest'
    else if c < ' ' then .error .malformed
    else stringFrom skipping (c :: taken) rest
termination_by s.length
decreasing_by
  · exact Nat.lt_succ_of_le ((escaped skipping).shortens _h)
  · exact Nat.lt_succ_self _

/-- One round of the loop over the characters of a string. -/
theorem stringFrom_cons (skipping : Bool) (taken : List Char) (c : Char) (rest : List Char) :
    stringFrom skipping taken (c :: rest) =
      if c = '\"' then .ok (String.ofList taken.reverse, rest)
      else if c = '\\' then
        match (escaped skipping).read rest with
        | .error e => .error e
        | .ok (d, rest') => stringFrom skipping (d :: taken) rest'
      else if c < ' ' then .error .malformed
      else stringFrom skipping (c :: taken) rest := by
  rw [stringFrom]
  split
  · rfl
  · split
    · split
      · rename_i h
        rw [h]
      · rename_i h
        rw [h]
    · rfl

theorem length_stringFrom_le {skipping : Bool} {taken s : List Char} {t : String}
    {rest : List Char} (h : stringFrom skipping taken s = .ok (t, rest)) :
    rest.length ≤ s.length := by
  fun_induction stringFrom skipping taken s with
  | case1 => cases h
  | case2 => cases h; exact Nat.le_succ _
  | case3 => cases h
  | case4 taken rest' d r hr _ ih =>
    exact Nat.le_succ_of_le (Nat.le_trans (ih h) ((escaped skipping).shortens hr))
  | case5 => cases h
  | case6 taken c rest' _ _ _ ih => exact Nat.le_succ_of_le (ih h)

/-- Takes a string between quotes. -/
def quoted (skipping : Bool) : Reader String := do
  symbol '\"'
  ⟨stringFrom skipping [], length_stringFrom_le⟩

/-! ## Numbers -/

/-- The error of a text that ends where a digit should stand. -/
def noDigit (skipping : Bool) : List Char → ReadError
  | [] => if skipping then .malformed else .truncated
  | _ :: _ => .malformed

/-- Takes one digit and all that follow it. -/
def someDigits (skipping : Bool) : Reader (List Char) where
  read s :=
    let (digits, rest) := Decimal.spanDigits s
    if digits = [] then .error (noDigit skipping s) else .ok (digits, rest)
  shortens := by
    intro s digits rest h
    simp only at h
    split at h
    · cases h
    · cases h
      exact (List.dropWhile_sublist _).length_le

/-- Takes the digits before the decimal point: a zero alone, or digits that start with another. -/
def whole (skipping : Bool) : Reader (List Char) := do
  let digits ← someDigits skipping
  if digits.head? = some '0' ∧ digits.length ≠ 1 then fail .malformed else return digits

/-- Takes what is asked for if the text goes on with a character of the given kind. -/
def optional {α : Type} (starts : Char → Bool) (r : Reader α) : Reader (Option α) where
  read
    | [] => .ok (none, [])
    | c :: rest =>
      if starts c then (some <$> r).read (c :: rest) else .ok (none, c :: rest)
  shortens := by
    intro s a rest h
    split at h
    · cases h
      exact Nat.le_refl _
    · split at h
      · exact (some <$> r).shortens h
      · cases h
        exact Nat.le_refl _

/-- Takes a character, whatever it is. -/
def next : Reader Char where
  read
    | [] => .error .truncated
    | c :: rest => .ok (c, rest)
  shortens := by
    intro s a rest h
    split at h
    · cases h
    · cases h
      exact Nat.le_succ _

/-- Takes a decimal point and the digits behind it. -/
def fraction (skipping : Bool) : Reader (List Char) := do
  let _ ← next
  someDigits skipping

/-- Takes the mark of an exponent, its sign and its digits. -/
def exponent (skipping : Bool) : Reader Int := do
  let _ ← next
  let sign ← optional (fun c => c == '+' || c == '-') next
  let digits ← someDigits skipping
  return Binary64.signed (sign == some '-') (Integer.ofDigits digits)

/-- Takes a number. -/
def numeral (skipping : Bool) : Reader Numeral := do
  let minus ← optional (· == '-') next
  let whole ← whole skipping
  let fraction ← optional (· == '.') (fraction skipping)
  let exponent ← optional (fun c => c == 'e' || c == 'E') (exponent skipping)
  return ⟨minus.isSome, whole, fraction, exponent⟩

/-- Takes a number that the format can hold. -/
def number : Reader Token := do
  match (← numeral false).token? with
  | some t => return t
  | none => fail .malformed

/-! ## Tokens -/

/-- Takes one of the three words of JSON. -/
def null : Reader Unit := word ['n', 'u', 'l', 'l']

@[inherit_doc null]
def boolean : Bool → Reader Unit
  | true => word ['t', 'r', 'u', 'e']
  | false => word ['f', 'a', 'l', 's', 'e']

/-- Takes the first token of a value. -/
def token : Reader Token := onNext fun c =>
  if c = 'n' then (fun _ => .null) <$> null
  else if c = 't' then (fun _ => .boolean true) <$> boolean true
  else if c = 'f' then (fun _ => .boolean false) <$> boolean false
  else if c = '\"' then .string <$> quoted false
  else if c = '[' then (fun _ => .array) <$> symbol '['
  else if c = '\x7b' then (fun _ => .object) <$> symbol '\x7b'
  else if c = '-' ∨ c.isDigit then number
  else fail .malformed

end Reader

end RecordFilter.Json
