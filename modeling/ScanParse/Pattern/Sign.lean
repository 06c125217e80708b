import ScanParse.Pattern.Mode

namespace ScanParse.Pattern

inductive Sign where
  /-- A character; `twoDigits` if it was written as two hexadecimal digits. -/
  | literal (c : Char) (twoDigits : Bool)
  /-- The digits, blanks or word characters, or all others. -/
  | family (negated : Bool)
  /-- A place at the end of a text or line. -/
  | ending
  /-- A place at the end of a word, or within one. -/
  | wordEnding
  /-- Any character. -/
  | anything
deriving DecidableEq, Repr

def hexDigit? (c : Char) : Option Nat :=
  if c.isDigit then some (c.toNat - 0x30)
  else if 'a' ≤ c ∧ c ≤ 'f' then some (c.toNat - 0x57)
  else if 'A' ≤ c ∧ c ≤ 'F' then some (c.toNat - 0x37)
  else none

/-- The value of a number of hexadecimal digits, and what stands behind them; `value` is that of the
digits before. -/
def hexValue? (mode : Mode) (value : Nat) : Nat → List Char → Option (Nat × List Char)
  | 0, cs => some (value, mode.skip cs)
  | count + 1, cs =>
      match mode.skip cs with
      | [] => none
      | c :: rest =>
          match hexDigit? c with
          | none => none
          | some digit => hexValue? mode (16 * value + digit) count rest

theorem length_le_of_hexValue? {mode : Mode} {value count code : Nat} {cs rest : List Char}
    (h : hexValue? mode value count cs = some (code, rest)) : rest.length ≤ cs.length := by
  induction count generalizing value cs with
  | zero =>
      simp only [hexValue?, Option.some.injEq, Prod.mk.injEq] at h
      exact h.2 ▸ mode.length_skip_le cs
  | succ count ih =>
      have hskip := mode.length_skip_le cs
      simp only [hexValue?] at h
      split at h
      · simp at h
      · rename_i c tail heq
        split at h
        · simp at h
        · have := ih h
          rw [heq, List.length_cons] at hskip
          omega

namespace Sign

/-- The character that a number of hexadecimal digits encodes, and what stands behind them. -/
def ofHex? (mode : Mode) (count : Nat) (cs : List Char) : Option (Sign × List Char) :=
  match hexValue? mode 0 count cs with
  | none => none
  | some (code, rest) =>
      if code.isValidChar then some (literal (Char.ofNat code) (count == 2), rest) else none

/-- The sign that a backslash and one character stand for. Punctuation stands for itself; a digit
or letter without a meaning of its own is not allowed. -/
def ofEscaped? (c : Char) : Option Sign :=
  match c with
  | 'd' | 's' | 'w' => some (family false)
  | 'D' | 'S' | 'W' => some (family true)
  | 'A' | 'z' => some ending
  | 'b' | 'B' | '<' | '>' => some wordEnding
  | 'a' => some (literal '\x07' false)
  | 'f' => some (literal '\x0c' false)
  | 't' => some (literal '\t' false)
  | 'n' => some (literal '\n' false)
  | 'r' => some (literal '\r' false)
  | 'v' => some (literal '\x0b' false)
  | _ => if c.toNat < 0x80 ∧ ¬ c.isAlphanum then some (literal c false) else none

/-- The sign behind a backslash, and what stands behind it. -/
def readEscaped? (mode : Mode) : List Char → Option (Sign × List Char)
  | [] => none
  | 'x' :: rest => ofHex? mode 2 rest
  | 'u' :: rest => ofHex? mode 4 rest
  | 'U' :: rest => ofHex? mode 8 rest
  | c :: rest => (ofEscaped? c).map fun sign => (sign, rest)

/-- The sign at the front of a text, outside of square brackets, and what stands behind it. -/
def read? (mode : Mode) : List Char → Option (Sign × List Char)
  | [] => none
  | '\\' :: rest => readEscaped? mode rest
  | '.' :: rest => some (anything, rest)
  | '^' :: rest | '$' :: rest => some (ending, rest)
  | c :: rest => some (literal c false, rest)

/-- The sign at the front of a text within square brackets, and what stands behind it. -/
def readMember? (mode : Mode) : List Char → Option (Sign × List Char)
  | [] => none
  | '\\' :: rest => readEscaped? mode rest
  | c :: rest => some (literal c false, rest)

theorem length_le_of_ofHex? {mode : Mode} {count : Nat} {cs rest : List Char} {sign : Sign}
    (h : ofHex? mode count cs = some (sign, rest)) : rest.length ≤ cs.length := by
  unfold ofHex? at h
  split at h
  · simp at h
  · rename_i code tail heq
    split at h
    · simp only [Option.some.injEq, Prod.mk.injEq] at h
      exact h.2 ▸ length_le_of_hexValue? heq
    · simp at h

theorem length_lt_of_readEscaped? {mode : Mode} {cs rest : List Char} {sign : Sign}
    (h : readEscaped? mode cs = some (sign, rest)) : rest.length < cs.length := by
  unfold readEscaped? at h
  split at h
  · simp at h
  · exact Nat.lt_succ_of_le (length_le_of_ofHex? h)
  · exact Nat.lt_succ_of_le (length_le_of_ofHex? h)
  · exact Nat.lt_succ_of_le (length_le_of_ofHex? h)
  · obtain ⟨_, _, heq⟩ := Option.map_eq_some_iff.mp h
    simp only [Prod.mk.injEq] at heq
    simp [← heq.2]

theorem length_lt_of_read? {mode : Mode} {cs rest : List Char} {sign : Sign}
    (h : read? mode cs = some (sign, rest)) : rest.length < cs.length := by
  unfold read? at h
  split at h
  · simp at h
  · exact Nat.lt_succ_of_lt (length_lt_of_readEscaped? h)
  all_goals
    simp only [Option.some.injEq, Prod.mk.injEq] at h
    simp [← h.2]

theorem length_lt_of_readMember? {mode : Mode} {cs rest : List Char} {sign : Sign}
    (h : readMember? mode cs = some (sign, rest)) : rest.length < cs.length := by
  unfold readMember? at h
  split at h
  · simp at h
  · exact Nat.lt_succ_of_lt (length_lt_of_readEscaped? h)
  · simp only [Option.some.injEq, Prod.mk.injEq] at h
    simp [← h.2]

/-- A sign can stand outside of square brackets. No case pairs and no families are known for
characters, only for bytes, and nothing may stand for a part of a character. -/
def isAllowed (mode : Mode) : Sign → Bool
  | literal c twoDigits =>
      if mode.unicode then !mode.ignoresCase else !(twoDigits && 0x80 ≤ c.toNat)
  | family negated => !mode.unicode && !negated
  | ending => true
  | wordEnding => !mode.unicode
  | anything => mode.unicode

/-- A sign can stand within square brackets. -/
def isMember (mode : Mode) : Sign → Bool
  | literal c _ => if mode.unicode then !mode.ignoresCase else c.toNat < 0x80
  | family negated => !mode.unicode && !negated
  | _ => false

end Sign

end ScanParse.Pattern
