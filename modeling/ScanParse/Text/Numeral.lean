namespace ScanParse.Text

/-- The longest run of decimal digits at the front. -/
def digitRun (cs : List Char) : List Char :=
  cs.takeWhile Char.isDigit

theorem length_digitRun_le (cs : List Char) : (digitRun cs).length ≤ cs.length :=
  (List.takeWhile_prefix Char.isDigit).length_le

theorem isDigit_of_mem_digitRun {c : Char} {cs : List Char} (h : c ∈ digitRun cs) :
    c.isDigit = true := by
  induction cs with
  | nil => simp [digitRun] at h
  | cons d rest ih =>
      cases hd : d.isDigit with
      | false => simp [digitRun, hd] at h
      | true =>
          have hmem : c = d ∨ c ∈ digitRun rest := by simpa [digitRun, hd] using h
          rcases hmem with rfl | hrest
          · exact hd
          · exact ih hrest

/-- The number that a run of digits denotes. -/
def digitsValue (digits : List Char) : Nat :=
  digits.foldl (fun value digit => 10 * value + (digit.toNat - '0'.toNat)) 0

/-- A numeral: the digits before and behind the point, the power of ten of its exponent part, and
the number of characters of the whole. -/
structure Numeral where
  whole : List Char
  fraction : List Char
  power : Int
  width : Nat

namespace Numeral

/-- A point and the digits behind it: those digits, and the number of characters. -/
def fractionPart : List Char → List Char × Nat
  | '.' :: rest => (digitRun rest, (digitRun rest).length + 1)
  | _ => ([], 0)

/-- The largest power at which further digits of an exponent still count. -/
def powerBound : Nat := 65535

/-- The power of ten that the digits of an exponent denote. Once it is past the bound, the digits
that follow count for nothing. -/
def powerValue (digits : List Char) : Nat :=
  digits.foldl
    (fun value digit =>
      if value ≤ powerBound then 10 * value + (digit.toNat - '0'.toNat) else value)
    0

def signedPart (negative : Bool) (signWidth : Nat) (cs : List Char) : Option (Int × Nat) :=
  match digitRun cs with
  | [] => none
  | digits =>
      let value : Int := powerValue digits
      some (if negative then -value else value, signWidth + digits.length)

/-- The digits of an exponent with an optional sign. -/
def powerPart : List Char → Option (Int × Nat)
  | '-' :: digits => signedPart true 1 digits
  | '+' :: digits => signedPart false 1 digits
  | digits => signedPart false 0 digits

/-- An exponent part: its power of ten, and the number of characters. A letter without digits is
no exponent. -/
def exponentPart : List Char → Int × Nat
  | letter :: rest =>
      if letter = 'e' ∨ letter = 'E' then
        match powerPart rest with
        | some (power, width) => (power, width + 1)
        | none => (0, 0)
      else (0, 0)
  | [] => (0, 0)

/-- The longest numeral at the front of a text; it has a digit before or behind the point. -/
def read? (cs : List Char) : Option Numeral :=
  let whole := digitRun cs
  let afterWhole := cs.drop whole.length
  let (fraction, fractionWidth) := fractionPart afterWhole
  if whole.isEmpty ∧ fraction.isEmpty then none
  else
    let (power, exponentWidth) := exponentPart (afterWhole.drop fractionWidth)
    some ⟨whole, fraction, power, whole.length + fractionWidth + exponentWidth⟩

/-- The digits of a numeral as one number; the value is this times ten to `scale`. -/
def digits (numeral : Numeral) : Nat :=
  digitsValue (numeral.whole ++ numeral.fraction)

/-- The power of ten that belongs to `digits`. -/
def scale (numeral : Numeral) : Int :=
  numeral.power - numeral.fraction.length

theorem fractionPart_le (cs : List Char) : (fractionPart cs).2 ≤ cs.length := by
  unfold fractionPart
  split
  · rename_i rest
    simpa using length_digitRun_le rest
  · exact Nat.zero_le _

theorem signedPart_le {negative : Bool} {signWidth : Nat} {cs : List Char} {part : Int × Nat}
    (h : signedPart negative signWidth cs = some part) : part.2 ≤ signWidth + cs.length := by
  unfold signedPart at h
  split at h
  · simp at h
  · obtain rfl : _ = part := by simpa using h
    exact Nat.add_le_add_left (length_digitRun_le cs) signWidth

theorem powerPart_le {cs : List Char} {part : Int × Nat} (h : powerPart cs = some part) :
    part.2 ≤ cs.length := by
  unfold powerPart at h
  split at h
  · rename_i digits
    have hle := signedPart_le h
    rw [List.length_cons]
    omega
  · rename_i digits
    have hle := signedPart_le h
    rw [List.length_cons]
    omega
  · simpa using signedPart_le h

theorem exponentPart_le (cs : List Char) : (exponentPart cs).2 ≤ cs.length := by
  unfold exponentPart
  split
  · rename_i letter rest
    split
    · split
      · rename_i power width hpower
        exact Nat.succ_le_succ (powerPart_le hpower)
      · exact Nat.zero_le _
    · exact Nat.zero_le _
  · exact Nat.le_refl _

theorem length_digitRun_le_width {cs : List Char} {numeral : Numeral}
    (h : read? cs = some numeral) : (digitRun cs).length ≤ numeral.width := by
  simp only [read?] at h
  split at h
  · simp at h
  · obtain rfl : _ = numeral := by simpa using h
    simp only [Nat.add_assoc]
    exact Nat.le_add_right _ _

theorem width_le {cs : List Char} {numeral : Numeral} (h : read? cs = some numeral) :
    numeral.width ≤ cs.length := by
  simp only [read?] at h
  split at h
  · simp at h
  · obtain rfl : _ = numeral := by simpa using h
    have hwhole := length_digitRun_le cs
    have hfraction := fractionPart_le (cs.drop (digitRun cs).length)
    have hexponent := exponentPart_le
      ((cs.drop (digitRun cs).length).drop (fractionPart (cs.drop (digitRun cs).length)).2)
    simp only [List.length_drop] at hfraction hexponent
    simp only [List.drop_drop] at hexponent ⊢
    omega

end Numeral

end ScanParse.Text
