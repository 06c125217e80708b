import ScanParse.Proofs.Lexical.Character

namespace ScanParse.Text

def IsDigits (cs : List Char) : Prop :=
  cs ≠ [] ∧ ∀ c ∈ cs, c.isDigit = true

/-- A point with any number of digits behind it. -/
def IsFraction (cs : List Char) : Prop :=
  ∃ digits, cs = '.' :: digits ∧ ∀ c ∈ digits, c.isDigit = true

/-- The letter `e` of either case, an optional sign, and digits. -/
def IsExponent (cs : List Char) : Prop :=
  ∃ letter sign digits, cs = letter :: (sign ++ digits) ∧
    (letter = 'e' ∨ letter = 'E') ∧ (sign = [] ∨ sign = ['+'] ∨ sign = ['-']) ∧
      IsDigits digits

/-- Digits, an optional fraction, and an optional exponent. -/
def IsNumeral (cs : List Char) : Prop :=
  ∃ whole fraction exponent, cs = whole ++ (fraction ++ exponent) ∧ IsDigits whole ∧
    (fraction = [] ∨ IsFraction fraction) ∧ (exponent = [] ∨ IsExponent exponent)

/-- An exponent stands at the front of the text. -/
def StartsExponent (cs : List Char) : Prop :=
  ∃ exponent rest, cs = exponent ++ rest ∧ IsExponent exponent

theorem digitRun_append {digits rest : List Char} (h : ∀ c ∈ digits, c.isDigit = true)
    (hrest : Stops Char.isDigit rest) : digitRun (digits ++ rest) = digits :=
  takeWhile_append_of_stops h hrest

theorem exists_digits (cs : List Char) :
    ∃ digits rest, cs = digits ++ rest ∧ (∀ c ∈ digits, c.isDigit = true) ∧
      Stops Char.isDigit rest :=
  ⟨digitRun cs, cs.dropWhile Char.isDigit, List.takeWhile_append_dropWhile.symm,
    fun _ => isDigit_of_mem_digitRun, stops_dropWhile _ _⟩

theorem exists_cons_of_isDigits {cs : List Char} (h : IsDigits cs) :
    ∃ c rest, cs = c :: rest ∧ c.isDigit = true := by
  rcases cs with _ | ⟨c, rest⟩
  · exact absurd rfl h.1
  · exact ⟨c, rest, rfl, h.2 c (by simp)⟩

theorem IsFraction.stops {fraction : List Char} (h : IsFraction fraction)
    (rest : List Char) : Stops Char.isDigit (fraction ++ rest) := by
  obtain ⟨digits, rfl, -⟩ := h
  rw [List.cons_append, stops_cons]
  decide

theorem IsExponent.stops {exponent : List Char} (h : IsExponent exponent)
    (rest : List Char) : Stops Char.isDigit (exponent ++ rest) := by
  obtain ⟨letter, sign, digits, rfl, hletter, -, -⟩ := h
  rw [List.cons_append, stops_cons]
  rcases hletter with rfl | rfl <;> decide

namespace Numeral

theorem fractionPart_append {fraction rest : List Char} (h : IsFraction fraction)
    (hrest : Stops Char.isDigit rest) :
    (fractionPart (fraction ++ rest)).2 = fraction.length := by
  obtain ⟨digits, rfl, hdigits⟩ := h
  simp only [List.cons_append, fractionPart, digitRun_append hdigits hrest,
    List.length_cons]

theorem fractionPart_of_head? {cs : List Char} (h : cs.head? ≠ some '.') :
    fractionPart cs = ([], 0) := by
  unfold fractionPart
  split
  · simp at h
  · rfl

theorem signedPart_append (negative : Bool) (signWidth : Nat) {digits rest : List Char}
    (h : IsDigits digits) (hrest : Stops Char.isDigit rest) :
    ∃ power, signedPart negative signWidth (digits ++ rest) =
      some (power, signWidth + digits.length) := by
  unfold signedPart
  rw [digitRun_append h.2 hrest]
  split
  · exact absurd rfl h.1
  · exact ⟨_, rfl⟩

theorem powerPart_append {sign digits rest : List Char}
    (hsign : sign = [] ∨ sign = ['+'] ∨ sign = ['-']) (hdigits : IsDigits digits)
    (hrest : Stops Char.isDigit rest) :
    ∃ power, powerPart (sign ++ (digits ++ rest)) =
      some (power, sign.length + digits.length) := by
  rcases hsign with rfl | rfl | rfl
  · obtain ⟨c, tail, rfl, hc⟩ := exists_cons_of_isDigits hdigits
    have hread := signedPart_append false 0 hdigits hrest
    unfold powerPart
    split
    · rename_i hminus
      obtain rfl : c = '-' := by simpa using congrArg List.head? hminus
      simp at hc
    · rename_i hplus
      obtain rfl : c = '+' := by simpa using congrArg List.head? hplus
      simp at hc
    · exact hread
  · exact signedPart_append false 1 hdigits hrest
  · exact signedPart_append true 1 hdigits hrest

theorem powerPart_append_right {sign digits rest : List Char}
    (hsign : sign = [] ∨ sign = ['+'] ∨ sign = ['-']) (hdigits : IsDigits digits)
    (hrest : Stops Char.isDigit rest) :
    powerPart (sign ++ (digits ++ rest)) = powerPart (sign ++ digits) := by
  have hrun : digitRun (digits ++ rest) = digitRun digits := by
    rw [digitRun_append hdigits.2 hrest]
    simpa using (digitRun_append hdigits.2 (stops_nil _)).symm
  have hsigned : ∀ negative signWidth, signedPart negative signWidth (digits ++ rest) =
      signedPart negative signWidth digits := by
    intro negative signWidth
    rw [signedPart, signedPart, hrun]
  rcases hsign with rfl | rfl | rfl
  · obtain ⟨c, tail, rfl, hc⟩ := exists_cons_of_isDigits hdigits
    have hplus : c ≠ '+' := ne_of_class (p := Char.isDigit) hc (by decide)
    have hminus : c ≠ '-' := ne_of_class (p := Char.isDigit) hc (by decide)
    simpa [powerPart, hplus, hminus] using hsigned false 0
  · exact hsigned false 1
  · exact hsigned true 1

theorem exponentPart_append {exponent rest : List Char} (h : IsExponent exponent)
    (hrest : Stops Char.isDigit rest) :
    (exponentPart (exponent ++ rest)).2 = exponent.length := by
  obtain ⟨letter, sign, digits, rfl, hletter, hsign, hdigits⟩ := h
  obtain ⟨power, hpower⟩ := powerPart_append hsign hdigits hrest
  simp [exponentPart, hletter, hpower]

theorem exists_digits_of_signedPart {negative : Bool} {signWidth : Nat} {cs : List Char}
    {part : Int × Nat} (h : signedPart negative signWidth cs = some part) :
    ∃ digits rest, cs = digits ++ rest ∧ IsDigits digits := by
  unfold signedPart at h
  split at h
  · simp at h
  · rename_i hne
    exact ⟨digitRun cs, cs.dropWhile Char.isDigit, List.takeWhile_append_dropWhile.symm,
      hne, fun _ => isDigit_of_mem_digitRun⟩

theorem startsExponent_of_powerPart {letter : Char} {cs : List Char} {part : Int × Nat}
    (hletter : letter = 'e' ∨ letter = 'E') (h : powerPart cs = some part) :
    StartsExponent (letter :: cs) := by
  unfold powerPart at h
  split at h
  · obtain ⟨digits, rest, rfl, hdigits⟩ := exists_digits_of_signedPart h
    exact ⟨letter :: (['-'] ++ digits), rest, by simp, letter, ['-'], digits, rfl, hletter,
      by simp, hdigits⟩
  · obtain ⟨digits, rest, rfl, hdigits⟩ := exists_digits_of_signedPart h
    exact ⟨letter :: (['+'] ++ digits), rest, by simp, letter, ['+'], digits, rfl, hletter,
      by simp, hdigits⟩
  · obtain ⟨digits, rest, rfl, hdigits⟩ := exists_digits_of_signedPart h
    exact ⟨letter :: ([] ++ digits), rest, by simp, letter, [], digits, rfl, hletter,
      by simp, hdigits⟩

theorem exponentPart_of_not_startsExponent {cs : List Char} (h : ¬ StartsExponent cs) :
    exponentPart cs = (0, 0) := by
  unfold exponentPart
  split
  · split
    · rename_i hletter
      split
      · rename_i hpower
        exact absurd (startsExponent_of_powerPart hletter hpower) h
      · rfl
    · rfl
  · rfl

end Numeral

/-- A numeral in its parts, together with a text that does not prolong it. -/
structure LongestNumeral (whole fraction exponent rest : List Char) : Prop where
  whole_form : IsDigits whole
  fraction_form : fraction = [] ∨ IsFraction fraction
  exponent_form : exponent = [] ∨ IsExponent exponent
  digit_stops : Stops Char.isDigit rest
  point_stops : fraction = [] → exponent = [] → Stops (· == '.') rest
  exponent_stops : exponent = [] → ¬ StartsExponent rest

namespace LongestNumeral

variable {whole fraction exponent rest : List Char}

theorem stops_exponent (h : LongestNumeral whole fraction exponent rest) :
    Stops Char.isDigit (exponent ++ rest) := by
  rcases h.exponent_form with rfl | hexponent
  · exact h.digit_stops
  · exact hexponent.stops rest

theorem stops_fraction (h : LongestNumeral whole fraction exponent rest) :
    Stops Char.isDigit (fraction ++ (exponent ++ rest)) := by
  rcases h.fraction_form with rfl | hfraction
  · exact h.stops_exponent
  · exact hfraction.stops _

theorem digitRun_eq (h : LongestNumeral whole fraction exponent rest) :
    digitRun (whole ++ (fraction ++ (exponent ++ rest))) = whole :=
  digitRun_append h.whole_form.2 h.stops_fraction

theorem head?_exponent (h : LongestNumeral whole [] exponent rest) :
    (exponent ++ rest).head? ≠ some '.' := by
  rcases h.exponent_form with rfl | ⟨letter, sign, digits, rfl, hletter, -, -⟩
  · intro hhead
    simpa using h.point_stops rfl rfl '.' hhead
  · rcases hletter with rfl | rfl <;> simp

theorem length_fractionPart (h : LongestNumeral whole fraction exponent rest) :
    (Numeral.fractionPart (fraction ++ (exponent ++ rest))).2 = fraction.length := by
  rcases h.fraction_form with rfl | hfraction
  · rw [List.nil_append, Numeral.fractionPart_of_head? h.head?_exponent]
    rfl
  · exact Numeral.fractionPart_append hfraction h.stops_exponent

theorem length_exponentPart (h : LongestNumeral whole fraction exponent rest) :
    (Numeral.exponentPart (exponent ++ rest)).2 = exponent.length := by
  rcases h.exponent_form with rfl | hexponent
  · rw [List.nil_append, Numeral.exponentPart_of_not_startsExponent (h.exponent_stops rfl)]
    rfl
  · exact Numeral.exponentPart_append hexponent h.digit_stops

theorem read?_eq (h : LongestNumeral whole fraction exponent rest) :
    ∃ numeral, Numeral.read? (whole ++ (fraction ++ (exponent ++ rest))) = some numeral ∧
      numeral.width = (whole ++ (fraction ++ exponent)).length := by
  simp only [Numeral.read?, h.digitRun_eq, List.drop_left, h.length_fractionPart,
    h.length_exponentPart]
  rw [if_neg (by simp [h.whole_form.1])]
  exact ⟨_, rfl, by simp [Nat.add_assoc]⟩

theorem alone (h : LongestNumeral whole fraction exponent rest) :
    LongestNumeral whole fraction exponent [] :=
  ⟨h.whole_form, h.fraction_form, h.exponent_form, stops_nil _, fun _ _ => stops_nil _,
    fun _ => by
      rintro ⟨power, rest, hnil, letter, sign, digits, rfl, -⟩
      simp at hnil⟩

theorem fractionPart_eq (h : LongestNumeral whole fraction exponent rest) :
    Numeral.fractionPart (fraction ++ (exponent ++ rest)) =
      Numeral.fractionPart (fraction ++ exponent) := by
  rcases h.fraction_form with rfl | ⟨digits, rfl, hdigits⟩
  · rw [List.nil_append, List.nil_append, Numeral.fractionPart_of_head? h.head?_exponent]
    have halone := h.alone.head?_exponent
    rw [List.append_nil] at halone
    rw [Numeral.fractionPart_of_head? halone]
  · have hrun := digitRun_append hdigits h.stops_exponent
    have halone := digitRun_append hdigits h.alone.stops_exponent
    rw [List.append_nil] at halone
    simp only [List.cons_append, Numeral.fractionPart, hrun, halone]

theorem exponentPart_eq (h : LongestNumeral whole fraction exponent rest) :
    Numeral.exponentPart (exponent ++ rest) = Numeral.exponentPart exponent := by
  rcases h.exponent_form with rfl | ⟨letter, sign, digits, rfl, hletter, hsign, hdigits⟩
  · exact Numeral.exponentPart_of_not_startsExponent (h.exponent_stops rfl)
  · have hpower := Numeral.powerPart_append_right hsign hdigits h.digit_stops
    simp only [List.cons_append, List.append_assoc, Numeral.exponentPart, hpower]

theorem read?_append (h : LongestNumeral whole fraction exponent rest) :
    Numeral.read? (whole ++ (fraction ++ (exponent ++ rest))) =
      Numeral.read? (whole ++ (fraction ++ exponent)) := by
  have hrun := h.alone.digitRun_eq
  have hlength := h.alone.length_fractionPart
  rw [List.append_nil] at hrun hlength
  simp only [Numeral.read?, h.digitRun_eq, hrun, List.drop_left, h.fractionPart_eq, hlength,
    h.exponentPart_eq]

end LongestNumeral

theorem exists_exponent (cs : List Char) :
    ∃ exponent rest, cs = exponent ++ rest ∧ (exponent = [] ∨ IsExponent exponent) ∧
      (exponent = [] → ¬ StartsExponent rest) ∧
      (exponent = [] ∨ Stops Char.isDigit rest) := by
  by_cases h : StartsExponent cs
  · obtain ⟨exponent, tail, rfl, letter, sign, digits, rfl, hletter, hsign, hdigits⟩ := h
    obtain ⟨more, rest, rfl, hmore, hrest⟩ := exists_digits tail
    have hall : IsDigits (digits ++ more) := by
      refine ⟨by simp [hdigits.1], ?_⟩
      intro c hc
      exact (List.mem_append.mp hc).elim (hdigits.2 c) (hmore c)
    exact ⟨letter :: (sign ++ (digits ++ more)), rest, by simp,
      .inr ⟨letter, sign, _, rfl, hletter, hsign, hall⟩, by simp, .inr hrest⟩
  · exact ⟨[], cs, rfl, .inl rfl, fun _ => h, .inl rfl⟩

theorem exists_fraction (cs : List Char) :
    ∃ fraction rest, cs = fraction ++ rest ∧ (fraction = [] ∨ IsFraction fraction) ∧
      (fraction = [] → Stops (· == '.') rest) ∧
      (fraction = [] ∨ Stops Char.isDigit rest) := by
  rcases cs with _ | ⟨c, tail⟩
  · exact ⟨[], [], rfl, .inl rfl, by simp, .inl rfl⟩
  · by_cases hc : c = '.'
    · subst c
      obtain ⟨digits, rest, rfl, hdigits, hrest⟩ := exists_digits tail
      exact ⟨'.' :: digits, rest, rfl, .inr ⟨digits, rfl, hdigits⟩, by simp, .inr hrest⟩
    · exact ⟨[], c :: tail, rfl, .inl rfl, by simpa using hc, .inl rfl⟩

theorem exists_longestNumeral {cs : List Char} (h : digitRun cs ≠ []) :
    ∃ whole fraction exponent rest, cs = whole ++ (fraction ++ (exponent ++ rest)) ∧
      LongestNumeral whole fraction exponent rest := by
  obtain ⟨whole, tail, rfl, hwhole, htail⟩ := exists_digits cs
  obtain ⟨fraction, tail, rfl, hfraction, hpoint, hfractionEnd⟩ := exists_fraction tail
  obtain ⟨exponent, rest, rfl, hexponent, hstarts, hexponentEnd⟩ := exists_exponent tail
  refine ⟨whole, fraction, exponent, rest, rfl, ?_⟩
  have hne : whole ≠ [] := by
    rintro rfl
    exact h (takeWhile_eq_nil_of_stops htail)
  constructor
  · exact ⟨hne, hwhole⟩
  · exact hfraction
  · exact hexponent
  · rcases hexponentEnd with rfl | hexponentEnd
    · rcases hfractionEnd with rfl | hfractionEnd
      · exact htail
      · exact hfractionEnd
    · exact hexponentEnd
  · rintro hnil rfl
    exact hpoint hnil
  · exact hstarts

theorem exists_longestNumeral_of_isNumeral {cs : List Char} (h : IsNumeral cs)
    (tail : List Char) :
    ∃ whole fraction exponent rest, cs ++ tail = whole ++ (fraction ++ (exponent ++ rest)) ∧
      LongestNumeral whole fraction exponent rest ∧
        cs.length ≤ (whole ++ (fraction ++ exponent)).length := by
  obtain ⟨whole, fraction, exponent, rfl, hwhole, hfraction, hexponent⟩ := h
  obtain ⟨more, rest, rfl, hmore, hrest⟩ := exists_digits tail
  have hdigits : ∀ {digits : List Char}, (∀ c ∈ digits, c.isDigit = true) →
      ∀ c ∈ digits ++ more, c.isDigit = true := by
    intro digits hdigits c hc
    exact (List.mem_append.mp hc).elim (hdigits c) (hmore c)
  rcases hexponent with rfl | ⟨letter, sign, digits, rfl, hletter, hsign, hpower⟩
  · rcases hfraction with rfl | ⟨digits, rfl, hfractionDigits⟩
    · have hrun : digitRun (whole ++ (more ++ rest)) = whole ++ more := by
        rw [← List.append_assoc]
        exact digitRun_append (hdigits hwhole.2) hrest
      have hne : digitRun (whole ++ (more ++ rest)) ≠ [] := by simp [hrun, hwhole.1]
      obtain ⟨longer, fraction, exponent, last, hcs, hlongest⟩ := exists_longestNumeral hne
      refine ⟨longer, fraction, exponent, last, by simpa using hcs, hlongest, ?_⟩
      have hlonger : longer = whole ++ more := by rw [← hlongest.digitRun_eq, ← hcs, hrun]
      simp only [hlonger, List.append_nil, List.length_append]
      omega
    · obtain ⟨exponent, last, rfl, hexponent, hstarts, hlast⟩ := exists_exponent rest
      have hstops : Stops Char.isDigit last := by
        rcases hlast with rfl | hlast
        · exact hrest
        · exact hlast
      refine ⟨whole, '.' :: (digits ++ more), exponent, last, by simp,
        ⟨hwhole, .inr ⟨_, rfl, hdigits hfractionDigits⟩, hexponent, hstops, by simp, hstarts⟩, ?_⟩
      simp only [List.append_nil, List.length_append, List.length_cons]
      omega
  · refine ⟨whole, fraction, letter :: (sign ++ (digits ++ more)), rest, by simp,
      ⟨hwhole, hfraction, .inr ⟨letter, sign, digits ++ more, rfl, hletter, hsign,
        by simp [hpower.1], hdigits hpower.2⟩, hrest, by simp, by simp⟩, ?_⟩
    simp only [List.length_append, List.length_cons]
    omega

/-- The text is the longest one with the property in front of the other. -/
def IsLongestPrefix (P : List Char → Prop) (text cs : List Char) : Prop :=
  P text ∧ text <+: cs ∧ ∀ other, P other → other <+: cs → other.length ≤ text.length

theorem isLongestPrefix_of_longestNumeral {whole fraction exponent rest : List Char}
    (h : LongestNumeral whole fraction exponent rest) :
    IsLongestPrefix IsNumeral (whole ++ (fraction ++ exponent))
      (whole ++ (fraction ++ (exponent ++ rest))) := by
  refine ⟨⟨whole, fraction, exponent, rfl, h.whole_form, h.fraction_form, h.exponent_form⟩,
    ⟨rest, by simp⟩, ?_⟩
  rintro other hother ⟨tail, htail⟩
  obtain ⟨_, _, _, _, hcs, hlongest, hle⟩ := exists_longestNumeral_of_isNumeral hother tail
  obtain ⟨numeral, hnumeral, hwidth⟩ := h.read?_eq
  obtain ⟨again, hagain, hagainWidth⟩ := hlongest.read?_eq
  rw [← hcs, htail, hnumeral, Option.some.injEq] at hagain
  rwa [← hwidth, hagain, hagainWidth]

end ScanParse.Text
