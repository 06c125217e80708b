import ScanParse.Proofs.Lexical.Spelling

/-!
Reading one token. The first character decides which reader answers; a token
is read exactly where a spelling stands that the following text does not
prolong, and none is read only at a character that no spelling begins with.
-/

namespace ScanParse.Lexeme

open ScanParse.Text

/-- No token begins with the character, whatever stands behind it. -/
def IsBad (c : Char) (next : Option Char) : Prop :=
  isAlphabetic c = false ∧ c.isDigit = false ∧ isSymbolCharacter c = false ∧
    c ∉ separators ∧ ¬ (c = '\r' ∧ next = some '\n')

section Readers

variable {options : ScanOptions} {c : Char} {rest : List Char}

theorem fixed?_of_not_mem (hseparator : c ∉ separators) (hreturn : c ≠ '\r') :
    fixed? (c :: rest) = (commentMarker? (c :: rest)).map (⟨·, 2⟩) := by
  unfold fixed?
  split <;> simp_all [separators]

theorem fixed?_eq_none (hseparator : c ∉ separators) (hreturn : c ≠ '\r')
    (hsymbol : isSymbolCharacter c = false) : fixed? (c :: rest) = none := by
  have hslash : c ≠ '/' := (ne_of_class (p := (! isSymbolCharacter ·)) (by simpa) (by decide))
  have hstar : c ≠ '*' := (ne_of_class (p := (! isSymbolCharacter ·)) (by simpa) (by decide))
  rw [fixed?_of_not_mem hseparator hreturn, commentMarker?_of_ne hslash hstar]
  rfl

theorem identifier?_eq_none (h : isAlphabetic c = false) :
    identifier? options (c :: rest) = none := by
  simp [identifier?, identifierRun, ofRun, h]

theorem symbol?_eq_none (h : isSymbolCharacter c = false) :
    symbol? (c :: rest) = none := by
  simp [symbol?, symbolRun, ofRun, h]

theorem digitRun_eq_nil (h : c.isDigit = false) : digitRun (c :: rest) = [] := by
  simp [digitRun, h]

theorem read?_of_isAlphabetic (h : isAlphabetic c = true) :
    read? options (c :: rest) = identifier? options (c :: rest) := by
  have hfixed : fixed? (c :: rest) = none :=
    fixed?_eq_none (not_mem_separators_of_isAlphabetic h) (ne_of_class h (by decide))
      (isSymbolCharacter_of_isAlphabetic h)
  simp [read?, hfixed, identifier?, identifierRun, ofRun, h]

theorem read?_of_isSymbolCharacter (h : isSymbolCharacter c = true) :
    read? options (c :: rest) =
      ((commentMarker? (c :: rest)).map (⟨·, 2⟩) <|> symbol? (c :: rest)) := by
  have hfixed : fixed? (c :: rest) = (commentMarker? (c :: rest)).map (⟨·, 2⟩) :=
    fixed?_of_not_mem (not_mem_separators_of_isSymbolCharacter h) (ne_of_class h (by decide))
  have halphabetic : isAlphabetic c = false := by
    by_contra halphabetic
    simp [isSymbolCharacter_of_isAlphabetic (by simpa using halphabetic)] at h
  cases hmarker : commentMarker? (c :: rest) with
  | some kind => simp [read?, hfixed, hmarker]
  | none =>
      have hsymbol : symbolRun (c :: rest) ≠ [] := by
        simp [symbolRun, h, hmarker]
      simp [read?, hfixed, hmarker, identifier?_eq_none halphabetic, symbol?, ofRun, hsymbol]

theorem read?_of_isDigit (h : c.isDigit = true) :
    read? options (c :: rest) = (int? (c :: rest) <|> float? (c :: rest)) := by
  have hsymbol := isSymbolCharacter_of_isDigit h
  have hfixed : fixed? (c :: rest) = none :=
    fixed?_eq_none (not_mem_separators_of_isDigit h)
      (ne_of_class (p := Char.isDigit) h (by decide)) hsymbol
  simp [read?, hfixed, identifier?_eq_none (isAlphabetic_of_isDigit h),
    symbol?_eq_none hsymbol]

theorem read?_of_other (halphabetic : isAlphabetic c = false)
    (hdigit : c.isDigit = false) (hsymbol : isSymbolCharacter c = false) :
    read? options (c :: rest) = fixed? (c :: rest) := by
  simp [read?, identifier?_eq_none halphabetic, symbol?_eq_none hsymbol, int?, float?,
    digitRun_eq_nil hdigit]

end Readers

theorem int?_eq_none_iff (cs : List Char) :
    int? cs = none ↔ digitRun cs = [] ∨ PastInt cs := by
  simp only [int?, PastInt, ite_eq_left_iff, reduceCtorEq, imp_false, not_not,
    List.isEmpty_iff]

theorem pastInt_append_iff {whole fraction exponent rest : List Char}
    (h : LongestNumeral whole fraction exponent rest) :
    PastInt (whole ++ (fraction ++ (exponent ++ rest))) ↔
      PastInt (whole ++ (fraction ++ exponent)) := by
  have hrun := h.alone.digitRun_eq
  rw [List.append_nil] at hrun
  simp only [PastInt, h.digitRun_eq, hrun, List.drop_left]
  rcases h.fraction_form with rfl | ⟨digits, rfl, -⟩
  · rcases h.exponent_form with rfl | ⟨letter, sign, digits, rfl, -, -⟩
    · have hpoint : rest.head? ≠ some '.' := by
        intro hhead
        simpa using h.point_stops rfl rfl '.' hhead
      simp [hpoint]
    · simp
  · simp

theorem read?_of_longestNumeral {options : ScanOptions}
    {whole fraction exponent rest : List Char}
    (h : LongestNumeral whole fraction exponent rest)
    (hpast : PastInt (whole ++ (fraction ++ exponent))) :
    ∃ numeral, Numeral.read? (whole ++ (fraction ++ exponent)) = some numeral ∧
      read? options (whole ++ (fraction ++ (exponent ++ rest))) =
        some ⟨.float (.ofNumeral false numeral) (String.ofList (whole ++ (fraction ++ exponent))),
          (whole ++ (fraction ++ exponent)).length⟩ := by
  obtain ⟨numeral, hread, hwidth⟩ := h.read?_eq
  have halone := hread
  rw [h.read?_append] at halone
  have hint : int? (whole ++ (fraction ++ (exponent ++ rest))) = none :=
    (int?_eq_none_iff _).mpr (.inr ((pastInt_append_iff h).mpr hpast))
  have hrun := h.digitRun_eq
  have htake : whole ++ (fraction ++ (exponent ++ rest)) =
      (whole ++ (fraction ++ exponent)) ++ rest := by simp
  obtain ⟨c, digits, rfl, hc⟩ := exists_cons_of_isDigits h.whole_form
  refine ⟨numeral, halone, ?_⟩
  rw [List.cons_append] at hint hread hrun htake ⊢
  rw [read?_of_isDigit hc, hint, float?, hrun, if_neg (by simp), hread, Option.map_some,
    hwidth, htake, List.take_left]
  rfl

theorem identifierRun_append {options : ScanOptions} {first : Char} {tail rest : List Char}
    (hfirst : isAlphabetic first = true)
    (htail : ∀ c ∈ tail, continuesIdentifier options c = true)
    (hrest : Stops (continuesIdentifier options) rest) :
    identifierRun options (first :: (tail ++ rest)) = first :: tail := by
  rw [identifierRun, if_pos hfirst]
  exact congrArg (first :: ·) (takeWhile_append_of_stops htail hrest)

/-- A spelling that is not prolonged is read as its token. -/
theorem read?_of_spelling {options : ScanOptions} {kind : TokenKind}
    {text rest : List Char} (h : Spelling options kind text)
    (hrest : Apart options kind rest) :
    ∃ same, read? options (text ++ rest) = some ⟨same, text.length⟩ ∧
      same.same kind = true := by
  cases h with
  | fixed hfixed =>
      cases kind with
      | space =>
          refine ⟨.space, ?_, rfl⟩
          change read? options (' ' :: rest) = some ⟨.space, 1⟩
          rw [read?_of_other (by decide) (by decide) (by decide)]
          unfold fixed?
          split <;> simp_all [Apart, List.cons_prefix_cons]
      | float => simp [TokenKind.isFixed] at hfixed
      | int => simp [TokenKind.isFixed] at hfixed
      | identifier => simp [TokenKind.isFixed] at hfixed
      | symbol => simp [TokenKind.isFixed] at hfixed
      | _ => exact ⟨_, rfl, rfl⟩
  | fourSpaces => exact ⟨.tab, rfl, rfl⟩
  | lineEnd => exact ⟨.newline, rfl, rfl⟩
  | @identifier first tail hfirst htail =>
      refine ⟨_, ?_, (TokenKind.same_iff _ _).mpr (.inl rfl)⟩
      rw [List.cons_append, read?_of_isAlphabetic hfirst, identifier?,
        identifierRun_append hfirst htail hrest]
      rfl
  | symbol hne hcharacters hunmarked =>
      have hlongest : LongestSymbol text rest :=
        ⟨hcharacters, hunmarked, by simpa using hrest.1, hrest.2⟩
      obtain ⟨c, run, rfl⟩ := List.exists_cons_of_ne_nil hne
      obtain ⟨hc, hmarker, -⟩ := longestSymbol_cons.mp hlongest
      refine ⟨_, ?_, (TokenKind.same_iff _ _).mpr (.inl rfl)⟩
      have hrun := symbolRun_append hlongest
      rw [List.cons_append] at hrun ⊢
      rw [read?_of_isSymbolCharacter hc, hmarker, symbol?, hrun]
      rfl
  | int hdigits hvalue =>
      have hrun := digitRun_append hdigits.2 hrest.1
      obtain ⟨c, digits, rfl, hc⟩ := exists_cons_of_isDigits hdigits
      have hpoint : rest.head? ≠ some '.' := by
        intro hhead
        simpa using hrest.2 '.' hhead
      refine ⟨_, ?_, (TokenKind.same_iff _ _).mpr (.inl rfl)⟩
      rw [List.cons_append] at hrun ⊢
      rw [read?_of_isDigit hc, int?, hrun, ← List.cons_append, List.drop_left, if_neg]
      · rfl
      · simpa [hpoint] using hvalue
  | @float value cs hnumeral hpast =>
      obtain ⟨whole, fraction, exponent, rfl, hwhole, hfraction, hexponent⟩ := hnumeral
      have hlongest := (longestNumeral_iff hwhole hfraction hexponent options value rest).mpr
        hrest
      obtain ⟨numeral, -, hread⟩ := read?_of_longestNumeral hlongest hpast
      exact ⟨_, by simpa using hread, by simp [TokenKind.same]⟩

theorem read?_of_isBad {options : ScanOptions} {c : Char} {rest : List Char}
    (h : IsBad c rest.head?) : read? options (c :: rest) = none := by
  obtain ⟨halphabetic, hdigit, hsymbol, hseparator, hlineEnd⟩ := h
  rw [read?_of_other halphabetic hdigit hsymbol]
  by_cases hreturn : c = '\r'
  · subst c
    rcases rest with _ | ⟨d, rest⟩
    · rfl
    · have hfeed : d ≠ '\n' := by simpa using hlineEnd
      unfold fixed?
      split <;> simp_all [commentMarker?]
  · exact fixed?_eq_none hseparator hreturn hsymbol

section Texts

variable (options : ScanOptions) {c : Char} {rest : List Char}

theorem exists_spelling_of_isAlphabetic (h : isAlphabetic c = true) :
    ∃ kind text tail, c :: rest = text ++ tail ∧ Spelling options kind text ∧
      Apart options kind tail := by
  let run := rest.takeWhile (continuesIdentifier options)
  have hrun : ∀ d ∈ run, continuesIdentifier options d = true := fun _ => List.mem_takeWhile_imp
  refine ⟨_, c :: run, rest.dropWhile (continuesIdentifier options), ?_,
    .identifier h hrun, stops_dropWhile _ _⟩
  rw [List.cons_append, List.takeWhile_append_dropWhile]

theorem exists_spelling_of_isSymbolCharacter (h : isSymbolCharacter c = true) :
    ∃ kind text tail, c :: rest = text ++ tail ∧ Spelling options kind text ∧
      Apart options kind tail := by
  cases hmarker : commentMarker? (c :: rest) with
  | some kind =>
      unfold commentMarker? at hmarker
      split at hmarker
      · rename_i tail htail
        exact ⟨.lineComment, ['/', '/'], tail, htail, .fixed rfl, trivial⟩
      · rename_i tail htail
        exact ⟨.multilineCommentStart, ['/', '*'], tail, htail, .fixed rfl, trivial⟩
      · rename_i tail htail
        exact ⟨.multilineCommentEnd, ['*', '/'], tail, htail, .fixed rfl, trivial⟩
      · simp at hmarker
  | none =>
      obtain ⟨run, tail, hcs, hrun⟩ := exists_longestSymbol (c :: rest)
      have hne : run ≠ [] := by
        rintro rfl
        rw [List.nil_append] at hcs
        subst tail
        have hstops := hrun.rest_stops hmarker
        rw [stops_cons] at hstops
        simp [h] at hstops
      refine ⟨_, run, tail, hcs, .symbol hne hrun.characters hrun.unmarked, ?_, ?_⟩
      · simpa using hrun.last_unmarked
      · exact hrun.rest_stops

theorem exists_spelling_of_isDigit (h : c.isDigit = true) :
    ∃ kind text tail, c :: rest = text ++ tail ∧ Spelling options kind text ∧
      Apart options kind tail := by
  have hne : digitRun (c :: rest) ≠ [] := by simp [digitRun, h]
  obtain ⟨whole, fraction, exponent, tail, hcs, hlongest⟩ := exists_longestNumeral hne
  by_cases hpast : PastInt (whole ++ (fraction ++ exponent))
  · have hnumeral : IsNumeral (whole ++ (fraction ++ exponent)) :=
      ⟨whole, fraction, exponent, rfl, hlongest.whole_form, hlongest.fraction_form,
        hlongest.exponent_form⟩
    refine ⟨.float (.infinity false) _, _, tail, by simpa using hcs, .float hnumeral hpast, ?_⟩
    exact (longestNumeral_iff hlongest.whole_form hlongest.fraction_form
      hlongest.exponent_form options _ tail).mp hlongest
  · rw [← pastInt_append_iff hlongest, PastInt, hlongest.digitRun_eq, List.drop_left,
      not_or] at hpast
    obtain ⟨hvalue, hpoint⟩ := hpast
    refine ⟨_, whole, _, hcs, .int hlongest.whole_form (Nat.le_of_not_lt hvalue),
      hlongest.stops_fraction, ?_⟩
    intro d hd
    by_contra hpointed
    obtain rfl : d = '.' := by simpa using hpointed
    exact hpoint hd

theorem exists_spelling (h : ¬ IsBad c rest.head?) :
    ∃ kind text tail, c :: rest = text ++ tail ∧ Spelling options kind text ∧
      Apart options kind tail := by
  by_cases halphabetic : isAlphabetic c = true
  · exact exists_spelling_of_isAlphabetic options halphabetic
  by_cases hdigit : c.isDigit = true
  · exact exists_spelling_of_isDigit options hdigit
  by_cases hsymbol : isSymbolCharacter c = true
  · exact exists_spelling_of_isSymbolCharacter options hsymbol
  by_cases hlineEnd : c = '\r' ∧ rest.head? = some '\n'
  · obtain ⟨rfl, hhead⟩ := hlineEnd
    obtain ⟨tail, rfl⟩ : ∃ tail, rest = '\n' :: tail := by
      cases rest <;> simp_all
    exact ⟨.newline, _, tail, rfl, .lineEnd, trivial⟩
  have hseparator : c ∈ separators := by
    by_contra hseparator
    exact h ⟨by simpa using halphabetic, by simpa using hdigit, by simpa using hsymbol,
      hseparator, hlineEnd⟩
  simp only [separators, List.mem_cons, List.not_mem_nil, or_false] at hseparator
  rcases hseparator with rfl | rfl | rfl | rfl | rfl | rfl | rfl | rfl | rfl
  · by_cases hspaces : [' ', ' ', ' '] <+: rest
    · obtain ⟨tail, rfl⟩ := hspaces
      exact ⟨.tab, _, tail, rfl, .fourSpaces, trivial⟩
    · exact ⟨.space, [' '], rest, rfl, .fixed rfl, hspaces⟩
  · exact ⟨.tab, ['\t'], rest, rfl, .fixed rfl, trivial⟩
  · exact ⟨.newline, ['\n'], rest, rfl, .fixed rfl, trivial⟩
  · exact ⟨.openParen, ['('], rest, rfl, .fixed rfl, trivial⟩
  · exact ⟨.closeParen, [')'], rest, rfl, .fixed rfl, trivial⟩
  · exact ⟨.openBracket, ['['], rest, rfl, .fixed rfl, trivial⟩
  · exact ⟨.closeBracket, [']'], rest, rfl, .fixed rfl, trivial⟩
  · exact ⟨.openBrace, ['\x7b'], rest, rfl, .fixed rfl, trivial⟩
  · exact ⟨.closeBrace, ['\x7d'], rest, rfl, .fixed rfl, trivial⟩

end Texts

/-- No token is read exactly at a bad character. -/
theorem read?_eq_none_iff (options : ScanOptions) (c : Char) (rest : List Char) :
    read? options (c :: rest) = none ↔ IsBad c rest.head? := by
  constructor
  · intro hnone
    by_contra h
    obtain ⟨kind, text, tail, hcs, hspelling, hapart⟩ := exists_spelling options h
    obtain ⟨same, hread, -⟩ := read?_of_spelling hspelling hapart
    rw [← hcs, hnone] at hread
    simp at hread
  · exact read?_of_isBad

theorem spelling_of_read? {options : ScanOptions} {cs : List Char} {lexeme : Lexeme}
    (h : read? options cs = some lexeme) :
    ∃ text rest, cs = text ++ rest ∧ lexeme.width = text.length ∧
      Spelling options lexeme.kind text ∧ Apart options lexeme.kind rest := by
  rcases cs with _ | ⟨c, rest⟩
  · have hwidth := width_of_read? h
    simp only [List.length_nil] at hwidth
    omega
  · have hgood : ¬ IsBad c rest.head? := by
      intro hbad
      rw [read?_of_isBad hbad] at h
      simp at h
    obtain ⟨kind, text, tail, hcs, hspelling, hapart⟩ := exists_spelling options hgood
    obtain ⟨same, hread, hsame⟩ := read?_of_spelling hspelling hapart
    rw [← hcs, h, Option.some.injEq] at hread
    subst hread
    exact ⟨text, tail, hcs, rfl, spelling_of_same hsame hspelling,
      apart_of_same hsame hapart⟩

theorem spelling_and_apart_of_read? {options : ScanOptions} {kind : TokenKind}
    {text tail : List Char} (h : read? options (text ++ tail) = some ⟨kind, text.length⟩) :
    Spelling options kind text ∧ Apart options kind tail := by
  obtain ⟨found, rest, hcs, hwidth, hspelling, hapart⟩ := spelling_of_read? h
  obtain ⟨rfl, rfl⟩ := List.append_inj hcs hwidth
  exact ⟨hspelling, hapart⟩

theorem exists_read?_of_takeWhile {p : Char → Bool}
    (hp : ∀ c next, p c = true → ¬ IsBad c next) (options : ScanOptions) {cs : List Char}
    (h : cs.takeWhile p ≠ []) :
    ∃ kind text tail, cs = text ++ tail ∧
      read? options (text ++ tail) = some ⟨kind, text.length⟩ := by
  obtain ⟨c, rest, rfl⟩ : ∃ c rest, cs = c :: rest :=
    List.exists_cons_of_ne_nil fun hnil => h (by rw [hnil]; rfl)
  cases hread : read? options (c :: rest) with
  | none =>
      have hc : p c = false := by
        by_contra hc
        exact hp c rest.head? (by simpa using hc) ((read?_eq_none_iff options c rest).mp hread)
      exact absurd (takeWhile_eq_nil_of_stops ((stops_cons _ _ _).mpr hc)) h
  | some lexeme =>
      obtain ⟨kind, width⟩ := lexeme
      obtain ⟨text, tail, hcs, rfl, -⟩ := spelling_of_read? hread
      exact ⟨kind, text, tail, hcs, by rw [← hcs, hread]⟩

theorem read?_of_apart {options : ScanOptions} {kind : TokenKind} {text tail other : List Char}
    (h : read? options (text ++ tail) = some ⟨kind, text.length⟩)
    (hother : Apart options kind other) :
    read? options (text ++ other) = some ⟨kind, text.length⟩ := by
  obtain ⟨hspelling, htail⟩ := spelling_and_apart_of_read? h
  obtain ⟨same, hread, hsame⟩ := read?_of_spelling hspelling hother
  rcases (TokenKind.same_iff _ _).mp hsame with rfl | ⟨x, y, spelling, rfl, rfl⟩
  · exact hread
  · cases hspelling with
    | fixed hfixed => simp [TokenKind.isFixed] at hfixed
    | float hnumeral hpast =>
        obtain ⟨whole, fraction, exponent, rfl, hwhole, hfraction, hexponent⟩ := hnumeral
        have hlongest := longestNumeral_iff hwhole hfraction hexponent options y
        obtain ⟨numeral, hnumeral, hfound⟩ :=
          @read?_of_longestNumeral options _ _ _ _ ((hlongest tail).mpr htail) hpast
        obtain ⟨again, hagain, hagainFound⟩ :=
          @read?_of_longestNumeral options _ _ _ _ ((hlongest other).mpr hother) hpast
        obtain rfl : numeral = again := by simpa [hnumeral] using hagain
        rw [List.append_assoc, List.append_assoc] at h ⊢
        rw [hagainFound, ← hfound, h]

end ScanParse.Lexeme
