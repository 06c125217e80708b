import ScanParse.Proofs.Lexical.Head
import ScanParse.Proofs.Scan.Regeneration

namespace ScanParse

open Lexeme Scan Text

/-- Each token can be spelled, and no neighbours run into one another. -/
structure Printable (kinds : List TokenKind) : Prop where
  int : ∀ value, .int value ∈ kinds → 0 ≤ value
  identifier : ∀ name, .identifier name ∈ kinds →
    name ≠ "" ∧ ∀ c ∈ name.toList, isAlphabetic c = true
  symbol : ∀ characters, .symbol characters ∈ kinds →
    characters ≠ "" ∧ (∀ c ∈ characters.toList, isSymbolCharacter c = true) ∧
      Unmarked characters.toList
  float : ∀ value spelling, .float value spelling ∈ kinds →
    IsNumeral spelling.toList ∧ PastInt spelling.toList
  four_spaces : ¬ [.space, .space, .space, .space] <:+: kinds
  identifier_identifier : ∀ a b, ¬ [.identifier a, .identifier b] <:+: kinds
  symbol_symbol : ∀ a b, ¬ [.symbol a, .symbol b] <:+: kinds
  symbol_marker : ∀ characters marker last first, marker.isCommentMarker = true →
    [.symbol characters, marker] <:+: kinds → characters.toList.getLast? = some last →
      marker.toText.toList.head? = some first → [last, first] ∉ markers
  number_number : ∀ a b, a.isNumber = true → b.isNumber = true → ¬ [a, b] <:+: kinds
  int_point : ∀ value characters, [.int value, .symbol characters] <:+: kinds →
    characters.toList.head? ≠ some '.'
  float_point : ∀ value spelling characters,
    '.' ∉ spelling.toList → ¬ HasExponent spelling.toList →
      [.float value spelling, .symbol characters] <:+: kinds →
        characters.toList.head? ≠ some '.'
  float_exponent : ∀ value spelling letter number, ¬ HasExponent spelling.toList →
    (letter = "e" ∨ letter = "E") → number.isNumber = true →
      ¬ [.float value spelling, .identifier letter, number] <:+: kinds
  float_signed_exponent : ∀ value spelling letter sign number,
    ¬ HasExponent spelling.toList → (letter = "e" ∨ letter = "E") →
      (sign = "+" ∨ sign = "-") → number.isNumber = true →
        ¬ [.float value spelling, .identifier letter, .symbol sign, number] <:+: kinds

section Separation

variable {options : ScanOptions} {kind : TokenKind} {kinds : List TokenKind}

theorem separated_of_infix {window : List TokenKind} (h : Separated options kinds)
    (hwindow : window <:+: kinds) : ∃ rest, Separated options (window ++ rest) := by
  obtain ⟨front, rest, rfl⟩ := hwindow
  refine ⟨rest, ?_⟩
  rw [List.append_assoc] at h
  induction front with
  | nil => exact h
  | cons _ front ih => exact ih h.2.2

theorem spelling_of_mem (h : Separated options kinds) (hmem : kind ∈ kinds) :
    Spelling options kind kind.toText.toList := by
  obtain ⟨front, back, rfl⟩ := List.append_of_mem hmem
  have hwindow : [kind] <:+: front ++ kind :: back := ⟨front, back, by simp⟩
  obtain ⟨rest, hspelling, -, -⟩ := separated_of_infix h hwindow
  exact hspelling

theorem exists_of_written_eq_cons {c : Char} {tail : List Char} (h : Separated options kinds)
    (htext : written kinds = c :: tail) :
    ∃ kind later, kinds = kind :: later ∧ kind.toText.toList.head? = some c ∧
      Spelling options kind kind.toText.toList ∧ Separated options later := by
  cases kinds with
  | nil => simp at htext
  | cons kind later =>
      obtain ⟨hspelling, -, hlater⟩ := h
      obtain ⟨d, text, hkind⟩ := List.exists_cons_of_ne_nil hspelling.ne_nil
      rw [written_cons, hkind, List.cons_append, List.cons.injEq] at htext
      refine ⟨kind, later, rfl, ?_, hspelling, hlater⟩
      rw [hkind, htext.1]
      rfl

end Separation

section Windows

variable {options : ScanOptions} {rest : List TokenKind}

theorem not_separated_spaces :
    ¬ Separated options (.space :: .space :: .space :: .space :: rest) := by
  rintro ⟨-, hapart, -⟩
  exact hapart ⟨written rest, rfl⟩

theorem not_separated_identifiers {a b : String} :
    ¬ Separated .standard (.identifier a :: .identifier b :: rest) := by
  rintro ⟨-, hapart, hspelling, -, -⟩
  obtain ⟨-, hletters⟩ := (spelling_identifier_iff b).mp hspelling
  obtain ⟨c, text, htext⟩ := List.exists_cons_of_ne_nil hspelling.ne_nil
  have hletter : isAlphabetic c = true := hletters c (htext ▸ List.mem_cons_self)
  have hstop := hapart c (by simp [htext])
  simp [hletter] at hstop

theorem not_separated_symbols {a b : String} :
    ¬ Separated options (.symbol a :: .symbol b :: rest) := by
  rintro ⟨-, ⟨-, hstops⟩, hspelling, ⟨hlast, hrest⟩, -⟩
  obtain ⟨hne, hcharacters, hunmarked⟩ := (spelling_symbol_iff _).mp hspelling
  have hlongest : LongestSymbol b.toList (written rest) :=
    ⟨hcharacters, hunmarked, hlast, hrest⟩
  rw [← String.toList_eq_nil_iff.ne] at hne
  obtain ⟨c, run, hrun⟩ := List.exists_cons_of_ne_nil hne
  rw [hrun] at hlongest
  obtain ⟨hc, hmarker, -⟩ := longestSymbol_cons.mp hlongest
  rw [written_cons, TokenKind.toText, hrun, List.cons_append, stops_cons] at hstops
  simp [hstops hmarker] at hc

theorem notMem_markers_of_separated {characters : String} {marker : TokenKind}
    {last first : Char} (h : Separated options (.symbol characters :: marker :: rest))
    (hlast : characters.toList.getLast? = some last)
    (hfirst : marker.toText.toList.head? = some first) : [last, first] ∉ markers := by
  obtain ⟨-, ⟨hmarker, -⟩, -⟩ := h
  obtain ⟨text, htext⟩ := List.head?_eq_some_iff.mp hfirst
  have hnone := hmarker last hlast
  rwa [written_cons, htext, List.cons_append, commentMarker?_eq_none_iff] at hnone

theorem stops_isDigit_of_isNumber {a : TokenKind} {cs : List Char} (h : Apart options a cs)
    (ha : a.isNumber = true) : Stops Char.isDigit cs := by
  cases a with
  | float => exact h.1
  | int => exact h.1
  | _ => simp [TokenKind.isNumber] at ha

theorem not_separated_numbers {a b : TokenKind} (ha : a.isNumber = true)
    (hb : b.isNumber = true) : ¬ Separated options (a :: b :: rest) := by
  rintro ⟨-, hapart, hspelling, -, -⟩
  obtain ⟨c, text, htext, hc⟩ := exists_digit_of_isNumber hspelling hb
  have hstop := stops_isDigit_of_isNumber hapart ha c (by simp [htext])
  simp [hc] at hstop

theorem head?_ne_point_of_stops {characters : String}
    (h : Stops (· == '.') (written (.symbol characters :: rest))) :
    characters.toList.head? ≠ some '.' := by
  intro hhead
  obtain ⟨text, htext⟩ := List.head?_eq_some_iff.mp hhead
  simpa using h '.' (by simp [TokenKind.toText, htext])

theorem startsExponent_of_isNumber {letter : Char} {sign : List Char} {number : TokenKind}
    (hletter : letter = 'e' ∨ letter = 'E') (hsign : sign = [] ∨ sign = ['+'] ∨ sign = ['-'])
    (hspelling : Spelling options number number.toText.toList)
    (hnumber : number.isNumber = true) :
    StartsExponent (letter :: (sign ++ written (number :: rest))) := by
  obtain ⟨c, text, htext, hc⟩ := exists_digit_of_isNumber hspelling hnumber
  refine ⟨letter :: (sign ++ [c]), text ++ written rest, by simp [htext], letter, sign, [c],
    rfl, hletter, hsign, by simp, ?_⟩
  simpa using hc

end Windows

theorem printable_of_separated {kinds : List TokenKind} (h : Separated .standard kinds) :
    Printable kinds := by
  constructor
  · intro value hmem
    exact (spelling_int_iff value).mp (spelling_of_mem h hmem)
  · intro name hmem
    exact (spelling_identifier_iff name).mp (spelling_of_mem h hmem)
  · intro characters hmem
    exact (spelling_symbol_iff characters).mp (spelling_of_mem h hmem)
  · intro value spelling hmem
    exact (spelling_float_iff value spelling).mp (spelling_of_mem h hmem)
  · intro hwindow
    obtain ⟨rest, hrest⟩ := separated_of_infix h hwindow
    exact not_separated_spaces hrest
  · intro a b hwindow
    obtain ⟨rest, hrest⟩ := separated_of_infix h hwindow
    exact not_separated_identifiers hrest
  · intro a b hwindow
    obtain ⟨rest, hrest⟩ := separated_of_infix h hwindow
    exact not_separated_symbols hrest
  · intro characters marker last first _ hwindow hlast hfirst
    obtain ⟨rest, hrest⟩ := separated_of_infix h hwindow
    exact notMem_markers_of_separated hrest hlast hfirst
  · intro a b ha hb hwindow
    obtain ⟨rest, hrest⟩ := separated_of_infix h hwindow
    exact not_separated_numbers ha hb hrest
  · intro value characters hwindow
    obtain ⟨rest, -, ⟨-, hpoint⟩, -⟩ := separated_of_infix h hwindow
    exact head?_ne_point_of_stops hpoint
  · intro value spelling characters hfraction hpower hwindow
    obtain ⟨rest, -, ⟨-, hpoint, -⟩, -⟩ := separated_of_infix h hwindow
    exact head?_ne_point_of_stops (hpoint hfraction hpower)
  · intro value spelling letter number hpower hletter hnumber hwindow
    obtain ⟨rest, -, ⟨-, -, hexponent⟩, -, -, hspelling, -⟩ := separated_of_infix h hwindow
    refine hexponent hpower ?_
    rcases hletter with rfl | rfl
    · exact startsExponent_of_isNumber (.inl rfl) (.inl rfl) hspelling hnumber
    · exact startsExponent_of_isNumber (.inr rfl) (.inl rfl) hspelling hnumber
  · intro value spelling letter sign number hpower hletter hsign hnumber hwindow
    obtain ⟨rest, -, ⟨-, -, hexponent⟩, -, -, -, -, hspelling, -⟩ :=
      separated_of_infix h hwindow
    refine hexponent hpower ?_
    rcases hletter with rfl | rfl <;> rcases hsign with rfl | rfl
    · exact startsExponent_of_isNumber (.inl rfl) (.inr (.inl rfl)) hspelling hnumber
    · exact startsExponent_of_isNumber (.inl rfl) (.inr (.inr rfl)) hspelling hnumber
    · exact startsExponent_of_isNumber (.inr rfl) (.inr (.inl rfl)) hspelling hnumber
    · exact startsExponent_of_isNumber (.inr rfl) (.inr (.inr rfl)) hspelling hnumber

theorem Printable.of_cons {kind : TokenKind} {kinds : List TokenKind}
    (h : Printable (kind :: kinds)) : Printable kinds := by
  have hmem : ∀ {other}, other ∈ kinds → other ∈ kind :: kinds :=
    fun hmem => List.mem_cons_of_mem _ hmem
  have hwithin : ∀ {window}, window <:+: kinds → window <:+: kind :: kinds :=
    fun hwindow => List.infix_cons hwindow
  constructor
  · exact fun value hvalue => h.int value (hmem hvalue)
  · exact fun name hname => h.identifier name (hmem hname)
  · exact fun characters hcharacters => h.symbol characters (hmem hcharacters)
  · exact fun value spelling hspelling => h.float value spelling (hmem hspelling)
  · exact fun hwindow => h.four_spaces (hwithin hwindow)
  · exact fun a b hwindow => h.identifier_identifier a b (hwithin hwindow)
  · exact fun a b hwindow => h.symbol_symbol a b (hwithin hwindow)
  · exact fun characters marker last first hmarker hwindow =>
      h.symbol_marker characters marker last first hmarker (hwithin hwindow)
  · exact fun a b ha hb hwindow => h.number_number a b ha hb (hwithin hwindow)
  · exact fun value characters hwindow => h.int_point value characters (hwithin hwindow)
  · exact fun value spelling characters hfraction hpower hwindow =>
      h.float_point value spelling characters hfraction hpower (hwithin hwindow)
  · exact fun value spelling letter number hpower hletter hnumber hwindow =>
      h.float_exponent value spelling letter number hpower hletter hnumber (hwithin hwindow)
  · exact fun value spelling letter sign number hpower hletter hsign hnumber hwindow =>
      h.float_signed_exponent value spelling letter sign number hpower hletter hsign hnumber
        (hwithin hwindow)

theorem spelling_of_printable {kind : TokenKind} {kinds : List TokenKind}
    (h : Printable kinds) (hmem : kind ∈ kinds) :
    Spelling .standard kind kind.toText.toList := by
  cases kind with
  | float value spelling => exact (spelling_float_iff value spelling).mpr (h.float _ _ hmem)
  | int value => exact (spelling_int_iff value).mpr (h.int value hmem)
  | identifier name => exact (spelling_identifier_iff name).mpr (h.identifier name hmem)
  | symbol characters =>
      exact (spelling_symbol_iff characters).mpr (h.symbol characters hmem)
  | _ => exact .fixed rfl

section Neighbours

variable {kinds : List TokenKind}

theorem stops_written {options : ScanOptions} {p : Char → Bool} (h : Separated options kinds)
    (hstop : ∀ kind later c, kinds = kind :: later → kind.toText.toList.head? = some c →
      Spelling options kind kind.toText.toList → p c ≠ true) :
    Stops p (written kinds) := by
  intro c hc
  obtain ⟨tail, htail⟩ := List.head?_eq_some_iff.mp hc
  obtain ⟨kind, later, hkinds, hhead, hspelling, -⟩ := exists_of_written_eq_cons h htail
  simpa using hstop kind later c hkinds hhead hspelling

theorem stops_isDigit_of_printable {options : ScanOptions} {kind : TokenKind}
    (h : Printable (kind :: kinds)) (hkinds : Separated options kinds)
    (hnumber : kind.isNumber = true) : Stops Char.isDigit (written kinds) := by
  refine stops_written hkinds ?_
  rintro other later c rfl hhead hspelling hc
  exact h.number_number kind other hnumber (isNumber_of_head hspelling hhead hc)
    ⟨[], later, rfl⟩

theorem stops_point_of_symbol {options : ScanOptions} (hkinds : Separated options kinds)
    (hpoint : ∀ characters later, kinds = .symbol characters :: later →
      characters.toList.head? ≠ some '.') : Stops (· == '.') (written kinds) := by
  refine stops_written hkinds ?_
  intro kind later c hkind hhead hspelling hc
  obtain rfl : c = '.' := by simpa using hc
  rcases symbol_or_marker_of_head hspelling hhead (by decide) with ⟨characters, rfl⟩ | hmarker
  · exact hpoint characters later hkind hhead
  · simpa using head_of_isCommentMarker hmarker hhead

theorem not_spaces_prefix_of_printable {options : ScanOptions}
    (h : Printable (.space :: kinds)) (hkinds : Separated options kinds) :
    ¬ [' ', ' ', ' '] <+: written kinds := by
  have hpeel : ∀ {kinds : List TokenKind} {tail : List Char}, Separated options kinds →
      written kinds = ' ' :: tail →
        ∃ later, kinds = .space :: later ∧ written later = tail ∧ Separated options later := by
    intro kinds tail hkinds htext
    obtain ⟨kind, later, rfl, hhead, hspelling, hlater⟩ := exists_of_written_eq_cons hkinds htext
    obtain rfl := space_of_head hspelling hhead rfl
    exact ⟨later, rfl, List.cons.inj htext |>.2, hlater⟩
  rintro ⟨tail, htext⟩
  obtain ⟨two, rfl, htwo, hkinds⟩ := hpeel hkinds htext.symm
  obtain ⟨one, rfl, hone, hkinds⟩ := hpeel hkinds htwo
  obtain ⟨later, rfl, -, -⟩ := hpeel hkinds hone
  exact h.four_spaces ⟨[], later, rfl⟩

theorem stops_continuesIdentifier_of_printable {name : String}
    (h : Printable (.identifier name :: kinds)) (hkinds : Separated .standard kinds) :
    Stops (continuesIdentifier .standard) (written kinds) := by
  refine stops_written hkinds ?_
  rintro kind later c rfl hhead hspelling hc
  have hletter : isAlphabetic c = true := by
    simpa using hc
  obtain ⟨other, rfl⟩ := identifier_of_head hspelling hhead hletter
  exact h.identifier_identifier name other ⟨[], later, rfl⟩

theorem commentMarker?_written_ne_none {marker : TokenKind} {later : List TokenKind}
    (h : marker.isCommentMarker = true) : commentMarker? (written (marker :: later)) ≠ none := by
  cases marker with
  | lineComment => exact Option.some_ne_none _
  | multilineCommentStart => exact Option.some_ne_none _
  | multilineCommentEnd => exact Option.some_ne_none _
  | _ => simp [TokenKind.isCommentMarker] at h

theorem apart_symbol_of_printable {options : ScanOptions} {characters : String}
    (h : Printable (.symbol characters :: kinds)) (hkinds : Separated options kinds) :
    Apart options (.symbol characters) (written kinds) := by
  constructor
  · intro last hlast
    cases htext : written kinds with
    | nil => exact commentMarker?_singleton last
    | cons first tail =>
        rw [commentMarker?_eq_none_iff]
        intro hpair
        obtain ⟨kind, later, rfl, hhead, hspelling, -⟩ :=
          exists_of_written_eq_cons hkinds htext
        rcases symbol_or_marker_of_head hspelling hhead
          (isSymbolCharacter_of_mem_markers hpair first (by simp)) with ⟨other, rfl⟩ | hmarker
        · exact h.symbol_symbol characters other ⟨[], later, rfl⟩
        · exact h.symbol_marker characters kind last first hmarker ⟨[], later, rfl⟩ hlast hhead
            hpair
  · intro hnone
    refine stops_written hkinds ?_
    rintro kind later c rfl hhead hspelling hc
    rcases symbol_or_marker_of_head hspelling hhead hc with ⟨other, rfl⟩ | hmarker
    · exact h.symbol_symbol characters other ⟨[], later, rfl⟩
    · exact commentMarker?_written_ne_none hmarker hnone

theorem eq_singleton_of_append {p : Char → Bool} {text rest tail : List Char} {c d : Char}
    (h : text ++ rest = c :: d :: tail) (hne : text ≠ []) (htext : ∀ x ∈ text, p x = true)
    (hd : p d = false) : text = [c] ∧ rest = d :: tail := by
  rcases text with _ | ⟨a, _ | ⟨b, text⟩⟩
  · exact absurd rfl hne
  · simpa using h
  · obtain ⟨-, hb, -⟩ : a = c ∧ b = d ∧ text ++ rest = tail := by simpa using h
    simp [← hb, htext b (by simp)] at hd

theorem identifier_of_written {letter d : Char} {tail : List Char}
    (hkinds : Separated .standard kinds) (hletter : isAlphabetic letter = true)
    (hd : isAlphabetic d = false) (htext : written kinds = letter :: d :: tail) :
    ∃ name later, kinds = .identifier name :: later ∧ name.toList = [letter] ∧
      written later = d :: tail ∧ Separated .standard later := by
  obtain ⟨kind, later, rfl, hhead, hspelling, hlater⟩ := exists_of_written_eq_cons hkinds htext
  obtain ⟨name, rfl⟩ := identifier_of_head hspelling hhead hletter
  obtain ⟨-, hletters⟩ := (spelling_identifier_iff name).mp hspelling
  rw [written_cons] at htext
  obtain ⟨hname, hrest⟩ := eq_singleton_of_append htext hspelling.ne_nil hletters hd
  exact ⟨name, later, rfl, hname, hrest, hlater⟩

theorem symbol_of_written {options : ScanOptions} {sign d : Char} {tail : List Char}
    (hkinds : Separated options kinds) (hsign : sign = '+' ∨ sign = '-')
    (hd : isSymbolCharacter d = false) (htext : written kinds = sign :: d :: tail) :
    ∃ characters later, kinds = .symbol characters :: later ∧ characters.toList = [sign] ∧
      written later = d :: tail ∧ Separated options later := by
  obtain ⟨kind, later, rfl, hhead, hspelling, hlater⟩ := exists_of_written_eq_cons hkinds htext
  have hsymbol : isSymbolCharacter sign = true := by rcases hsign with rfl | rfl <;> decide
  rcases symbol_or_marker_of_head hspelling hhead hsymbol with ⟨characters, rfl⟩ | hmarker
  · obtain ⟨-, hcharacters, -⟩ := (spelling_symbol_iff _).mp hspelling
    rw [written_cons] at htext
    obtain ⟨hrun, hrest⟩ := eq_singleton_of_append htext hspelling.ne_nil hcharacters hd
    exact ⟨characters, later, rfl, hrun, hrest, hlater⟩
  · rcases hsign with rfl | rfl <;> simpa using head_of_isCommentMarker hmarker hhead

theorem number_of_written {options : ScanOptions} {d : Char} {tail : List Char}
    (hkinds : Separated options kinds) (hd : d.isDigit = true)
    (htext : written kinds = d :: tail) :
    ∃ number later, kinds = number :: later ∧ number.isNumber = true := by
  obtain ⟨kind, later, rfl, hhead, hspelling, -⟩ := exists_of_written_eq_cons hkinds htext
  exact ⟨kind, later, rfl, isNumber_of_head hspelling hhead hd⟩

theorem eq_of_toList_eq_singleton {text : String} {a b c : Char} (h : text.toList = [c])
    (hc : c = a ∨ c = b) : text = String.ofList [a] ∨ text = String.ofList [b] := by
  rcases hc with rfl | rfl
  · exact .inl (String.toList_inj.mp (h.trans String.toList_ofList.symm))
  · exact .inr (String.toList_inj.mp (h.trans String.toList_ofList.symm))

theorem not_startsExponent_of_printable {value : Binary64} {spelling : String}
    (h : Printable (.float value spelling :: kinds)) (hkinds : Separated .standard kinds)
    (hpower : ¬ HasExponent spelling.toList) : ¬ StartsExponent (written kinds) := by
  rintro ⟨_, rest, htext, letter, sign, digits, rfl, hletter, hsign, hdigits⟩
  obtain ⟨d, digits, rfl, hd⟩ := exists_cons_of_isDigits hdigits
  have halphabetic : isAlphabetic letter = true := by
    rcases hletter with rfl | rfl <;> decide
  rcases hsign with rfl | hsign
  · obtain ⟨name, _, rfl, hletters, htext, hkinds⟩ :=
      identifier_of_written hkinds halphabetic (isAlphabetic_of_isDigit hd) htext
    obtain ⟨number, later, rfl, hnumber⟩ := number_of_written hkinds hd htext
    exact h.float_exponent value spelling name number hpower
      (eq_of_toList_eq_singleton hletters hletter) hnumber ⟨[], later, rfl⟩
  · obtain ⟨c, rfl, hc⟩ : ∃ c, sign = [c] ∧ (c = '+' ∨ c = '-') := by
      rcases hsign with rfl | rfl
      · exact ⟨'+', rfl, .inl rfl⟩
      · exact ⟨'-', rfl, .inr rfl⟩
    have hfalse : isAlphabetic c = false := by rcases hc with rfl | rfl <;> decide
    obtain ⟨name, _, rfl, hletters, htext, hkinds⟩ :=
      identifier_of_written hkinds halphabetic hfalse htext
    obtain ⟨characters, _, rfl, hrun, htext, hkinds⟩ :=
      symbol_of_written hkinds hc (isSymbolCharacter_of_isDigit hd) htext
    obtain ⟨number, later, rfl, hnumber⟩ := number_of_written hkinds hd htext
    exact h.float_signed_exponent value spelling name characters number hpower
      (eq_of_toList_eq_singleton hletters hletter) (eq_of_toList_eq_singleton hrun hc) hnumber
      ⟨[], later, rfl⟩

theorem apart_of_printable {kind : TokenKind} (h : Printable (kind :: kinds))
    (hkinds : Separated .standard kinds) : Apart .standard kind (written kinds) := by
  cases kind with
  | space => exact not_spaces_prefix_of_printable h hkinds
  | identifier name => exact stops_continuesIdentifier_of_printable h hkinds
  | symbol characters => exact apart_symbol_of_printable h hkinds
  | int value =>
      refine ⟨stops_isDigit_of_printable h hkinds rfl, stops_point_of_symbol hkinds ?_⟩
      rintro characters later rfl
      exact h.int_point value characters ⟨[], later, rfl⟩
  | float value spelling =>
      refine ⟨stops_isDigit_of_printable h hkinds rfl, ?_, ?_⟩
      · intro hfraction hpower
        refine stops_point_of_symbol hkinds ?_
        rintro characters later rfl
        exact h.float_point value spelling characters hfraction hpower ⟨[], later, rfl⟩
      · exact not_startsExponent_of_printable h hkinds
  | _ => trivial

theorem separated_of_printable (h : Printable kinds) : Separated .standard kinds := by
  induction kinds with
  | nil => trivial
  | cons kind kinds ih =>
      -- The first token is judged by the text of the later ones, which tells
      -- its tokens apart once they are known to be separated.
      have hkinds := ih h.of_cons
      exact ⟨spelling_of_printable h (by simp), apart_of_printable h hkinds, hkinds⟩

end Neighbours

/-- A list of kinds is scanned back from its text exactly if it is printable. -/
theorem scans_back_iff_printable (kinds : List TokenKind) :
    (∃ tokens, tokenize .standard (String.join (kinds.map TokenKind.toText)) = .ok tokens ∧
        (tokens.map (·.kind) == kinds) = true) ↔ Printable kinds := by
  rw [scans_back_iff_separated]
  · exact ⟨printable_of_separated, separated_of_printable⟩
  · rw [String.toList_join, List.flatMap_map]
    rfl

end ScanParse
