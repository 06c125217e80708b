import ScanParse.Proofs.Lexical.Character

namespace ScanParse.Lexeme

open ScanParse.Text

def markers : List (List Char) :=
  [['/', '/'], ['/', '*'], ['*', '/']]

/-- No comment marker stands within the text. -/
def Unmarked (cs : List Char) : Prop :=
  ∀ marker ∈ markers, ¬ marker <:+: cs

theorem commentMarker?_of_ne {c : Char} (hslash : c ≠ '/') (hstar : c ≠ '*')
    (rest : List Char) : commentMarker? (c :: rest) = none := by
  unfold commentMarker?
  split
  · simp_all
  · simp_all
  · simp_all
  · rfl

@[simp] theorem commentMarker?_singleton (c : Char) : commentMarker? [c] = none := by
  unfold commentMarker?
  split
  · simp_all
  · simp_all
  · simp_all
  · rfl

theorem commentMarker?_eq_none_iff (c d : Char) (rest : List Char) :
    commentMarker? (c :: d :: rest) = none ↔ [c, d] ∉ markers := by
  constructor
  · intro h hmem
    simp only [markers, List.mem_cons, List.cons.injEq, and_true, List.not_mem_nil,
      or_false] at hmem
    rcases hmem with ⟨rfl, rfl⟩ | ⟨rfl, rfl⟩ | ⟨rfl, rfl⟩ <;> simp [commentMarker?] at h
  · intro hmem
    unfold commentMarker?
    split
    · simp_all [markers]
    · simp_all [markers]
    · simp_all [markers]
    · rfl

theorem unmarked_singleton (c : Char) : Unmarked [c] := by
  intro marker hmarker hwithin
  have hlength := hwithin.length_le
  simp only [markers, List.mem_cons, List.not_mem_nil, or_false] at hmarker
  rcases hmarker with rfl | rfl | rfl <;> simp at hlength

theorem isSymbolCharacter_of_mem_markers {marker : List Char} (h : marker ∈ markers) :
    ∀ c ∈ marker, isSymbolCharacter c = true := by
  have hall : (markers.all fun marker => marker.all isSymbolCharacter) = true := by decide
  exact List.all_eq_true.mp (List.all_eq_true.mp hall marker h)

theorem prefix_iff_of_mem_markers {marker : List Char} (h : marker ∈ markers) (c d : Char)
    (rest : List Char) : marker <+: c :: d :: rest ↔ marker = [c, d] := by
  simp only [markers, List.mem_cons, List.not_mem_nil, or_false] at h
  rcases h with rfl | rfl | rfl <;> simp [List.cons_prefix_cons]

theorem unmarked_cons_cons (c d : Char) (run : List Char) :
    Unmarked (c :: d :: run) ↔ [c, d] ∉ markers ∧ Unmarked (d :: run) := by
  constructor
  · intro h
    refine ⟨fun hmem => h _ hmem ⟨[], run, rfl⟩, ?_⟩
    intro marker hmarker hwithin
    exact h marker hmarker (List.infix_cons_iff.mpr (.inr hwithin))
  · rintro ⟨hpair, hrun⟩ marker hmarker hwithin
    rcases List.infix_cons_iff.mp hwithin with hstart | hwithin
    · rw [prefix_iff_of_mem_markers hmarker] at hstart
      exact hpair (hstart ▸ hmarker)
    · exact hrun marker hmarker hwithin

/-- A run of symbol characters, together with a text that does not prolong it. -/
structure LongestSymbol (run rest : List Char) : Prop where
  characters : ∀ c ∈ run, isSymbolCharacter c = true
  unmarked : Unmarked run
  last_unmarked : ∀ c ∈ run.getLast?, commentMarker? (c :: rest) = none
  rest_stops : commentMarker? rest = none → Stops isSymbolCharacter rest

theorem longestSymbol_nil {rest : List Char} :
    LongestSymbol [] rest ↔
      (commentMarker? rest = none → Stops isSymbolCharacter rest) := by
  constructor
  · exact fun h => h.rest_stops
  · intro h
    refine ⟨by simp, ?_, by simp, h⟩
    intro marker hmarker hwithin
    have hnil := List.infix_nil.mp hwithin
    simp [hnil, markers] at hmarker

theorem longestSymbol_cons {c : Char} {run rest : List Char} :
    LongestSymbol (c :: run) rest ↔
      isSymbolCharacter c = true ∧ commentMarker? (c :: (run ++ rest)) = none ∧
        LongestSymbol run rest := by
  rcases run with _ | ⟨d, run⟩
  · constructor
    · intro h
      exact ⟨h.characters c (by simp), h.last_unmarked c (by simp),
        longestSymbol_nil.mpr h.rest_stops⟩
    · rintro ⟨hc, hmarker, h⟩
      exact ⟨by simpa using hc, unmarked_singleton c, by simpa using hmarker, h.rest_stops⟩
  · rw [List.cons_append, commentMarker?_eq_none_iff]
    constructor
    · intro h
      obtain ⟨hpair, hunmarked⟩ := (unmarked_cons_cons c d run).mp h.unmarked
      refine ⟨h.characters c (by simp), hpair, ?_, hunmarked, ?_, h.rest_stops⟩
      · exact fun e he => h.characters e (List.mem_cons_of_mem c he)
      · simpa using h.last_unmarked
    · rintro ⟨hc, hpair, h⟩
      refine ⟨?_, (unmarked_cons_cons c d run).mpr ⟨hpair, h.unmarked⟩, ?_, h.rest_stops⟩
      · intro e he
        rcases List.mem_cons.mp he with rfl | he
        · exact hc
        · exact h.characters e he
      · simpa using h.last_unmarked

theorem symbolRun_append {run rest : List Char} (h : LongestSymbol run rest) :
    symbolRun (run ++ rest) = run := by
  induction run with
  | nil =>
      rcases rest with _ | ⟨c, rest⟩
      · rfl
      · rw [List.nil_append, symbolRun, if_neg]
        rintro ⟨hc, hmarker⟩
        have hstops := h.rest_stops (by simpa using hmarker)
        rw [stops_cons] at hstops
        simp [hc] at hstops
  | cons c run ih =>
      obtain ⟨hc, hmarker, hrun⟩ := longestSymbol_cons.mp h
      rw [List.cons_append, symbolRun, if_pos ⟨hc, by simp [hmarker]⟩, ih hrun]

theorem exists_longestSymbol (cs : List Char) :
    ∃ run rest, cs = run ++ rest ∧ LongestSymbol run rest := by
  induction cs with
  | nil => exact ⟨[], [], rfl, longestSymbol_nil.mpr (by simp)⟩
  | cons c cs ih =>
      by_cases h : isSymbolCharacter c = true ∧ commentMarker? (c :: cs) = none
      · obtain ⟨run, rest, rfl, hrun⟩ := ih
        exact ⟨c :: run, rest, rfl, longestSymbol_cons.mpr ⟨h.1, h.2, hrun⟩⟩
      · refine ⟨[], c :: cs, rfl, longestSymbol_nil.mpr ?_⟩
        intro hmarker
        rw [stops_cons]
        by_contra hc
        exact h ⟨by simpa using hc, hmarker⟩

section Cut

/-- A comment marker begins at the index of the text. -/
def MarkerAt (cs : List Char) (index : Nat) : Prop :=
  ∃ marker ∈ markers, marker <+: cs.drop index

/-- The first index of the text at which a comment marker begins. -/
def IsFirstMarker (cs : List Char) (index : Nat) : Prop :=
  MarkerAt cs index ∧ ∀ earlier < index, ¬ MarkerAt cs earlier

theorem markerAt_zero_iff (cs : List Char) : MarkerAt cs 0 ↔ commentMarker? cs ≠ none := by
  rcases cs with _ | ⟨c, _ | ⟨d, rest⟩⟩
  · exact iff_of_false (by simp [MarkerAt, markers]) (by simp [commentMarker?])
  · refine iff_of_false ?_ (by simp)
    rintro ⟨marker, hmarker, hfront⟩
    exact unmarked_singleton c marker hmarker hfront.isInfix
  · rw [ne_eq, commentMarker?_eq_none_iff, not_not]
    constructor
    · rintro ⟨marker, hmarker, hfront⟩
      obtain rfl := (prefix_iff_of_mem_markers hmarker c d rest).mp hfront
      exact hmarker
    · exact fun hmarker => ⟨_, hmarker, rest, rfl⟩

theorem markerAt_takeWhile_iff (cs : List Char) :
    MarkerAt (cs.takeWhile isSymbolCharacter) 0 ↔ commentMarker? cs ≠ none := by
  rw [← markerAt_zero_iff]
  constructor
  · rintro ⟨marker, hmarker, hfront⟩
    exact ⟨marker, hmarker, hfront.trans (List.takeWhile_prefix _)⟩
  · rintro ⟨marker, hmarker, rest, rfl⟩
    refine ⟨marker, hmarker, rest.takeWhile isSymbolCharacter, ?_⟩
    exact (List.takeWhile_append_of_pos (isSymbolCharacter_of_mem_markers hmarker)).symm

theorem markerAt_append_iff (front rest : List Char) (index : Nat) :
    MarkerAt (front ++ rest) (front.length + index) ↔ MarkerAt rest index := by
  simp only [MarkerAt, List.drop_length_add_append]

namespace LongestSymbol

variable {run rest : List Char}

theorem takeWhile_eq (h : LongestSymbol run rest) :
    (run ++ rest).takeWhile isSymbolCharacter = run ++ rest.takeWhile isSymbolCharacter :=
  List.takeWhile_append_of_pos h.characters

theorem not_markerAt (h : LongestSymbol run rest) {index : Nat} (hindex : index < run.length) :
    ¬ MarkerAt ((run ++ rest).takeWhile isSymbolCharacter) index := by
  induction run generalizing index with
  | nil => simp at hindex
  | cons c run ih =>
      obtain ⟨hc, hmarker, hrun⟩ := longestSymbol_cons.mp h
      cases index with
      | zero =>
          rw [markerAt_takeWhile_iff, List.cons_append]
          exact not_not.mpr hmarker
      | succ index =>
          have hlater := ih hrun (Nat.lt_of_succ_lt_succ hindex)
          rw [hrun.takeWhile_eq] at hlater
          rw [h.takeWhile_eq]
          exact hlater

theorem takeWhile_eq_self (h : LongestSymbol run rest) (hmarker : commentMarker? rest = none) :
    (run ++ rest).takeWhile isSymbolCharacter = run := by
  rw [h.takeWhile_eq, takeWhile_eq_nil_of_stops (h.rest_stops hmarker), List.append_nil]

theorem markerAt_length (h : LongestSymbol run rest) (hmarker : commentMarker? rest ≠ none) :
    MarkerAt ((run ++ rest).takeWhile isSymbolCharacter) run.length := by
  rw [h.takeWhile_eq, ← Nat.add_zero run.length, markerAt_append_iff, markerAt_takeWhile_iff]
  exact hmarker

/-- A longest symbol is the run of symbol characters up to the first comment marker. -/
theorem length_eq_of_isFirstMarker (h : LongestSymbol run rest) {index : Nat}
    (hindex : IsFirstMarker ((run ++ rest).takeWhile isSymbolCharacter) index) :
    run.length = index := by
  obtain ⟨hfirst, hbefore⟩ := hindex
  have hle : run.length ≤ index := Nat.le_of_not_lt fun hlt => h.not_markerAt hlt hfirst
  cases hmarker : commentMarker? rest with
  | none =>
      rw [h.takeWhile_eq_self hmarker] at hfirst
      obtain ⟨marker, hmem, hfront⟩ := hfirst
      rw [List.drop_eq_nil_of_le hle, List.prefix_nil] at hfront
      simp [hfront, markers] at hmem
  | some kind =>
      have hlength := h.markerAt_length (by simp [hmarker])
      exact Nat.le_antisymm hle (Nat.le_of_not_lt fun hlt => hbefore _ hlt hlength)

end LongestSymbol

end Cut

end ScanParse.Lexeme
