import ScanParse.Proofs.Lexical.Reading

/-!
The text behind a token, cut short or with a line break put behind it. Neither
prolongs the token: nothing that decides where a token ends reaches over a line
break, and all of it holds of a shorter text too, unless the cut goes through a
comment marker.
-/

namespace ScanParse.Lexeme

open ScanParse.Text

theorem stops_of_append {p : Char → Bool} {front rest : List Char}
    (h : Stops p (front ++ rest)) : Stops p front := by
  rcases front with _ | ⟨c, front⟩
  · exact stops_nil p
  · rwa [List.cons_append, stops_cons, ← stops_cons p c front] at h

theorem read?_of_commentMarker? {options : ScanOptions} {cs : List Char} {kind : TokenKind}
    (h : commentMarker? cs = some kind) : read? options cs = some ⟨kind, 2⟩ := by
  unfold commentMarker? at h
  split at h
  · cases h
    rfl
  · cases h
    rfl
  · cases h
    rfl
  · simp at h

/-- A token is not prolonged by the front of what follows it, unless that front
cuts a comment marker in two. -/
theorem apart_of_append {options : ScanOptions} {kind : TokenKind} {front rest : List Char}
    (h : Apart options kind (front ++ rest))
    (hmarker : front ≠ [] → commentMarker? front = none →
      commentMarker? (front ++ rest) = none) : Apart options kind front := by
  cases kind with
  | float value spelling =>
      obtain ⟨hdigit, hpoint, hexponent⟩ := h
      refine ⟨stops_of_append hdigit,
        fun hfraction hpower => stops_of_append (hpoint hfraction hpower), ?_⟩
      rintro hpower ⟨exponent, tail, rfl, hform⟩
      exact hexponent hpower ⟨exponent, tail ++ rest, by simp, hform⟩
  | int value => exact ⟨stops_of_append h.1, stops_of_append h.2⟩
  | identifier name => exact stops_of_append h
  | symbol characters =>
      rcases front with _ | ⟨d, front⟩
      · exact ⟨fun c _ => commentMarker?_singleton c, fun _ => stops_nil _⟩
      · obtain ⟨hlast, hstops⟩ := h
        refine ⟨fun c hc => ?_, fun hnone => ?_⟩
        · have hpair := hlast c hc
          rw [List.cons_append, commentMarker?_eq_none_iff] at hpair
          rwa [commentMarker?_eq_none_iff]
        · exact stops_of_append (hstops (hmarker (by simp) hnone))
  | space => exact fun hspaces => h (hspaces.trans (List.prefix_append _ _))
  | _ => trivial

theorem stops_append_newline {p : Char → Bool} {front : List Char} (rest : List Char)
    (hp : p '\n' = false) (h : Stops p front) : Stops p (front ++ '\n' :: rest) := by
  rcases front with _ | ⟨c, front⟩
  · rwa [List.nil_append, stops_cons]
  · rwa [List.cons_append, stops_cons, ← stops_cons p c front]

theorem commentMarker?_append_newline (front rest : List Char) :
    commentMarker? (front ++ '\n' :: rest) = none ↔ commentMarker? front = none := by
  rcases front with _ | ⟨c, _ | ⟨d, front⟩⟩
  · exact iff_of_true (commentMarker?_of_ne (by decide) (by decide) rest) rfl
  · rw [List.cons_append, List.nil_append, commentMarker?_eq_none_iff]
    exact iff_of_true (by simp [markers]) (commentMarker?_singleton c)
  · rw [List.cons_append, List.cons_append, commentMarker?_eq_none_iff,
      commentMarker?_eq_none_iff]

theorem prefix_of_prefix_append {word front rest : List Char} {c : Char}
    (h : word <+: front ++ c :: rest) (hc : c ∉ word) : word <+: front := by
  rcases List.prefix_or_prefix_of_prefix h (List.prefix_append front _) with hword | ⟨more, rfl⟩
  · exact hword
  · rw [List.prefix_append_right_inj] at h
    rcases more with _ | ⟨d, more⟩
    · simp
    · obtain ⟨rfl, -⟩ := List.cons_prefix_cons.mp h
      simp at hc

theorem newline_notMem_of_isExponent {exponent : List Char} (h : IsExponent exponent) :
    '\n' ∉ exponent := by
  have hnumeral : IsNumeral (['0'] ++ ([] ++ exponent)) :=
    ⟨['0'], [], exponent, rfl, ⟨by simp, by simp [Char.isDigit]⟩, .inl rfl, .inr h⟩
  intro hmem
  have hword := isWordCharacter_of_isNumeral hnumeral '\n' (by simp [hmem])
  exact ne_of_class hword (by decide) rfl

theorem startsExponent_of_append_newline {front rest : List Char}
    (h : StartsExponent (front ++ '\n' :: rest)) : StartsExponent front := by
  obtain ⟨exponent, tail, hfront, hexponent⟩ := h
  obtain ⟨more, rfl⟩ := prefix_of_prefix_append ⟨tail, hfront.symm⟩
    (newline_notMem_of_isExponent hexponent)
  exact ⟨exponent, more, rfl, hexponent⟩

theorem apart_append_newline {options : ScanOptions} {kind : TokenKind} {front : List Char}
    (h : Apart options kind front) (rest : List Char) :
    Apart options kind (front ++ '\n' :: rest) := by
  cases kind with
  | float value spelling =>
      obtain ⟨hdigit, hpoint, hexponent⟩ := h
      exact ⟨stops_append_newline rest (by decide) hdigit,
        fun hfraction hpower => stops_append_newline rest (by decide) (hpoint hfraction hpower),
        fun hpower hstarts => hexponent hpower (startsExponent_of_append_newline hstarts)⟩
  | int value =>
      exact ⟨stops_append_newline rest (by decide) h.1, stops_append_newline rest (by decide) h.2⟩
  | identifier name =>
      refine stops_append_newline rest ?_ h
      simp [continuesIdentifier, show isAlphabetic '\n' = false by decide]
  | symbol characters =>
      refine ⟨fun c hc => ?_, fun hnone => ?_⟩
      · exact (commentMarker?_append_newline (c :: front) rest).mpr (h.1 c hc)
      · exact stops_append_newline rest (by decide)
          (h.2 ((commentMarker?_append_newline front rest).mp hnone))
  | space => exact fun hspaces => h (prefix_of_prefix_append hspaces (by decide))
  | _ => trivial

end ScanParse.Lexeme
