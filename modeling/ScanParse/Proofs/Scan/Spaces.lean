import ScanParse.Proofs.Scan.Cutting
import ScanParse.Proofs.Scan.Printable

/-!
Runs of spaces in a scan. A token that holds a space consists of spaces, so no token
reaches into a run from the left; from there on four spaces are a tab as long as there
are as many, and the spaces that are left over are tokens by themselves.
-/

namespace ScanParse

open Lexeme Scan

/-- What a token is, with the number of its characters. -/
def Token.lexeme (token : Token) : Lexeme :=
  ⟨token.kind, token.position.range.length⟩

/-- A run of spaces that goes on to neither side. -/
structure SpaceRun (source : List Char) where
  before : List Char
  length : Nat
  after : List Char
  source_eq : source = before ++ (List.replicate length ' ' ++ after)
  length_pos : 0 < length
  before_stops : before.getLast? ≠ some ' '
  after_stops : after.head? ≠ some ' '

theorem SpaceRun.head?_eq {source : List Char} (run : SpaceRun source) :
    (List.replicate run.length ' ' ++ run.after).head? = some ' ' := by
  rw [List.head?_append, List.head?_replicate, if_neg (Nat.ne_of_gt run.length_pos)]
  rfl

theorem SpaceRun.length_eq {source : List Char} (run : SpaceRun source) :
    source.length = run.before.length + run.length + run.after.length := by
  have hlength := congrArg List.length run.source_eq
  rwa [List.length_append, List.length_append, List.length_replicate, ← Nat.add_assoc]
    at hlength

namespace Lexeme

theorem Spelling.eq_of_space_mem {options : ScanOptions} {kind : TokenKind} {text : List Char}
    (h : Spelling options kind text) (hspace : ' ' ∈ text) :
    (kind = .space ∧ text = [' ']) ∨ (kind = .tab ∧ text = [' ', ' ', ' ', ' ']) := by
  cases hkind : kind.isFixed with
  | false =>
      have hword := h.isWordCharacter hkind ' ' hspace
      exact absurd rfl (Text.ne_of_class hword (by decide))
  | true =>
      cases h with
      | fixed =>
          cases kind with
          | space => exact .inl ⟨rfl, rfl⟩
          | _ => simp [TokenKind.isFixed, TokenKind.toText] at hkind hspace
      | fourSpaces => exact .inr ⟨rfl, rfl⟩
      | lineEnd => simp at hspace
      | _ => simp [TokenKind.isFixed] at hkind

theorem Spelling.eq_space {options : ScanOptions} {kind : TokenKind} {text : List Char}
    (h : Spelling options kind text) (hspace : ' ' ∈ text) : ∀ c ∈ text, c = ' ' := by
  rcases h.eq_of_space_mem hspace with ⟨-, rfl⟩ | ⟨-, rfl⟩
  · simp
  · simp

theorem Spelling.exists_between {options : ScanOptions} {kind : TokenKind}
    {text tail before rest : List Char} (h : Spelling options kind text)
    (hcs : text ++ tail = before ++ rest) (hne : before ≠ [])
    (hbefore : before.getLast? ≠ some ' ') (hrest : rest.head? = some ' ') :
    ∃ between, before = text ++ between ∧ tail = between ++ rest := by
  rcases List.append_eq_append_iff.mp hcs with ⟨between, hfront, htail⟩ | ⟨inside, htext, hinside⟩
  · exact ⟨between, hfront, htail⟩
  · rcases inside with _ | ⟨c, inside⟩
    · rw [List.append_nil] at htext
      exact ⟨[], by rw [htext, List.append_nil], hinside.symm⟩
    · obtain rfl : c = ' ' := by simpa [hinside] using hrest
      have hspace : ' ' ∈ text := by simp [htext]
      have hlast : before.getLast hne ∈ text := by simp [htext]
      rw [List.getLast?_eq_some_getLast hne, h.eq_space hspace _ hlast] at hbefore
      exact absurd rfl hbefore

/-- The lexemes of a run of spaces. -/
def spaces (n : Nat) : List Lexeme :=
  List.replicate (n / 4) ⟨.tab, 4⟩ ++ List.replicate (n % 4) ⟨.space, 1⟩

theorem spaces_add_four (n : Nat) : spaces (n + 4) = ⟨.tab, 4⟩ :: spaces n := by
  have hdiv : (n + 4) / 4 = n / 4 + 1 := by omega
  rw [spaces, hdiv, Nat.add_mod_right]
  rfl

theorem spaces_succ {n : Nat} (h : n < 3) : spaces (n + 1) = ⟨.space, 1⟩ :: spaces n := by
  have hdiv : (n + 1) / 4 = 0 := by omega
  have hzero : n / 4 = 0 := by omega
  have hmod : (n + 1) % 4 = n % 4 + 1 := by omega
  rw [spaces, spaces, hdiv, hzero, hmod]
  rfl

theorem read?_space (options : ScanOptions) {rest : List Char}
    (h : ¬ [' ', ' ', ' '] <+: rest) :
    read? options ([' '] ++ rest) = some ⟨.space, [' '].length⟩ := by
  have hspelling : Spelling options .space [' '] := .fixed rfl
  obtain ⟨same, hread, hsame⟩ := read?_of_spelling hspelling h
  rcases (TokenKind.same_iff same .space).mp hsame with rfl | ⟨_, _, _, -, hfloat⟩
  · exact hread
  · simp at hfloat

theorem not_prefix_replicate_append {m n : Nat} {c : Char} {after : List Char} (h : m < n)
    (hafter : after.head? ≠ some c) :
    ¬ List.replicate n c <+: List.replicate m c ++ after := by
  obtain ⟨k, rfl⟩ := Nat.exists_eq_add_of_lt h
  rw [Nat.add_assoc, List.replicate_add, List.prefix_append_right_inj]
  rintro ⟨tail, rfl⟩
  exact hafter rfl

end Lexeme

namespace Scan

variable {options : ScanOptions} {cs before after rest : List Char} {lexemes : List Lexeme}

theorem map_lexeme_place (cursor : Cursor) (lexemes : List Lexeme) :
    (place cursor lexemes).map Token.lexeme = lexemes := by
  induction lexemes generalizing cursor with
  | nil => rfl
  | cons lexeme lexemes ih =>
      have hlength : cursor.offset + lexeme.width - cursor.offset = lexeme.width :=
        Nat.add_sub_cancel_left _ _
      rw [place, List.map_cons, ih]
      exact congrArg (fun width => Lexeme.mk lexeme.kind width :: lexemes) hlength

theorem exists_reads_to_spaces (h : Reads options cs lexemes []) (hcs : cs = before ++ rest)
    (hbefore : before.getLast? ≠ some ' ') (hrest : rest.head? = some ' ') :
    ∃ first, Reads options cs first rest := by
  induction lexemes generalizing cs before with
  | nil =>
      cases h
      obtain ⟨-, rfl⟩ := List.append_eq_nil_iff.mp hcs.symm
      simp at hrest
  | cons lexeme lexemes ih =>
      by_cases hne : before = []
      · rw [hne, List.nil_append] at hcs
        exact ⟨[], hcs ▸ .done cs⟩
      · cases h with
        | @step text tail _ kind _ hread htail =>
            have hspelling := (spelling_and_apart_of_read? hread).1
            obtain ⟨between, rfl, hbetween⟩ :=
              hspelling.exists_between hcs hne hbefore hrest
            have hlast : between.getLast? ≠ some ' ' := by
              intro hlast
              simp [List.getLast?_append, hlast] at hbefore
            obtain ⟨first, hfirst⟩ := ih htail hbetween hlast
            exact ⟨_ :: first, .step hread hfirst⟩

theorem reads_spaces (options : ScanOptions) (n : Nat) (hafter : after.head? ≠ some ' ') :
    Reads options (List.replicate n ' ' ++ after) (spaces n) after := by
  -- A tab takes four spaces at once, so the induction is on how many are left.
  induction n using Nat.strong_induction_on with
  | _ n ih =>
      by_cases hfour : 4 ≤ n
      · obtain ⟨m, rfl⟩ := Nat.exists_eq_add_of_le' hfour
        have htab : read? options ([' ', ' ', ' ', ' '] ++ (List.replicate m ' ' ++ after)) =
            some ⟨.tab, [' ', ' ', ' ', ' '].length⟩ := rfl
        rw [spaces_add_four]
        exact .step htab (ih m (by omega))
      · rcases n with _ | n
        · exact .done after
        · have hless : n < 3 := by omega
          have hspace := read?_space options (not_prefix_replicate_append hless hafter)
          rw [spaces_succ hless]
          exact .step hspace (ih n (Nat.lt_succ_self n))

theorem exists_place_spaces {source : List Char} (h : Reads options source lexemes [])
    (run : SpaceRun source) :
    ∃ earlier covering later, place .start lexemes = earlier ++ (covering ++ later) ∧
      Tiles 0 earlier run.before.length ∧
      Tiles run.before.length covering (run.before.length + run.length) ∧
      Tiles (run.before.length + run.length) later source.length ∧
      covering.map Token.lexeme = spaces run.length := by
  have hrun := reads_spaces options run.length run.after_stops
  obtain ⟨first, hfirst⟩ :=
    exists_reads_to_spaces h run.source_eq run.before_stops run.head?_eq
  obtain ⟨second, rfl, hsecond⟩ := hfirst.exists_later h
  obtain ⟨later, rfl, hlater⟩ := hrun.exists_later hsecond
  refine ⟨place .start first, place (.behind run.before) (spaces run.length),
    place (.behind (run.before ++ List.replicate run.length ' ')) later, ?_, ?_, ?_, ?_,
    map_lexeme_place _ _⟩
  · have hstart : Cursor.start.after first = .behind run.before :=
      Cursor.after_behind hfirst run.source_eq []
    rw [place_append, place_append, hstart, Cursor.after_behind hrun rfl run.before]
  · have htiles := tiles_behind hfirst run.source_eq []
    rwa [List.length_nil, Nat.zero_add] at htiles
  · have htiles := tiles_behind hrun rfl run.before
    rwa [List.length_replicate] at htiles
  · have htiles := tiles_behind hlater (List.append_nil run.after).symm
      (run.before ++ List.replicate run.length ' ')
    rwa [List.length_append, List.length_replicate, ← run.length_eq] at htiles

theorem not_four_spaces (h : Reads options cs lexemes []) :
    ¬ [.space, .space, .space, .space] <:+: lexemes.map (·.kind) := by
  intro hwindow
  obtain ⟨rest, hrest⟩ := separated_of_infix (separated_of_reads h rfl) hwindow
  exact not_separated_spaces hrest

theorem not_space_before_four (h : Reads options cs lexemes rest) (width : Nat) :
    ¬ [⟨.space, width⟩, ⟨.tab, 4⟩] <:+: lexemes := by
  rintro ⟨first, second, rfl⟩
  rw [List.append_assoc] at h
  obtain ⟨mid, -, hmid⟩ := exists_reads_of_append h
  obtain ⟨-, tail, -, -, -, hapart, htail⟩ := hmid.exists_of_cons
  obtain ⟨text, behind, rfl, hfour, hspelling, -, -⟩ := htail.exists_of_cons
  cases hspelling with
  | fixed => simp [TokenKind.toText] at hfour
  | fourSpaces => exact hapart ⟨' ' :: behind, rfl⟩

end Scan

/-- Every run of spaces in a source that scans is covered by as many tabs of four
characters as fit into it, and then by single spaces. Hence there are never four of
these side by side, and none stands before a tab of four characters. -/
theorem tokenize_space_runs {options : ScanOptions} {source : String} {tokens : List Token}
    (h : tokenize options source = .ok tokens) :
    (∀ run : SpaceRun source.toList,
      ∃ earlier covering later, tokens = earlier ++ (covering ++ later) ∧
        Tiles 0 earlier run.before.length ∧
        Tiles run.before.length covering (run.before.length + run.length) ∧
        Tiles (run.before.length + run.length) later source.toList.length ∧
        covering.map Token.lexeme =
          List.replicate (run.length / 4) ⟨.tab, 4⟩ ++
            List.replicate (run.length % 4) ⟨.space, 1⟩) ∧
      ¬ [.space, .space, .space, .space] <:+: tokens.map (·.kind) ∧
      ∀ width, ¬ [⟨.space, width⟩, ⟨.tab, 4⟩] <:+: tokens.map Token.lexeme := by
  obtain ⟨lexemes, hreads, rfl⟩ := (tokenize_eq_ok_iff options source tokens).mp h
  refine ⟨exists_place_spaces hreads, ?_, ?_⟩
  · rw [map_kind_place]
    exact not_four_spaces hreads
  · rw [map_lexeme_place]
    exact not_space_before_four hreads

theorem tokenize_space_runs_aligned :
    ∃ tokens, tokenize .standard "x      7   \ty" = .ok tokens ∧
      (∃ earlier covering later, tokens = earlier ++ (covering ++ later) ∧
        Tiles 0 earlier 1 ∧ Tiles 1 covering 7 ∧ Tiles 7 later 13 ∧
        covering.map Token.lexeme = [⟨.tab, 4⟩, ⟨.space, 1⟩, ⟨.space, 1⟩]) ∧
      ∀ width, ¬ [⟨.space, width⟩, ⟨.tab, 4⟩] <:+: tokens.map Token.lexeme := by
  have hreads : Reads .standard "x      7   \ty".toList
      [⟨.identifier "x", 1⟩, ⟨.tab, 4⟩, ⟨.space, 1⟩, ⟨.space, 1⟩, ⟨.int 7, 1⟩, ⟨.space, 1⟩,
        ⟨.space, 1⟩, ⟨.space, 1⟩, ⟨.tab, 1⟩, ⟨.identifier "y", 1⟩] [] := by
    change Reads _ ("x".toList ++ ("    ".toList ++ (" ".toList ++ (" ".toList ++
      ("7".toList ++ (" ".toList ++ (" ".toList ++ (" ".toList ++ ("\t".toList ++
        ("y".toList ++ [])))))))))) _ _
    exact .step rfl (.step rfl (.step rfl (.step rfl (.step rfl (.step rfl (.step rfl
      (.step rfl (.step rfl (.step rfl (.done []))))))))))
  have htokens := (tokenize_eq_ok_iff _ _ _).mpr ⟨_, hreads, rfl⟩
  obtain ⟨hruns, -, hbefore⟩ := tokenize_space_runs htokens
  have hrun := hruns ⟨['x'], 6, "7   \ty".toList, rfl, by decide, by decide, by decide⟩
  exact ⟨_, htokens, hrun, hbefore⟩

end ScanParse
