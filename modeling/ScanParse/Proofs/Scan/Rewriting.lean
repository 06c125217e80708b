import Mathlib.Algebra.Order.BigOperators.Group.List
import Mathlib.Algebra.Order.Group.Nat
import ScanParse.Proofs.Scan.Position
import ScanParse.Proofs.Scan.Regeneration

namespace ScanParse

open Lexeme Scan

/-- The part of a source in a range. -/
def Span.text (span : Span) (source : List Char) : List Char :=
  (source.drop span.start).take span.length

def Token.sourceText (source : List Char) (token : Token) : List Char :=
  token.position.range.text source

theorem Span.text_of_append (passed text tail : List Char) :
    Span.text ⟨passed.length, passed.length + text.length⟩ (passed ++ (text ++ tail)) = text := by
  rw [Span.text, Span.length, List.drop_left, Nat.add_sub_cancel_left, List.take_left]

theorem Span.text_append_text {a b c : Nat} (hab : a ≤ b) (hbc : b ≤ c) (source : List Char) :
    Span.text ⟨a, b⟩ source ++ Span.text ⟨b, c⟩ source = Span.text ⟨a, c⟩ source := by
  obtain ⟨m, rfl⟩ := Nat.exists_eq_add_of_le hab
  obtain ⟨n, rfl⟩ := Nat.exists_eq_add_of_le hbc
  have hlength : a + m + n - a = m + n := by omega
  simp only [Span.text, Span.length, Nat.add_sub_cancel_left, hlength, List.take_add,
    List.drop_drop]

theorem read?_of_mem_place {options : ScanOptions} {source rest : List Char}
    {lexemes : List Lexeme} (h : Reads options source lexemes rest) {token : Token}
    (htoken : token ∈ place .start lexemes) :
    ∃ tail, source.drop token.position.range.start = token.sourceText source ++ tail ∧
      read? options (token.sourceText source ++ tail) =
        some ⟨token.kind, (token.sourceText source).length⟩ := by
  obtain ⟨passed, text, tail, rfl, hread, hposition⟩ := exists_read_of_mem_place h [] htoken
  have htext : token.sourceText (passed ++ (text ++ tail)) = text := by
    rw [Token.sourceText, hposition]
    exact Span.text_of_append passed text tail
  refine ⟨tail, ?_, by rw [htext, hread]⟩
  rw [htext, hposition]
  exact List.drop_left

theorem flatMap_sourceText_of_tiles {start stop : Nat} {tokens : List Token}
    (h : Tiles start tokens stop) (source : List Char) :
    tokens.flatMap (Token.sourceText source) = Span.text ⟨start, stop⟩ source := by
  induction tokens generalizing start with
  | nil =>
      obtain rfl : start = stop := h
      rw [Span.text, Span.length, Nat.sub_self]
      rfl
  | cons token tokens ih =>
      obtain ⟨rfl, hlt, htokens⟩ := h
      rw [List.flatMap_cons, ih htokens]
      exact Span.text_append_text (Nat.le_of_lt hlt) (tiles_le htokens) source

/-- Every token of a scan is written as its text in the source is rewritten, so the
regenerated text is the source with these parts replaced; it is not longer. -/
theorem tokenize_rewrites {options : ScanOptions} {source : String} {tokens : List Token}
    (h : tokenize options source = .ok tokens) :
    (∀ token ∈ tokens,
      token.toText.toList = rewritten token.kind (token.sourceText source.toList)) ∧
      source.toList = tokens.flatMap (Token.sourceText source.toList) ∧
      (Token.regenerate tokens).toList =
        tokens.flatMap (fun token => rewritten token.kind (token.sourceText source.toList)) ∧
      (Token.regenerate tokens).length ≤ source.length := by
  obtain ⟨lexemes, hreads, rfl⟩ := (tokenize_eq_ok_iff options source tokens).mp h
  have hwritten : ∀ token ∈ place .start lexemes,
      token.toText.toList = rewritten token.kind (token.sourceText source.toList) := by
    intro token htoken
    obtain ⟨tail, -, hread⟩ := read?_of_mem_place hreads htoken
    exact toText_eq_rewritten (spelling_and_apart_of_read? hread).1
  have hsource : source.toList =
      (place .start lexemes).flatMap (Token.sourceText source.toList) := by
    rw [flatMap_sourceText_of_tiles (tiles_of_reads hreads), Span.text]
    exact List.take_length.symm
  have hregenerated : (Token.regenerate (place .start lexemes)).toList =
      (place .start lexemes).flatMap fun token =>
        rewritten token.kind (token.sourceText source.toList) := by
    rw [toList_regenerate, written, List.flatMap_map]
    exact List.flatMap_congr hwritten
  refine ⟨hwritten, hsource, hregenerated, ?_⟩
  rw [← String.length_toList, ← String.length_toList, hregenerated, hsource,
    List.length_flatMap, List.length_flatMap, ← hsource]
  exact List.sum_le_sum fun token _ => length_rewritten_le _ _

theorem tokenize_rewrites_indented :
    ∃ tokens, tokenize .standard "x\r\n    007" = .ok tokens ∧
      (∀ token ∈ tokens, token.toText.toList =
        rewritten token.kind (token.sourceText "x\r\n    007".toList)) ∧
      Token.regenerate tokens = "x\n\t7" := by
  have hreads : Reads .standard "x\r\n    007".toList
      [⟨.identifier "x", 1⟩, ⟨.newline, 2⟩, ⟨.tab, 4⟩, ⟨.int 7, 3⟩] [] := by
    change Reads _ ("x".toList ++ ("\r\n".toList ++ ("    ".toList ++ ("007".toList ++ [])))) _ _
    exact .step rfl (.step rfl (.step rfl (.step rfl (.done []))))
  have htokens := (tokenize_eq_ok_iff _ _ _).mpr ⟨_, hreads, rfl⟩
  exact ⟨_, htokens, (tokenize_rewrites htokens).1, by decide⟩

end ScanParse
