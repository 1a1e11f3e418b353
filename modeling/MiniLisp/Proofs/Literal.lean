import Mathlib.Data.String.Basic
import MiniLisp.Eval.Evaluate

/-! # String literals

A string literal keeps the text it was written with. It has both its quotes when that text is a
double quote, some text and a double quote; its value is then the text between them, cut out at
byte offsets `1` and one before the end. A double quote is one byte, so both offsets fall between
characters and the cut never faults.

* `Expr.isQuotedText_iff`: the texts with both quotes.
* `Expr.stripQuotes_quote`: cutting the quotes off gives the text between them.
* `literalValue_eq_ok`, `literalValue_eq_error`: a literal's value is the text between its
  quotes; it fails only for want of them, as a form the language does not know, and never at a
  fault.
-/

namespace MiniLisp

namespace Expr

theorem isQuotedText_iff {t : String} : isQuotedText t = true ↔ ∃ s, t = "\"" ++ s ++ "\"" := by
  constructor
  · intro h
    unfold isQuotedText at h
    split at h
    · rename_i rest ht
      -- the last character is the closing quote, and what comes before it is the text
      obtain ⟨ys, rfl⟩ := List.getLast?_eq_some_iff.1 (by simpa using h)
      refine ⟨String.ofList ys, String.toList_inj.1 ?_⟩
      simp [ht, String.toList_append]
    · cases h
  · rintro ⟨s, rfl⟩
    simp [isQuotedText, String.toList_append]

/-- Offset `1` and one before the end of a quoted text fall between characters. -/
theorem quote_offsets_valid (s : String) :
    (⟨1⟩ : String.Pos.Raw).IsValid ("\"" ++ s ++ "\"") ∧
      (⟨("\"" ++ s ++ "\"").utf8ByteSize - 1⟩ : String.Pos.Raw).IsValid ("\"" ++ s ++ "\"") := by
  have hquote : "\"".utf8ByteSize = 1 := rfl
  constructor
  · have h1 : (⟨1⟩ : String.Pos.Raw) = "\"".rawEndPos := by
      rw [String.Pos.Raw.ext_iff, String.byteIdx_rawEndPos, hquote]
    rw [h1]
    exact (String.Pos.Raw.isValid_rawEndPos.append_right s).append_right "\""
  · have hend : (⟨("\"" ++ s ++ "\"").utf8ByteSize - 1⟩ : String.Pos.Raw) =
        ("\"" ++ s).rawEndPos := by
      apply String.Pos.Raw.ext
      simp only [String.byteIdx_rawEndPos, String.utf8ByteSize_append, hquote]
      omega
    rw [hend]
    exact String.Pos.Raw.isValid_rawEndPos.append_right "\""

theorem extract_quote (s : String) :
    String.Pos.Raw.extract ("\"" ++ s ++ "\"") ⟨1⟩ ⟨1 + s.utf8ByteSize⟩ = s := by
  have h := String.extract_of_valid ['"'] s.toList ['"']
  have hlen : String.utf8Len s.toList = s.utf8ByteSize := by
    rw [← String.utf8ByteSize_ofList, String.ofList_toList]
  have htext : String.ofList (['"'] ++ s.toList ++ ['"']) = "\"" ++ s ++ "\"" := by
    rw [String.ofList_append, String.ofList_append, String.ofList_toList]
  rw [hlen, htext, String.ofList_toList] at h
  exact h

/-- **Cutting the quotes off** a text between two double quotes gives the text. -/
theorem stripQuotes_quote (s : String) : stripQuotes ("\"" ++ s ++ "\"") = .ok s := by
  have hsize : ("\"" ++ s ++ "\"").utf8ByteSize - 1 = 1 + s.utf8ByteSize := by
    simp only [String.utf8ByteSize_append, show "\"".utf8ByteSize = 1 from rfl]
    omega
  obtain ⟨hstart, hstop⟩ := quote_offsets_valid s
  unfold stripQuotes
  rw [if_pos ⟨by omega, hstart, hstop⟩, hsize, extract_quote]

end Expr

theorem literalValue_quote (s : String) : literalValue ("\"" ++ s ++ "\"") = .ok (.str s) := by
  rw [literalValue, if_pos (Expr.isQuotedText_iff.2 ⟨s, rfl⟩), Expr.stripQuotes_quote]

theorem literalValue_eq_ok {t : String} {v : Value} (hv : literalValue t = .ok v) :
    ∃ s, t = "\"" ++ s ++ "\"" ∧ v = .str s := by
  cases hq : Expr.isQuotedText t with
  | true =>
    obtain ⟨s, rfl⟩ := Expr.isQuotedText_iff.1 hq
    rw [literalValue_quote] at hv
    cases hv
    exact ⟨s, rfl, rfl⟩
  | false =>
    rw [literalValue, hq] at hv
    cases hv

/-- **A literal fails only for want of its quotes**, as a form the language does not know: the
cut of its text, guarded by the test for the quotes, never faults. -/
theorem literalValue_eq_error {t : String} {h : Halt} (hv : literalValue t = .error h) :
    Expr.isQuotedText t = false ∧ h = .error (.unimplemented (.str t)) := by
  cases hq : Expr.isQuotedText t with
  | true =>
    obtain ⟨s, rfl⟩ := Expr.isQuotedText_iff.1 hq
    rw [literalValue_quote] at hv
    cases hv
  | false =>
    rw [literalValue, hq] at hv
    cases hv
    exact ⟨rfl, rfl⟩

end MiniLisp
