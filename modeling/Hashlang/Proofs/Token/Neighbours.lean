import Hashlang.Proofs.Token.Tiles

namespace Hashlang

namespace Lexeme

/-- `rest'` can take the place of `rest` behind a lexeme: it begins in the same way or with a blank, and
it begins a new line where `rest` does. -/
structure Replaces (rest' rest : List Char) : Prop where
  head : ∀ d ∈ rest'.head?, d ∈ rest.head? ∨ isBlank d
  line : (∀ d ∈ rest.head?, d = '\n') → ∀ d ∈ rest'.head?, d = '\n'

theorem isNameChar_of_blank {c : Char} (blank : isBlank c) : isNameChar c = false := by
  simp [isNameChar, blank]

theorem isNameStart_of_blank {c : Char} (blank : isBlank c) : isNameStart c = false := by
  simp [isNameStart, isNameChar_of_blank blank]

theorem not_number_of_blank {c : Char} (blank : isBlank c) : c.isDigit = false ∧ c ≠ '.' := by
  refine ⟨isDigit_of_not_name (isNameChar_of_blank blank), ?_⟩
  rintro rfl
  exact absurd blank (by decide)

variable {rest rest' : List Char}

theorem replaces_append (rest lost : List Char) : Replaces rest (rest ++ lost) := by
  cases rest with
  | nil => exact ⟨fun d first => absurd first (by simp), fun _ d first => absurd first (by simp)⟩
  | cons c rest => exact ⟨fun d first => .inl first, fun line => line⟩

theorem Replaces.append_left (used : List Char) (replaces : Replaces rest' rest) :
    Replaces (used ++ rest') (used ++ rest) := by
  cases used with
  | nil => exact replaces
  | cons c used => exact ⟨fun d first => .inl first, fun line => line⟩

theorem NameEnds.replace (stop : NameEnds rest) (replaces : Replaces rest' rest) : NameEnds rest' := by
  intro d first
  rcases replaces.head d first with same | blank
  · exact stop d same
  · exact isNameChar_of_blank blank

theorem NumberEnds.replace {text : List Char} (stop : NumberEnds text rest)
    (replaces : Replaces rest' rest) : NumberEnds text rest' := by
  intro d first
  rcases replaces.head d first with same | blank
  · exact stop d same
  · obtain ⟨noDigit, noPoint⟩ := not_number_of_blank blank
    exact ⟨noDigit, fun _ => noPoint⟩

theorem Longest.replace {c : Char} {used : List Char} {lexeme : Lexeme}
    (longest : Longest c used rest lexeme) (replaces : Replaces rest' rest)
    (unterminated : lexeme = .stray ['"'] → rest' = []) : Longest c used rest' lexeme := by
  cases longest with
  | bracket member => exact .bracket member
  | comment inLine stop => exact .comment inLine (replaces.line stop)
  | quote stop =>
    refine .quote fun d first => ?_
    rcases replaces.head d first with same | blank
    · exact stop d same
    · exact isNameStart_of_blank blank
  | string free => exact .string free
  | unterminated free =>
    rw [unterminated rfl]
    exact .unterminated free
  | directive present inName stop => exact .directive present inName (stop.replace replaces)
  | hash stop => exact .hash (stop.replace replaces)
  | number number stop => exact .number number (stop.replace replaces)
  | identifier identifier stop => exact .identifier identifier (stop.replace replaces)
  | stray member => exact .stray member

theorem Longest.stray_cases {c : Char} {used shown : List Char}
    (longest : Longest c used rest (.stray shown)) : shown ≠ ['"'] ∨ rest = [] := by
  cases longest with
  | unterminated => exact .inr rfl
  | hash => exact .inl (by decide)
  | stray member =>
    refine .inl fun same => ?_
    cases same
    exact absurd member (by decide)

end Lexeme

namespace Scan

open Lexeme

variable {rest rest' : List Char}

theorem Strays.replace {text used : List Char} (strays : Strays text used rest)
    (replaces : Replaces rest' rest) (legal : Legal rest')
    (unterminated : text.getLast? = some '"' → rest' = []) : Strays text used rest' := by
  induction strays with
  | stop => exact .stop legal
  | @more c piece shown text used rest longest strays ih =>
    have later : text.getLast? = some '"' → rest' = [] := by
      intro last
      apply unterminated
      rw [List.getLast?_append, last]
      rfl
    refine .more (longest.replace (replaces.append_left used) fun same => ?_) (ih replaces later)
    -- Behind a quote that opens a string without an end there is no text, so it is said last.
    rcases longest.stray_cases with other | nothing
    · cases same
      exact absurd rfl other
    · obtain ⟨rfl, rfl⟩ := List.append_eq_nil_iff.mp nothing
      cases strays
      cases same
      exact unterminated rfl

theorem Piece.replace {kind : Token.Kind} {value used : List Char} (piece : Piece kind value used rest)
    (replaces : Replaces rest' rest) (legal : kind = .illegal → Legal rest')
    (unterminated : kind = .illegal → value.getLast? = some '"' → rest' = []) :
    Piece kind value used rest' := by
  cases piece with
  | lexeme longest => exact .lexeme (longest.replace replaces fun same => by cases same)
  | illegal strays present =>
    exact .illegal (strays.replace replaces (legal rfl) (unterminated rfl)) present

theorem Piece.not_blank {kind : Token.Kind} {c : Char} {value used : List Char}
    (piece : Piece kind value (c :: used) rest) : isBlank c = false := by
  cases piece with
  | lexeme longest => exact longest.not_blank
  | illegal strays =>
    cases strays with
    | more longest => exact longest.not_blank

end Scan

end Hashlang
