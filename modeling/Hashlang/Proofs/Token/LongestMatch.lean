import Hashlang.Proofs.Token.Tiling

namespace Hashlang

namespace Token.Kind

open Lexeme

/-- The shape of what is written for a token. An illegal token may say less than is written in front
of `rest`. -/
def Shape (kind : Kind) (value slice rest : List Char) : Prop :=
  match kind with
  | .openParen => slice = ['(']
  | .closeParen => slice = [')']
  | .openBracket => slice = ['[']
  | .closeBracket => slice = [']']
  | .quote => slice = ['\'']
  | .directive => ∃ name, slice = '#' :: name ∧ name ≠ [] ∧ ∀ c ∈ name, isNameChar c
  | .identifier => IsIdentifier slice
  | .string => ∃ text, slice = '"' :: (text ++ ['"']) ∧ '"' ∉ text
  | .number => IsNumber slice
  | .comment => ∃ text, slice = ';' :: text ∧ '\n' ∉ text
  | .endOfFile => slice = []
  | .illegal => value ≠ [] ∧ IllegalRun value slice rest

/-- A token that is written as `slice` cannot go on with `rest`. -/
def Complete (kind : Kind) (slice rest : List Char) : Prop :=
  match kind with
  | .identifier | .directive => NameEnds rest
  | .illegal => slice.getLast? = some '#' → NameEnds rest
  | .number => NumberEnds slice rest
  | .comment => ∀ d ∈ rest.head?, d = '\n'
  | .quote => ∀ d ∈ rest.head?, isNameStart d = false
  | _ => True

end Token.Kind

namespace Lexeme

theorem Longest.shape {c : Char} {used rest value : List Char} {kind : Token.Kind}
    (longest : Longest c used rest (.token kind value)) :
    kind.Shape value (c :: used) rest ∧ kind.Complete (c :: used) rest := by
  cases longest with
  | bracket member =>
    simp only [brackets, List.mem_cons, List.not_mem_nil, or_false, Prod.mk.injEq] at member
    rcases member with ⟨rfl, rfl⟩ | ⟨rfl, rfl⟩ | ⟨rfl, rfl⟩ | ⟨rfl, rfl⟩ <;> exact ⟨rfl, trivial⟩
  | comment inLine stop => exact ⟨⟨_, rfl, inLine⟩, stop⟩
  | quote stop => exact ⟨rfl, stop⟩
  | string free => exact ⟨⟨_, rfl, free⟩, trivial⟩
  | directive present inName stop => exact ⟨⟨_, rfl, present, inName⟩, stop⟩
  | number number stop => exact ⟨number, stop⟩
  | identifier identifier stop => exact ⟨identifier, stop⟩

theorem IllegalRun.complete {text used rest : List Char} (run : IllegalRun text used rest) :
    Token.Kind.illegal.Complete used rest := by
  cases run with
  | plain _ last => exact last
  | unclosed => exact fun _ d head => absurd head (by simp)

end Lexeme

namespace Scan

open Lexeme

theorem Strays.nonempty {text used rest : List Char} (strays : Strays text used rest)
    (present : used ≠ []) : text ≠ [] := by
  cases strays.run with
  | plain => exact present
  | unclosed => simp

theorem Piece.shape {kind : Token.Kind} {value used rest : List Char}
    (piece : Piece kind value used rest) : kind.Shape value used rest ∧ kind.Complete used rest := by
  cases piece with
  | lexeme longest => exact longest.shape
  | illegal strays present => exact ⟨⟨strays.nonempty present, strays.run⟩, strays.run.complete⟩

theorem Strays.legal {text used rest : List Char} (strays : Strays text used rest) : Legal rest := by
  induction strays with
  | stop legal => exact legal
  | more _ _ legal => exact legal

theorem Legal.not_strays {text used rest : List Char} (legal : Legal (used ++ rest))
    (strays : Strays text used rest) : used = [] := by
  cases strays with
  | stop => rfl
  | @more c piece said text used rest longest strays =>
    generalize whole : c :: (piece ++ used) ++ rest = source at legal
    rw [List.cons_append, List.append_assoc] at whole
    cases legal with
    | nil => exact absurd whole (List.cons_ne_nil _ _)
    | blank blank =>
      obtain ⟨rfl, -⟩ := List.cons.inj whole
      exact absurd blank (by rw [longest.not_blank]; decide)
    | lexeme other =>
      obtain ⟨rfl, same⟩ := List.cons.inj whole
      obtain ⟨-, -, lexemes⟩ := longest.unique other same
      exact absurd lexemes (by simp)

theorem Piece.strays {value used rest : List Char} (piece : Piece .illegal value used rest) :
    Strays value used rest := by
  cases piece with
  | lexeme longest => exact absurd rfl longest.spelled.2.1
  | illegal strays => exact strays

/-- Illegal tokens do not touch: text that could be added to one is a part of it. -/
theorem Cut.apart {source : String} {tokens : List Token} (cut : Cut 0 source.toList tokens)
    {s t : Token} (left : s ∈ tokens) (right : t ∈ tokens) (illegal : s.kind = .illegal)
    (illegal' : t.kind = .illegal) : s.span.stop ≠ t.span.offset := by
  intro touch
  obtain ⟨before, used, rest, whole, span, -, piece⟩ := cut.slice left
  obtain ⟨before', used', rest', whole', span', -, piece'⟩ := cut.slice right
  rw [illegal] at piece
  rw [illegal'] at piece'
  rw [span, span', Span.stop] at touch
  have same : (before ++ used) ++ rest = before' ++ (used' ++ rest') := by
    rw [List.append_assoc, ← whole, whole']
  -- The second token is what follows the first one, where no illegal text begins any more.
  obtain ⟨-, rfl⟩ := List.append_inj same (by rw [List.length_append]; exact touch)
  have empty := piece.strays.legal.not_strays piece'.strays
  exact absurd piece'.nonempty (by rw [empty]; decide)

end Scan

theorem scan_longest (source : String) :
    (∀ t ∈ scan source, t.kind ≠ .endOfFile →
      ∃ before slice rest, source.toList = before ++ (slice ++ rest) ∧
        t.span = ⟨before.length, slice.length⟩ ∧ t.span.text? source = some (.ofList slice) ∧
        t.kind.Shape t.value.toList slice rest ∧ t.kind.Complete slice rest) ∧
    ∀ s ∈ scan source, ∀ t ∈ scan source, s.kind = .illegal → t.kind = .illegal →
      s.span.stop ≠ t.span.offset := by
  obtain ⟨tokens, whole, cut⟩ := (tiles_scan source).cut
  have inside : ∀ t ∈ scan source, t.kind ≠ .endOfFile → t ∈ tokens := by
    intro t member proper
    rw [whole, List.mem_append, List.mem_singleton] at member
    rcases member with member | rfl
    · exact member
    · exact absurd rfl proper
  constructor
  · intro t member proper
    obtain ⟨before, slice, rest, text, span, cutOut, piece⟩ := cut.slice (inside t member proper)
    exact ⟨before, slice, rest, text, span, cutOut, piece.shape⟩
  · intro s left t right illegal illegal'
    have legal : ∀ t : Token, t.kind = .illegal → t.kind ≠ .endOfFile := by
      intro t illegal
      rw [illegal]
      decide
    exact cut.apart (inside s left (legal s illegal)) (inside t right (legal t illegal')) illegal illegal'

theorem scan_longest_illegal :
    (∃ before slice rest, "? #".toList = before ++ (slice ++ rest) ∧
      Span.mk 2 1 = ⟨before.length, slice.length⟩ ∧ (Span.mk 2 1).text? "? #" = some (.ofList slice) ∧
      Token.Kind.illegal.Shape ['#'] slice rest ∧ Token.Kind.illegal.Complete slice rest) ∧
    (Span.mk 0 1).stop ≠ (Span.mk 2 1).offset := by
  have left : ⟨.illegal, "?", ⟨0, 1⟩⟩ ∈ scan "? #" := by decide
  have right : ⟨.illegal, "#", ⟨2, 1⟩⟩ ∈ scan "? #" := by decide
  obtain ⟨longest, apart⟩ := scan_longest "? #"
  exact ⟨longest _ right (by decide), apart _ left _ right rfl rfl⟩

end Hashlang
