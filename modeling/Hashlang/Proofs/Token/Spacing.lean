import Hashlang.Proofs.Token.Neighbours
import Hashlang.Proofs.Token.Tiling

namespace Hashlang

open Lexeme Scan

/-- Whether a token of this kind may have this value where blanks stand around it. -/
def Token.Kind.IsLexeme (kind : Token.Kind) (value : List Char) : Prop :=
  match kind with
  | .openParen => value = ['(']
  | .closeParen => value = [')']
  | .openBracket => value = ['[']
  | .closeBracket => value = [']']
  | .quote => value = ['\'']
  | .directive => ∃ name, value = '#' :: name ∧ name ≠ [] ∧ ∀ c ∈ name, isNameChar c
  | .identifier => IsIdentifier value
  | .string => '"' ∉ value
  | .number => IsNumber value
  | .comment => '\n' ∉ value
  | .endOfFile => False
  | .illegal => value ≠ [] ∧ IsIllegal value

structure Spaced where
  kind : Token.Kind
  value : List Char
  gap : List Char

namespace Spaced

def text (s : Spaced) : List Char := s.kind.spell s.value

def layout (items : List Spaced) : List Char := items.flatMap fun s => s.text ++ s.gap

def tokensAt : (n : Nat) → List Spaced → List Token
  | n, [] => [.fixed .endOfFile ⟨n, 0⟩]
  | n, s :: rest =>
    ⟨s.kind, .ofList s.value, ⟨n, s.text.length⟩⟩ :: tokensAt (n + s.text.length + s.gap.length) rest

end Spaced

/-- Between any two lexemes there are blanks, and a line ends behind every comment. -/
structure WellSpaced (items : List Spaced) : Prop where
  lexemes : ∀ s ∈ items, s.kind.IsLexeme s.value
  blanks : ∀ s ∈ items, ∀ c ∈ s.gap, isBlank c
  apart : ∀ s ∈ items.dropLast, s.gap ≠ []
  lines : ∀ s ∈ items, s.kind = .comment → ∀ c ∈ s.gap.head?, c = '\n'

namespace Lexeme

def Gap (rest : List Char) : Prop := ∀ c ∈ rest.head?, isBlank c

theorem Gap.nameEnds {rest : List Char} (gap : Gap rest) : NameEnds rest :=
  fun c first => isNameChar_of_blank (gap c first)

theorem Gap.numberEnds {rest : List Char} (gap : Gap rest) (text : List Char) : NumberEnds text rest := by
  intro c first
  obtain ⟨noDigit, noPoint⟩ := not_number_of_blank (gap c first)
  exact ⟨noDigit, fun _ => noPoint⟩

theorem Gap.legal {rest : List Char} (gap : Gap rest) : Legal rest := by
  cases rest with
  | nil => exact .nil
  | cons c rest => exact .blank (gap c rfl)

theorem IsIllegal.tail {c : Char} {text : List Char} (illegal : IsIllegal (c :: text)) : IsIllegal text where
  stray d member := illegal.stray d (List.mem_cons_of_mem _ member)
  hash before d after whole := illegal.hash (c :: before) d after (by rw [whole]; rfl)

theorem IsIllegal.nameEnds {text rest : List Char} (illegal : IsIllegal ('#' :: text)) (gap : Gap rest) :
    NameEnds (text ++ rest) := by
  cases text with
  | nil => exact gap.nameEnds
  | cons d text =>
    intro c first
    obtain rfl := Option.some.inj first
    have names : ∀ d ∈ strayChars, isNameChar d = false ∨ d = '.' ∨ d = '?' ∨ d = '!' :=
      forall_mem_of_all (by decide)
    obtain ⟨noPoint, noQuestion, noBang⟩ := illegal.hash [] d text rfl
    have stray := illegal.stray d (List.mem_cons_of_mem _ List.mem_cons_self)
    rcases stray with rfl | stray
    · rfl
    · have name := names d stray
      simpa only [noPoint, noQuestion, noBang, or_false] using name

end Lexeme

namespace Scan

theorem Strays.of_illegal {text rest : List Char} (illegal : IsIllegal text) (gap : Gap rest) :
    Strays text text rest := by
  induction text with
  | nil => exact .stop gap.legal
  | cons c text ih =>
    have behind := ih illegal.tail
    have first := illegal.stray c List.mem_cons_self
    have longest : Longest c [] (text ++ rest) (.stray [c]) := by
      rcases first with rfl | stray
      · exact .hash (illegal.nameEnds gap)
      · exact .stray stray
    exact .more longest behind

theorem Piece.of_isLexeme {kind : Token.Kind} {value rest : List Char} (lexeme : kind.IsLexeme value)
    (gap : Gap rest) (line : kind = .comment → ∀ c ∈ rest.head?, c = '\n') :
    Piece kind value (kind.spell value) rest := by
  cases kind with
  | openParen | closeParen | openBracket | closeBracket =>
    cases lexeme
    exact .lexeme (.bracket (by decide))
  | quote =>
    cases lexeme
    exact .lexeme (.quote fun c first => isNameStart_of_blank (gap c first))
  | directive =>
    obtain ⟨name, rfl, present, inName⟩ := lexeme
    exact .lexeme (.directive present inName gap.nameEnds)
  | identifier => exact .of_identifier lexeme gap.nameEnds
  | string => exact .lexeme (.string lexeme)
  | number => exact .of_number lexeme (gap.numberEnds _)
  | comment => exact .lexeme (.comment lexeme (line rfl))
  | endOfFile => exact False.elim lexeme
  | illegal => exact .illegal (.of_illegal lexeme.2 gap) lexeme.1

theorem Tiles.blanks {n : Nat} {gap rest : List Char} {tokens : List Token}
    (blank : ∀ c ∈ gap, isBlank c) (tiles : Tiles (n + gap.length) rest tokens) :
    Tiles n (gap ++ rest) tokens := by
  induction gap generalizing n with
  | nil => exact tiles
  | cons c gap ih =>
    rw [add_length_cons] at tiles
    obtain ⟨first, others⟩ := List.forall_mem_cons.mp blank
    exact .blank first (ih others tiles)

end Scan

namespace WellSpaced

variable {s : Spaced} {items : List Spaced}

theorem tail (spaced : WellSpaced (s :: items)) : WellSpaced items where
  lexemes t member := spaced.lexemes t (List.mem_cons_of_mem _ member)
  blanks t member := spaced.blanks t (List.mem_cons_of_mem _ member)
  apart t member := by
    apply spaced.apart t
    cases items with
    | nil => exact absurd member List.not_mem_nil
    | cons u items => exact List.mem_cons_of_mem _ member
  lines t member := spaced.lines t (List.mem_cons_of_mem _ member)

theorem mem_gap (spaced : WellSpaced (s :: items)) {c : Char}
    (first : c ∈ (s.gap ++ Spaced.layout items).head?) : c ∈ s.gap.head? := by
  cases gap : s.gap with
  | cons d gap =>
    rw [gap] at first
    exact first
  | nil =>
    cases items with
    | nil =>
      rw [gap] at first
      exact first
    | cons t items => exact absurd gap (spaced.apart s List.mem_cons_self)

theorem tiles {n : Nat} (spaced : WellSpaced items) :
    Tiles n (Spaced.layout items) (Spaced.tokensAt n items) := by
  induction items generalizing n with
  | nil => exact .done
  | cons s items ih =>
    have blank := spaced.blanks s List.mem_cons_self
    have gap : Gap (s.gap ++ Spaced.layout items) := by
      intro c first
      have inGap := spaced.mem_gap first
      exact blank c (List.mem_of_head? inGap)
    have piece : Piece s.kind s.value s.text (s.gap ++ Spaced.layout items) := by
      apply Piece.of_isLexeme (spaced.lexemes s List.mem_cons_self) gap
      intro comment c first
      exact spaced.lines s List.mem_cons_self comment c (spaced.mem_gap first)
    have behind := Tiles.blanks blank (ih (n := n + s.text.length + s.gap.length) spaced.tail)
    have whole : Spaced.layout (s :: items) = s.text ++ (s.gap ++ Spaced.layout items) := by
      simp [Spaced.layout]
    rw [whole]
    exact .piece piece behind

end WellSpaced

/-- Lexemes with blanks between them are scanned as these lexemes, each at its place. -/
theorem scan_layout {before : List Char} {items : List Spaced} (blank : ∀ c ∈ before, isBlank c)
    (spaced : WellSpaced items) :
    scan (.ofList (before ++ Spaced.layout items)) = Spaced.tokensAt before.length items := by
  apply scan_of_tiles
  rw [String.toList_ofList]
  apply Tiles.blanks blank
  rw [Nat.zero_add]
  exact spaced.tiles

theorem scan_layout_lines : scan " #\t;x\n-1 '" =
    [⟨.illegal, "#", ⟨1, 1⟩⟩, ⟨.comment, "x", ⟨3, 2⟩⟩, ⟨.number, "-1", ⟨6, 2⟩⟩, ⟨.quote, "'", ⟨9, 1⟩⟩,
      .fixed .endOfFile ⟨10, 0⟩] := by
  have hash : IsIllegal ['#'] := .cons (.inl ⟨rfl, by simp [NameEnds]⟩) .nil
  have number : IsNumber ['-', '1'] := @IsNumber.negative ['1'] [] (by simp) (by simp) .absent
  have spaced : WellSpaced [⟨.illegal, ['#'], ['\t']⟩, ⟨.comment, ['x'], ['\n']⟩,
      ⟨.number, ['-', '1'], [' ']⟩, ⟨.quote, ['\''], []⟩] :=
    { lexemes := by simp [Token.Kind.IsLexeme, hash, number]
      blanks := by simp [isBlank]
      apart := by simp
      lines := by simp }
  have scanned := @scan_layout [' '] _ (by simp [isBlank]) spaced
  exact (congrArg scan (by decide)).trans (scanned.trans (by decide))

end Hashlang
