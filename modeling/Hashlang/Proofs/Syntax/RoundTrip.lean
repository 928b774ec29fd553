import Hashlang.Proofs.Syntax.Completeness
import Hashlang.Proofs.Syntax.Printing

namespace Hashlang

open Lexeme Scan

/-- Every lexeme ends in front of this text. -/
def Separates (rest : List Char) : Prop := ∀ c ∈ rest.head?, c = ' ' ∨ c = ')' ∨ c = '\n'

theorem Separates.nil : Separates [] := fun c first => absurd first (by simp)

theorem Separates.nameEnds {rest : List Char} (separates : Separates rest) : NameEnds rest := by
  intro c first
  rcases separates c first with rfl | rfl | rfl <;> rfl

theorem Separates.numberEnds {rest : List Char} (separates : Separates rest) (text : List Char) :
    NumberEnds text rest := by
  intro c first
  rcases separates c first with rfl | rfl | rfl <;> exact ⟨rfl, fun _ => by decide⟩

/-- Where `text` stands at index `n` in front of a separator, it is scanned as `us`, and none of these
tokens is noise. -/
structure Printed (n : Nat) (text : List Char) (us : List Token) : Prop where
  real : meaningful us = us
  tiles : ∀ rest tokens, Separates rest → Tiles (n + text.length) rest tokens →
    Tiles n (text ++ rest) (us ++ tokens)

namespace Printed

variable {n : Nat} {text : List Char} {us : List Token}

theorem nil : Printed n [] [] where
  real := rfl
  tiles _ _ _ later := later

theorem blank {c : Char} (blank : isBlank c) (later : Printed (n + 1) text us) :
    Printed n (c :: text) us where
  real := later.real
  tiles rest tokens separates behind := by
    rw [add_length_cons] at behind
    exact .blank blank (later.tiles rest tokens separates behind)

theorem piece {kind : Token.Kind} {value : List Char} (real : kind.isNoise = false)
    (piece : ∀ rest, Separates rest → Piece kind value text rest) :
    Printed n text [⟨kind, .ofList value, ⟨n, text.length⟩⟩] where
  real := meaningful_cons real
  tiles rest _ separates behind := .piece (piece rest separates) behind

theorem opening (later : Printed (n + 1) text us) :
    Printed n ('(' :: text) (⟨.openParen, "(", ⟨n, 1⟩⟩ :: us) where
  real := by rw [meaningful_cons rfl, later.real]
  tiles rest tokens separates behind := by
    rw [add_length_cons] at behind
    exact .piece (.lexeme (.bracket (by decide))) (later.tiles rest tokens separates behind)

theorem closing : Printed n [')'] [⟨.closeParen, ")", ⟨n, 1⟩⟩] :=
  .piece rfl fun _ _ => .lexeme (.bracket (by decide))

theorem append {more : List Char} {vs : List Token} (first : Printed n text us)
    (later : Printed (n + text.length) more vs)
    (separated : ∀ rest, Separates rest → Separates (more ++ rest)) :
    Printed n (text ++ more) (us ++ vs) where
  real := by rw [meaningful_append, first.real, later.real]
  tiles rest tokens separates behind := by
    rw [List.length_append, ← Nat.add_assoc] at behind
    rw [List.append_assoc, List.append_assoc]
    exact first.tiles _ _ (separated rest separates) (later.tiles rest tokens separates behind)

end Printed

namespace Expr

theorem separates_renderEach (es : List Expr) {rest : List Char} (separates : Separates rest) :
    Separates ((renderEach es).toList ++ rest) := by
  cases es with
  | nil => exact separates
  | cons e es =>
    rw [toList_renderEach_cons]
    intro c first
    cases first
    exact .inl rfl

theorem separates_close (rest : List Char) (_ : Separates rest) : Separates ([')'] ++ rest) := by
  intro c first
  cases first
  exact .inr (.inl rfl)

theorem separates_line (rest : List Char) : Separates ('\n' :: rest) := by
  intro c first
  cases first
  exact .inr (.inr rfl)

theorem span_application (n : Nat) (procedure : Expr) (arguments : List Expr) (s : Span) :
    (Span.mk n 1).join
        ⟨n + 1 + procedure.render.length + (renderEach arguments).toList.length, 1⟩ =
      ⟨n, (application procedure arguments s).render.length⟩ := by
  have length := congrArg List.length (toList_render_application procedure arguments s)
  rw [String.length_toList] at length
  simp only [List.length_cons, List.length_append, List.length_nil, String.length_toList] at length
  simp only [Span.join, Span.stop, Span.ofBounds, Span.mk.injEq, String.length_toList]
  omega

mutual

theorem exists_printed : ∀ (n : Nat) (e : Expr), e.WellFormed →
    ∃ us, Yields (e.placed n) us ∧ Printed n e.render.toList us
  | n, .number literal s, shape => by
    have printed : Printed n literal.text.toList _ :=
      .piece rfl fun rest separates => .of_number shape (separates.numberEnds _)
    rw [String.ofList_toList] at printed
    exact ⟨_, .leaf (.number literal), printed⟩
  | n, .string text s, free => by
    have spelled : (string text s).render.toList = '"' :: (text.toList ++ ['"']) := by simp [render]
    have piece : ∀ rest, Separates rest →
        Piece .string text.toList (string text s).render.toList rest := by
      intro rest _
      rw [spelled]
      exact .lexeme (.string free)
    have printed := Printed.piece (n := n) rfl piece
    rw [String.ofList_toList] at printed
    exact ⟨_, .leaf .string, printed⟩
  | n, .identifier name s, shape => by
    have printed : Printed n name.toList _ :=
      .piece rfl fun rest separates => .of_identifier shape separates.nameEnds
    rw [String.ofList_toList] at printed
    exact ⟨_, .leaf .identifier, printed⟩
  | n, .application procedure arguments s, ⟨wellFormed, each⟩ => by
    obtain ⟨us, yields, printed⟩ := exists_printed (n + 1) procedure wellFormed
    obtain ⟨vs, yieldsEach, printedEach⟩ :=
      exists_printedEach (n + 1 + procedure.render.length) arguments each
    -- The procedure is followed by a blank or by the closing parenthesis.
    have inside := printed.append (printedEach.append .closing separates_close) fun rest separates => by
      rw [List.append_assoc]
      exact separates_renderEach arguments (separates_close rest separates)
    have printed := inside.opening
    rw [← toList_render_application procedure arguments s] at printed
    refine ⟨_, ?_, printed⟩
    rw [placed, ← span_application]
    exact @Yields.application ⟨.openParen, "(", _⟩ ⟨.closeParen, ")", _⟩ _ _ us vs rfl yields yieldsEach rfl

theorem exists_printedEach : ∀ (n : Nat) (es : List Expr), WellFormedEach es →
    ∃ us, YieldsEach (placedEach n es) us ∧ Printed n (renderEach es).toList us
  | _, [], _ => ⟨[], .nil, .nil⟩
  | n, e :: rest, ⟨wellFormed, each⟩ => by
    obtain ⟨us, yields, printed⟩ := exists_printed (n + 1) e wellFormed
    obtain ⟨vs, yieldsEach, printedEach⟩ := exists_printedEach (n + 1 + e.render.length) rest each
    refine ⟨us ++ vs, .cons yields yieldsEach, ?_⟩
    rw [toList_renderEach_cons]
    exact .blank rfl (printed.append printedEach fun rest => separates_renderEach _)

end

def renderLines : List Expr → List Char
  | [] => []
  | e :: rest => e.render.toList ++ '\n' :: renderLines rest

theorem renderLines_placedLines (n : Nat) (es : List Expr) :
    renderLines (placedLines n es) = renderLines es := by
  induction es generalizing n with
  | nil => rfl
  | cons e rest ih => rw [placedLines, renderLines, renderLines, render_placed, ih]

theorem exists_printedLines : ∀ (n : Nat) (es : List Expr), WellFormedEach es →
    ∃ us, YieldsEach (placedLines n es) us ∧ Printed n (renderLines es) us
  | _, [], _ => ⟨[], .nil, .nil⟩
  | n, e :: rest, ⟨wellFormed, each⟩ => by
    obtain ⟨us, yields, printed⟩ := exists_printed n e wellFormed
    obtain ⟨vs, yieldsEach, printedLines⟩ := exists_printedLines (n + e.render.length + 1) rest each
    refine ⟨us ++ vs, .cons yields yieldsEach, ?_⟩
    exact printed.append (printedLines.blank rfl) fun rest _ => separates_line _

theorem nodes_placedLines {source : String} : ∀ (es : List Expr) (depth n : Nat)
    (before after : List Char), before.length = n →
    source.toList = before ++ (renderLines es ++ after) →
    Covering source (nodesOfEach depth (placedLines n es))
  | [], _, _, _, _, _, _ => fun node member => absurd member List.not_mem_nil
  | e :: rest, depth, n, before, after, place, whole => by
    rw [renderLines] at whole
    have first : Covering source ((e.placed n).nodes depth) :=
      nodes_placed e depth _ before ('\n' :: (renderLines rest ++ after)) place (by simp [whole])
    have behind : (before ++ (e.render.toList ++ ['\n'])).length = n + e.render.length + 1 := by
      rw [List.length_append, List.length_append, String.length_toList, place, List.length_singleton]
      omega
    have others : Covering source (nodesOfEach depth (placedLines (n + e.render.length + 1) rest)) :=
      nodes_placedLines rest depth _ _ after behind (by simp [whole])
    exact first.append others

end Expr

namespace Program

def placed (p : Program) : Program where
  header := ⟨p.header.name, ⟨6, p.header.name.length⟩⟩
  expressions := Expr.placedLines (6 + p.header.name.length + 1) p.expressions

theorem toList_render (p : Program) : p.render.toList =
    "#lang ".toList ++ (p.header.name.toList ++ '\n' :: Expr.renderLines p.expressions) := by
  have lines : ∀ es : List Expr,
      ((es.map Statement.expression).flatMap fun s => (s.render ++ "\n").toList) =
        Expr.renderLines es := by
    intro es
    induction es with
    | nil => rfl
    | cons e rest ih =>
      rw [List.map_cons, List.flatMap_cons, ih, String.toList_append, Expr.renderLines]
      simp [Statement.render]
  rw [render, String.toList_join, List.flatMap_map, statements, List.flatMap_cons, lines,
    String.toList_append, Statement.render, Header.render, String.toList_append]
  simp

theorem render_placed (p : Program) : p.placed.render = p.render := by
  apply String.toList_inj.mp
  rw [toList_render, toList_render, placed, Expr.renderLines_placedLines]

theorem alike_placed {p : Program} (wellFormed : p.WellFormed) : p.placed.alike p = true := by
  rw [alike, placed, Expr.alikeEach_placedLines wellFormed.expressions]
  simp [Header.alike]

theorem nodes_placed (p : Program) :
    Expr.Covering p.render (Expr.nodesOfEach 0 p.placed.expressions) := by
  have whole : p.render.toList =
      ("#lang ".toList ++ (p.header.name.toList ++ ['\n'])) ++ (Expr.renderLines p.expressions ++ []) := by
    rw [toList_render]
    simp
  have place : ("#lang ".toList ++ (p.header.name.toList ++ ['\n'])).length = 6 + p.header.name.length + 1 := by
    rw [List.length_append, List.length_append, String.length_toList, String.length_toList,
      List.length_singleton]
    change 6 + _ = _
    omega
  exact Expr.nodes_placedLines p.expressions 0 _ _ [] place whole

theorem parseSource_render {p : Program} (wellFormed : p.WellFormed) :
    parseSource p.render = .ok p.placed := by
  obtain ⟨us, yields, printed⟩ :=
    Expr.exists_printedLines (6 + p.header.name.length + 1) p.expressions wellFormed.expressions
  have body := printed.tiles [] _ .nil .done
  rw [List.append_nil] at body
  have tiles := Tiles.header wellFormed.name body
  rw [String.ofList_toList] at tiles
  have scan : scan p.render = _ := scan_of_tiles (toList_render p ▸ tiles)
  rw [parseSource, scan]
  exact (Grammatical.of_tokens rfl rfl rfl (printed.real.symm ▸ yields)).parse

end Program

/-- Printing a well-formed program and reading its text gives the program back, with spans that cut
the text of every expression out of it. All programs that are read from a text are well-formed. -/
theorem parseSource_roundTrip :
    (∀ (source : String) (p : Program), parseSource source = .ok p → p.WellFormed) ∧
      ∀ p : Program, p.WellFormed → ∃ q : Program, parseSource p.render = .ok q ∧ q.alike p = true ∧
        q.render = p.render ∧ ∀ node ∈ Expr.nodesOfEach 0 q.expressions,
          node.2.span.text? p.render = some node.2.render := by
  constructor
  · intro source p parsed
    exact parseSource_wellFormed parsed
  · intro p wellFormed
    exact ⟨p.placed, Program.parseSource_render wellFormed, Program.alike_placed wellFormed,
      p.render_placed, p.nodes_placed⟩

theorem parseSource_roundTrip_call : ∃ p q : Program,
    parseSource "#lang a (f 1.)" = .ok p ∧ p.WellFormed ∧ p.render = "#lang a\n(f 1.)\n" ∧
      parseSource p.render = .ok q ∧ q.alike p = true ∧ q.render = p.render ∧
      ∀ node ∈ Expr.nodesOfEach 0 q.expressions, node.2.span.text? p.render = some node.2.render := by
  have accepted : (parseSource "#lang a (f 1.)").toOption.map Program.render =
      some "#lang a\n(f 1.)\n" := by decide +kernel
  cases parsed : parseSource "#lang a (f 1.)" with
  | error e =>
    rw [parsed] at accepted
    cases accepted
  | ok p =>
    rw [parsed] at accepted
    have wellFormed := parseSource_roundTrip.1 _ _ parsed
    obtain ⟨q, read, same, printed, cut⟩ := parseSource_roundTrip.2 p wellFormed
    exact ⟨p, q, rfl, wellFormed, Option.some.inj accepted, read, same, printed, cut⟩

end Hashlang
