import Hashlang.Proofs.Syntax.Completeness
import Hashlang.Proofs.Syntax.Printing
import Hashlang.Proofs.Token.Excerpt
import Hashlang.Proofs.Token.LongestMatch

namespace Hashlang

open Lexeme Scan

mutual

theorem Yields.nodes {e : Expr} {us : List Token} : Yields e us →
    ∀ depth, ∀ node ∈ e.nodes depth, ∃ vs, vs <:+: us ∧ Yields node.2 vs
  | .leaf leaf, depth, node, member => by
    have single : node = (depth, e) := by cases leaf <;> exact List.mem_singleton.mp member
    subst single
    exact ⟨_, List.infix_refl _, .leaf leaf⟩
  | @Yields.application opening close _ _ us ws paren procedure arguments closing, depth, node, member => by
    rw [Expr.nodes] at member
    rcases List.mem_cons.mp member with rfl | member
    · exact ⟨_, List.infix_refl _, .application paren procedure arguments closing⟩
    rcases List.mem_append.mp member with member | member
    · obtain ⟨vs, part, yields⟩ := procedure.nodes _ node member
      have inside : us <:+: opening :: (us ++ (ws ++ [close])) := ⟨[opening], ws ++ [close], by simp⟩
      exact ⟨vs, part.trans inside, yields⟩
    · obtain ⟨vs, part, yields⟩ := arguments.nodes _ node member
      have inside : ws <:+: opening :: (us ++ (ws ++ [close])) := ⟨opening :: us, [close], by simp⟩
      exact ⟨vs, part.trans inside, yields⟩

theorem YieldsEach.nodes {es : List Expr} {us : List Token} : YieldsEach es us →
    ∀ depth, ∀ node ∈ Expr.nodesOfEach depth es, ∃ vs, vs <:+: us ∧ Yields node.2 vs
  | .nil, _, node, member => absurd member List.not_mem_nil
  | .cons first others, depth, node, member => by
    rw [Expr.nodesOfEach] at member
    rcases List.mem_append.mp member with member | member
    · obtain ⟨vs, part, yields⟩ := first.nodes _ node member
      exact ⟨vs, part.trans (List.prefix_append ..).isInfix, yields⟩
    · obtain ⟨vs, part, yields⟩ := others.nodes _ node member
      exact ⟨vs, part.trans (List.suffix_append ..).isInfix, yields⟩

end

theorem Parse.Leaf.kind {t : Token} {e : Expr} (leaf : Parse.Leaf t e) :
    t.kind ∉ [.illegal, .endOfFile] := by
  cases leaf <;> simp

mutual

theorem Yields.kind {e : Expr} {us : List Token} :
    Yields e us → ∀ t ∈ us, t.kind ∉ [.illegal, .endOfFile]
  | .leaf leaf, t, member => by
    rw [List.mem_singleton.mp member]
    exact leaf.kind
  | .application paren procedure arguments closing, t, member => by
    simp only [List.mem_cons, List.mem_append, List.not_mem_nil, or_false] at member
    rcases member with rfl | member | member | rfl
    · simp [paren]
    · exact procedure.kind t member
    · exact arguments.kind t member
    · simp [closing]

theorem YieldsEach.kind {es : List Expr} {us : List Token} :
    YieldsEach es us → ∀ t ∈ us, t.kind ∉ [.illegal, .endOfFile]
  | .nil, t, member => absurd member List.not_mem_nil
  | .cons first others, t, member => by
    rcases List.mem_append.mp member with member | member
    · exact first.kind t member
    · exact others.kind t member

end

def Ordered (ts : List Token) : Prop := ts.Pairwise fun s t => s.span.stop ≤ t.span.offset

theorem Yields.ends {e : Expr} {us : List Token} (yields : Yields e us) :
    ∃ first last, us.head? = some first ∧ us.getLast? = some last ∧
      (Ordered us → e.span.offset = first.span.offset ∧ e.span.stop = last.span.stop) := by
  cases yields with
  | @leaf t _ leaf =>
    have span : e.span = t.span := by cases leaf <;> rfl
    exact ⟨t, t, rfl, rfl, fun _ => by rw [span]; exact ⟨rfl, rfl⟩⟩
  | @application opening close _ _ us vs =>
    have last : (opening :: (us ++ (vs ++ [close]))).getLast? = some close := by
      rw [← List.append_assoc, ← List.cons_append]
      exact List.getLast?_concat
    refine ⟨opening, close, rfl, last, fun ordered => ?_⟩
    have apart : opening.span.stop ≤ close.span.offset := List.rel_of_pairwise_cons ordered (by simp)
    simp only [Expr.span, Span.join_of_le apart, Span.stop, true_and] at apart ⊢
    omega

def Within (us : List Token) (e : Expr) : Prop :=
  ∃ first ∈ us, ∃ last ∈ us, e.span.offset = first.span.offset ∧ e.span.stop = last.span.stop

theorem Within.mono {us vs : List Token} {e : Expr} (within : Within us e) (sub : us ⊆ vs) :
    Within vs e := by
  obtain ⟨first, left, last, right, ends⟩ := within
  exact ⟨first, sub left, last, sub right, ends⟩

theorem Yields.within {e : Expr} {us : List Token} (yields : Yields e us) (ordered : Ordered us) :
    Within us e := by
  obtain ⟨first, last, head, tail, ends⟩ := yields.ends
  exact ⟨first, List.mem_of_head? head, last, List.mem_of_getLast? tail, ends ordered⟩

theorem YieldsEach.apart : ∀ {es : List Expr} {us : List Token}, YieldsEach es us → Ordered us →
    (∀ e ∈ es, Within us e) ∧ es.Pairwise fun a b => a.span.stop ≤ b.span.offset
  | _, _, .nil, _ => ⟨fun e member => absurd member List.not_mem_nil, .nil⟩
  | _, _, @YieldsEach.cons e es us vs first others, ordered => by
    obtain ⟨left, right, between⟩ := List.pairwise_append.mp ordered
    have here := first.within left
    obtain ⟨within, later⟩ := others.apart right
    constructor
    · intro a member
      rcases List.mem_cons.mp member with rfl | member
      · exact here.mono (List.subset_append_left us vs)
      · exact (within a member).mono (List.subset_append_right us vs)
    · refine .cons (fun b member => ?_) later
      obtain ⟨_, _, last, inLeft, _, stop⟩ := here
      obtain ⟨first, inRight, _, _, start, _⟩ := within b member
      rw [stop, start]
      exact between last inLeft first inRight

theorem meaningful_shift (k : Nat) (ts : List Token) :
    meaningful (ts.map (Token.shift k)) = (meaningful ts).map (Token.shift k) := by
  unfold meaningful
  rw [List.filter_map]
  rfl

theorem Parse.Leaf.moved {a b : Nat} {t u : Token} {e : Expr} (leaf : Parse.Leaf t e)
    (same : t.shift a = u.shift b) : ∃ f, Parse.Leaf u f ∧ e.shift a = f.shift b := by
  obtain ⟨kind, value, s⟩ := u
  simp only [Token.shift] at same
  obtain ⟨kinds, values, spans⟩ := Token.mk.inj same
  cases leaf with
  | string =>
    cases kinds
    cases values
    exact ⟨_, .string, by rw [Expr.shift, Expr.shift, spans]⟩
  | number literal =>
    cases kinds
    cases values
    exact ⟨_, .number literal, by rw [Expr.shift, Expr.shift, spans]⟩
  | identifier =>
    cases kinds
    cases values
    exact ⟨_, .identifier, by rw [Expr.shift, Expr.shift, spans]⟩

mutual

theorem Yields.moved {a b : Nat} {e : Expr} {us : List Token} : Yields e us → ∀ {vs : List Token},
    us.map (Token.shift a) = vs.map (Token.shift b) → ∃ f, Yields f vs ∧ e.shift a = f.shift b
  | .leaf leaf, vs, same => by
    obtain ⟨u, rfl, here⟩ := List.map_eq_singleton_iff.mp same.symm
    obtain ⟨f, leaf, moved⟩ := leaf.moved here.symm
    exact ⟨f, .leaf leaf, moved⟩
  | .application paren procedure arguments closing, vs, same => by
    rw [List.map_cons, List.map_append, List.map_append] at same
    obtain ⟨opening, vs, rfl, here, same⟩ := List.map_eq_cons_iff.mp same.symm
    obtain ⟨first, vs, rfl, left, same⟩ := List.map_eq_append_iff.mp same
    obtain ⟨others, vs, rfl, right, same⟩ := List.map_eq_append_iff.mp same
    obtain ⟨close, rfl, there⟩ := List.map_eq_singleton_iff.mp same
    obtain ⟨f, yields, moved⟩ := procedure.moved left.symm
    obtain ⟨fs, each, movedEach⟩ := arguments.moved right.symm
    have kind := congrArg Token.kind here
    have kind' := congrArg Token.kind there
    have span := congrArg Token.span here
    have span' := congrArg Token.span there
    simp only [Token.shift] at kind kind' span span'
    refine ⟨_, .application (kind.trans paren) yields each (kind'.trans closing), ?_⟩
    rw [Expr.shift, Expr.shift, moved, movedEach, Span.shift_join, Span.shift_join, span, span']

theorem YieldsEach.moved {a b : Nat} {es : List Expr} {us : List Token} : YieldsEach es us →
    ∀ {vs : List Token}, us.map (Token.shift a) = vs.map (Token.shift b) →
    ∃ fs, YieldsEach fs vs ∧ Expr.shiftEach a es = Expr.shiftEach b fs
  | .nil, vs, same => by
    obtain rfl := List.map_eq_nil_iff.mp same.symm
    exact ⟨[], .nil, rfl⟩
  | .cons first others, vs, same => by
    rw [List.map_append] at same
    obtain ⟨left, right, rfl, here, same⟩ := List.map_eq_append_iff.mp same.symm
    obtain ⟨f, yields, moved⟩ := first.moved here.symm
    obtain ⟨fs, each, movedEach⟩ := others.moved same.symm
    exact ⟨f :: fs, .cons yields each, by rw [Expr.shiftEach, Expr.shiftEach, moved, movedEach]⟩

end

namespace Expr

mutual

theorem alike_moved {a b : Nat} : ∀ {e f : Expr}, e.WellFormed → e.shift a = f.shift b → e.alike f = true
  | .number literal s, f, shape, same => by
    cases f <;> simp only [shift, reduceCtorEq, number.injEq] at same
    rw [alike, ← same.1]
    exact alike_self shape
  | .string text s, f, _, same => by
    cases f <;> simp only [shift, reduceCtorEq, string.injEq] at same
    simp [alike, same.1]
  | .identifier name s, f, _, same => by
    cases f <;> simp only [shift, reduceCtorEq, identifier.injEq] at same
    simp [alike, same.1]
  | .application procedure arguments s, f, ⟨wellFormed, each⟩, same => by
    cases f <;> simp only [shift, reduceCtorEq, application.injEq] at same
    rw [alike, alike_moved wellFormed same.1, alikeEach_moved each same.2.1]
    rfl

theorem alikeEach_moved {a b : Nat} : ∀ {es fs : List Expr}, WellFormedEach es →
    shiftEach a es = shiftEach b fs → alikeEach es fs = true
  | [], fs, _, same => by
    cases fs with
    | nil => rfl
    | cons f fs => simp [shiftEach] at same
  | e :: es, fs, ⟨wellFormed, each⟩, same => by
    cases fs with
    | nil => simp [shiftEach] at same
    | cons f fs =>
      simp only [shiftEach, List.cons.injEq] at same
      rw [alikeEach, alike_moved wellFormed same.1, alikeEach_moved each same.2]
      rfl

end

end Expr

/-- The part `text` of a source, from index `n` on, has the tokens `core`. -/
structure Excerpt (source : String) (n : Nat) (text : List Char) (core : List Token) : Prop where
  slice : (Span.mk n text.length).text? source = some (.ofList text)
  tiles : Tiles n text (core ++ [.fixed .endOfFile ⟨n + text.length, 0⟩])

theorem exists_excerpt {source : String} {us : List Token} {first last : Token}
    (part : us <:+: meaningful (scan source)) (head : us.head? = some first)
    (tail : us.getLast? = some last) (kinds : ∀ t ∈ us, t.kind ∉ [.illegal, .endOfFile]) :
    ∃ n text core, Excerpt source n text core ∧ meaningful core = us ∧ first.span.offset = n ∧
      last.span.stop = n + text.length := by
  obtain ⟨xs, ys, whole⟩ := part
  obtain ⟨vs, begins⟩ := List.head?_eq_some_iff.mp head
  obtain ⟨ws, ends⟩ := List.getLast?_eq_some_iff.mp tail
  -- The tokens from the first one on.
  have fromFirst : meaningful (scan source) = xs ++ first :: (vs ++ ys) := by
    rw [← whole, begins]
    simp
  obtain ⟨left, right, tokens, -, behind⟩ := meaningful_eq_mid fromFirst
  have tiles := tiles_scan source
  rw [tokens] at tiles
  obtain ⟨before, after, text, start, tiles⟩ := tiles.drop
  -- Of these, the tokens up to the last one.
  have inScan : first ∈ meaningful (scan source) := by simp [fromFirst]
  have toLast : meaningful (first :: right) = ws ++ last :: ys := by
    rw [meaningful_cons (mem_meaningful.mp inScan).2, behind, ← List.cons_append, ← begins, ends]
    simp
  obtain ⟨inner, right', tokens', kept, -⟩ := meaningful_eq_mid toLast
  have inUs : last ∈ us := List.mem_of_getLast? tail
  have inScan' : last ∈ meaningful (scan source) := by simp [← whole, inUs]
  have core : meaningful (inner ++ [last]) = us := by
    rw [meaningful_append, kept, meaningful_cons (mem_meaningful.mp inScan').2, ends]
    rfl
  have legal : ∀ t ∈ inner ++ [last], t.kind ≠ .illegal := by
    intro t member illegal
    have real : t ∈ us := by
      rw [← core]
      exact mem_meaningful.mpr ⟨member, by rw [illegal]; rfl⟩
    exact kinds t real (by simp [illegal])
  have proper : last.kind ≠ .endOfFile := fun last' => kinds last inUs (by simp [last'])
  rw [tokens', Nat.zero_add] at tiles
  obtain ⟨inside, rest, rfl, stop, tiles⟩ := tiles.take proper legal
  refine ⟨before.length, inside, inner ++ [last], ⟨Span.text?_of_append text, ?_⟩, core, ?_, stop⟩
  · rw [List.append_assoc]
    exact tiles
  · rw [start, Nat.zero_add]

namespace Excerpt

variable {source : String} {n : Nat} {text : List Char} {core : List Token}

theorem cut (excerpt : Excerpt source n text core) : Cut n text core := by
  obtain ⟨pieces, whole, cut⟩ := excerpt.tiles.cut
  have same := List.append_cancel_right whole
  rw [same]
  exact cut

theorem ordered (excerpt : Excerpt source n text core) : Ordered (meaningful core) :=
  excerpt.cut.ordered.sublist List.filter_sublist

theorem parse (excerpt : Excerpt source n text core) {e : Expr} (yields : Yields e (meaningful core)) :
    ∃ q f, parseSource ("#lang x\n" ++ .ofList text) = .ok q ∧ q.expressions = [f] ∧
      f.alike e = true ∧ f.shift n = e.shift 8 := by
  obtain ⟨tokens, tiles, same⟩ := excerpt.tiles.moved 8
  obtain ⟨core', rfl, -⟩ := tiles.cut
  rw [List.map_append, List.map_append] at same
  have cores := (List.append_inj' same rfl).1
  have moved := congrArg meaningful cores
  rw [meaningful_shift, meaningful_shift] at moved
  obtain ⟨f, yields', shifted⟩ := yields.moved moved
  have name : IsIdentifier ['x'] := .plain rfl rfl (by simp) (by simp)
  have whole : ("#lang x\n" ++ String.ofList text).toList = "#lang ".toList ++ (['x'] ++ '\n' :: text) := by
    rw [String.toList_append, String.toList_ofList]
    simp
  have scanned := scan_of_tiles (whole ▸ Tiles.header name tiles)
  have each : YieldsEach [f] (meaningful core') := by
    rw [← List.append_nil (meaningful core')]
    exact .cons yields' .nil
  have read : parseSource ("#lang x\n" ++ String.ofList text) = .ok ⟨⟨"x", ⟨6, 1⟩⟩, [f]⟩ := by
    rw [parseSource, scanned]
    exact (Grammatical.of_tokens rfl rfl rfl each).parse
  have wellFormed := (parseSource_wellFormed read).expressions.1
  exact ⟨_, f, read, rfl, Expr.alike_moved wellFormed shifted.symm, shifted.symm⟩

theorem parens (excerpt : Excerpt source n text core) {opening close : Token} (left : opening ∈ core)
    (right : close ∈ core) (paren : opening.kind = .openParen) (closing : close.kind = .closeParen)
    (start : opening.span.offset = n) (stop : close.span.stop = n + text.length) :
    ∃ inner, text = '(' :: (inner ++ [')']) := by
  obtain ⟨before, used, rest, whole, span, piece⟩ := excerpt.cut.placed opening left
  obtain ⟨before', used', rest', whole', span', piece'⟩ := excerpt.cut.placed close right
  rw [paren] at piece
  rw [closing] at piece'
  have one : used = ['('] := piece.shape.1
  have one' : used' = [')'] := piece'.shape.1
  subst one one'
  -- Nothing stands in front of the first parenthesis, and nothing behind the last one.
  have none : before = [] := by
    rw [span] at start
    exact List.eq_nil_of_length_eq_zero (by simpa using start)
  have none' : rest' = [] := by
    have length := congrArg List.length whole'
    simp only [List.length_append] at length
    rw [span'] at stop
    simp only [Span.stop] at stop
    exact List.eq_nil_of_length_eq_zero (by omega)
  subst none none'
  cases before' with
  | nil =>
    rw [whole'] at whole
    cases whole
  | cons c inner =>
    have first : c = '(' := by
      rw [whole'] at whole
      exact (List.cons.inj whole).1
    subst first
    exact ⟨inner, whole'⟩

theorem length_pos (excerpt : Excerpt source n text core) {t : Token} (member : t ∈ core) :
    0 < t.span.length := by
  obtain ⟨before, used, rest, -, span, piece⟩ := excerpt.cut.placed t member
  rw [span]
  exact piece.nonempty

end Excerpt

/-- The parts of an application stand one behind the other, strictly between its parentheses. -/
structure Nested (source : String) (procedure : Expr) (arguments : List Expr) (s : Span) : Prop where
  parens : ∃ inner, s.text? source = some ("(" ++ inner ++ ")")
  inside : ∀ part ∈ procedure :: arguments, s.offset < part.span.offset ∧ part.span.stop < s.stop
  ordered : (procedure :: arguments).Pairwise fun a b => a.span.stop ≤ b.span.offset

theorem Excerpt.nested {source : String} {n : Nat} {text : List Char} {core : List Token}
    {procedure : Expr} {arguments : List Expr} {s : Span} (excerpt : Excerpt source n text core)
    (yields : Yields (.application procedure arguments s) (meaningful core))
    (place : s = ⟨n, text.length⟩) : Nested source procedure arguments s := by
  have ordered := excerpt.ordered
  have inCore : ∀ t ∈ meaningful core, t ∈ core := fun t member => (mem_meaningful.mp member).1
  generalize written : meaningful core = us at yields ordered inCore
  cases yields with
  | leaf leaf => cases leaf
  | @application opening close _ _ us vs paren first others closing =>
    have inParens : opening :: (us ++ (vs ++ [close])) = opening :: ((us ++ vs) ++ [close]) := by simp
    rw [inParens] at ordered inCore
    obtain ⟨behind, ordered⟩ := List.pairwise_cons.mp ordered
    obtain ⟨between, -, before⟩ := List.pairwise_append.mp ordered
    have left : opening ∈ core := inCore opening List.mem_cons_self
    have right : close ∈ core := inCore close (by simp)
    have apart : opening.span.stop ≤ close.span.offset := behind close (by simp)
    rw [Span.join_of_le apart] at place ⊢
    obtain ⟨within, later⟩ := (YieldsEach.cons first others).apart between
    have start : opening.span.offset = n := congrArg Span.offset place
    have stop : close.span.stop = n + text.length := by
      have length := congrArg Span.length place
      simp only [Span.stop] at apart length ⊢
      omega
    have opens := excerpt.length_pos left
    have closes := excerpt.length_pos right
    refine ⟨?_, fun part member => ?_, later⟩
    · obtain ⟨inner, rfl⟩ := excerpt.parens left right paren closing start stop
      refine ⟨.ofList inner, ?_⟩
      rw [place, excerpt.slice]
      simp [String.ofList_cons, String.ofList_append, String.append_assoc]
    · obtain ⟨from', inFrom, to', inTo, starts, stops⟩ := within part member
      have lower := behind from' (List.mem_append_left _ inFrom)
      have upper := before to' inTo close (by simp)
      rw [starts, stops]
      simp only [Span.stop] at *
      omega

theorem exists_excerpt_of_yields {source : String} {e : Expr} {us : List Token} (yields : Yields e us)
    (part : us <:+: meaningful (scan source)) :
    ∃ n text core, Excerpt source n text core ∧ Yields e (meaningful core) ∧ e.span = ⟨n, text.length⟩ := by
  obtain ⟨first, last, head, tail, ends⟩ := yields.ends
  obtain ⟨n, text, core, excerpt, rfl, start, stop⟩ := exists_excerpt part head tail yields.kind
  obtain ⟨offset, reach⟩ := ends excerpt.ordered
  refine ⟨n, text, core, excerpt, yields, ?_⟩
  rw [start] at offset
  rw [stop, Span.stop, offset] at reach
  have length : e.span.length = text.length := Nat.add_left_cancel reach
  rw [← offset, ← length]

theorem Grammatical.part {ts : List Token} {p : Program} (grammatical : Grammatical ts p) :
    ∃ us, us <:+: meaningful ts ∧ YieldsEach p.expressions us := by
  cases grammatical with
  | @program before between rest us tail lang name es _ _ _ _ _ each written =>
    refine ⟨us, ⟨meaningful (before ++ lang :: (between ++ [name])), tail, ?_⟩, each⟩
    rw [List.append_assoc, ← written, ← meaningful_append]
    simp

/-- The text that a part of a program covers says just this part, and the parts of an application stand
in order between its parentheses. -/
theorem parseSource_excerpt {source : String} {p : Program} (parsed : parseSource source = .ok p) :
    ∀ node ∈ Expr.nodesOfEach 0 p.expressions,
      (∃ text q e, node.2.span.text? source = some text ∧ parseSource ("#lang x\n" ++ text) = .ok q ∧
        q.expressions = [e] ∧ e.alike node.2 = true ∧ e.shift node.2.span.offset = node.2.shift 8) ∧
      ∀ procedure arguments s, node.2 = .application procedure arguments s →
        Nested source procedure arguments s := by
  intro node member
  obtain ⟨events, m, rest, run⟩ := Parse.parse_eq_iff.mp parsed
  obtain ⟨us, part, each⟩ := run.grammatical.part
  obtain ⟨vs, part', yields⟩ := each.nodes 0 node member
  obtain ⟨n, text, core, excerpt, yields, span⟩ := exists_excerpt_of_yields yields (part'.trans part)
  constructor
  · obtain ⟨q, e, read, alone, same, moved⟩ := excerpt.parse yields
    rw [span]
    exact ⟨.ofList text, q, e, excerpt.slice, read, alone, same, moved⟩
  · intro procedure arguments s application
    rw [application] at yields span
    exact excerpt.nested yields span

theorem parseSource_excerpt_call :
    ((∃ text q e, (Span.mk 8 10).text? "#lang a\n(f ;\n [b])" = some text ∧
        parseSource ("#lang x\n" ++ text) = .ok q ∧ q.expressions = [e] ∧
        e.alike (.application (.identifier "f" ⟨9, 1⟩) [.identifier "b" ⟨15, 1⟩] ⟨8, 10⟩) = true ∧
        e.shift 8 = .application (.identifier "f" ⟨17, 1⟩) [.identifier "b" ⟨23, 1⟩] ⟨16, 10⟩) ∧
      Nested "#lang a\n(f ;\n [b])" (.identifier "f" ⟨9, 1⟩) [.identifier "b" ⟨15, 1⟩] ⟨8, 10⟩) := by
  have scanned : scan "#lang a\n(f ;\n [b])" = [⟨.directive, "#lang", ⟨0, 5⟩⟩, ⟨.identifier, "a", ⟨6, 1⟩⟩,
      ⟨.openParen, "(", ⟨8, 1⟩⟩, ⟨.identifier, "f", ⟨9, 1⟩⟩, ⟨.comment, "", ⟨11, 1⟩⟩,
      ⟨.openBracket, "[", ⟨14, 1⟩⟩, ⟨.identifier, "b", ⟨15, 1⟩⟩, ⟨.closeBracket, "]", ⟨16, 1⟩⟩,
      ⟨.closeParen, ")", ⟨17, 1⟩⟩, .fixed .endOfFile ⟨18, 0⟩] := by decide +kernel
  have parsed : parseSource "#lang a\n(f ;\n [b])" = .ok ⟨⟨"a", ⟨6, 1⟩⟩,
      [.application (.identifier "f" ⟨9, 1⟩) [.identifier "b" ⟨15, 1⟩] ⟨8, 10⟩]⟩ := by
    rw [parseSource, scanned]
    rfl
  obtain ⟨alone, nested⟩ := parseSource_excerpt parsed _ List.mem_cons_self
  exact ⟨alone, nested _ _ _ rfl⟩

end Hashlang
