import Hashlang.Proofs.Syntax.Excerpt
import Hashlang.Proofs.Syntax.Noise
import Hashlang.Proofs.Token.Lines

namespace Hashlang

open Lexeme Scan

/-- Reading stops at the end of the file, and not at a parenthesis that closes nothing. -/
def ReadToEnd (source : String) : Prop :=
  ∃ t, Tape.peek (parseTape (Cursor.ofList (scan source))).tape = some t ∧ t.kind = .endOfFile

def SyntaxError.shift (k : Nat) (e : SyntaxError) : SyntaxError :=
  { e with location := e.location.map (Span.shift k) }

def Fault.shift (k : Nat) (f : Fault) : Fault := { f with culprit := f.culprit.map (Token.shift k) }

theorem Fault.error_shift (k : Nat) (f : Fault) : (f.shift k).error = f.error.shift k := by
  obtain ⟨cause, culprit⟩ := f
  cases cause with
  | malformedNumber => rfl
  | _ =>
    cases culprit <;> rfl

namespace Walk

theorem bodyStep_shift (k : Nat) (needs : List Need) (t : Token) :
    bodyStep needs (t.shift k) = (bodyStep needs t).mapError (Fault.shift k) := by
  obtain ⟨kind, value, s⟩ := t
  cases kind with
  | number =>
    simp only [bodyStep, Token.shift]
    cases Numeral.read? value <;> rfl
  | closeParen =>
    cases needs with
    | nil => rfl
    | cons need outer => cases need <;> rfl
  | endOfFile => cases needs <;> rfl
  | _ => rfl

theorem step_shift (k : Nat) (q : State) (t : Token) :
    step q (t.shift k) = (step q t).mapError (Fault.shift k) := by
  cases q with
  | start =>
    simp only [step, Token.shift, apply_ite (Except.mapError (Fault.shift k))]
    rfl
  | directed =>
    simp only [step, Token.shift, apply_ite (Except.mapError (Fault.shift k))]
    rfl
  | body needs => exact bodyStep_shift k needs t
  | finished => rfl

theorem run_shift (k : Nat) (q : State) (ts : List Token) :
    run q (ts.map (Token.shift k)) = (run q ts).mapError (Fault.shift k) := by
  induction ts generalizing q with
  | nil => rfl
  | cons t ts ih =>
    have moved := step_shift k q t
    rw [List.map_cons]
    cases stepped : step q t with
    | error f =>
      rw [stepped] at moved
      rw [run_error ts stepped, run_error _ moved]
      rfl
    | ok next =>
      rw [stepped] at moved
      rw [run_ok ts stepped, run_ok _ moved, ih next]

theorem State.missing?_shift (k : Nat) (q : State) : q.missing?.map (Fault.shift k) = q.missing? := by
  cases q with
  | body needs => cases needs <;> rfl
  | _ => rfl

theorem faultFrom?_shift (k : Nat) (q : State) (ts : List Token) :
    faultFrom? q (ts.map (Token.shift k)) = (faultFrom? q ts).map (Fault.shift k) := by
  unfold faultFrom?
  rw [run_shift]
  cases run q ts with
  | error f => rfl
  | ok last => exact (last.missing?_shift k).symm

end Walk

namespace Expr

mutual

theorem shift_zero : ∀ e : Expr, e.shift 0 = e
  | number .. => rfl
  | string .. => rfl
  | identifier .. => rfl
  | application procedure arguments s => by
    rw [shift, shift_zero procedure, shiftEach_zero arguments]
    rfl

theorem shiftEach_zero : ∀ es : List Expr, shiftEach 0 es = es
  | [] => rfl
  | e :: rest => by rw [shiftEach, shift_zero e, shiftEach_zero rest]

end

end Expr

theorem YieldsEach.shift {es : List Expr} {us : List Token} (each : YieldsEach es us) (k : Nat) :
    YieldsEach (Expr.shiftEach k es) (us.map (Token.shift k)) := by
  have same : us.map (Token.shift k) = (us.map (Token.shift k)).map (Token.shift 0) :=
    (Token.map_shift_shift k 0 us).symm
  obtain ⟨fs, moved, equal⟩ := each.moved same
  rw [Expr.shiftEach_zero] at equal
  rw [equal]
  exact moved

theorem Stops.shift {ts : List Token} (stops : Stops ts) (k : Nat) : Stops (ts.map (Token.shift k)) := by
  intro t first
  rw [List.head?_map] at first
  obtain ⟨s, head, rfl⟩ := Option.map_eq_some_iff.mp first
  exact stops s head

open Walk

mutual

theorem Yields.walk {e : Expr} {us : List Token} : Yields e us → ∀ needs,
    run (.body needs) us = .ok (.body (fill needs))
  | .leaf leaf, needs => run_ok [] (step_leaf needs leaf)
  | .application paren procedure arguments closing, needs => by
    rw [run_ok _ (step_paren needs paren), run_append_ok _ (procedure.walk (.procedure :: needs)), fill,
      run_append_ok _ (arguments.walk rfl)]
    exact run_ok [] (step_close needs closing)

theorem YieldsEach.walk {es : List Expr} {us : List Token} : YieldsEach es us → ∀ {needs},
    fill needs = needs → run (.body needs) us = .ok (.body needs)
  | .nil, _, _ => rfl
  | .cons first others, needs, filled => by
    rw [run_append_ok _ (first.walk needs), filled]
    exact others.walk filled

end

theorem Walk.run_used {es : List Expr} {used : List Token} (each : YieldsEach es (meaningful used)) :
    run (.body []) used = .ok (.body []) := by
  have inside : (State.body []).Inside := trivial
  have skipped : run (.body []) (meaningful used) = run (.body []) used :=
    run_filter_noise inside fun t _ gone => by simpa using gone
  rw [← skipped]
  exact each.walk rfl

theorem YieldsEach.append : ∀ {es fs : List Expr} {us vs : List Token}, YieldsEach es us →
    YieldsEach fs vs → YieldsEach (es ++ fs) (us ++ vs)
  | _, _, _, _, .nil, later => later
  | _, _, _, _, .cons first others, later => by
    rw [List.append_assoc]
    exact .cons first (others.append later)

theorem WritesHeader.kind {front : List Token} {h : Header} (writes : WritesHeader front h) :
    ∀ t ∈ front, t.kind ∉ [.illegal, .endOfFile] := by
  cases writes with
  | header comments directive _ comments' identifier =>
    intro t member
    simp only [List.mem_append, List.mem_cons, List.not_mem_nil, or_false] at member
    rcases member with member | rfl | member | rfl
    · simp [comments t member]
    · simp [directive]
    · simp [comments' t member]
    · simp [identifier]

/-- The tokens of a text that is read to its end: a header, expressions, and the end of the file. -/
structure Ended (source : String) (front used : List Token) (p : Program) : Prop where
  whole : scan source = front ++ used ++ [.fixed .endOfFile ⟨source.length, 0⟩]
  header : WritesHeader front p.header
  expressions : YieldsEach p.expressions (meaningful used)

theorem scan_endOfFile {source : String} {before behind : List Token} {t : Token}
    (whole : scan source = before ++ t :: behind) (last : t.kind = .endOfFile) :
    t = .fixed .endOfFile ⟨source.length, 0⟩ ∧ behind = [] := by
  obtain ⟨pieces, tokens, cut⟩ := exists_cut source
  rw [tokens] at whole
  rcases List.eq_nil_or_concat behind with rfl | ⟨inner, final, rfl⟩
  · have same := (List.append_inj' whole rfl).2
    exact ⟨(List.cons.inj same).1.symm, rfl⟩
  · have same : pieces ++ [.fixed .endOfFile ⟨source.length, 0⟩] =
        (before ++ t :: inner) ++ [final] := by simpa using whole
    have inside := (List.append_inj' same rfl).1
    exact absurd last (cut.tiling.proper t (by simp [inside]))

theorem exists_ended {source : String} {p : Program} (parsed : parseSource source = .ok p)
    (ended : ReadToEnd source) : ∃ front used, Ended source front used p := by
  obtain ⟨events, m, rest, run⟩ := Parse.parse_eq_iff.mp parsed
  obtain ⟨front, used, laid⟩ := run.laid
  -- The tape stands at `rest`, which begins with the end of the file.
  obtain ⟨k, read, shown⟩ := run.parseTape (k := Cursor.ofList (scan source)) (And.intro rfl rfl)
  obtain ⟨t, next, last⟩ := ended
  rw [read, Tape.Faithful.peek_eq shown] at next
  obtain ⟨behind, rfl⟩ := List.head?_eq_some_iff.mp next
  have whole := laid.whole
  rw [← List.append_assoc] at whole
  obtain ⟨rfl, rfl⟩ := scan_endOfFile whole last
  exact ⟨front, used, whole, laid.header, laid.expressions⟩

theorem Ended.closed {source : String} {front used : List Token} {p : Program}
    (ended : Ended source front used p) : ∀ t ∈ scan source, ¬ t.Unclosed := by
  intro t member unclosed
  rw [ended.whole, List.mem_append, List.mem_append, List.mem_singleton] at member
  rcases member with (member | member) | rfl
  · exact ended.header.kind t member (by simp [unclosed.1])
  · have real : t ∈ meaningful used := mem_meaningful.mpr ⟨member, by rw [unclosed.1]; rfl⟩
    exact ended.expressions.kind t real (by simp [unclosed.1])
  · cases unclosed.1

theorem ordered_scan (source : String) : Ordered (scan source) := by
  obtain ⟨pieces, whole, cut⟩ := exists_cut source
  rw [whole]
  refine List.pairwise_append.mpr ⟨cut.ordered, List.pairwise_singleton _ _, fun t member last single => ?_⟩
  rw [List.mem_singleton.mp single]
  exact (cut.tiling.inside t member).2

theorem two_le_of_touching {value value' used used' rest : List Char}
    (directive : Piece .directive value used (used' ++ rest))
    (identifier : Piece .identifier value' used' rest) : 2 ≤ used'.length := by
  have stop : NameEnds (used' ++ rest) := directive.shape.2
  have name : IsIdentifier used' := identifier.shape.1
  cases name with
  | plain start =>
    have noName := stop _ rfl
    rw [isNameChar_of_start start] at noName
    cases noName
  | quoted => exact Nat.le_add_left 2 _

theorem WritesHeader.length_le {source : String} {front body : List Token} {h : Header}
    (writes : WritesHeader front h) (whole : scan source = front ++ body) : 7 ≤ source.length := by
  obtain ⟨pieces, tokens, cut⟩ := exists_cut source
  have placed : ∀ t ∈ front, t ∈ pieces := by
    intro t member
    have inScan : t ∈ scan source := whole ▸ List.mem_append_left _ member
    rw [tokens, List.mem_append, List.mem_singleton] at inScan
    rcases inScan with inPieces | rfl
    · exact inPieces
    · exact absurd (writes.kind _ member) (by simp [Token.fixed])
  cases writes with
  | @header before between lang name comments directive value comments' identifier =>
    have ordered := whole ▸ ordered_scan source
    have apart : lang.span.stop ≤ name.span.offset := by
      have front := (List.pairwise_append.mp ordered).1
      have tail := (List.pairwise_append.mp front).2.1
      exact List.rel_of_pairwise_cons tail (by simp)
    obtain ⟨before, slice, rest, text, span, -, piece⟩ := cut.slice (placed lang (by simp))
    obtain ⟨before', slice', rest', text', span', -, piece'⟩ := cut.slice (placed name (by simp))
    rw [directive, value] at piece
    rw [identifier] at piece'
    have five : slice.length = 5 := by
      rcases piece.spelled with ⟨rfl, -⟩ | ⟨illegal, -⟩
      · rfl
      · cases illegal.1
    have length := congrArg List.length text'
    rw [String.length_toList, List.length_append, List.length_append] at length
    rw [span, span', Span.stop] at apart
    simp only [five] at apart
    by_cases touch : before.length + 5 = before'.length
    · have same : (before ++ slice) ++ rest = before' ++ (slice' ++ rest') := by
        rw [List.append_assoc, ← text, text']
      obtain ⟨-, rfl⟩ := List.append_inj same (by rw [List.length_append, five, touch])
      have two := two_le_of_touching piece piece'
      omega
    · have present := piece'.nonempty
      omega

theorem parse_joined {front front' used : List Token} {h h' : Header} {es : List Expr}
    (writes : WritesHeader front h) (writes' : WritesHeader front' h')
    (each : YieldsEach es (meaningful used)) (k : Nat) (vs : List Token) :
    parse (front ++ (used ++ vs.map (Token.shift k))) =
      match parse (front' ++ vs) with
      | .ok q => .ok ⟨h, es ++ Expr.shiftEach k q.expressions⟩
      | .error e => .error (e.shift k) := by
  cases parsed : parse (front' ++ vs) with
  | ok q =>
    obtain ⟨front', more, rest, laid⟩ := exists_laid parsed
    have behind := writes'.behind vs
    rw [laid.whole, laid.header.behind] at behind
    subst behind
    have joined : Laid (front ++ (used ++ (more ++ rest).map (Token.shift k))) front
        (used ++ more.map (Token.shift k)) (rest.map (Token.shift k))
        ⟨h, es ++ Expr.shiftEach k q.expressions⟩ :=
      { whole := by simp
        header := writes
        expressions := by
          rw [meaningful_append, meaningful_shift]
          exact each.append (laid.expressions.shift k)
        stops := laid.stops.shift k }
    exact joined.parse
  | error e =>
    obtain ⟨f, found, rfl⟩ := parse_error_iff.mp parsed
    rw [fault?_header writes'] at found
    refine parse_error_iff.mpr ⟨f.shift k, ?_, f.error_shift k⟩
    rw [fault?_header writes, faultFrom?_append_ok _ (run_used each), faultFrom?_shift, found]
    rfl

theorem Ended.scan_joined {a : String} {front used : List Token} {p : Program}
    (ended : Ended a front used p) (b : String) :
    scan (a ++ "\n" ++ b) = front ++ (used ++ (scan b).map (Token.shift (a.length + 1))) := by
  rw [scan_line ended.closed, ended.whole, List.dropLast_concat, List.append_assoc]

theorem scan_header (b : String) : scan ("#lang x\n" ++ b) =
    [⟨.directive, "#lang", ⟨0, 5⟩⟩, ⟨.identifier, "x", ⟨6, 1⟩⟩] ++ (scan b).map (Token.shift 8) := by
  have name : IsIdentifier ['x'] := .plain rfl rfl (by simp) (by simp)
  have tiles := Tiles.header name ((tiles_scan b).shift 8)
  apply scan_of_tiles
  simpa using tiles

/-- Lines behind a program that is read to its end are read as behind another header. -/
theorem parseSource_joined {a : String} {p : Program} (parsed : parseSource a = .ok p)
    (ended : ReadToEnd a) : ∃ k, (a ++ "\n").length = "#lang x\n".length + k ∧ ∀ b,
      parseSource (a ++ "\n" ++ b) =
        match parseSource ("#lang x\n" ++ b) with
        | .ok q => .ok ⟨p.header, p.expressions ++ Expr.shiftEach k q.expressions⟩
        | .error e => .error (e.shift k) := by
  obtain ⟨front, used, ended⟩ := exists_ended parsed ended
  have whole := ended.whole
  rw [List.append_assoc] at whole
  obtain ⟨k, length⟩ := Nat.exists_eq_add_of_le (ended.header.length_le whole)
  refine ⟨k, ?_, fun b => ?_⟩
  · rw [String.length_append, length]
    show 7 + k + 1 = 8 + k
    omega
  · have header : WritesHeader [⟨.directive, "#lang", ⟨0, 5⟩⟩, ⟨.identifier, "x", ⟨6, 1⟩⟩] ⟨"x", ⟨6, 1⟩⟩ :=
      @WritesHeader.header [] [] _ _ (by simp) rfl rfl (by simp) rfl
    have moved : (scan b).map (Token.shift (a.length + 1)) =
        ((scan b).map (Token.shift 8)).map (Token.shift k) := by
      rw [Token.map_shift_shift, length]
      congr 2
      omega
    rw [parseSource, parseSource, ended.scan_joined, scan_header, moved]
    exact parse_joined ended.header header ended.expressions k _

theorem parseSource_joined_comment :
    parseSource ("#lang ab \"s\" ;" ++ "\n" ++ "(x)") = .ok ⟨⟨"ab", ⟨6, 2⟩⟩,
        [.string "s" ⟨9, 3⟩, .application (.identifier "x" ⟨16, 1⟩) [] ⟨15, 3⟩]⟩ ∧
      parseSource ("#lang ab \"s\" ;" ++ "\n" ++ "()") =
        .error ⟨.unexpected "expression" (some .closeParen), some ⟨16, 1⟩⟩ := by
  have scanned : scan "#lang ab \"s\" ;" = [⟨.directive, "#lang", ⟨0, 5⟩⟩, ⟨.identifier, "ab", ⟨6, 2⟩⟩,
      ⟨.string, "s", ⟨9, 3⟩⟩, ⟨.comment, "", ⟨13, 1⟩⟩, .fixed .endOfFile ⟨14, 0⟩] := by decide +kernel
  have parsed : parseSource "#lang ab \"s\" ;" = .ok ⟨⟨"ab", ⟨6, 2⟩⟩, [.string "s" ⟨9, 3⟩]⟩ := by
    rw [parseSource, scanned]
    rfl
  have ended : ReadToEnd "#lang ab \"s\" ;" := ⟨.fixed .endOfFile ⟨14, 0⟩, by rw [scanned]; rfl, rfl⟩
  obtain ⟨k, length, joined⟩ := parseSource_joined parsed ended
  obtain rfl : k = 7 := Nat.add_left_cancel (length.symm.trans (by decide))
  have call : scan "#lang x\n(x)" = [⟨.directive, "#lang", ⟨0, 5⟩⟩, ⟨.identifier, "x", ⟨6, 1⟩⟩,
      ⟨.openParen, "(", ⟨8, 1⟩⟩, ⟨.identifier, "x", ⟨9, 1⟩⟩, ⟨.closeParen, ")", ⟨10, 1⟩⟩,
      .fixed .endOfFile ⟨11, 0⟩] := by decide +kernel
  have empty : scan "#lang x\n()" = [⟨.directive, "#lang", ⟨0, 5⟩⟩, ⟨.identifier, "x", ⟨6, 1⟩⟩,
      ⟨.openParen, "(", ⟨8, 1⟩⟩, ⟨.closeParen, ")", ⟨9, 1⟩⟩, .fixed .endOfFile ⟨10, 0⟩] := by
    decide +kernel
  constructor
  · rw [joined, parseSource, show "#lang x\n" ++ "(x)" = "#lang x\n(x)" from rfl, call]
    rfl
  · rw [joined, parseSource, show "#lang x\n" ++ "()" = "#lang x\n()" from rfl, empty]
    rfl

end Hashlang
