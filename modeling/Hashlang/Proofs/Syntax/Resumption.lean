import Hashlang.Proofs.Syntax.Execution
import Hashlang.Syntax.Read

namespace Hashlang

namespace Parse

def Event.shift (d : Nat) : Event → Event
  | consumed index token => consumed (d + index) token
  | event => event

theorem Event.entry_shift (d : Nat) (event : Event) : (event.shift d).entry = event.entry := by
  cases event <;> rfl

variable {n m : Nat} {ts rest : List Token} {events : List Event}

mutual

theorem ExpressionRun.shift (d : Nat) {n m : Nat} {ts rest : List Token} {events : List Event}
    {result : Except SyntaxError (Option Expr)} : ExpressionRun n ts events result m rest →
    ExpressionRun (d + n) ts (events.map (Event.shift d)) result (d + m) rest
  | .exhausted => .exhausted
  | .comment comment run => .comment comment (run.shift d)
  | .skipped noise notComment run => .skipped noise notComment (run.shift d)
  | .leaf leaf => .leaf leaf
  | .malformed number unreadable => .malformed number unreadable
  | .stop stop => .stop stop
  | .illegal illegal => .illegal illegal
  | .procedureError paren run => .procedureError paren (run.shift d)
  | .procedureMissing paren run => .procedureMissing paren (run.shift d)
  | .argumentsError paren run failed => by
    rw [List.map_cons, List.map_append]
    exact .argumentsError paren (run.shift d) (failed.shift d)
  | .application paren run closed => by
    rw [List.map_cons, List.map_append]
    exact .application paren (run.shift d) (closed.shift d)

theorem ArgumentsRun.shift (d : Nat) {n m : Nat} {ts rest : List Token} {events : List Event}
    {result : Except SyntaxError (List Expr × Token)} : ArgumentsRun n ts events result m rest →
    ArgumentsRun (d + n) ts (events.map (Event.shift d)) result (d + m) rest
  | .exhausted => .exhausted
  | .comment comment run => .comment comment (run.shift d)
  | .close close => .close close
  | .endOfFile last => .endOfFile last
  | .argumentError goesOn run => .argumentError goesOn (run.shift d)
  | .laterError goesOn run failed => by
    rw [List.map_cons, List.map_append]
    exact .laterError goesOn (run.shift d) (failed.shift d)
  | .argument goesOn run closed => by
    rw [List.map_cons, List.map_append]
    exact .argument goesOn (run.shift d) (closed.shift d)

end

theorem NameRun.shift (d : Nat) {result : Except SyntaxError Header}
    (run : NameRun n ts events result m rest) :
    NameRun (d + n) ts (events.map (Event.shift d)) result (d + m) rest := by
  induction run with
  | exhausted => exact .exhausted
  | comment comment _ ih => exact .comment comment ih
  | other other => exact .other other
  | name name => exact .name name

theorem HeaderRun.shift (d : Nat) {result : Except SyntaxError Header}
    (run : HeaderRun n ts events result m rest) :
    HeaderRun (d + n) ts (events.map (Event.shift d)) result (d + m) rest := by
  induction run with
  | exhausted => exact .exhausted
  | comment comment _ ih => exact .comment comment ih
  | other notComment other => exact .other notComment other
  | directive directive lang run => exact .directive directive lang (run.shift d)

theorem ExpressionsRun.shift (d : Nat) {result : Except SyntaxError (List Expr)}
    (run : ExpressionsRun n ts events result m rest) :
    ExpressionsRun (d + n) ts (events.map (Event.shift d)) result (d + m) rest := by
  induction run with
  | stop run => exact .stop (run.shift d)
  | error run => exact .error (run.shift d)
  | laterError run _ ih =>
    rw [List.map_append]
    exact .laterError (run.shift d) ih
  | next run _ ih =>
    rw [List.map_append]
    exact .next (run.shift d) ih

theorem map_shift_ending (d : Nat) (rest : List Token) :
    (ending rest).map (Event.shift d) = ending rest := by
  unfold ending
  split <;> rfl

theorem ProgramRun.shift (d : Nat) {result : Except SyntaxError Program}
    (run : ProgramRun n ts events result m rest) :
    ProgramRun (d + n) ts (events.map (Event.shift d)) result (d + m) rest := by
  cases run with
  | header header => exact .header (header.shift d)
  | body header body =>
    rw [List.map_append]
    exact .body (header.shift d) (body.shift d)
  | complete header body =>
    rw [List.map_append, List.map_cons, List.map_append, map_shift_ending]
    exact .complete (header.shift d) (body.shift d)

end Parse

open Parse

theorem parseTape_ahead (c : Cursor Token) :
    (parseTape c).result = parse c.ahead ∧
      (parseTape c).events = (parseTape (Cursor.ofList c.ahead)).events.map (Event.shift c.position) := by
  obtain ⟨events, result, m, rest, run⟩ := exists_programRun 0 c.ahead
  obtain ⟨_, started, -⟩ := run.parseTape (k := Cursor.ofList c.ahead) (And.intro rfl rfl)
  obtain ⟨_, resumed, -⟩ := (run.shift c.position).parseTape (k := c) (And.intro rfl rfl)
  rw [parse, started, resumed]
  exact ⟨rfl, rfl⟩

theorem readTokens_ahead (c : Cursor Token) : readTokens c = readTokens (.ofList c.ahead) := by
  obtain ⟨result, events⟩ := parseTape_ahead c
  have entries : (parseTape c).events.map Event.entry =
      (parseTape (Cursor.ofList c.ahead)).events.map Event.entry := by
    rw [events, List.map_map]
    exact List.map_congr_left fun event _ => event.entry_shift c.position
  exact Prod.ext entries result

/-- However a cursor was used before, a program is read from it as from the tokens that it has from its
position on, with the same log. What these tokens have in front of them makes no difference. -/
theorem readTokens_performAll (ts : List Token) (steps : List Cursor.Step) :
    let c := (Cursor.ofList ts).performAll steps
    let ahead := ts.drop c.position
    (parseTape c).result = parse ahead ∧ readTokens c = readTokens (.ofList ahead) ∧
      ∀ d : Cursor Token, d.toList.drop d.position = ahead → readTokens d = readTokens c := by
  intro c ahead
  have tokens : c.toList = ts := Cursor.toList_performAll (.ofList ts) steps
  have shown : c.ahead = ahead := by rw [c.ahead_eq_drop, tokens]
  refine ⟨?_, ?_, fun d same => ?_⟩
  · rw [← shown]
    exact (parseTape_ahead c).1
  · rw [← shown]
    exact readTokens_ahead c
  · rw [readTokens_ahead d, readTokens_ahead c, d.ahead_eq_drop, same, shown]

/-- A parenthesis was read, the token behind it was read and put back, and other tokens stand in front of
the same ones elsewhere. -/
theorem readTokens_performAll_rollback :
    let ahead : List Token := [⟨.directive, "#lang", ⟨1, 5⟩⟩, ⟨.identifier, "a", ⟨7, 1⟩⟩,
      ⟨.openParen, "(", ⟨9, 1⟩⟩, ⟨.identifier, "f", ⟨10, 1⟩⟩, ⟨.quote, "'", ⟨11, 1⟩⟩,
      ⟨.closeParen, ")", ⟨12, 1⟩⟩]
    let c := (Cursor.ofList (⟨.closeParen, ")", ⟨0, 1⟩⟩ :: ahead)).performAll
      [.read, .peek, .read, .rollback]
    let d := (Cursor.ofList (⟨.illegal, "!", ⟨3, 1⟩⟩ :: ⟨.comment, "", ⟨4, 1⟩⟩ :: ahead)).performAll
      [.read, .read]
    c.position = 1 ∧
      (parseTape c).result =
        .ok ⟨⟨"a", ⟨7, 1⟩⟩, [.application (.identifier "f" ⟨10, 1⟩) [] ⟨9, 4⟩]⟩ ∧
      d.toList.drop d.position = ahead ∧ readTokens d = readTokens c := by
  have read : parse [⟨.directive, "#lang", ⟨1, 5⟩⟩, ⟨.identifier, "a", ⟨7, 1⟩⟩,
      ⟨.openParen, "(", ⟨9, 1⟩⟩, ⟨.identifier, "f", ⟨10, 1⟩⟩, ⟨.quote, "'", ⟨11, 1⟩⟩,
      ⟨.closeParen, ")", ⟨12, 1⟩⟩] =
        .ok ⟨⟨"a", ⟨7, 1⟩⟩, [.application (.identifier "f" ⟨10, 1⟩) [] ⟨9, 4⟩]⟩ := rfl
  intro ahead c d
  have same : d.toList.drop d.position = ahead := rfl
  obtain ⟨result, -, other⟩ := readTokens_performAll (⟨.closeParen, ")", ⟨0, 1⟩⟩ :: ahead)
    [.read, .peek, .read, .rollback]
  exact ⟨rfl, result.trans read, same, other d same⟩

end Hashlang
