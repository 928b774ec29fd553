import Hashlang.Proofs.Reading.Tracking
import Hashlang.Proofs.Syntax.Execution
import Hashlang.Proofs.Syntax.Soundness

namespace Hashlang

namespace Parse

namespace Passed

variable {c : Cursor Token} {m : Nat} {used rest : List Token}

theorem extract (passed : Passed c.position c.ahead used m rest) :
    c.toList.extract c.position m = used := by
  rw [List.extract_eq_take_drop, ← c.ahead_eq_drop, passed.tokens, passed.place, Nat.add_sub_cancel_left,
    List.take_left]

theorem length_eq (passed : Passed c.position c.ahead used m rest) :
    c.toList.length = m + rest.length := by
  rw [c.length_toList, passed.tokens, passed.place, List.length_append, Nat.add_assoc]

theorem getElem? (passed : Passed c.position c.ahead used m rest) : c.toList[m]? = rest.head? := by
  have behind : c.toList[m]? = c.ahead[used.length]? := by
    rw [c.ahead_eq_drop, List.getElem?_drop, passed.place]
  rw [behind, passed.tokens, List.getElem?_append_right (Nat.le_refl _), Nat.sub_self, List.head?_eq_getElem?]

theorem last {before : List Token} {last : Token}
    (passed : Passed c.position c.ahead (before ++ [last]) m rest) :
    c.position < m ∧ c.toList[m - 1]? = some last := by
  have inner : Passed c.position c.ahead before (c.position + before.length) (last :: rest) :=
    ⟨by rw [passed.tokens, ← List.append_cons], rfl⟩
  have next : m = c.position + before.length + 1 := by
    rw [passed.place, List.length_append, List.length_singleton, Nat.add_assoc]
  rw [next, Nat.add_sub_cancel]
  exact ⟨Nat.lt_succ_of_le (Nat.le_add_right _ _), inner.getElem?⟩

theorem stops (passed : Passed c.position c.ahead used m rest) (stops : Stops rest) :
    m = c.toList.length ∨
      ∃ t, c.toList[m]? = some t ∧ (t.kind = .closeParen ∨ t.kind = .endOfFile) := by
  cases rest with
  | nil => exact .inl passed.length_eq.symm
  | cons t rest => exact .inr ⟨t, passed.getElem?, stops t rfl⟩

end Passed

theorem ArgumentsRun.close_last {n m : Nat} {ts rest : List Token} {events : List Event}
    {result : Except SyntaxError (List Expr × Token)} : ArgumentsRun n ts events result m rest →
    ∀ {args : List Expr} {close : Token}, result = .ok (args, close) →
      ∃ before, ts = before ++ close :: rest ∧ close.kind = .closeParen
  | .exhausted, _, _, found => by cases found
  | .comment _ run, _, _, found => by
    obtain ⟨before, rfl, kind⟩ := run.close_last found
    exact ⟨_ :: before, rfl, kind⟩
  | .close closing, _, _, found => by
    cases found
    exact ⟨[], rfl, closing⟩
  | .endOfFile _, _, _, found => by cases found
  | .argumentError _ _, _, _, found => by cases found
  | .laterError _ _ _, _, _, found => by cases found
  -- Whatever the argument takes stands in front of what the arguments behind it take.
  | .argument _ run closed, _, _, found => by
    cases found
    obtain ⟨used, passed, -⟩ := run.reads
    obtain ⟨before, whole, kind⟩ := closed.close_last rfl
    exact ⟨used ++ before, by rw [passed.tokens, whole, List.append_assoc], kind⟩

/-- Nothing is taken behind an expression, so the token taken last is no noise. -/
theorem ExpressionRun.last_real {n m : Nat} {ts rest : List Token} {events : List Event}
    {result : Except SyntaxError (Option Expr)} : ExpressionRun n ts events result m rest →
    ∀ {e : Expr}, result = .ok (some e) →
      ∃ before last, ts = before ++ last :: rest ∧ last.kind.isNoise = false
  | .exhausted, _, found => by cases found
  | .comment _ run, _, found => by
    obtain ⟨before, last, rfl, real⟩ := run.last_real found
    exact ⟨_ :: before, last, rfl, real⟩
  | .skipped _ _ run, _, found => by
    obtain ⟨before, last, rfl, real⟩ := run.last_real found
    exact ⟨_ :: before, last, rfl, real⟩
  | .leaf single, _, _ => ⟨[], _, rfl, single.real⟩
  | .malformed _ _, _, found => by cases found
  | .stop _, _, found => by cases found
  | .illegal _, _, found => by cases found
  | .procedureError _ _, _, found => by cases found
  | .procedureMissing _ _, _, found => by cases found
  | .argumentsError _ _ _, _, found => by cases found
  | .application _ run closed, _, _ => by
    obtain ⟨used, passed, -⟩ := run.reads
    obtain ⟨before, whole, kind⟩ := closed.close_last rfl
    exact ⟨_ :: (used ++ before), _, by rw [passed.tokens, whole, List.cons_append, List.append_assoc],
      by rw [kind]; rfl⟩

variable {n m : Nat} {ts rest : List Token} {events : List Event}

theorem ExpressionRun.found {e : Expr} (run : ExpressionRun n ts events (.ok (some e)) m rest) :
    ∃ before last, Passed n ts (before ++ [last]) m rest ∧
      Yields e (meaningful (before ++ [last])) ∧ (meaningful (before ++ [last])).getLast? = some last := by
  obtain ⟨used, passed, yields⟩ := run.reads
  obtain ⟨before, last, whole, real⟩ := run.last_real rfl
  rw [passed.tokens, List.append_cons] at whole
  obtain rfl := List.append_cancel_right whole
  refine ⟨before, last, passed, yields, ?_⟩
  rw [meaningful_append, meaningful_cons real]
  exact List.getLast?_concat

theorem ExpressionRun.missing (run : ExpressionRun n ts events (.ok none) m rest) :
    ∃ used, Passed n ts used m rest ∧ (∀ t ∈ used, t.kind.isNoise) ∧ Stops rest := by
  obtain ⟨used, passed, nothing, stops⟩ := run.reads
  exact ⟨used, passed, meaningful_eq_nil.mp nothing, stops⟩

end Parse

open Parse
open Cursor (Trailed)

/-- From wherever a cursor stands, with fuel for reading each token ahead twice, an expression is read as
far as its last token: between the two places stand its tokens, with noise only among them. If none is
found there is only noise, up to a closing parenthesis or the end of the file, which stay in place, or up to
where the tokens run out. No step on the way, not even to an error, leads to a place in front of the first
one. -/
theorem expression_extent {fuel : Nat} (c : Cursor Token) (enough : 2 * c.ahead.length < fuel) :
    let parsed : Parsed (Cursor Token) (Option Expr) := expression fuel c
    let trailed : Parsed (Trailed Token) (Option Expr) := expression fuel { cursor := c }
    let ts := c.toList
    let i := c.position
    let j := parsed.tape.position
    parsed.tape.toList = ts ∧
    (parsed.result = .ok none → i ≤ j ∧ (∀ t ∈ ts.extract i j, t.kind.isNoise) ∧
      (j = ts.length ∨ ∃ t, ts[j]? = some t ∧ (t.kind = .closeParen ∨ t.kind = .endOfFile))) ∧
    (∀ e, parsed.result = .ok (some e) → i < j ∧ Yields e (meaningful (ts.extract i j)) ∧
      ts[j - 1]? = (meaningful (ts.extract i j)).getLast?) ∧
    trailed.events = parsed.events ∧ trailed.result = parsed.result ∧
    trailed.tape.cursor = parsed.tape ∧ ∀ p ∈ trailed.tape.trail, i ≤ p := by
  intro parsed trailed ts i j
  obtain ⟨events, result, m, rest, run⟩ := exists_expressionRun c.position c.ahead
  have start : Trailed.StaysBehind c.position { cursor := c } := by simp [Trailed.StaysBehind]
  obtain ⟨t, recorded, alone, stays, whole, place, ahead⟩ :=
    (Trailed.tracks c.position).transfer start (f := fun _ _ => expression fuel)
      (g := fun _ k => ⟨events, result, k⟩) fun _ _ _ k shown => run.runs fuel enough k shown
  have recorded : trailed = ⟨events, result, t⟩ := recorded
  have alone : parsed = ⟨events, result, t.cursor⟩ := alone
  have stop : j = m := by rw [← place]; exact congrArg (fun p => p.tape.position) alone
  rw [recorded, alone, stop]
  refine ⟨whole, ?_, ?_, rfl, rfl, rfl, fun p member => stays p (List.mem_cons_of_mem _ member)⟩
  · rintro ⟨⟩
    obtain ⟨used, passed, noise, stops⟩ := run.missing
    rw [passed.extract]
    exact ⟨passed.place ▸ Nat.le_add_right _ _, noise, passed.stops stops⟩
  · rintro e ⟨⟩
    obtain ⟨before, last, passed, yields, final⟩ := run.found
    obtain ⟨further, reached⟩ := passed.last
    rw [passed.extract, reached]
    exact ⟨further, yields, final.symm⟩

theorem expression_extent_quote :
    let opening : Token := ⟨.openParen, "(", ⟨2, 1⟩⟩
    let f : Token := ⟨.identifier, "f", ⟨3, 1⟩⟩
    let close : Token := ⟨.closeParen, ")", ⟨7, 1⟩⟩
    let quote : Token := ⟨.quote, "'", ⟨8, 1⟩⟩
    let start := Cursor.ofList [⟨.closeParen, ")", ⟨0, 1⟩⟩, ⟨.openBracket, "[", ⟨1, 1⟩⟩, opening, f,
      ⟨.quote, "'", ⟨4, 1⟩⟩, ⟨.comment, "", ⟨5, 1⟩⟩, close, quote, ⟨.closeParen, ")", ⟨9, 1⟩⟩]
    let c := start.performAll [.read]
    let d := start.performAll [.read, .read, .read, .read, .read, .read, .read]
    let e : Expr := .application (.identifier "f" ⟨3, 1⟩) [] ⟨2, 6⟩
    let first : Parsed (Cursor Token) (Option Expr) := expression 100 c
    let second : Parsed (Cursor Token) (Option Expr) := expression 100 d
    let trailed : Parsed (Trailed Token) (Option Expr) := expression 100 { cursor := c }
    2 * c.ahead.length < 100 ∧ c.position = 1 ∧
      first.result = .ok (some e) ∧ first.tape.position = d.position ∧ Yields e [opening, f, close] ∧
      trailed.tape.trail = [7, 6, 7, 6, 5, 4, 5, 4, 3, 2] ∧
      (∀ p ∈ trailed.tape.trail, 1 ≤ p) ∧ 2 * d.ahead.length < 100 ∧
      second.result = .ok none ∧ second.tape.position = 8 ∧ quote.kind.isNoise ∧
      c.toList[8]?.map Token.kind = some .closeParen := by
  intro opening f close quote start c d e first second trailed
  have enough : 2 * c.ahead.length < 100 ∧ 2 * d.ahead.length < 100 := by decide +kernel +zetaReduce
  have places : c.position = 1 ∧ first.tape.position = d.position ∧ second.tape.position = 8 := by
    decide +kernel +zetaReduce
  have trail : trailed.tape.trail = [7, 6, 7, 6, 5, 4, 5, 4, 3, 2] := by decide +kernel +zetaReduce
  have between : meaningful (c.toList.extract c.position first.tape.position) = [opening, f, close] := by
    decide +kernel +zetaReduce
  have inside : quote ∈ d.toList.extract d.position second.tape.position := by decide +kernel +zetaReduce
  have found : first.result = .ok (some e) := rfl
  have missing : second.result = .ok none := rfl
  obtain ⟨-, -, some, -, -, -, stays⟩ := expression_extent c enough.1
  obtain ⟨-, none, -⟩ := expression_extent d enough.2
  have yields := (some e found).2.1
  rw [between] at yields
  rw [places.1] at stays
  exact ⟨enough.1, places.1, found, places.2.1, yields, trail, stays, enough.2, missing, places.2.2,
    (none missing).2.1 quote inside, rfl⟩

end Hashlang
