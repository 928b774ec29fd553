import Hashlang.Proofs.Syntax.Derivation
import Hashlang.Proofs.Syntax.Logic

namespace Hashlang

theorem Token.Kind.noise_cases {kind : Token.Kind} (noise : kind.isNoise) :
    kind = .comment ∨ kind = .quote ∨ kind = .openBracket ∨ kind = .closeBracket ∨
      kind = .directive := by
  cases kind <;> first | contradiction | simp

namespace Parse

open Hashlang.Parser (Runs)

variable {κ : Type} [Tape κ Token] [Tape.Faithful κ] {n m fuel : Nat} {t : Token} {ts rest : List Token}
  {events later : List Event} {post : κ → Prop}

theorem runs_skipped {result : Except SyntaxError (Option Expr)} (noise : t.kind.isNoise)
    (notComment : t.kind ≠ .comment)
    (run : Runs (At (n + 1) ts) (expression fuel : Parser κ _) events result post) :
    Runs (At n (t :: ts)) (expression (fuel + 1) : Parser κ _) (.consumed n t :: .skipped t :: events)
      result post := by
  rw [expression]
  refine (runs_take notComment).bind ?_
  rcases Token.Kind.noise_cases noise with kind | kind | kind | kind | kind
  · contradiction
  all_goals
    simp only [kind]
    exact (Runs.note _).bind run

theorem runs_leaf {e : Expr} (leaf : Leaf t e) :
    Runs (At n (t :: ts)) (expression (fuel + 1) : Parser κ _) [.consumed n t] (.ok (some e))
      (At (n + 1) ts) := by
  rw [expression]
  cases leaf with
  | string => exact (runs_take (by simp)).bind (.pure _)
  | @number literal s =>
    refine (runs_take (by simp)).bind ?_
    have made : Expr.ofLiteral ⟨.number, literal.text, s⟩ = .ok (.number literal s) := by
      obtain ⟨text, value, reads⟩ := literal
      simp only [Expr.ofLiteral]
      split
      · rename_i found
        cases reads.symm.trans found
        rfl
      · rename_i missing
        exact absurd missing (by rw [reads]; exact Option.some_ne_none _)
    simp only [made]
    exact .pure _
  | identifier => exact (runs_take (by simp)).bind (.pure _)

theorem runs_malformed (number : t.kind = .number) (unreadable : Numeral.read? t.value = none) :
    Runs (At n (t :: ts)) (expression (fuel + 1) : Parser κ _) [.consumed n t]
      (.error { cause := .malformedNumber t.value }) (At (n + 1) ts) := by
  have failed : Expr.ofLiteral t = .error (.malformedNumber t.value) := by
    simp only [Expr.ofLiteral, number]
    split <;> simp_all
  rw [expression]
  refine (runs_take (by simp [number])).bind ?_
  simp only [number, failed]
  exact .fail _

theorem runs_stop (stop : t.kind = .closeParen ∨ t.kind = .endOfFile) :
    Runs (At n (t :: ts)) (expression (fuel + 1) : Parser κ _) [.consumed n t] (.ok none)
      (At n (t :: ts)) := by
  rw [expression]
  rcases stop with kind | kind
  all_goals
    refine (runs_consume (by simp [kind])).bind ?_
    simp only [kind]
    exact runs_rollback.bind (.pure none)

theorem runs_illegal (illegal : t.kind = .illegal) :
    Runs (At n (t :: ts)) (expression (fuel + 1) : Parser κ _) [.consumed n t]
      (.error (.unexpectedToken "expression" (some t))) (At (n + 1) ts) := by
  rw [expression]
  refine (runs_take (by simp [illegal])).bind ?_
  simp only [illegal]
  exact .fail _

def application (opening : Token) (fuel : Nat) : Parser κ (Option Expr) := do
  match ← expression fuel with
  | none => Parser.unexpected "expression" (← Parser.peek)
  | some procedure => do
    let (arguments, close) ← arguments fuel
    pure (some (.application procedure arguments (opening.span.join close.span)))

theorem runs_paren {result : Except SyntaxError (Option Expr)} (paren : t.kind = .openParen)
    (run : Runs (At (n + 1) ts) (application t fuel : Parser κ _) events result post) :
    Runs (At n (t :: ts)) (expression (fuel + 1) : Parser κ _) (.consumed n t :: events) result post := by
  rw [expression]
  refine (runs_take (by simp [paren])).bind ?_
  simp only [paren]
  exact run

theorem runs_close (close : t.kind = .closeParen) :
    Runs (At n (t :: ts)) (arguments (fuel + 1) : Parser κ _) [.consumed n t] (.ok ([], t))
      (At (n + 1) ts) := by
  rw [arguments]
  refine (runs_take (by simp [close])).bind ?_
  simp only [close]
  exact .pure _

theorem runs_endOfFile (last : t.kind = .endOfFile) :
    Runs (At n (t :: ts)) (arguments (fuel + 1) : Parser κ _) [.consumed n t]
      (.error (.unexpectedToken ")" (some t))) (At (n + 1) ts) := by
  rw [arguments]
  refine (runs_take (by simp [last])).bind ?_
  simp only [last]
  exact .fail _

def argumentsFrom (fuel : Nat) : Parser κ (List Expr × Token) := do
  let argument ← expression fuel
  let (rest, close) ← arguments fuel
  pure (argument.toList ++ rest, close)

theorem runs_from {result : Except SyntaxError (List Expr × Token)}
    (goesOn : t.kind ∉ [.comment, .closeParen, .endOfFile])
    (run : Runs (At n (t :: ts)) (argumentsFrom fuel : Parser κ _) events result post) :
    Runs (At n (t :: ts)) (arguments (fuel + 1) : Parser κ _) (.consumed n t :: events) result post := by
  simp only [List.mem_cons, List.not_mem_nil, or_false, not_or] at goesOn
  rw [arguments]
  refine (runs_consume goesOn.1).bind ?_
  simp only [goesOn, if_false]
  exact runs_rollback.bind run

mutual

/-- The parser does what the derivation says. -/
theorem ExpressionRun.runs {n m : Nat} {ts rest : List Token} {events : List Event}
    {result : Except SyntaxError (Option Expr)} :
    ExpressionRun n ts events result m rest → ∀ fuel, 2 * ts.length < fuel →
      Runs (At n ts) (expression fuel : Parser κ _) events result (At m rest)
  | _, 0, enough => absurd enough (Nat.not_lt_zero _)
  | .exhausted, fuel + 1, _ => by
    rw [expression]
    exact runs_consume_nil.bind (.pure none)
  | .comment comment run, fuel + 1, enough => by
    rw [List.length_cons] at enough
    -- `consume` recurses over comments, so what follows them is read with the same fuel.
    have rest := run.runs (fuel + 1) (by omega)
    rw [expression] at rest ⊢
    exact runs_comment comment (by omega) rest
  | .skipped noise notComment run, fuel + 1, enough => by
    rw [List.length_cons] at enough
    exact runs_skipped noise notComment (run.runs fuel (by omega))
  | .leaf leaf, _ + 1, _ => runs_leaf leaf
  | .malformed number unreadable, _ + 1, _ => runs_malformed number unreadable
  | .stop stop, _ + 1, _ => runs_stop stop
  | .illegal illegal, _ + 1, _ => runs_illegal illegal
  | .procedureError paren run, fuel + 1, enough => by
    rw [List.length_cons] at enough
    exact runs_paren paren (run.runs fuel (by omega)).bind_error
  | .procedureMissing paren run, fuel + 1, enough => by
    rw [List.length_cons] at enough
    exact runs_paren paren ((run.runs fuel (by omega)).bind_last (runs_peek.bind_last (.fail _)))
  | .argumentsError paren run failed, fuel + 1, enough => by
    rw [List.length_cons] at enough
    have less := run.length_le
    have last := failed.runs fuel (by omega)
    exact runs_paren paren ((run.runs fuel (by omega)).bind last.bind_error)
  | .application paren run closed, fuel + 1, enough => by
    rw [List.length_cons] at enough
    have less := run.length_le
    have last := closed.runs fuel (by omega)
    exact runs_paren paren ((run.runs fuel (by omega)).bind (last.bind_pure rfl))

theorem ArgumentsRun.runs {n m : Nat} {ts rest : List Token} {events : List Event}
    {result : Except SyntaxError (List Expr × Token)} :
    ArgumentsRun n ts events result m rest → ∀ fuel, 2 * ts.length + 1 < fuel →
      Runs (At n ts) (arguments fuel : Parser κ _) events result (At m rest)
  | _, 0, enough => absurd enough (Nat.not_lt_zero _)
  | .exhausted, fuel + 1, _ => by
    rw [arguments]
    exact runs_consume_nil.bind (.fail _)
  | .comment comment run, fuel + 1, enough => by
    rw [List.length_cons] at enough
    have rest := run.runs (fuel + 1) (by omega)
    rw [arguments] at rest ⊢
    exact runs_comment comment (by omega) rest
  | .close close, _ + 1, _ => runs_close close
  | .endOfFile last, _ + 1, _ => runs_endOfFile last
  | .argumentError goesOn run, fuel + 1, enough =>
    runs_from goesOn (run.runs fuel (by omega)).bind_error
  | .laterError goesOn run failed, fuel + 1, enough => by
    have less := run.length_lt goesOn
    have last := failed.runs fuel (by rw [List.length_cons] at enough; omega)
    exact runs_from goesOn ((run.runs fuel (by omega)).bind last.bind_error)
  | .argument goesOn run closed, fuel + 1, enough => by
    have less := run.length_lt goesOn
    have last := closed.runs fuel (by rw [List.length_cons] at enough; omega)
    exact runs_from goesOn ((run.runs fuel (by omega)).bind (last.bind_pure rfl))

end

def languageName (fuel : Nat) : Parser κ Header := do
  match ← consume fuel with
  | none => Parser.unexpected "identifier" none
  | some name =>
    if name.kind = .identifier then Parser.ofCause (Header.ofToken name)
    else Parser.unexpected "identifier" (some name)

theorem NameRun.runs {result : Except SyntaxError Header} (run : NameRun n ts events result m rest)
    (enough : ts.length < fuel) :
    Runs (At n ts) (languageName fuel : Parser κ _) events result (At m rest) := by
  obtain ⟨fuel, rfl⟩ := Nat.exists_eq_add_one_of_ne_zero (Nat.ne_zero_of_lt enough)
  induction run with
  | exhausted => exact runs_consume_nil.bind (.fail _)
  | comment comment _ ih =>
    rw [List.length_cons] at enough
    exact runs_comment comment (by omega) (ih (by omega))
  | other other =>
    simp only [List.mem_cons, List.not_mem_nil, or_false, not_or] at other
    refine (runs_take other.1).bind ?_
    simp only [other, if_false]
    exact .fail _
  | name name =>
    refine (runs_take (by simp [name])).bind ?_
    simp only [name, if_true, Header.ofToken]
    exact .pure _

theorem HeaderRun.runs {result : Except SyntaxError Header} (run : HeaderRun n ts events result m rest)
    (enough : ts.length < fuel) :
    Runs (At n ts) (header fuel : Parser κ _) events result (At m rest) := by
  obtain ⟨fuel, rfl⟩ := Nat.exists_eq_add_one_of_ne_zero (Nat.ne_zero_of_lt enough)
  induction run with
  | exhausted => exact runs_consume_nil.bind (.fail _)
  | comment comment _ ih =>
    rw [List.length_cons] at enough
    exact runs_comment comment (by omega) (ih (by omega))
  | other notComment other =>
    refine (runs_take notComment).bind ?_
    simp only [Bool.and_eq_true, decide_eq_true_eq, other, if_false]
    exact .fail _
  | directive directive lang run =>
    rw [List.length_cons] at enough
    refine (runs_take (by simp [directive])).bind ?_
    simp only [directive, lang, decide_true, Bool.and_self, if_true]
    exact run.runs (by omega)

theorem ExpressionsRun.runs {result : Except SyntaxError (List Expr)}
    (run : ExpressionsRun n ts events result m rest) (enough : 2 * ts.length + 1 < fuel) :
    Runs (At n ts) (expressions fuel : Parser κ _) events result (At m rest) := by
  induction run generalizing fuel with
  | stop run =>
    obtain ⟨fuel, rfl⟩ := Nat.exists_eq_add_one_of_ne_zero (Nat.ne_zero_of_lt enough)
    rw [expressions]
    exact (run.runs fuel (by omega)).bind_pure rfl
  | error run =>
    obtain ⟨fuel, rfl⟩ := Nat.exists_eq_add_one_of_ne_zero (Nat.ne_zero_of_lt enough)
    rw [expressions]
    exact (run.runs fuel (by omega)).bind_error
  | laterError run _ ih =>
    obtain ⟨fuel, rfl⟩ := Nat.exists_eq_add_one_of_ne_zero (Nat.ne_zero_of_lt enough)
    have less := run.progress (by simp)
    rw [expressions]
    refine (run.runs fuel (by omega)).bind ?_
    exact (Runs.note _).bind (ih (by omega)).bind_error
  | next run _ ih =>
    obtain ⟨fuel, rfl⟩ := Nat.exists_eq_add_one_of_ne_zero (Nat.ne_zero_of_lt enough)
    have less := run.progress (by simp)
    rw [expressions]
    refine (run.runs fuel (by omega)).bind ?_
    exact (Runs.note _).bind ((ih (by omega)).bind_pure rfl)

theorem runs_ending (p : Program) :
    Runs (At m rest)
      (do
        let next ← Parser.peek
        if next.any fun token => token.kind = .closeParen then Parser.note .unmatchedClose
        pure p : Parser κ Program)
      (ending rest) (.ok p) (At m rest) := by
  rw [← List.nil_append (ending rest)]
  refine runs_peek.bind ?_
  rw [ending]
  split
  · exact (Runs.note _).bind_pure rfl
  · exact .pure p

theorem ProgramRun.runs {result : Except SyntaxError Program}
    (run : ProgramRun n ts events result m rest) (enough : 2 * ts.length + 1 < fuel) :
    Runs (At n ts) (program fuel : Parser κ _) events result (At m rest) := by
  cases run with
  | header header => exact (header.runs (by omega)).bind_error
  | body header body =>
    have less := header.length_le
    exact (header.runs (by omega)).bind ((Runs.note _).bind (body.runs (by omega)).bind_error)
  | complete header body =>
    have less := header.length_le
    exact (header.runs (by omega)).bind
      ((Runs.note _).bind ((body.runs (by omega)).bind (runs_ending _)))

theorem ProgramRun.parseTape {k : κ} {result : Except SyntaxError Program}
    (run : ProgramRun n ts events result m rest) (shown : At n ts k) :
    ∃ k', Hashlang.parseTape k = ⟨events, result, k'⟩ ∧ At m rest k' := by
  refine run.runs ?_ k shown
  rw [Tape.Faithful.remaining_eq shown]
  exact Nat.lt_succ_self _

theorem ProgramRun.parse {result : Except SyntaxError Program}
    (run : ProgramRun 0 ts events result m rest) : Hashlang.parse ts = result := by
  obtain ⟨k, parsed, -⟩ := run.parseTape (k := Cursor.ofList ts) (And.intro rfl rfl)
  rw [Hashlang.parse, parsed]

theorem parse_eq_iff {result : Except SyntaxError Program} :
    Hashlang.parse ts = result ↔ ∃ events m rest, ProgramRun 0 ts events result m rest := by
  constructor
  · rintro rfl
    obtain ⟨events, result, m, rest, run⟩ := exists_programRun 0 ts
    exact ⟨events, m, rest, run.parse ▸ run⟩
  · rintro ⟨events, m, rest, run⟩
    exact run.parse

end Parse

end Hashlang
