import Hashlang.Syntax.Parse

namespace Hashlang

namespace Parse

inductive Leaf : Token → Expr → Prop where
  | string {text : String} {s : Span} : Leaf ⟨.string, text, s⟩ (.string text s)
  | number (literal : NumberText) {s : Span} : Leaf ⟨.number, literal.text, s⟩ (.number literal s)
  | identifier {name : String} {s : Span} : Leaf ⟨.identifier, name, s⟩ (.identifier name s)

mutual

/-- With the tokens `ts` ahead, the first one at index `n`, the reading of an expression notes
`events`, ends with `result`, and leaves the tokens `rest`, the first one at index `m`. -/
inductive ExpressionRun : (n : Nat) → (ts : List Token) → (events : List Event) →
    (result : Except SyntaxError (Option Expr)) → (m : Nat) → (rest : List Token) → Prop where
  | exhausted {n : Nat} : ExpressionRun n [] [] (.ok none) n []
  | comment {n m : Nat} {t : Token} {ts rest : List Token} {events : List Event}
      {result : Except SyntaxError (Option Expr)} : t.kind = .comment →
      ExpressionRun (n + 1) ts events result m rest → ExpressionRun n (t :: ts) events result m rest
  | skipped {n m : Nat} {t : Token} {ts rest : List Token} {events : List Event}
      {result : Except SyntaxError (Option Expr)} : t.kind.isNoise → t.kind ≠ .comment →
      ExpressionRun (n + 1) ts events result m rest →
      ExpressionRun n (t :: ts) (.consumed n t :: .skipped t :: events) result m rest
  | leaf {n : Nat} {t : Token} {ts : List Token} {e : Expr} : Leaf t e →
      ExpressionRun n (t :: ts) [.consumed n t] (.ok (some e)) (n + 1) ts
  | malformed {n : Nat} {t : Token} {ts : List Token} : t.kind = .number →
      Numeral.read? t.value = none →
      ExpressionRun n (t :: ts) [.consumed n t] (.error { cause := .malformedNumber t.value }) (n + 1) ts
  | stop {n : Nat} {t : Token} {ts : List Token} : t.kind = .closeParen ∨ t.kind = .endOfFile →
      ExpressionRun n (t :: ts) [.consumed n t] (.ok none) n (t :: ts)
  | illegal {n : Nat} {t : Token} {ts : List Token} : t.kind = .illegal →
      ExpressionRun n (t :: ts) [.consumed n t] (.error (.unexpectedToken "expression" (some t)))
        (n + 1) ts
  | procedureError {n m : Nat} {t : Token} {ts rest : List Token} {events : List Event}
      {e : SyntaxError} : t.kind = .openParen → ExpressionRun (n + 1) ts events (.error e) m rest →
      ExpressionRun n (t :: ts) (.consumed n t :: events) (.error e) m rest
  | procedureMissing {n m : Nat} {t : Token} {ts rest : List Token} {events : List Event} :
      t.kind = .openParen → ExpressionRun (n + 1) ts events (.ok none) m rest →
      ExpressionRun n (t :: ts) (.consumed n t :: events)
        (.error (.unexpectedToken "expression" rest.head?)) m rest
  | argumentsError {n m last : Nat} {t : Token} {ts us rest : List Token} {events later : List Event}
      {procedure : Expr} {e : SyntaxError} : t.kind = .openParen →
      ExpressionRun (n + 1) ts events (.ok (some procedure)) m us →
      ArgumentsRun m us later (.error e) last rest →
      ExpressionRun n (t :: ts) (.consumed n t :: (events ++ later)) (.error e) last rest
  | application {n m last : Nat} {t close : Token} {ts us rest : List Token}
      {events later : List Event} {procedure : Expr} {arguments : List Expr} : t.kind = .openParen →
      ExpressionRun (n + 1) ts events (.ok (some procedure)) m us →
      ArgumentsRun m us later (.ok (arguments, close)) last rest →
      ExpressionRun n (t :: ts) (.consumed n t :: (events ++ later))
        (.ok (some (.application procedure arguments (t.span.join close.span)))) last rest

inductive ArgumentsRun : (n : Nat) → (ts : List Token) → (events : List Event) →
    (result : Except SyntaxError (List Expr × Token)) → (m : Nat) → (rest : List Token) → Prop where
  | exhausted {n : Nat} : ArgumentsRun n [] [] (.error (.unexpectedToken ")" none)) n []
  | comment {n m : Nat} {t : Token} {ts rest : List Token} {events : List Event}
      {result : Except SyntaxError (List Expr × Token)} : t.kind = .comment →
      ArgumentsRun (n + 1) ts events result m rest → ArgumentsRun n (t :: ts) events result m rest
  | close {n : Nat} {t : Token} {ts : List Token} : t.kind = .closeParen →
      ArgumentsRun n (t :: ts) [.consumed n t] (.ok ([], t)) (n + 1) ts
  | endOfFile {n : Nat} {t : Token} {ts : List Token} : t.kind = .endOfFile →
      ArgumentsRun n (t :: ts) [.consumed n t] (.error (.unexpectedToken ")" (some t))) (n + 1) ts
  | argumentError {n m : Nat} {t : Token} {ts rest : List Token} {events : List Event}
      {e : SyntaxError} : t.kind ∉ [.comment, .closeParen, .endOfFile] →
      ExpressionRun n (t :: ts) events (.error e) m rest →
      ArgumentsRun n (t :: ts) (.consumed n t :: events) (.error e) m rest
  | laterError {n m last : Nat} {t : Token} {ts us rest : List Token} {events later : List Event}
      {argument : Option Expr} {e : SyntaxError} : t.kind ∉ [.comment, .closeParen, .endOfFile] →
      ExpressionRun n (t :: ts) events (.ok argument) m us →
      ArgumentsRun m us later (.error e) last rest →
      ArgumentsRun n (t :: ts) (.consumed n t :: (events ++ later)) (.error e) last rest
  | argument {n m last : Nat} {t close : Token} {ts us rest : List Token} {events later : List Event}
      {argument : Option Expr} {arguments : List Expr} :
      t.kind ∉ [.comment, .closeParen, .endOfFile] →
      ExpressionRun n (t :: ts) events (.ok argument) m us →
      ArgumentsRun m us later (.ok (arguments, close)) last rest →
      ArgumentsRun n (t :: ts) (.consumed n t :: (events ++ later))
        (.ok (argument.toList ++ arguments, close)) last rest

end

inductive NameRun : (n : Nat) → (ts : List Token) → (events : List Event) →
    (result : Except SyntaxError Header) → (m : Nat) → (rest : List Token) → Prop where
  | exhausted {n : Nat} : NameRun n [] [] (.error (.unexpectedToken "identifier" none)) n []
  | comment {n m : Nat} {t : Token} {ts rest : List Token} {events : List Event}
      {result : Except SyntaxError Header} : t.kind = .comment →
      NameRun (n + 1) ts events result m rest → NameRun n (t :: ts) events result m rest
  | other {n : Nat} {t : Token} {ts : List Token} : t.kind ∉ [.comment, .identifier] →
      NameRun n (t :: ts) [.consumed n t] (.error (.unexpectedToken "identifier" (some t))) (n + 1) ts
  | name {n : Nat} {t : Token} {ts : List Token} : t.kind = .identifier →
      NameRun n (t :: ts) [.consumed n t] (.ok ⟨t.value, t.span⟩) (n + 1) ts

inductive HeaderRun : (n : Nat) → (ts : List Token) → (events : List Event) →
    (result : Except SyntaxError Header) → (m : Nat) → (rest : List Token) → Prop where
  | exhausted {n : Nat} : HeaderRun n [] [] (.error { cause := .missingHeader }) n []
  | comment {n m : Nat} {t : Token} {ts rest : List Token} {events : List Event}
      {result : Except SyntaxError Header} : t.kind = .comment →
      HeaderRun (n + 1) ts events result m rest → HeaderRun n (t :: ts) events result m rest
  | other {n : Nat} {t : Token} {ts : List Token} : t.kind ≠ .comment →
      ¬(t.kind = .directive ∧ t.value = "#lang") →
      HeaderRun n (t :: ts) [.consumed n t]
        (.error { cause := .missingHeader, location := some t.span }) (n + 1) ts
  | directive {n m : Nat} {t : Token} {ts rest : List Token} {events : List Event}
      {result : Except SyntaxError Header} : t.kind = .directive → t.value = "#lang" →
      NameRun (n + 1) ts events result m rest →
      HeaderRun n (t :: ts) (.consumed n t :: events) result m rest

inductive ExpressionsRun : (n : Nat) → (ts : List Token) → (events : List Event) →
    (result : Except SyntaxError (List Expr)) → (m : Nat) → (rest : List Token) → Prop where
  | stop {n m : Nat} {ts rest : List Token} {events : List Event} :
      ExpressionRun n ts events (.ok none) m rest → ExpressionsRun n ts events (.ok []) m rest
  | error {n m : Nat} {ts rest : List Token} {events : List Event} {e : SyntaxError} :
      ExpressionRun n ts events (.error e) m rest → ExpressionsRun n ts events (.error e) m rest
  | laterError {n m last : Nat} {ts us rest : List Token} {events later : List Event} {e : Expr}
      {failure : SyntaxError} : ExpressionRun n ts events (.ok (some e)) m us →
      ExpressionsRun m us later (.error failure) last rest →
      ExpressionsRun n ts (events ++ .parsed e :: later) (.error failure) last rest
  | next {n m last : Nat} {ts us rest : List Token} {events later : List Event} {e : Expr}
      {es : List Expr} : ExpressionRun n ts events (.ok (some e)) m us →
      ExpressionsRun m us later (.ok es) last rest →
      ExpressionsRun n ts (events ++ .parsed e :: later) (.ok (e :: es)) last rest

def ending (rest : List Token) : List Event :=
  if rest.head?.any fun t => t.kind = .closeParen then [.unmatchedClose] else []

inductive ProgramRun : (n : Nat) → (ts : List Token) → (events : List Event) →
    (result : Except SyntaxError Program) → (m : Nat) → (rest : List Token) → Prop where
  | header {n m : Nat} {ts rest : List Token} {events : List Event} {e : SyntaxError} :
      HeaderRun n ts events (.error e) m rest → ProgramRun n ts events (.error e) m rest
  | body {n m last : Nat} {ts us rest : List Token} {events later : List Event} {h : Header}
      {e : SyntaxError} : HeaderRun n ts events (.ok h) m us →
      ExpressionsRun m us later (.error e) last rest →
      ProgramRun n ts (events ++ .header h.name :: later) (.error e) last rest
  | complete {n m last : Nat} {ts us rest : List Token} {events later : List Event} {h : Header}
      {es : List Expr} : HeaderRun n ts events (.ok h) m us →
      ExpressionsRun m us later (.ok es) last rest →
      ProgramRun n ts (events ++ .header h.name :: (later ++ ending rest)) (.ok ⟨h, es⟩) last rest

mutual

theorem ExpressionRun.length_le {n m : Nat} {ts rest : List Token} {events : List Event}
    {result : Except SyntaxError (Option Expr)} :
    ExpressionRun n ts events result m rest → rest.length ≤ ts.length
  | .exhausted => Nat.le_refl _
  | .comment _ run => Nat.le_succ_of_le run.length_le
  | .skipped _ _ run => Nat.le_succ_of_le run.length_le
  | .leaf _ => Nat.le_succ _
  | .malformed _ _ => Nat.le_succ _
  | .stop _ => Nat.le_refl _
  | .illegal _ => Nat.le_succ _
  | .procedureError _ run => Nat.le_succ_of_le run.length_le
  | .procedureMissing _ run => Nat.le_succ_of_le run.length_le
  | .argumentsError _ run later => Nat.le_succ_of_le (Nat.le_trans later.length_le run.length_le)
  | .application _ run later => Nat.le_succ_of_le (Nat.le_trans later.length_le run.length_le)

theorem ArgumentsRun.length_le {n m : Nat} {ts rest : List Token} {events : List Event}
    {result : Except SyntaxError (List Expr × Token)} :
    ArgumentsRun n ts events result m rest → rest.length ≤ ts.length
  | .exhausted => Nat.le_refl _
  | .comment _ run => Nat.le_succ_of_le run.length_le
  | .close _ => Nat.le_succ _
  | .endOfFile _ => Nat.le_succ _
  | .argumentError _ run => run.length_le
  | .laterError _ run later => Nat.le_trans later.length_le run.length_le
  | .argument _ run later => Nat.le_trans later.length_le run.length_le

end

/-- Only a token that ends an application or the file is left where it was found. -/
theorem ExpressionRun.length_lt {n m : Nat} {t : Token} {ts rest : List Token}
    {events : List Event} {result : Except SyntaxError (Option Expr)}
    (run : ExpressionRun n (t :: ts) events result m rest)
    (goesOn : t.kind ∉ [.comment, .closeParen, .endOfFile]) : rest.length ≤ ts.length := by
  cases run with
  | comment comment => simp [comment] at goesOn
  | skipped _ _ run => exact run.length_le
  | leaf => exact Nat.le_refl _
  | malformed => exact Nat.le_refl _
  | stop stop => rcases stop with stop | stop <;> simp [stop] at goesOn
  | illegal => exact Nat.le_refl _
  | procedureError _ run => exact run.length_le
  | procedureMissing _ run => exact run.length_le
  | argumentsError _ run later => exact Nat.le_trans later.length_le run.length_le
  | application _ run later => exact Nat.le_trans later.length_le run.length_le

theorem ExpressionRun.progress {n m : Nat} {ts rest : List Token} {events : List Event}
    {result : Except SyntaxError (Option Expr)} :
    ExpressionRun n ts events result m rest → result ≠ .ok none → rest.length < ts.length
  | .exhausted, found => absurd rfl found
  | .comment _ run, found => Nat.lt_succ_of_lt (run.progress found)
  | .skipped _ _ run, found => Nat.lt_succ_of_lt (run.progress found)
  | .leaf _, _ => Nat.lt_succ_self _
  | .malformed _ _, _ => Nat.lt_succ_self _
  | .stop _, found => absurd rfl found
  | .illegal _, _ => Nat.lt_succ_self _
  | .procedureError _ run, _ => Nat.lt_succ_of_le run.length_le
  | .procedureMissing _ run, _ => Nat.lt_succ_of_le run.length_le
  | .argumentsError _ run later, _ => Nat.lt_succ_of_le (Nat.le_trans later.length_le run.length_le)
  | .application _ run later, _ => Nat.lt_succ_of_le (Nat.le_trans later.length_le run.length_le)

theorem NameRun.length_le {n m : Nat} {ts rest : List Token} {events : List Event}
    {result : Except SyntaxError Header} (run : NameRun n ts events result m rest) :
    rest.length ≤ ts.length := by
  induction run with
  | exhausted => exact Nat.le_refl _
  | comment _ _ ih => exact Nat.le_succ_of_le ih
  | other => exact Nat.le_succ _
  | name => exact Nat.le_succ _

theorem HeaderRun.length_le {n m : Nat} {ts rest : List Token} {events : List Event}
    {result : Except SyntaxError Header} (run : HeaderRun n ts events result m rest) :
    rest.length ≤ ts.length := by
  induction run with
  | exhausted => exact Nat.le_refl _
  | comment _ _ ih => exact Nat.le_succ_of_le ih
  | other => exact Nat.le_succ _
  | directive _ _ run => exact Nat.le_succ_of_le run.length_le

mutual

theorem exists_expressionRun (n : Nat) (ts : List Token) :
    ∃ events result m rest, ExpressionRun n ts events result m rest := by
  cases ts with
  | nil => exact ⟨_, _, _, _, .exhausted⟩
  | cons t ts =>
    obtain ⟨events, result, m, rest, run⟩ := exists_expressionRun (n + 1) ts
    obtain ⟨kind, value, s⟩ := t
    cases kind with
    | comment => exact ⟨_, _, _, _, .comment rfl run⟩
    | quote | openBracket | closeBracket | directive =>
      exact ⟨_, _, _, _, .skipped rfl (by simp) run⟩
    | string => exact ⟨_, _, _, _, .leaf .string⟩
    | identifier => exact ⟨_, _, _, _, .leaf .identifier⟩
    | number =>
      cases reads : Numeral.read? value with
      | none => exact ⟨_, _, _, _, .malformed rfl reads⟩
      | some numeral => exact ⟨_, _, _, _, .leaf (.number ⟨value, numeral, reads⟩)⟩
    | closeParen => exact ⟨_, _, _, _, .stop (.inl rfl)⟩
    | endOfFile => exact ⟨_, _, _, _, .stop (.inr rfl)⟩
    | illegal => exact ⟨_, _, _, _, .illegal rfl⟩
    | openParen =>
      match result, run with
      | .error e, run => exact ⟨_, _, _, _, .procedureError rfl run⟩
      | .ok none, run => exact ⟨_, _, _, _, .procedureMissing rfl run⟩
      | .ok (some procedure), run =>
        have less := run.length_le
        obtain ⟨later, result, last, rest, closed⟩ := exists_argumentsRun m rest
        match result, closed with
        | .error e, closed => exact ⟨_, _, _, _, .argumentsError rfl run closed⟩
        | .ok (args, close), closed => exact ⟨_, _, _, _, .application rfl run closed⟩
termination_by 2 * ts.length

theorem exists_argumentsRun (n : Nat) (ts : List Token) :
    ∃ events result m rest, ArgumentsRun n ts events result m rest := by
  cases ts with
  | nil => exact ⟨_, _, _, _, .exhausted⟩
  | cons t ts =>
    by_cases comment : t.kind = .comment
    · obtain ⟨events, result, m, rest, run⟩ := exists_argumentsRun (n + 1) ts
      exact ⟨_, _, _, _, .comment comment run⟩
    by_cases close : t.kind = .closeParen
    · exact ⟨_, _, _, _, .close close⟩
    by_cases last : t.kind = .endOfFile
    · exact ⟨_, _, _, _, .endOfFile last⟩
    -- The expression begins with the same token; only then fewer tokens are left.
    have goesOn : t.kind ∉ [.comment, .closeParen, .endOfFile] := by simp [comment, close, last]
    obtain ⟨events, result, m, rest, run⟩ := exists_expressionRun n (t :: ts)
    match result, run with
    | .error e, run => exact ⟨_, _, _, _, .argumentError goesOn run⟩
    | .ok argument, run =>
      have less := run.length_lt goesOn
      obtain ⟨later, result, last, rest, closed⟩ := exists_argumentsRun m rest
      match result, closed with
      | .error e, closed => exact ⟨_, _, _, _, .laterError goesOn run closed⟩
      | .ok (args, close), closed => exact ⟨_, _, _, _, .argument goesOn run closed⟩
termination_by 2 * ts.length + 1

end

theorem exists_nameRun (n : Nat) (ts : List Token) :
    ∃ events result m rest, NameRun n ts events result m rest := by
  induction ts generalizing n with
  | nil => exact ⟨_, _, _, _, .exhausted⟩
  | cons t ts ih =>
    by_cases comment : t.kind = .comment
    · obtain ⟨events, result, m, rest, run⟩ := ih (n + 1)
      exact ⟨_, _, _, _, .comment comment run⟩
    by_cases name : t.kind = .identifier
    · exact ⟨_, _, _, _, .name name⟩
    · exact ⟨_, _, _, _, .other (by simp [comment, name])⟩

theorem exists_headerRun (n : Nat) (ts : List Token) :
    ∃ events result m rest, HeaderRun n ts events result m rest := by
  induction ts generalizing n with
  | nil => exact ⟨_, _, _, _, .exhausted⟩
  | cons t ts ih =>
    by_cases comment : t.kind = .comment
    · obtain ⟨events, result, m, rest, run⟩ := ih (n + 1)
      exact ⟨_, _, _, _, .comment comment run⟩
    by_cases directive : t.kind = .directive ∧ t.value = "#lang"
    · obtain ⟨events, result, m, rest, run⟩ := exists_nameRun (n + 1) ts
      exact ⟨_, _, _, _, .directive directive.1 directive.2 run⟩
    · exact ⟨_, _, _, _, .other comment directive⟩

theorem exists_expressionsRun (n : Nat) (ts : List Token) :
    ∃ events result m rest, ExpressionsRun n ts events result m rest := by
  obtain ⟨events, result, m, rest, run⟩ := exists_expressionRun n ts
  match result, run with
  | .error e, run => exact ⟨_, _, _, _, .error run⟩
  | .ok none, run => exact ⟨_, _, _, _, .stop run⟩
  | .ok (some e), run =>
    have less := run.progress (by simp)
    obtain ⟨later, result, last, rest, more⟩ := exists_expressionsRun m rest
    match result, more with
    | .error failure, more => exact ⟨_, _, _, _, .laterError run more⟩
    | .ok es, more => exact ⟨_, _, _, _, .next run more⟩
termination_by ts.length

theorem exists_programRun (n : Nat) (ts : List Token) :
    ∃ events result m rest, ProgramRun n ts events result m rest := by
  obtain ⟨events, result, m, rest, header⟩ := exists_headerRun n ts
  match result, header with
  | .error e, header => exact ⟨_, _, _, _, .header header⟩
  | .ok h, header =>
    obtain ⟨later, result, last, rest, body⟩ := exists_expressionsRun m rest
    match result, body with
    | .error e, body => exact ⟨_, _, _, _, .body header body⟩
    | .ok es, body => exact ⟨_, _, _, _, .complete header body⟩

end Parse

end Hashlang
