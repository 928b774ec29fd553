import Hashlang.Proofs.Syntax.Execution
import Hashlang.Proofs.Syntax.Soundness

namespace Hashlang

namespace Parse

theorem ExpressionRun.skip (n : Nat) (ts : List Token) {m : Nat} {noise rest : List Token}
    {events : List Event} {result : Except SyntaxError (Option Expr)}
    (skipped : ∀ t ∈ noise, t.kind.isNoise)
    (run : ExpressionRun (n + noise.length) ts events result m rest) :
    ∃ events, ExpressionRun n (noise ++ ts) events result m rest := by
  induction noise generalizing n with
  | nil => exact ⟨events, run⟩
  | cons t noise ih =>
    obtain ⟨first, later⟩ := List.forall_mem_cons.mp skipped
    rw [add_length_cons] at run
    obtain ⟨events, run⟩ := ih (n + 1) later run
    by_cases comment : t.kind = .comment
    · exact ⟨_, .comment comment run⟩
    · exact ⟨_, .skipped first comment run⟩

theorem exists_stop (n : Nat) {ts tail : List Token} (ahead : meaningful ts = tail)
    (stops : Stops tail) :
    ∃ events m rest, ExpressionRun n ts events (.ok none) m rest ∧ Stops rest ∧
      meaningful rest = tail := by
  cases tail with
  | nil =>
    obtain ⟨events, run⟩ := ExpressionRun.skip n [] (meaningful_eq_nil.mp ahead) .exhausted
    rw [List.append_nil] at run
    exact ⟨events, _, _, run, fun t first => absurd first (by simp), rfl⟩
  | cons t tail =>
    obtain ⟨noise, rest, rfl, skipped, later⟩ := meaningful_eq_cons ahead
    obtain ⟨events, run⟩ := ExpressionRun.skip n (t :: rest) skipped (.stop (stops t rfl))
    refine ⟨events, _, _, run, fun s first => stops s first, ?_⟩
    rw [meaningful_cons stops.real, later]

theorem ArgumentsRun.prepend {n m last : Nat} {ts us rest : List Token} {events later : List Event}
    {argument : Option Expr} {args : List Expr} {close : Token} :
    ExpressionRun n ts events (.ok argument) m us → ArgumentsRun m us later (.ok (args, close)) last rest →
    ∃ events, ArgumentsRun n ts events (.ok (argument.toList ++ args, close)) last rest := by
  intro run closed
  -- Comments come first: `arguments` passes over them before it puts the next token back.
  induction ts generalizing n events with
  | nil =>
    cases run
    cases closed
  | cons t ts ih =>
    by_cases special : t.kind ∈ [.comment, .closeParen, .endOfFile]
    · cases run with
      | comment comment run =>
        obtain ⟨events, run⟩ := ih run
        exact ⟨events, .comment comment run⟩
      -- Nothing was taken away, so the arguments are read from the same token.
      | stop => exact ⟨_, closed⟩
      | skipped noise notComment =>
        rcases Token.Kind.noise_cases noise with kind | kind | kind | kind | kind <;>
          simp [kind] at special notComment
      | leaf leaf => cases leaf <;> simp at special
      | application paren => simp [paren] at special
    · exact ⟨_, .argument special run closed⟩

end Parse

open Parse

mutual

/-- The tokens of an expression are read as that expression, whatever follows them. -/
theorem Yields.run {e : Expr} {us : List Token} : Yields e us → ∀ (n : Nat) {ts tail : List Token},
    meaningful ts = us ++ tail →
    ∃ events m rest, ExpressionRun n ts events (.ok (some e)) m rest ∧ meaningful rest = tail
  | .leaf leaf, n, ts, tail, written => by
    obtain ⟨noise, rest, whole, skipped, later⟩ := meaningful_eq_cons written
    obtain ⟨events, run⟩ := ExpressionRun.skip n (_ :: rest) skipped (.leaf leaf)
    exact ⟨events, _, _, whole ▸ run, later⟩
  | .application paren procedure arguments closing, n, ts, tail, written => by
    rw [List.cons_append, List.append_assoc] at written
    obtain ⟨noise, rest, whole, skipped, later⟩ := meaningful_eq_cons written
    obtain ⟨events, m, us, run, behind⟩ := procedure.run (n + noise.length + 1) later
    rw [List.append_assoc] at behind
    obtain ⟨more, last, rest, closed, behind⟩ := arguments.run closing m behind
    obtain ⟨events, run⟩ := ExpressionRun.skip n _ skipped (.application paren run closed)
    exact ⟨events, _, _, whole ▸ run, behind⟩

theorem YieldsEach.run {es : List Expr} {us : List Token} : YieldsEach es us →
    ∀ {close : Token}, close.kind = .closeParen → ∀ (n : Nat) {ts tail : List Token},
    meaningful ts = us ++ close :: tail →
    ∃ events m rest, ArgumentsRun n ts events (.ok (es, close)) m rest ∧ meaningful rest = tail
  | .nil, close, closing, n, ts, tail, written => by
    obtain ⟨noise, rest, whole, skipped, later⟩ := meaningful_eq_cons written
    obtain ⟨events, run⟩ := ExpressionRun.skip n (close :: rest) skipped (.stop (.inl closing))
    obtain ⟨events, run⟩ := ArgumentsRun.prepend run (.close closing)
    exact ⟨events, _, _, whole ▸ run, later⟩
  | .cons first others, close, closing, n, ts, tail, written => by
    rw [List.append_assoc] at written
    obtain ⟨events, m, us, run, behind⟩ := first.run n written
    obtain ⟨more, last, rest, closed, behind⟩ := others.run closing m behind
    obtain ⟨events, run⟩ := ArgumentsRun.prepend run closed
    exact ⟨events, _, _, run, behind⟩

end

theorem YieldsEach.topRun {es : List Expr} {us : List Token} : YieldsEach es us →
    ∀ (n : Nat) {ts tail : List Token}, meaningful ts = us ++ tail → Stops tail →
    ∃ events m rest, ExpressionsRun n ts events (.ok es) m rest ∧ meaningful rest = tail
  | .nil, n, ts, tail, written, stops => by
    obtain ⟨events, m, rest, run, -, behind⟩ := exists_stop n written stops
    exact ⟨events, m, rest, .stop run, behind⟩
  | .cons first others, n, ts, tail, written, stops => by
    rw [List.append_assoc] at written
    obtain ⟨events, m, us, run, behind⟩ := first.run n written
    obtain ⟨more, last, rest, later, behind⟩ := others.topRun m behind stops
    exact ⟨_, _, _, .next run later, behind⟩

theorem exists_name (n : Nat) (rest : List Token) {between : List Token} {name : Token}
    (comments : ∀ t ∈ between, t.kind = .comment) (identifier : name.kind = .identifier) :
    ∃ events m, NameRun n (between ++ name :: rest) events (.ok ⟨name.value, name.span⟩) m rest := by
  induction between generalizing n with
  | nil => exact ⟨_, _, .name identifier⟩
  | cons t between ih =>
    obtain ⟨comment, comments⟩ := List.forall_mem_cons.mp comments
    obtain ⟨events, m, run⟩ := ih (n + 1) comments
    exact ⟨events, m, .comment comment run⟩

theorem exists_header (n : Nat) {before between rest : List Token} {lang name : Token}
    (comments : ∀ t ∈ before, t.kind = .comment) (directive : lang.kind = .directive)
    (value : lang.value = "#lang") (comments' : ∀ t ∈ between, t.kind = .comment)
    (identifier : name.kind = .identifier) :
    ∃ events m, HeaderRun n (before ++ lang :: (between ++ name :: rest)) events
      (.ok ⟨name.value, name.span⟩) m rest := by
  induction before generalizing n with
  | nil =>
    obtain ⟨events, m, run⟩ := exists_name (n + 1) rest comments' identifier
    exact ⟨_, m, .directive directive value run⟩
  | cons t before ih =>
    obtain ⟨comment, comments⟩ := List.forall_mem_cons.mp comments
    obtain ⟨events, m, run⟩ := ih (n + 1) comments
    exact ⟨events, m, .comment comment run⟩

theorem Grammatical.parse {ts : List Token} {p : Program} (grammatical : Grammatical ts p) :
    Hashlang.parse ts = .ok p := by
  cases grammatical with
  | program comments directive value comments' identifier each written stops =>
    obtain ⟨events, m, header⟩ := exists_header 0 comments directive value comments' identifier
    obtain ⟨later, last, rest, body, -⟩ := each.topRun m written stops
    exact (ProgramRun.complete header body).parse

/-- A program is read from tokens exactly when the tokens are written as the grammar says. -/
theorem parse_ok_iff (ts : List Token) (p : Program) : parse ts = .ok p ↔ Grammatical ts p := by
  constructor
  · intro parsed
    obtain ⟨events, m, rest, run⟩ := parse_eq_iff.mp parsed
    exact run.grammatical
  · exact Grammatical.parse

end Hashlang
