import Hashlang.Evaluation.Builtin
import Hashlang.Proofs.Evaluation.Likeness
import Hashlang.Proofs.Host.Execution
import Hashlang.Proofs.Syntax.RoundTrip

namespace Hashlang

/-- Both write the same, or both fail with the same error of evaluation. -/
inductive Execution.SameOutcome (a b : Execution) : Prop where
  | written : a.result = .ok () → b.result = .ok () → a.written = b.written → SameOutcome a b
  | failed {e : EvalError Empty} : a.result = .error (.evaluation e) →
      b.result = .error (.evaluation e) → SameOutcome a b

theorem exists_reprinted {source : String} {p : Program} (parsed : parseSource source = .ok p) :
    ∃ q, parseSource p.render = .ok q ∧ q.alike p = true ∧ q.render = p.render := by
  have wellFormed := parseSource_wellFormed parsed
  exact ⟨p.placed, Program.parseSource_render wellFormed, Program.alike_placed wellFormed, p.render_placed⟩

theorem parsed_of_execute_tree {source : String} {colored : Bool}
    (done : (execute .tree colored source).result = .ok ()) :
    ∃ p, parseSource source = .ok p ∧ (execute .tree colored source).written = p.render := by
  cases parsed : parseSource source with
  | ok p => exact ⟨p, rfl, (execute_tree colored parsed).1⟩
  | error e =>
    obtain ⟨-, failed⟩ := execute_error colored (by decide : Emit.tree ≠ .tokens) parsed
    rw [done] at failed
    cases failed

theorem execute_value_sameOutcome {a b : String} {p q : Program} (colored : Bool)
    (first : parseSource a = .ok p) (second : parseSource b = .ok q) (same : p.alike q = true) :
    (execute .value colored a).SameOutcome (execute .value colored b) := by
  obtain ⟨written, ended⟩ := execute_value colored first
  obtain ⟨written', ended'⟩ := execute_value colored second
  rw [(Program.agrees_of_alike same {} {}).result] at written ended
  cases outcome : (q.evaluate (φ := Empty) {} {}).result with
  | ok value =>
    rw [outcome] at ended ended'
    exact .written ended ended' (written.trans written'.symm)
  | error e =>
    rw [outcome] at ended ended'
    exact .failed ended ended'

/-- A program and its printed form evaluate to the same in every scope and with every registry, and
leave the same scope behind. So the host can run the printed form instead. -/
theorem evaluate_reprinted (source : String) :
    (∀ p, parseSource source = .ok p → ∃ q, parseSource p.render = .ok q ∧
      ∀ (φ : Type) [Bodies φ] (r : Registry φ) (s : Scope φ), (q.evaluate r s).Agrees (p.evaluate r s)) ∧
    ∀ colored d, (execute .tree colored source).result = .ok () →
      (execute .tree colored source).written = d →
      (execute .tree colored d).result = .ok () ∧ (execute .tree colored d).written = d ∧
        (execute .value colored d).SameOutcome (execute .value colored source) := by
  constructor
  · intro p parsed
    obtain ⟨q, read, same, -⟩ := exists_reprinted parsed
    exact ⟨q, read, fun φ _ r s => Program.agrees_of_alike same r s⟩
  · intro colored d done written
    obtain ⟨p, parsed, printed⟩ := parsed_of_execute_tree done
    obtain ⟨q, read, same, stable⟩ := exists_reprinted parsed
    rw [← printed, written] at read stable
    obtain ⟨again, done'⟩ := execute_tree colored read
    refine ⟨done', again.trans stable, ?_⟩
    exact execute_value_sameOutcome colored read parsed same

theorem evaluate_reprinted_string :
    (∃ p q : Program, parseSource "#lang a '\"s\";c\n) x" = .ok p ∧
      parseSource "#lang a\n\"s\"\n" = .ok q ∧ ∀ (r : Registry Builtin) (s : Scope Builtin),
        (q.evaluate r s).Agrees (p.evaluate r s)) ∧
    (execute .tree false "#lang a\n\"s\"\n").written = "#lang a\n\"s\"\n" ∧
    (execute .value false "#lang a\n\"s\"\n").SameOutcome
      (execute .value false "#lang a '\"s\";c\n) x") ∧
    (execute .value false "#lang a '\"s\";c\n) x").written = "\"s\"\n" := by
  have scanned : scan "#lang a '\"s\";c\n) x" = [⟨.directive, "#lang", ⟨0, 5⟩⟩,
      ⟨.identifier, "a", ⟨6, 1⟩⟩, ⟨.quote, "'", ⟨8, 1⟩⟩, ⟨.string, "s", ⟨9, 3⟩⟩,
      ⟨.comment, "c", ⟨12, 2⟩⟩, ⟨.closeParen, ")", ⟨15, 1⟩⟩, ⟨.identifier, "x", ⟨17, 1⟩⟩,
      .fixed .endOfFile ⟨18, 0⟩] := by decide +kernel
  have parsed : parseSource "#lang a '\"s\";c\n) x" = .ok ⟨⟨"a", ⟨6, 1⟩⟩, [.string "s" ⟨9, 3⟩]⟩ := by
    rw [parseSource, scanned]
    rfl
  have printed : Program.render ⟨⟨"a", ⟨6, 1⟩⟩, [.string "s" ⟨9, 3⟩]⟩ = "#lang a\n\"s\"\n" := by
    decide +kernel
  obtain ⟨same, host⟩ := evaluate_reprinted "#lang a '\"s\";c\n) x"
  obtain ⟨q, read, agree⟩ := same _ parsed
  obtain ⟨written, done⟩ := execute_tree false parsed
  rw [printed] at read written
  obtain ⟨-, again, outcome⟩ := host false _ done written
  exact ⟨⟨_, q, parsed, read, agree Builtin⟩, again, outcome, (execute_value false parsed).1⟩

end Hashlang
