import Hashlang.Evaluation.Evaluate
import Hashlang.Syntax.Read

namespace Hashlang

structure Session (φ : Type) where
  registry : Registry φ := {}
  scope : Scope φ := {}

namespace Session

inductive Source where
  | text (source : String)
  | program (p : Program)

instance : Coe String Source := ⟨.text⟩

def Source.read : Source → List Log.Entry × Except SyntaxError Program
  | text source => readSource source
  | program p => ([], .ok p)

inductive Step (φ : Type) where
  | bind (name : String) (value : Value φ)
  | lookup (name : String)
  | lookupLocal (name : String)
  | lookupIn (outwards : Nat) (name : String)
  | names
  | depth
  | enter
  /-- Leaves the current scope for the one around it; the outermost one is not left. -/
  | leave
  | call (name : String) (arguments : List (Value φ))
  | register (language : Language φ)
  | load (name : String)
  | languages
  | contains (name : String)
  | evaluate (source : Source)
  | evaluateStatements (source : Source)
  /-- Evaluates the expressions of a program on their own; no language is loaded. -/
  | evaluateExpressions (source : Source)

abbrev Outcome (φ : Type) := Except (EvalError φ) (Option (Value φ))

inductive Answer (φ : Type) where
  | replaced (old : Option (Value φ))
  | outcome (result : Outcome φ)
  | noAncestor
  | notPrimitive
  | names (names : List String)
  | depth (depth : Nat)
  | registered (previous : Option String)
  | loaded (result : Except (EvalError φ) (Option String))
  | languages (registry : Registry φ)
  | contains (found : Bool)
  | outcomes (results : List (Outcome φ))
  | rejected (error : SyntaxError)

variable {φ : Type} [Bodies φ]

def evaluateAll (r : Registry φ) (s : Scope φ) :
    List Statement → Scope φ × List (Evaluation.Event φ) × List (Outcome φ)
  | [] => (s, [], [])
  | statement :: rest =>
    let run := statement.evaluate r s
    let (s, events, results) := evaluateAll r run.scope rest
    (s, run.events ++ events, run.result :: results)

def withProgram (session : Session φ) (source : Source)
    (use : Program → Session φ × List (Evaluation.Event φ) × Answer φ) :
    Session φ × List Log.Entry × Answer φ :=
  match source.read with
  | (entries, .error e) => (session, entries, .rejected e)
  | (entries, .ok p) =>
    let (session, events, answer) := use p
    (session, entries ++ events.map Evaluation.Event.entry, answer)

def perform (session : Session φ) : Step φ → Session φ × List Log.Entry × Answer φ
  | .bind name value =>
    ({ session with scope := session.scope.bind name value },
      [(Evaluation.Event.bound name value).entry], .replaced (session.scope.findLocal? name))
  | .lookup name => (session, [], .outcome ((session.scope.lookup name).map some))
  | .lookupLocal name => (session, [], .outcome (.ok (session.scope.findLocal? name)))
  | .lookupIn outwards name =>
    match session.scope.ancestor? outwards with
    | none => (session, [], .noAncestor)
    | some scope => (session, [], .outcome ((scope.lookup name).map some))
  | .names => (session, [], .names session.scope.names)
  | .depth => (session, [], .depth session.scope.depth)
  | .enter =>
    let scope := session.scope.child
    ({ session with scope }, [], .depth scope.depth)
  | .leave =>
    let scope := session.scope.parent?.getD session.scope
    ({ session with scope }, [], .depth scope.depth)
  | .call name arguments =>
    match session.scope.lookup name with
    | .error e => (session, [], .outcome (.error e))
    | .ok (.procedure primitive) =>
      (session, [], .outcome ((primitive.call arguments).map some))
    | .ok _ => (session, [], .notPrimitive)
  | .register language =>
    let (previous, registry) := session.registry.register language
    ({ session with registry }, [], .registered (previous.map Language.name))
  | .load name =>
    match session.registry.find? name with
    | none => (session, [], .loaded (.ok none))
    | some language =>
      let run := language.load session.scope
      ({ session with scope := run.scope }, run.events.map Evaluation.Event.entry,
        .loaded (run.result.map fun _ => some name))
  | .languages => (session, [], .languages session.registry)
  | .contains name => (session, [], .contains (session.registry.contains name))
  | .evaluate source =>
    session.withProgram source fun p =>
      let run := p.evaluate session.registry session.scope
      ({ session with scope := run.scope }, run.events, .outcome run.result)
  | .evaluateStatements source =>
    session.withProgram source fun p =>
      let (scope, events, results) := evaluateAll session.registry session.scope p.statements
      ({ session with scope }, events, .outcomes results)
  | .evaluateExpressions source =>
    session.withProgram source fun p =>
      let evaluations := p.expressions.map fun e => e.evaluate session.scope
      (session, evaluations.flatMap fun evaluation => evaluation.events,
        .outcomes (evaluations.map fun evaluation => evaluation.result.map some))

def performAll (session : Session φ) : List (Step φ) → Session φ × List Log.Entry × List (Answer φ)
  | [] => (session, [], [])
  | step :: rest =>
    let (session, entries, answer) := session.perform step
    let (session, more, answers) := session.performAll rest
    (session, entries ++ more, answer :: answers)

end Session

end Hashlang
