import Hashlang.Proofs.Evaluation.Denotation
import Hashlang.Proofs.Evaluation.Names

namespace Hashlang

open Session (Source Step Answer)

variable {φ : Type}

namespace Stack

def findSome? {α β : Type} (find : α → Option β) (s : Stack α) : Option β := s.toList.findSome? find

def find? (s : Stack (Names φ)) (name : String) : Option (Value φ) := s.findSome? (·.lookup name)

theorem find?_map {α : Type} {f : α → Names φ} {find : α → String → Option (Value φ)}
    (lookups : ∀ a name, (f a).lookup name = find a name) (s : Stack α) (name : String) :
    (s.map f).find? name = s.findSome? (find · name) := by
  have same : (fun names : Names φ => names.lookup name) ∘ f = (find · name) :=
    funext fun a => lookups a name
  show (s.toList.map f).findSome? _ = s.toList.findSome? _
  rw [List.findSome?_map, same]

end Stack

def Session.answerProgram (source : Source) (use : Program → Answer φ) : Answer φ :=
  match source.result with
  | .error e => .rejected e
  | .ok p => use p

namespace Stack

variable [Bodies φ]

/-- The answer to a step where the scopes are these maps. -/
def answer (r : Registry φ) (s : Stack (Names φ)) : Step φ → Answer φ
  | .bind name _ => .replaced (s.top.lookup name)
  | .lookup name => .outcome ((resolve s.find? name).map some)
  | .lookupLocal name => .outcome (.ok (s.top.lookup name))
  | .lookupIn outwards name =>
    match s.drop? outwards with
    | none => .noAncestor
    | some s => .outcome ((resolve s.find? name).map some)
  | .names => .names s.top.keys.sort
  | .depth => .depth s.below.length
  | .enter => .depth (s.below.length + 1)
  | .leave => .depth (s.below.length - 1)
  | .call name arguments =>
    match resolve s.find? name with
    | .error e => .outcome (.error e)
    | .ok (.procedure primitive) => .outcome ((primitive.call arguments).map some)
    | .ok _ => .notPrimitive
  | .register language => .registered ((r.find? language.name).map Language.name)
  | .load name => .loaded (if r.contains name then (r.outcome name).map fun _ => some name else .ok none)
  | .languages => .languages r
  | .contains name => .contains (r.contains name)
  | .evaluate source => Session.answerProgram source fun p =>
    .outcome (p.denote r (s.write Names.frames (r.bindings p.header.name)).find?)
  | .evaluateStatements source => Session.answerProgram source fun p =>
    .outcomes (((r.outcome p.header.name).map fun _ => none) :: p.expressions.map fun e =>
      (e.denote (s.write Names.frames (r.bindings p.header.name)).find?).map some)
  | .evaluateExpressions source => Session.answerProgram source fun p =>
    .outcomes (p.expressions.map fun e => (e.denote s.find?).map some)

end Stack

namespace Scope

variable (s : Scope φ)

def stack : Stack (Table φ) where
  top := s.table
  below := s.enclosing

def maps : Stack (Names φ) := s.stack.map Table.toNames

theorem stack_inj {s t : Scope φ} (same : s.stack = t.stack) : s = t := by
  cases s
  cases t
  cases same
  rfl

theorem stack_bindAll (bindings : List (String × Value φ)) :
    (s.bindAll bindings).stack = s.stack.write Table.frames bindings := by
  induction bindings generalizing s with
  | nil => rfl
  | cons binding rest ih => exact ih (s.bind binding.1 binding.2)

theorem stack_parent? : s.parent?.map stack = Stack.ofList? s.enclosing := by
  obtain ⟨table, enclosing⟩ := s
  cases enclosing <;> rfl

theorem stack_leave : (s.parent?.getD s).stack = s.stack.pop := by
  have below : Stack.ofList? s.stack.below = s.parent?.map stack := s.stack_parent?.symm
  rw [Stack.pop, below]
  cases s.parent? <;> rfl

theorem stack_ancestor? (k : Nat) : (s.ancestor? k).map stack = s.stack.drop? k := by
  induction k with
  | zero => rfl
  | succ k ih =>
    rw [ancestor?, Stack.drop?_succ, ← ih]
    cases s.ancestor? k with
    | none => rfl
    | some t => exact t.stack_parent?

theorem maps_bindAll (bindings : List (String × Value φ)) :
    (s.bindAll bindings).maps = s.maps.write Names.frames bindings := by
  rw [maps, stack_bindAll, Stack.map_write Table.maps_toNames, maps]

theorem find?_maps : s.maps.find? = s.find? :=
  funext fun name => Stack.find?_map Table.lookup_toNames s.stack name

theorem ancestor?_maps (k : Nat) : s.maps.drop? k = (s.ancestor? k).map maps := by
  rw [maps, ← Stack.map_drop?, ← stack_ancestor?, Option.map_map]
  rfl

end Scope

namespace Session

theorem Source.snd_read (source : Source) : source.read.2 = source.result := by
  cases source <;> rfl

section

variable (σ : Session φ) {source : Source}
  (use : Program → Session φ × List (Evaluation.Event φ) × Answer φ)

theorem withProgram_error {e : SyntaxError} (failed : source.result = .error e) :
    σ.withProgram source use = (σ, source.read.1, .rejected e) := by
  have read : source.read = (source.read.1, .error e) := Prod.ext rfl (source.snd_read.trans failed)
  rw [withProgram, read]

theorem withProgram_ok {p : Program} (parsed : source.result = .ok p) :
    σ.withProgram source use = ((use p).1,
      source.read.1 ++ (use p).2.1.map Evaluation.Event.entry, (use p).2.2) := by
  have read : source.read = (source.read.1, .ok p) := Prod.ext rfl (source.snd_read.trans parsed)
  rw [withProgram, read]

theorem answer_withProgram :
    (σ.withProgram source use).2.2 = answerProgram source fun p => (use p).2.2 := by
  unfold answerProgram
  cases parsed : source.result with
  | error e => rw [withProgram_error σ use parsed]
  | ok p => rw [withProgram_ok σ use parsed]

theorem stack_withProgram (uses : ∀ p, (use p).1.scope.stack =
      σ.scope.stack.write Table.frames (σ.registry.bindings p.header.name)) :
    (σ.withProgram source use).1.scope.stack =
      σ.scope.stack.write Table.frames (σ.registry.declared source) := by
  unfold Registry.declared
  cases parsed : source.result with
  | error e =>
    rw [withProgram_error σ use parsed]
    rfl
  | ok p =>
    rw [withProgram_ok σ use parsed]
    exact uses p

end

variable [Bodies φ] (σ : Session φ)

theorem registry_perform (step : Step φ) : (σ.perform step).1.registry = σ.registry.next step := by
  cases step with
  | lookupIn outwards name => simp only [perform]; split <;> rfl
  | call name arguments => simp only [perform]; split <;> rfl
  | load name => simp only [perform]; split <;> rfl
  | evaluate source | evaluateStatements source | evaluateExpressions source =>
    cases parsed : source.result with
    | error e => rw [perform, withProgram_error σ _ parsed]; rfl
    | ok p => rw [perform, withProgram_ok σ _ parsed]; rfl
  | _ => rfl

theorem stack_perform (step : Step φ) :
    (σ.perform step).1.scope.stack = σ.scope.stack.next Table.frames σ.registry step := by
  cases step with
  | lookupIn outwards name => simp only [perform]; split <;> rfl
  | call name arguments => simp only [perform]; split <;> rfl
  | leave => exact σ.scope.stack_leave
  | load name =>
    have binds : Step.bindings σ.registry (.load name) = σ.registry.bindings name := rfl
    simp only [perform, Stack.next, binds, Registry.bindings]
    cases σ.registry.find? name with
    | none => rfl
    | some language => exact σ.scope.stack_bindAll language.bindings
  | evaluate source =>
    refine σ.stack_withProgram _ fun p => ?_
    rw [← Scope.stack_bindAll, ← p.scope_evaluate]
  | evaluateStatements source =>
    refine σ.stack_withProgram _ fun p => ?_
    rw [← Scope.stack_bindAll, ← scope_evaluateAll]
  | evaluateExpressions source =>
    cases parsed : source.result with
    | error e => rw [perform, withProgram_error σ _ parsed]; rfl
    | ok p => rw [perform, withProgram_ok σ _ parsed]; rfl
  | _ => rfl

theorem answer_perform (step : Step φ) :
    (σ.perform step).2.2 = σ.scope.maps.answer σ.registry step := by
  have found (name : String) : σ.scope.maps.top.lookup name = σ.scope.findLocal? name :=
    σ.scope.table.lookup_toNames name
  have resolved (name : String) : resolve σ.scope.maps.find? name = σ.scope.lookup name := by
    rw [σ.scope.find?_maps]
    rfl
  have length : σ.scope.maps.below.length = σ.scope.depth := List.length_map ..
  cases step with
  | bind name value => rw [Stack.answer, found]; rfl
  | lookup name => rw [Stack.answer, resolved]; rfl
  | lookupLocal name => rw [Stack.answer, found]; rfl
  | lookupIn outwards name =>
    rw [perform, Stack.answer, Scope.ancestor?_maps]
    cases σ.scope.ancestor? outwards with
    | none => rfl
    | some scope =>
      show _ = Answer.outcome ((resolve scope.maps.find? name).map some)
      rw [scope.find?_maps]
      rfl
  | names =>
    -- The only answer that shows the entries of a table, and not what it says about a name.
    exact congrArg Answer.names σ.scope.table.names_eq_sort
  | depth => rw [perform, Stack.answer, length]
  | enter => rw [perform, Stack.answer, length]; rfl
  | leave =>
    rw [perform, Stack.answer, length]
    obtain ⟨registry, table, enclosing⟩ := σ
    cases enclosing <;> rfl
  | call name arguments =>
    rw [perform, Stack.answer, resolved]
    cases σ.scope.lookup name with
    | error e => rfl
    | ok value => cases value <;> rfl
  | register language => rfl
  | load name =>
    rw [perform, Stack.answer, Registry.contains, Registry.outcome]
    cases σ.registry.find? name <;> rfl
  | languages => rfl
  | contains name => rfl
  | evaluate source =>
    refine (σ.answer_withProgram _).trans (congrArg (answerProgram source) (funext fun p => ?_))
    show Answer.outcome (p.evaluate σ.registry σ.scope).result = _
    rw [p.result_eq_denote, ← Scope.maps_bindAll, Scope.find?_maps]
  | evaluateStatements source =>
    refine (σ.answer_withProgram _).trans (congrArg (answerProgram source) (funext fun p => ?_))
    show Answer.outcomes (evaluateAll σ.registry σ.scope p.statements).2.2 = _
    rw [results_evaluateAll, ← Scope.maps_bindAll, Scope.find?_maps]
    simp only [Expr.result_eq_denote]
  | evaluateExpressions source =>
    refine (σ.answer_withProgram _).trans (congrArg (answerProgram source) (funext fun p => ?_))
    simp only [List.map_map, Scope.find?_maps, ← Expr.result_eq_denote]
    rfl

end Session

end Hashlang
