import Hashlang.Evaluation.Builtin
import Hashlang.Proofs.Evaluation.Chain

namespace Hashlang

open Session (Step Answer Outcome Balanced)

variable {φ : Type} [Bodies φ]

def Stack.answers (r : Registry φ) (s : Stack (Names φ)) : List (Step φ) → List (Answer φ)
  | [] => []
  | step :: rest => s.answer r step :: answers (r.next step) (s.next Names.frames r step) rest

def Stack.nearest (bound : Stack (History φ)) (name : String) : Outcome φ :=
  match bound.findSome? (·.last? name) with
  | some value => .ok (some value)
  | none => .error (.unbound name)

namespace Session

def answer (σ : Session φ) (step : Step φ) : Answer φ := (σ.perform step).2.2

def answers (σ : Session φ) (steps : List (Step φ)) : List (Answer φ) := (σ.performAll steps).2.2

def after (σ : Session φ) (steps : List (Step φ)) : Session φ := (σ.performAll steps).1

def fresh (r : Registry φ) : Session φ where
  registry := r

def nested (inside : List (Step φ)) : List (Step φ) := .enter :: (inside ++ [.leave])

/-- How a session answers when `bound` is all that was bound in its scopes. -/
structure Tells (σ : Session φ) (bound : Stack (History φ)) : Prop where
  bind : ∀ name value, σ.answer (.bind name value) = .replaced (bound.top.last? name)
  lookup : ∀ name, σ.answer (.lookup name) = .outcome (bound.nearest name)
  lookupLocal : ∀ name, σ.answer (.lookupLocal name) = .outcome (.ok (bound.top.last? name))
  lookupIn : ∀ outwards name, σ.answer (.lookupIn outwards name) =
    match bound.drop? outwards with
    | none => .noAncestor
    | some bound => .outcome (bound.nearest name)
  names : ∃ names : List String, σ.answer .names = .names names ∧ names.Nodup ∧
    ∀ name, name ∈ names ↔ ∃ value, (name, value) ∈ bound.top

variable (σ : Session φ)

theorem stack_after (steps : List (Step φ)) :
    (σ.after steps).scope.stack = σ.scope.stack.after Table.frames σ.registry steps := by
  induction steps generalizing σ with
  | nil => rfl
  | cons step rest ih =>
    rw [Stack.after, ← σ.registry_perform, ← σ.stack_perform]
    exact ih (σ.perform step).1

theorem maps_after (steps : List (Step φ)) :
    (σ.after steps).scope.maps = σ.scope.maps.after Names.frames σ.registry steps := by
  rw [Scope.maps, stack_after, Stack.map_after Table.maps_toNames, Scope.maps]

theorem answers_eq (steps : List (Step φ)) : σ.answers steps = σ.scope.maps.answers σ.registry steps := by
  induction steps generalizing σ with
  | nil => rfl
  | cons step rest ih =>
    have others := ih (σ.perform step).1
    rw [registry_perform, Scope.maps, stack_perform, Stack.map_next Table.maps_toNames] at others
    exact congrArg₂ List.cons (σ.answer_perform step) others

variable {σ}

theorem tells_of_maps {bound : Stack (History φ)} (maps : σ.scope.maps = bound.map History.toNames) :
    σ.Tells bound := by
  have asked (step : Step φ) : σ.answer step = (bound.map History.toNames).answer σ.registry step := by
    rw [answer, answer_perform, maps]
  have last (name : String) : (bound.map History.toNames).top.lookup name = bound.top.last? name :=
    bound.top.lookup_toNames name
  have nearest (bound : Stack (History φ)) (name : String) :
      (resolve (bound.map History.toNames).find? name).map some = bound.nearest name := by
    have found := Stack.find?_map History.lookup_toNames bound name
    rw [resolve, found, Stack.nearest]
    cases bound.findSome? (·.last? name) <;> rfl
  constructor
  · intro name value
    rw [asked, Stack.answer, last]
  · intro name
    rw [asked, Stack.answer, nearest]
  · intro name
    rw [asked, Stack.answer, last]
  · intro outwards name
    rw [asked, Stack.answer, ← Stack.map_drop?]
    cases bound.drop? outwards with
    | none => rfl
    | some bound => exact congrArg Answer.outcome (nearest bound name)
  · refine ⟨_, asked .names, Finset.sort_nodup .., fun name => ?_⟩
    rw [Finset.mem_sort]
    exact bound.top.mem_keys_toNames name

theorem scope_nested {inside : List (Step φ)} (balanced : Balanced inside) :
    (σ.after (nested inside)).scope = σ.scope := by
  refine Scope.stack_inj ?_
  rw [stack_after, nested, Stack.after_scope (Stack.below_after balanced)]
  rfl

theorem answer_lookupIn_congr {τ : Session φ} (same : σ.scope = τ.scope) (outwards : Nat) (name : String) :
    σ.answer (.lookupIn outwards name) = τ.answer (.lookupIn outwards name) := by
  rw [answer, answer, perform, perform, same]
  cases τ.scope.ancestor? outwards <;> rfl

/-- From an empty root on, a session answers as if its scopes were finite maps on each other of which only
the one on top is ever written: by the last value that was bound to a name in the nearest scope that has
it. After a scope was entered and left again, whatever was done inside, every lookup in every scope that
remains is answered as before. -/
theorem answers_chain (r : Registry φ) (steps : List (Step φ)) :
    (fresh r).answers steps = Stack.answers r { top := ∅ } steps ∧
    ((fresh r).after steps).Tells (Stack.after History.frames r { top := [] } steps) ∧
    ∀ inside, Balanced inside →
      (((fresh r).after steps).after (nested inside)).scope = ((fresh r).after steps).scope ∧
      ∀ outwards name, (((fresh r).after steps).after (nested inside)).answer (.lookupIn outwards name) =
        ((fresh r).after steps).answer (.lookupIn outwards name) := by
  have maps : ((fresh r).after steps).scope.maps =
      (Stack.after History.frames r { top := [] } steps).map History.toNames :=
    ((fresh r).maps_after steps).trans (Stack.map_after History.maps_toNames r { top := [] } steps).symm
  refine ⟨(fresh r).answers_eq steps, tells_of_maps maps, ?_⟩
  intro inside balanced
  have same : (((fresh r).after steps).after (nested inside)).scope = ((fresh r).after steps).scope :=
    scope_nested balanced
  exact ⟨same, answer_lookupIn_congr same⟩

/-- A language that fails to load has bound its names all the same. What is bound, loaded and evaluated in a
scope of its own leaves no trace. -/
theorem answers_chain_shadowed :
    let broken : Language Builtin :=
      ⟨"broken", [("x", .string "loaded"), ("z", .string "loaded too")], some (.custom "failed")⟩
    let steps : List (Step Builtin) := [.bind "x" (.string "outer"), .load "broken", .enter,
      .bind "x" (.string "first"), .bind "x" (.string "second")]
    let inside : List (Step Builtin) := [.bind "x" (.string "inner"), .load "broken",
      .evaluate "#lang broken x", .evaluate (.program ⟨⟨"broken", {}⟩, [.identifier "y" {}]⟩),
      .enter, .bind "y" (.string "deep"), .leave, .lookup "y"]
    let session := (fresh (.ofList [broken])).after steps
    (session.answer (.lookup "z") = .outcome (.ok (some (.string "loaded too"))) ∧
      session.answer (.lookupLocal "z") = .outcome (.ok none) ∧
      session.answer (.lookup "y") = .outcome (.error (.unbound "y"))) ∧
    Balanced inside ∧
      (session.after (nested inside)).answer (.lookupIn 0 "x") = .outcome (.ok (some (.string "second"))) ∧
      (session.after (nested inside)).answer (.lookupIn 1 "x") = .outcome (.ok (some (.string "loaded"))) := by
  intro broken steps inside session
  have deep : Balanced [.enter, .bind "y" (.string "deep"), .leave, .lookup "y"] :=
    @Balanced.scope Builtin [.bind "y" (.string "deep")] [.lookup "y"]
      (.step nofun nofun .nil) (.step nofun nofun .nil)
  have evaluated : Balanced (.evaluate "#lang broken x" ::
      .evaluate (.program ⟨⟨"broken", {}⟩, [.identifier "y" {}]⟩) :: _) :=
    .step nofun nofun (.step nofun nofun deep)
  have balanced : Balanced inside := .step nofun nofun (.step nofun nofun evaluated)
  obtain ⟨-, tells, isolated⟩ := answers_chain (.ofList [broken]) steps
  obtain ⟨-, same⟩ := isolated inside balanced
  have found := tells.lookup "z"
  have around := tells.lookupLocal "z"
  have missing := tells.lookup "y"
  exact ⟨⟨found, around, missing⟩, balanced, (same 0 "x").trans rfl, (same 1 "x").trans rfl⟩

end Session

end Hashlang
