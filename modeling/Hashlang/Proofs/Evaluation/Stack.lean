import Hashlang.Proofs.Evaluation.Programs

namespace Hashlang

open Session (Source Step)

structure Stack (α : Type) where
  top : α
  below : List α := []

structure Frames (φ α : Type) where
  blank : α
  write : α → String → Value φ → α

variable {φ α β : Type}

def Frames.writeAll (k : Frames φ α) (bindings : List (String × Value φ)) (a : α) : α :=
  bindings.foldl (fun a binding => k.write a binding.1 binding.2) a

theorem Frames.writeAll_concat (k : Frames φ α) (bindings : List (String × Value φ)) (name : String)
    (value : Value φ) (a : α) :
    k.writeAll (bindings ++ [(name, value)]) a = k.write (k.writeAll bindings a) name value := by
  unfold writeAll
  rw [List.foldl_append]
  rfl

structure Frames.Maps (f : α → β) (k : Frames φ α) (l : Frames φ β) : Prop where
  blank : f k.blank = l.blank
  write : ∀ a name value, f (k.write a name value) = l.write (f a) name value

theorem Frames.Maps.writeAll {f : α → β} {k : Frames φ α} {l : Frames φ β} (maps : k.Maps f l)
    (bindings : List (String × Value φ)) (a : α) :
    f (k.writeAll bindings a) = l.writeAll bindings (f a) := by
  induction bindings generalizing a with
  | nil => rfl
  | cons binding rest ih =>
    have first := maps.write a binding.1 binding.2
    exact (ih _).trans (congrArg (l.writeAll rest) first)

namespace Stack

def toList (s : Stack α) : List α := s.top :: s.below

def map (f : α → β) (s : Stack α) : Stack β where
  top := f s.top
  below := s.below.map f

def push (a : α) (s : Stack α) : Stack α where
  top := a
  below := s.toList

def ofList? : List α → Option (Stack α)
  | [] => none
  | top :: below => some { top, below }

def pop (s : Stack α) : Stack α := (ofList? s.below).getD s

def drop? (s : Stack α) (k : Nat) : Option (Stack α) := ofList? (s.toList.drop k)

theorem map_ofList? (f : α → β) (frames : List α) :
    (ofList? frames).map (map f) = ofList? (frames.map f) := by
  cases frames <;> rfl

theorem ofList?_tail (frames : List α) :
    ofList? frames.tail = (ofList? frames).bind fun s => ofList? s.below := by
  cases frames <;> rfl

theorem map_pop (f : α → β) (s : Stack α) : s.pop.map f = (s.map f).pop := by
  obtain ⟨top, below⟩ := s
  cases below <;> rfl

theorem map_drop? (f : α → β) (s : Stack α) (k : Nat) :
    (s.drop? k).map (map f) = (s.map f).drop? k := by
  rw [drop?, map_ofList?, List.map_drop]
  rfl

theorem drop?_succ (s : Stack α) (k : Nat) :
    s.drop? (k + 1) = (s.drop? k).bind fun t => ofList? t.below := by
  rw [drop?, ← List.tail_drop, ofList?_tail, drop?]

end Stack

def Session.Source.result : Source → Except SyntaxError Program
  | text source => parseSource source
  | program p => .ok p

def Registry.declared (r : Registry φ) (source : Source) : List (String × Value φ) :=
  match source.result with
  | .ok p => r.bindings p.header.name
  | .error _ => []

def Session.Step.bindings (r : Registry φ) : Step φ → List (String × Value φ)
  | bind name value => [(name, value)]
  | load name => r.bindings name
  | evaluate source | evaluateStatements source => r.declared source
  | _ => []

namespace Registry

def next (r : Registry φ) : Step φ → Registry φ
  | .register language => (r.register language).2
  | _ => r

def after (r : Registry φ) (steps : List (Step φ)) : Registry φ := steps.foldl next r

end Registry

namespace Stack

def write (k : Frames φ α) (bindings : List (String × Value φ)) (s : Stack α) : Stack α :=
  { s with top := k.writeAll bindings s.top }

def next (k : Frames φ α) (r : Registry φ) (s : Stack α) : Step φ → Stack α
  | .enter => s.push k.blank
  | .leave => s.pop
  | step => s.write k (step.bindings r)

def after (k : Frames φ α) (r : Registry φ) (s : Stack α) : List (Step φ) → Stack α
  | [] => s
  | step :: rest => after k (r.next step) (s.next k r step) rest

section

variable {f : α → β} {k : Frames φ α} {l : Frames φ β}

theorem map_write (maps : k.Maps f l) (bindings : List (String × Value φ)) (s : Stack α) :
    (s.write k bindings).map f = (s.map f).write l bindings :=
  congrArg (mk · _) (maps.writeAll bindings s.top)

theorem map_next (maps : k.Maps f l) (r : Registry φ) (s : Stack α) (step : Step φ) :
    (s.next k r step).map f = (s.map f).next l r step := by
  cases step
  case enter => exact congrArg (push · (s.map f)) maps.blank
  case leave => exact map_pop f s
  all_goals exact map_write maps _ s

theorem map_after (maps : k.Maps f l) (r : Registry φ) (s : Stack α) (steps : List (Step φ)) :
    (s.after k r steps).map f = (s.map f).after l r steps := by
  induction steps generalizing r s with
  | nil => rfl
  | cons step rest ih => rw [after, after, ih, map_next maps]

end

variable {k : Frames φ α} {r : Registry φ} {s : Stack α} {step : Step φ}

theorem below_next (enter : step ≠ .enter) (leave : step ≠ .leave) :
    (s.next k r step).below = s.below := by
  cases step
  case enter => exact absurd rfl enter
  case leave => exact absurd rfl leave
  all_goals rfl

theorem after_append (first second : List (Step φ)) :
    s.after k r (first ++ second) = (s.after k r first).after k (r.after first) second := by
  induction first generalizing r s with
  | nil => rfl
  | cons step rest ih => exact ih

end Stack

/-- Steps that leave every scope that they enter, and no other. -/
inductive Session.Balanced : List (Step φ) → Prop
  | nil : Balanced []
  | step {step : Step φ} {rest : List (Step φ)} :
    step ≠ .enter → step ≠ .leave → Balanced rest → Balanced (step :: rest)
  | scope {inside rest : List (Step φ)} :
    Balanced inside → Balanced rest → Balanced (.enter :: (inside ++ .leave :: rest))

namespace Stack

variable {k : Frames φ α} {inside : List (Step φ)}

theorem after_scope (keeps : ∀ (r : Registry φ) (s : Stack α), (s.after k r inside).below = s.below)
    (r : Registry φ) (s : Stack α) (rest : List (Step φ)) :
    s.after k r (.enter :: (inside ++ .leave :: rest)) =
      s.after k ((r.after inside).next .leave) rest := by
  have left : ((s.push k.blank).after k r inside).pop = s := by
    have below := keeps r (s.push k.blank)
    rw [pop, below]
    rfl
  calc s.after k r (.enter :: (inside ++ .leave :: rest))
    _ = (s.push k.blank).after k r (inside ++ .leave :: rest) := rfl
    _ = ((s.push k.blank).after k r inside).after k (r.after inside) (.leave :: rest) :=
      after_append _ _
    _ = ((s.push k.blank).after k r inside).pop.after k ((r.after inside).next .leave) rest := rfl
    _ = s.after k ((r.after inside).next .leave) rest := by rw [left]

theorem below_after {steps : List (Step φ)} (balanced : Session.Balanced steps) (r : Registry φ)
    (s : Stack α) : (s.after k r steps).below = s.below := by
  induction balanced generalizing r s with
  | nil => rfl
  | step enter leave _ ih => exact (ih _ _).trans (below_next enter leave)
  | scope _ _ inside rest => rw [after_scope inside, rest]

end Stack

end Hashlang
