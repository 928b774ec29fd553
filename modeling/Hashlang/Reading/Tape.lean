namespace Hashlang

/-- What a reader may do with the sequence of `α` that it reads from a tape of type `κ`. -/
class Tape (κ : Type) (α : outParam Type) where
  peek : κ → Option α
  read : κ → Option α × κ
  rollback : κ → κ
  position : κ → Nat
  remaining : κ → Nat

namespace Tape

variable {κ α σ : Type} [Tape κ α]

/-- Reads elements as long as `step` accepts them, threading a state, and steps back over the first
one that it refuses. At most `fuel` elements are read. -/
def readWhile (step : σ → α → Option σ) : (fuel : Nat) → σ → κ → List α × κ
  | 0, _, k => ([], k)
  | fuel + 1, s, k =>
    match read k with
    | (none, k) => ([], k)
    | (some a, k) =>
      match step s a with
      | none => ([], rollback k)
      | some s =>
        let (rest, k) := readWhile step fuel s k
        (a :: rest, k)

def readUntil (p : α → Bool) : (fuel : Nat) → κ → List α × κ
  | 0, k => ([], k)
  | fuel + 1, k =>
    match peek k with
    | none => ([], k)
    | some a =>
      if p a then ([], k)
      else
        let (rest, k) := readUntil p fuel (read k).2
        (a :: rest, k)

def readThrough? (p : α → Bool) : (fuel : Nat) → κ → Option (List α) × κ
  | 0, k => (none, k)
  | fuel + 1, k =>
    match read k with
    | (none, k) => (none, k)
    | (some a, k) =>
      if p a then (some [], k)
      else
        let (rest, k) := readThrough? p fuel k
        (rest.map (a :: ·), k)

end Tape

end Hashlang
