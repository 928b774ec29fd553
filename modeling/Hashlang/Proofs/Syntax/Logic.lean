import Hashlang.Proofs.Reading.Faithful
import Hashlang.Syntax.Parse

namespace Hashlang

namespace Parser

variable {κ β γ : Type} {pre mid post : κ → Prop} {events later : List Parse.Event}

def Runs (pre : κ → Prop) (x : Parser κ β) (events : List Parse.Event) (result : Except SyntaxError β)
    (post : κ → Prop) : Prop :=
  ∀ k, pre k → ∃ k', x k = ⟨events, result, k'⟩ ∧ post k'

theorem Runs.pure (b : β) : Runs pre (Pure.pure b) [] (.ok b) pre :=
  fun k holds => ⟨k, rfl, holds⟩

theorem Runs.fail (e : SyntaxError) : Runs pre (Parser.fail e : Parser κ β) [] (.error e) pre :=
  fun k holds => ⟨k, rfl, holds⟩

theorem Runs.note (event : Parse.Event) : Runs pre (Parser.note event) [event] (.ok ()) pre :=
  fun k holds => ⟨k, rfl, holds⟩

theorem Runs.bind {x : Parser κ β} {f : β → Parser κ γ} {b : β} {result : Except SyntaxError γ}
    (first : Runs pre x events (.ok b) mid) (second : Runs mid (f b) later result post) :
    Runs pre (x >>= f) (events ++ later) result post := by
  intro k holds
  obtain ⟨k₁, run, holds⟩ := first k holds
  obtain ⟨k₂, run', holds⟩ := second k₁ holds
  exact ⟨k₂, by simp only [Bind.bind, run, run'], holds⟩

theorem Runs.bind_last {x : Parser κ β} {f : β → Parser κ γ} {b : β} {result : Except SyntaxError γ}
    (first : Runs pre x events (.ok b) mid) (last : Runs mid (f b) [] result post) :
    Runs pre (x >>= f) events result post := by
  rw [← List.append_nil events]
  exact first.bind last

theorem Runs.bind_pure {x : Parser κ β} {f : β → Parser κ γ} {b : β} {c : γ}
    (first : Runs pre x events (.ok b) post) (last : f b = Pure.pure c) :
    Runs pre (x >>= f) events (.ok c) post :=
  first.bind_last (last ▸ .pure c)

theorem Runs.bind_error {x : Parser κ β} {f : β → Parser κ γ} {e : SyntaxError}
    (first : Runs pre x events (.error e) post) : Runs pre (x >>= f) events (.error e) post := by
  intro k holds
  obtain ⟨k₁, run, holds⟩ := first k holds
  exact ⟨k₁, by simp only [Bind.bind, run], holds⟩

theorem bind_silent {x : Parser κ β} {f : β → Parser κ γ} {b : β} {k k' : κ}
    (run : x k = ⟨[], .ok b, k'⟩) : (x >>= f) k = f b k' := by
  simp only [Bind.bind, run, List.nil_append]

theorem Runs.weaken {x : Parser κ β} {result : Except SyntaxError β}
    (run : Runs pre x events result mid) (implied : ∀ k, mid k → post k) :
    Runs pre x events result post := by
  intro k holds
  obtain ⟨k', run, holds⟩ := run k holds
  exact ⟨k', run, implied k' holds⟩

end Parser

namespace Parse

open Hashlang.Parser (Runs bind_silent)
open Tape.Faithful

section

variable {κ : Type} [Tape κ Token] {fuel : Nat} {k k' : κ} {t : Token}

theorem position_run : (Parser.position : Parser κ _) k = ⟨[], .ok (Tape.position k), k⟩ := rfl

theorem read_run {next : Option Token} (taken : Tape.read k = (next, k')) :
    (Parser.read : Parser κ _) k = ⟨[], .ok next, k'⟩ := by
  rw [Parser.read, taken]

theorem consume_end (taken : Tape.read k = (none, k')) :
    (consume (fuel + 1) : Parser κ _) k = ⟨[], .ok none, k'⟩ := by
  rw [consume]
  exact (bind_silent position_run).trans (bind_silent (read_run taken))

theorem consume_comment (taken : Tape.read k = (some t, k')) (comment : t.kind = .comment) :
    (consume (fuel + 1) : Parser κ _) k = consume fuel k' := by
  rw [consume]
  refine (bind_silent position_run).trans ((bind_silent (read_run taken)).trans ?_)
  exact congrFun (if_pos comment) k'

theorem consume_token (taken : Tape.read k = (some t, k')) (notComment : t.kind ≠ .comment) :
    (consume (fuel + 1) : Parser κ _) k = ⟨[.consumed (Tape.position k) t], .ok (some t), k'⟩ := by
  rw [consume]
  refine (bind_silent position_run).trans ((bind_silent (read_run taken)).trans ?_)
  exact congrFun (if_neg notComment) k'

end

variable {κ β : Type} [Tape κ Token] [Tape.Faithful κ] {n fuel : Nat} {t : Token} {ts : List Token}

def At (n : Nat) (ts : List Token) (k : κ) : Prop := Shows k n ts

/-- The token `t` at index `n` was taken last, and `ts` are ahead. -/
def Taken (n : Nat) (t : Token) (ts : List Token) (k : κ) : Prop :=
  Shows k (n + 1) ts ∧ Shows (Tape.rollback k) n (t :: ts)

theorem runs_peek : Runs (At n ts) (Parser.peek : Parser κ _) [] (.ok ts.head?) (At n ts) :=
  fun k shown => ⟨k, by rw [Parser.peek, peek_eq shown], shown⟩

theorem runs_rollback : Runs (Taken n t ts) (Parser.rollback : Parser κ _) [] (.ok ()) (At n (t :: ts)) :=
  fun k taken => ⟨Tape.rollback k, rfl, taken.2⟩

theorem runs_consume_nil :
    Runs (At n []) (consume (fuel + 1) : Parser κ _) [] (.ok none) (At n []) := by
  intro k shown
  obtain ⟨k', taken, shown⟩ := read_nil shown
  exact ⟨k', consume_end taken, shown⟩

theorem runs_consume (notComment : t.kind ≠ .comment) :
    Runs (At n (t :: ts)) (consume (fuel + 1) : Parser κ _) [.consumed n t] (.ok (some t))
      (Taken n t ts) := by
  intro k shown
  obtain ⟨k', taken, shown', undone⟩ := read_cons shown
  exact ⟨k', by rw [consume_token taken notComment, position_eq shown], shown', undone⟩

theorem runs_take (notComment : t.kind ≠ .comment) :
    Runs (At n (t :: ts)) (consume (fuel + 1) : Parser κ _) [.consumed n t] (.ok (some t))
      (At (n + 1) ts) :=
  (runs_consume notComment).weaken fun _ => And.left

/-- One unit of fuel more than there are tokens is enough. -/
theorem consume_fuel {k : κ} (shown : At n ts k) (enough : ts.length < fuel) :
    (consume (fuel + 1) : Parser κ _) k = consume fuel k := by
  induction ts generalizing k n fuel with
  | nil =>
    obtain ⟨fuel, rfl⟩ := Nat.exists_eq_add_one_of_ne_zero (Nat.ne_zero_of_lt enough)
    obtain ⟨k', taken, -⟩ := read_nil shown
    rw [consume_end taken, consume_end taken]
  | cons t ts ih =>
    obtain ⟨fuel, rfl⟩ := Nat.exists_eq_add_one_of_ne_zero (Nat.ne_zero_of_lt enough)
    obtain ⟨k', taken, shown, -⟩ := read_cons shown
    by_cases comment : t.kind = .comment
    · rw [consume_comment taken comment, consume_comment taken comment]
      exact ih shown (Nat.lt_of_succ_lt_succ enough)
    · rw [consume_token taken comment, consume_token taken comment]

theorem runs_comment {f : Option Token → Parser κ β} {events : List Event}
    {result : Except SyntaxError β} {post : κ → Prop} (comment : t.kind = .comment)
    (enough : ts.length < fuel)
    (run : Runs (At (n + 1) ts) (consume (fuel + 1) >>= f) events result post) :
    Runs (At n (t :: ts)) (consume (fuel + 1) >>= f) events result post := by
  intro k shown
  obtain ⟨k', taken, shown, -⟩ := read_cons shown
  have same : (consume (fuel + 1) : Parser κ _) k = consume (fuel + 1) k' := by
    rw [consume_comment taken comment, consume_fuel shown enough]
  obtain ⟨last, run, holds⟩ := run k' shown
  refine ⟨last, ?_, holds⟩
  rw [← run]
  simp only [Bind.bind, same]

end Parse

end Hashlang
