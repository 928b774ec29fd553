import Hashlang.Proofs.Reading.Faithful
import Hashlang.Proofs.Syntax.Grammar

namespace Hashlang

namespace Parse

/-- Reading goes on from the tokens `ts` at index `n` over `used` to the tokens `rest` at index `m`. -/
structure Passed (n : Nat) (ts used : List Token) (m : Nat) (rest : List Token) : Prop where
  tokens : ts = used ++ rest
  place : m = n + used.length

namespace Passed

variable {n m last : Nat} {t : Token} {ts us rest used more : List Token}

theorem refl : Passed n ts [] n ts := ⟨rfl, rfl⟩

theorem one : Passed n (t :: ts) [t] (n + 1) ts := ⟨rfl, rfl⟩

theorem cons (passed : Passed (n + 1) ts used m rest) : Passed n (t :: ts) (t :: used) m rest where
  tokens := by rw [passed.tokens, List.cons_append]
  place := by rw [passed.place, add_length_cons]

theorem append (passed : Passed n ts used m us) (later : Passed m us more last rest) :
    Passed n ts (used ++ more) last rest where
  tokens := by rw [passed.tokens, later.tokens, List.append_assoc]
  place := by rw [later.place, passed.place, List.length_append, Nat.add_assoc]

end Passed

def Reads : Except SyntaxError (Option Expr) → (ys rest : List Token) → Prop
  | .ok (some e), ys, _ => Yields e ys
  | .ok none, ys, rest => ys = [] ∧ Stops rest
  | .error _, _, _ => True

def ReadsArguments : Except SyntaxError (List Expr × Token) → (ys : List Token) → Prop
  | .ok (args, close), ys => close.kind = .closeParen ∧ ∃ us, ys = us ++ [close] ∧ YieldsEach args us
  | .error _, _ => True

def ReadsEach : Except SyntaxError (List Expr) → (ys rest : List Token) → Prop
  | .ok es, ys, rest => YieldsEach es ys ∧ Stops rest
  | .error _, _, _ => True

theorem Reads.prepend {argument : Option Expr} {args : List Expr} {us vs rest : List Token}
    (reads : Reads (.ok argument) us rest) (later : YieldsEach args vs) :
    YieldsEach (argument.toList ++ args) (us ++ vs) := by
  cases argument with
  | none =>
    obtain ⟨rfl, -⟩ := reads
    exact later
  | some e => exact .cons reads later

mutual

/-- Everything but the tokens of what is returned is noise. -/
theorem ExpressionRun.reads {n m : Nat} {ts rest : List Token} {events : List Event}
    {result : Except SyntaxError (Option Expr)} : ExpressionRun n ts events result m rest →
    ∃ used, Passed n ts used m rest ∧ Reads result (meaningful used) rest
  | .exhausted => ⟨[], .refl, rfl, fun t first => absurd first (by simp)⟩
  | .comment comment run => by
    obtain ⟨used, passed, reads⟩ := run.reads
    refine ⟨_ :: used, passed.cons, ?_⟩
    rwa [meaningful_noise (by rw [comment]; rfl)]
  | .skipped noise _ run => by
    obtain ⟨used, passed, reads⟩ := run.reads
    refine ⟨_ :: used, passed.cons, ?_⟩
    rwa [meaningful_noise noise]
  | .leaf leaf => by
    refine ⟨_, .one, ?_⟩
    rw [meaningful_cons leaf.real]
    exact .leaf leaf
  | .malformed _ _ => ⟨_, .one, trivial⟩
  | .stop stop => ⟨[], .refl, rfl, fun s first => by cases first; exact stop⟩
  | .illegal _ => ⟨_, .one, trivial⟩
  | .procedureError _ run => by
    obtain ⟨used, passed, -⟩ := run.reads
    exact ⟨_ :: used, passed.cons, trivial⟩
  | .procedureMissing _ run => by
    obtain ⟨used, passed, -⟩ := run.reads
    exact ⟨_ :: used, passed.cons, trivial⟩
  | .argumentsError _ run failed => by
    obtain ⟨used, passed, -⟩ := run.reads
    obtain ⟨more, later, -⟩ := failed.reads
    exact ⟨_ :: (used ++ more), (passed.append later).cons, trivial⟩
  | .application paren run closed => by
    obtain ⟨used, passed, yields⟩ := run.reads
    obtain ⟨more, later, close, us, written, each⟩ := closed.reads
    refine ⟨_ :: (used ++ more), (passed.append later).cons, ?_⟩
    rw [meaningful_cons (by rw [paren]; rfl), meaningful_append, written]
    exact .application paren yields each close

theorem ArgumentsRun.reads {n m : Nat} {ts rest : List Token} {events : List Event}
    {result : Except SyntaxError (List Expr × Token)} : ArgumentsRun n ts events result m rest →
    ∃ used, Passed n ts used m rest ∧ ReadsArguments result (meaningful used)
  | .exhausted => ⟨[], .refl, trivial⟩
  | .comment comment run => by
    obtain ⟨used, passed, reads⟩ := run.reads
    refine ⟨_ :: used, passed.cons, ?_⟩
    rwa [meaningful_noise (by rw [comment]; rfl)]
  | .close close => by
    refine ⟨_, .one, close, [], ?_, .nil⟩
    rw [meaningful_cons (by rw [close]; rfl)]
    rfl
  | .endOfFile _ => ⟨_, .one, trivial⟩
  -- The token that was put back is the first one of the expression, so it is counted there.
  | .argumentError _ run => by
    obtain ⟨used, passed, -⟩ := run.reads
    exact ⟨used, passed, trivial⟩
  | .laterError _ run failed => by
    obtain ⟨used, passed, -⟩ := run.reads
    obtain ⟨more, later, -⟩ := failed.reads
    exact ⟨used ++ more, passed.append later, trivial⟩
  | .argument _ run closed => by
    obtain ⟨used, passed, reads⟩ := run.reads
    obtain ⟨more, later, close, us, written, each⟩ := closed.reads
    refine ⟨used ++ more, passed.append later, close, meaningful used ++ us, ?_, reads.prepend each⟩
    rw [meaningful_append, written, List.append_assoc]

end

theorem ExpressionsRun.reads {n m : Nat} {ts rest : List Token} {events : List Event}
    {result : Except SyntaxError (List Expr)} (run : ExpressionsRun n ts events result m rest) :
    ∃ used, Passed n ts used m rest ∧ ReadsEach result (meaningful used) rest := by
  induction run with
  | stop run =>
    obtain ⟨used, passed, nothing, stops⟩ := run.reads
    exact ⟨used, passed, by rw [nothing]; exact .nil, stops⟩
  | error run =>
    obtain ⟨used, passed, -⟩ := run.reads
    exact ⟨used, passed, trivial⟩
  | laterError run _ ih =>
    obtain ⟨used, passed, -⟩ := run.reads
    obtain ⟨more, later, -⟩ := ih
    exact ⟨used ++ more, passed.append later, trivial⟩
  | next run _ ih =>
    obtain ⟨used, passed, yields⟩ := run.reads
    obtain ⟨more, later, each, stops⟩ := ih
    refine ⟨used ++ more, passed.append later, ?_, stops⟩
    rw [meaningful_append]
    exact .cons yields each

theorem NameRun.reads {n m : Nat} {ts rest : List Token} {events : List Event} {h : Header}
    (run : NameRun n ts events (.ok h) m rest) :
    ∃ between name, ts = between ++ name :: rest ∧ (∀ t ∈ between, t.kind = .comment) ∧
      name.kind = .identifier ∧ h = ⟨name.value, name.span⟩ := by
  generalize found : Except.ok h = result at run
  induction run with
  | exhausted => cases found
  | @comment _ _ t _ _ _ _ comment _ ih =>
    obtain ⟨between, name, rfl, comments, identifier, made⟩ := ih found
    exact ⟨t :: between, name, rfl, List.forall_mem_cons.mpr ⟨comment, comments⟩, identifier, made⟩
  | other => cases found
  | @name _ t ts identifier =>
    cases found
    exact ⟨[], t, rfl, by simp, identifier, rfl⟩

theorem HeaderRun.reads {n m : Nat} {ts rest : List Token} {events : List Event} {h : Header}
    (run : HeaderRun n ts events (.ok h) m rest) :
    ∃ before lang between name, ts = before ++ lang :: (between ++ name :: rest) ∧
      (∀ t ∈ before, t.kind = .comment) ∧ lang.kind = .directive ∧ lang.value = "#lang" ∧
      (∀ t ∈ between, t.kind = .comment) ∧ name.kind = .identifier ∧
      h = ⟨name.value, name.span⟩ := by
  generalize found : Except.ok h = result at run
  induction run with
  | exhausted => cases found
  | @comment _ _ t _ _ _ _ comment _ ih =>
    obtain ⟨before, lang, between, name, rfl, comments, header⟩ := ih found
    exact ⟨t :: before, lang, between, name, rfl, List.forall_mem_cons.mpr ⟨comment, comments⟩, header⟩
  | other => cases found
  | @directive _ _ t _ _ _ _ directive lang run =>
    cases found
    obtain ⟨between, name, rfl, comments, identifier, made⟩ := run.reads
    exact ⟨[], t, between, name, rfl, by simp, directive, lang, comments, identifier, made⟩

theorem ProgramRun.grammatical {n m : Nat} {ts rest : List Token} {events : List Event} {p : Program}
    (run : ProgramRun n ts events (.ok p) m rest) : Grammatical ts p := by
  cases run with
  | complete header body =>
    obtain ⟨before, lang, between, name, rfl, comments, directive, value, comments', identifier, rfl⟩ :=
      header.reads
    obtain ⟨used, passed, each, stops⟩ := body.reads
    obtain rfl := passed.tokens
    exact .program comments directive value comments' identifier each (meaningful_append _ _)
      (Stops.meaningful stops)

end Parse

end Hashlang
