import Hashlang.Proofs.Syntax.Execution
import Hashlang.Proofs.Syntax.Soundness

namespace Hashlang

namespace Parse

def taken (events : List Event) : List (Nat × Token) :=
  events.filterMap fun event =>
    match event with
    | .consumed index token => some (index, token)
    | _ => none

@[simp] theorem taken_consumed (n : Nat) (t : Token) (events : List Event) :
    taken (.consumed n t :: events) = (n, t) :: taken events := rfl

@[simp] theorem taken_header (name : String) (events : List Event) :
    taken (.header name :: events) = taken events := rfl

@[simp] theorem taken_append (events later : List Event) :
    taken (events ++ later) = taken events ++ taken later := List.filterMap_append

@[simp] theorem taken_ending (rest : List Token) : taken (ending rest) = [] := by
  unfold ending
  split <;> rfl

/-- From the tokens `ts` at index `n` to the tokens `rest` at index `m`, each token that is no comment is
taken, once or twice in a row. -/
inductive Swept : (n : Nat) → (ts : List Token) → (takes : List (Nat × Token)) → (m : Nat) →
    (rest : List Token) → Prop where
  | done {n : Nat} {ts : List Token} : Swept n ts [] n ts
  | comment {n m : Nat} {t : Token} {ts rest : List Token} {takes : List (Nat × Token)} :
      t.kind = .comment → Swept (n + 1) ts takes m rest → Swept n (t :: ts) takes m rest
  | once {n m : Nat} {t : Token} {ts rest : List Token} {takes : List (Nat × Token)} :
      t.kind ≠ .comment → Swept (n + 1) ts takes m rest →
      Swept n (t :: ts) ((n, t) :: takes) m rest
  | twice {n m : Nat} {t : Token} {ts rest : List Token} {takes : List (Nat × Token)} :
      t.kind ≠ .comment → Swept (n + 1) ts takes m rest →
      Swept n (t :: ts) ((n, t) :: (n, t) :: takes) m rest

/-- The first token was taken and put back, if its kind is one of `kinds`; or no token was. -/
inductive PutBack (kinds : Token.Kind → Prop) (n : Nat) : (ts : List Token) →
    (takes : List (Nat × Token)) → Prop where
  | nothing {ts : List Token} : PutBack kinds n ts []
  | first {t : Token} {ts : List Token} : kinds t.kind → PutBack kinds n (t :: ts) [(n, t)]

namespace Swept

variable {n m last : Nat} {t : Token} {ts us rest : List Token} {takes later : List (Nat × Token)}

theorem append (swept : Swept n ts takes m us) (more : Swept m us later last rest) :
    Swept n ts (takes ++ later) last rest := by
  induction swept with
  | done => exact more
  | comment comment _ ih => exact .comment comment (ih more)
  | once other _ ih => exact .once other (ih more)
  | twice other _ ih => exact .twice other (ih more)

theorem length_eq (swept : Swept n ts takes m rest) : m + rest.length = n + ts.length := by
  induction swept with
  | done => rfl
  | comment _ _ ih => rw [ih, add_length_cons]
  | once _ _ ih => rw [ih, add_length_cons]
  | twice _ _ ih => rw [ih, add_length_cons]

theorem le (swept : Swept n ts takes m rest) : n ≤ m := by
  induction swept with
  | done => exact Nat.le_refl _
  | comment _ _ ih => exact Nat.le_of_succ_le ih
  | once _ _ ih => exact Nat.le_of_succ_le ih
  | twice _ _ ih => exact Nat.le_of_succ_le ih

theorem le_of_mem (swept : Swept n ts takes m rest) : ∀ i ∈ takes.map Prod.fst, n ≤ i := by
  induction swept with
  | done => simp
  | comment _ _ ih => exact fun i member => Nat.le_of_succ_le (ih i member)
  | once _ _ ih =>
    simp only [List.map_cons, List.forall_mem_cons]
    exact ⟨Nat.le_refl _, fun i member => Nat.le_of_succ_le (ih i member)⟩
  | twice _ _ ih =>
    simp only [List.map_cons, List.forall_mem_cons]
    exact ⟨Nat.le_refl _, Nat.le_refl _, fun i member => Nat.le_of_succ_le (ih i member)⟩

theorem behind (swept : Swept (n + 1) ts takes m rest) : n ∉ takes.map Prod.fst :=
  fun member => Nat.not_succ_le_self n (swept.le_of_mem n member)

theorem count_eq_zero (swept : Swept (n + 1) ts takes m rest) : (takes.map Prod.fst).count n = 0 :=
  List.count_eq_zero_of_not_mem swept.behind

theorem mem_cons_iff {s : Token} (swept : Swept (n + 1) ts takes m rest) (other : t.kind ≠ .comment)
    (later : ∀ k, (n + 1 + k, s) ∈ takes ↔ n + 1 + k < m ∧ ts[k]? = some s ∧ s.kind ≠ .comment)
    (k : Nat) : (n + k, s) ∈ (n, t) :: takes ↔
      n + k < m ∧ (t :: ts)[k]? = some s ∧ s.kind ≠ .comment := by
  cases k with
  | zero =>
    have inside : n < m := swept.le
    have absent : (n, s) ∉ takes := fun member => swept.behind (List.mem_map_of_mem member)
    have first : s = t ↔ t = s ∧ s.kind ≠ .comment :=
      ⟨fun same => ⟨same.symm, same ▸ other⟩, fun same => same.1.symm⟩
    simpa [absent, inside] using first
  | succ k =>
    have place : n + (k + 1) = n + 1 + k := by omega
    have different : (n + 1 + k, s) ≠ (n, t) := by
      intro same
      have index : n + 1 + k = n := congrArg Prod.fst same
      omega
    rw [place, List.mem_cons, later k, List.getElem?_cons_succ]
    exact or_iff_right different

theorem mem_iff (swept : Swept n ts takes m rest) (k : Nat) (s : Token) :
    (n + k, s) ∈ takes ↔ n + k < m ∧ ts[k]? = some s ∧ s.kind ≠ .comment := by
  induction swept generalizing k with
  | @done n ts =>
    have outside : ¬n + k < n := by omega
    simp [outside]
  | @comment n m t ts rest takes comment swept ih =>
    cases k with
    | zero =>
      have absent : (n, s) ∉ takes := fun member => swept.behind (List.mem_map_of_mem member)
      refine iff_of_false absent ?_
      rintro ⟨-, first, other⟩
      cases first
      exact other comment
    | succ k =>
      have place : n + (k + 1) = n + 1 + k := by omega
      rw [place, ih, List.getElem?_cons_succ]
  | once other swept ih => exact swept.mem_cons_iff other ih k
  | twice other swept ih =>
    rw [List.mem_cons, ← swept.mem_cons_iff other ih k]
    exact or_iff_right_of_imp fun same => same ▸ List.mem_cons_self

theorem sorted (swept : Swept n ts takes m rest) : (takes.map Prod.fst).Pairwise (· ≤ ·) := by
  induction swept with
  | done => exact .nil
  | comment _ _ ih => exact ih
  | once _ swept ih => exact .cons (fun i member => Nat.le_of_succ_le (swept.le_of_mem i member)) ih
  | twice other swept ih =>
    have first := (Swept.once other swept).le_of_mem
    exact .cons first (.cons (List.forall_mem_cons.mp first).2 ih)

theorem count_le (swept : Swept n ts takes m rest) (i : Nat) : (takes.map Prod.fst).count i ≤ 2 := by
  induction swept with
  | done => exact Nat.zero_le _
  | comment _ _ ih => exact ih
  | @once n _ _ _ _ _ _ swept ih =>
    by_cases here : n = i
    · subst here
      simp [swept.count_eq_zero]
    · simpa [here] using ih
  | @twice n _ _ _ _ _ _ swept ih =>
    by_cases here : n = i
    · subst here
      simp [swept.count_eq_zero]
    · simpa [here] using ih

theorem again {kinds : Token.Kind → Prop} (other : t.kind ≠ .comment)
    (back : PutBack kinds n (t :: ts) takes) (swept : Swept (n + 1) ts later m rest) :
    Swept n (t :: ts) (takes ++ (n, t) :: later) m rest := by
  cases back with
  | nothing => exact .once other swept
  | first => exact .twice other swept

end Swept

def Begins (kind : Token.Kind) : Prop := kind ∉ [.comment, .closeParen, .endOfFile]

def Ends (kind : Token.Kind) : Prop := kind = .closeParen ∨ kind = .endOfFile

def Sweeps (n : Nat) (ts : List Token) (takes : List (Nat × Token)) :
    (result : Except SyntaxError (Option Expr)) → (m : Nat) → (rest : List Token) → Prop
  | .ok (some _), m, rest => Swept n ts takes m rest
  | .ok none, m, rest =>
    ∃ seen back, takes = seen ++ back ∧ Swept n ts seen m rest ∧ PutBack Ends m rest back
  | .error _, _, _ => ∃ m rest, Swept n ts takes m rest

def SweepsArguments (n : Nat) (ts : List Token) (takes : List (Nat × Token)) :
    (result : Except SyntaxError (List Expr × Token)) → (m : Nat) → (rest : List Token) → Prop
  | .ok _, m, rest => Swept n ts takes m rest
  | .error _, _, _ => ∃ m rest, Swept n ts takes m rest

section

variable {kinds : Token.Kind → Prop} {n m : Nat} {t : Token} {ts rest : List Token}
  {takes held : List (Nat × Token)}

theorem Begins.not_ends {kind : Token.Kind} (begins : Begins kind) : ¬Ends kind := by
  rintro (rfl | rfl) <;> exact begins (by simp)

theorem Ends.ne_comment {kind : Token.Kind} (ends : Ends kind) : kind ≠ .comment := by
  rcases ends with rfl | rfl <;> decide

theorem PutBack.eq_nil (back : PutBack kinds n ts held) (none : ∀ t ∈ ts.head?, ¬kinds t.kind) :
    held = [] := by
  cases back with
  | nothing => rfl
  | first first => exact absurd first (none _ rfl)

theorem PutBack.eq_nil_of_begins (back : PutBack Ends n (t :: ts) held) (begins : Begins t.kind) :
    held = [] := by
  cases back with
  | nothing => rfl
  | first ends => exact absurd ends begins.not_ends

theorem PutBack.swept (back : PutBack Ends n ts held) : ∃ m rest, Swept n ts held m rest := by
  cases back with
  | nothing => exact ⟨_, _, .done⟩
  | first ends => exact ⟨_, _, .once ends.ne_comment .done⟩

namespace Sweeps

theorem again {result : Except SyntaxError (Option Expr)} (other : t.kind ≠ .comment)
    (back : PutBack kinds n (t :: ts) held) (sweeps : Sweeps (n + 1) ts takes result m rest) :
    Sweeps n (t :: ts) (held ++ (n, t) :: takes) result m rest := by
  match result, sweeps with
  | .ok (some _), swept => exact Swept.again other back swept
  | .ok none, ⟨seen, behind, whole, swept, ends⟩ =>
    exact ⟨_, behind, by rw [whole, List.append_assoc, List.cons_append], swept.again other back, ends⟩
  | .error _, ⟨_, _, swept⟩ => exact ⟨_, _, swept.again other back⟩

theorem comment {result : Except SyntaxError (Option Expr)} (comment : t.kind = .comment)
    (sweeps : Sweeps (n + 1) ts takes result m rest) : Sweeps n (t :: ts) takes result m rest := by
  match result, sweeps with
  | .ok (some _), swept => exact Swept.comment comment swept
  | .ok none, ⟨seen, behind, whole, swept, ends⟩ =>
    exact ⟨seen, behind, whole, .comment comment swept, ends⟩
  | .error _, ⟨_, _, swept⟩ => exact ⟨_, _, .comment comment swept⟩

theorem putBack {e : Option Expr} (sweeps : Sweeps n ts takes (.ok e) m rest) :
    ∃ seen held, takes = seen ++ held ∧ Swept n ts seen m rest ∧ PutBack Ends m rest held := by
  match e, sweeps with
  | some _, swept => exact ⟨takes, [], (List.append_nil takes).symm, swept, .nothing⟩
  | none, found => exact found

theorem exists_swept {result : Except SyntaxError (Option Expr)}
    (sweeps : Sweeps n ts takes result m rest) : ∃ m rest, Swept n ts takes m rest := by
  match result, sweeps with
  | .error _, swept => exact swept
  | .ok _, sweeps =>
    obtain ⟨seen, held, rfl, swept, ends⟩ := sweeps.putBack
    obtain ⟨_, _, last⟩ := ends.swept
    exact ⟨_, _, swept.append last⟩

end Sweeps

theorem SweepsArguments.comment {result : Except SyntaxError (List Expr × Token)}
    (comment : t.kind = .comment) (sweeps : SweepsArguments (n + 1) ts takes result m rest) :
    SweepsArguments n (t :: ts) takes result m rest := by
  match result, sweeps with
  | .ok _, swept => exact Swept.comment comment swept
  | .error _, ⟨_, _, swept⟩ => exact ⟨_, _, .comment comment swept⟩

end

mutual

theorem ExpressionRun.sweeps {n m : Nat} {ts rest : List Token} {events : List Event}
    {result : Except SyntaxError (Option Expr)} : ExpressionRun n ts events result m rest →
    ∀ {held : List (Nat × Token)}, PutBack Begins n ts held →
      Sweeps n ts (held ++ taken events) result m rest
  | .exhausted, _, back => by
    rw [back.eq_nil (by simp)]
    exact ⟨[], [], rfl, .done, .nothing⟩
  | .comment comment run, _, back => by
    rw [back.eq_nil (by simp [Begins, comment])]
    exact (run.sweeps .nothing).comment comment
  | .skipped _ notComment run, _, back => .again notComment back (run.sweeps .nothing)
  | .leaf leaf, _, back => Swept.again (by cases leaf <;> simp) back .done
  | .malformed number _, _, back => ⟨_, _, .again (by simp [number]) back .done⟩
  | .stop stop, _, back => by
    rw [back.eq_nil (by rcases stop with stop | stop <;> simp [Begins, stop])]
    exact ⟨[], _, rfl, .done, .first stop⟩
  | .illegal illegal, _, back => ⟨_, _, .again (by simp [illegal]) back .done⟩
  | .procedureError paren run, _, back => .again (by simp [paren]) back (run.sweeps .nothing)
  | .procedureMissing paren run, _, back => by
    obtain ⟨_, _, swept⟩ := (run.sweeps .nothing).exists_swept
    exact ⟨_, _, .again (by simp [paren]) back swept⟩
  | .argumentsError paren run failed, _, back => by
    obtain ⟨_, _, swept⟩ := failed.sweeps .nothing
    rw [taken_consumed, taken_append]
    exact ⟨_, _, .again (by simp [paren]) back (Swept.append (run.sweeps .nothing) swept)⟩
  | .application paren run closed, _, back => by
    rw [taken_consumed, taken_append]
    exact Swept.again (by simp [paren]) back (Swept.append (run.sweeps .nothing) (closed.sweeps .nothing))

theorem ArgumentsRun.sweeps {n m : Nat} {ts rest : List Token} {events : List Event}
    {result : Except SyntaxError (List Expr × Token)} : ArgumentsRun n ts events result m rest →
    ∀ {held : List (Nat × Token)}, PutBack Ends n ts held →
      SweepsArguments n ts (held ++ taken events) result m rest
  | .exhausted, _, back => by
    rw [back.eq_nil (by simp)]
    exact ⟨_, _, .done⟩
  | .comment comment run, _, back => by
    rw [back.eq_nil (by simp [Ends, comment])]
    exact (run.sweeps .nothing).comment comment
  | .close close, _, back => Swept.again (by simp [close]) back .done
  | .endOfFile last, _, back => ⟨_, _, .again (by simp [last]) back .done⟩
  | .argumentError begins run, _, back => by
    rw [back.eq_nil_of_begins begins]
    exact run.sweeps (.first begins)
  -- What the argument puts back is what the arguments behind it begin with.
  | .laterError begins run failed, _, back => by
    obtain ⟨seen, held, whole, swept, ends⟩ := (run.sweeps (.first begins)).putBack
    obtain ⟨_, _, last⟩ := failed.sweeps ends
    rw [back.eq_nil_of_begins begins, List.nil_append, taken_consumed, taken_append]
    have both := swept.append last
    rw [← List.append_assoc, ← whole] at both
    exact ⟨_, _, both⟩
  | .argument begins run closed, _, back => by
    obtain ⟨seen, held, whole, swept, ends⟩ := (run.sweeps (.first begins)).putBack
    rw [back.eq_nil_of_begins begins, List.nil_append, taken_consumed, taken_append]
    have both := swept.append (closed.sweeps ends)
    rw [← List.append_assoc, ← whole] at both
    exact both

end

section

variable {n m : Nat} {ts rest : List Token} {events : List Event}

theorem NameRun.swept {result : Except SyntaxError Header} (run : NameRun n ts events result m rest) :
    Swept n ts (taken events) m rest := by
  induction run with
  | exhausted => exact .done
  | comment comment _ ih => exact .comment comment ih
  | other other =>
    simp only [List.mem_cons, not_or] at other
    exact .once other.1 .done
  | name name => exact .once (by simp [name]) .done

theorem HeaderRun.swept {result : Except SyntaxError Header} (run : HeaderRun n ts events result m rest) :
    Swept n ts (taken events) m rest := by
  induction run with
  | exhausted => exact .done
  | comment comment _ ih => exact .comment comment ih
  | other notComment _ => exact .once notComment .done
  | directive directive _ run => exact .once (by simp [directive]) run.swept

theorem ExpressionsRun.exists_swept {result : Except SyntaxError (List Expr)}
    (run : ExpressionsRun n ts events result m rest) :
    ∃ m rest, Swept n ts (taken events) m rest := by
  induction run with
  | stop run => exact (run.sweeps .nothing).exists_swept
  | error run => exact (run.sweeps .nothing).exists_swept
  | laterError run _ ih =>
    obtain ⟨_, _, swept⟩ := ih
    rw [taken_append]
    exact ⟨_, _, Swept.append (run.sweeps .nothing) swept⟩
  | next run _ ih =>
    obtain ⟨_, _, swept⟩ := ih
    rw [taken_append]
    exact ⟨_, _, Swept.append (run.sweeps .nothing) swept⟩

theorem ProgramRun.exists_swept {result : Except SyntaxError Program}
    (run : ProgramRun n ts events result m rest) : ∃ m rest, Swept n ts (taken events) m rest := by
  cases run with
  | header header => exact ⟨_, _, header.swept⟩
  | body header body =>
    obtain ⟨_, _, swept⟩ := body.exists_swept
    rw [taken_append]
    exact ⟨_, _, header.swept.append swept⟩
  | complete header body =>
    obtain ⟨_, _, swept⟩ := body.exists_swept
    simp only [taken_append, taken_header, taken_ending, List.append_nil]
    exact ⟨_, _, header.swept.append swept⟩

end

end Parse

open Parse

/-- From wherever a cursor stands, parsing comes to an end: there is a derivation of what it notes and
returns, and no amount of fuel above the bound changes either. The tokens that it takes are in order, none
of them is a comment, no token between two of them is left out, and none is taken more than twice. -/
theorem parseTape_consumption (c : Cursor Token) :
    let takes := taken (parseTape c).events
    let indices := takes.map Prod.fst
    (∃ m rest, ProgramRun c.position c.ahead (parseTape c).events (parseTape c).result m rest) ∧
    (∀ fuel, 2 * c.ahead.length + 1 < fuel →
      (program fuel c).events = (parseTape c).events ∧ (program fuel c).result = (parseTape c).result) ∧
    indices.Pairwise (· ≤ ·) ∧
    (∀ i t, (i, t) ∈ takes → c.toList[i]? = some t ∧ t.kind ≠ .comment) ∧
    (∀ first ∈ indices, ∀ last ∈ indices, ∀ i t, first ≤ i → i ≤ last → c.toList[i]? = some t →
      t.kind ≠ .comment → i ∈ indices) ∧
    ∀ i, indices.count i ≤ 2 := by
  obtain ⟨events, result, m, rest, run⟩ := exists_programRun c.position c.ahead
  obtain ⟨_, parsed, -⟩ := run.parseTape (k := c) (And.intro rfl rfl)
  rw [parsed]
  obtain ⟨stop, behind, swept⟩ := run.exists_swept
  -- Indices are counted from the cursor on, where nothing in front of it can be taken.
  have place (i : Nat) (t : Token) (ahead : c.position ≤ i) :
      (i, t) ∈ taken events ↔ i < stop ∧ c.toList[i]? = some t ∧ t.kind ≠ .comment := by
    obtain ⟨k, rfl⟩ := Nat.exists_eq_add_of_le ahead
    rw [swept.mem_iff, c.ahead_eq_drop, List.getElem?_drop]
  refine ⟨⟨m, rest, run⟩, ?_, swept.sorted, ?_, ?_, swept.count_le⟩
  · intro fuel enough
    obtain ⟨_, ran, -⟩ := run.runs enough c (And.intro rfl rfl)
    rw [ran]
    exact ⟨rfl, rfl⟩
  · intro i t member
    have ahead := swept.le_of_mem i (List.mem_map_of_mem member)
    exact ((place i t ahead).mp member).2
  · intro first isFirst last isLast i t lower upper found other
    obtain ⟨⟨_, s⟩, member, rfl⟩ := List.mem_map.mp isLast
    have inside := ((place _ s (swept.le_of_mem _ isLast)).mp member).1
    have ahead := Nat.le_trans (swept.le_of_mem _ isFirst) lower
    exact List.mem_map_of_mem ((place i t ahead).mpr ⟨Nat.lt_of_le_of_lt upper inside, found, other⟩)

theorem parseTape_consumption_quote :
    let f : Token := ⟨.identifier, "f", ⟨9, 1⟩⟩
    let c := (Cursor.ofList [⟨.closeParen, ")", ⟨0, 1⟩⟩, ⟨.directive, "#lang", ⟨1, 5⟩⟩,
      ⟨.identifier, "a", ⟨6, 1⟩⟩, ⟨.openParen, "(", ⟨8, 1⟩⟩, f, ⟨.quote, "'", ⟨10, 1⟩⟩,
      ⟨.comment, "", ⟨11, 1⟩⟩, ⟨.closeParen, ")", ⟨13, 1⟩⟩]).performAll [.read]
    let indices := (taken (parseTape c).events).map Prod.fst
    indices = [1, 2, 3, 4, 5, 5, 7, 7] ∧ (∀ i, indices.count i ≤ 2) ∧ 3 ∈ indices ∧ 7 ∈ indices ∧
      c.toList[4]? = some f ∧ f.kind ≠ .comment ∧ 4 ∈ indices ∧ 2 * c.ahead.length + 1 < 100 ∧
      (program 100 c).result = (parseTape c).result := by
  intro f c indices
  have written : indices = [1, 2, 3, 4, 5, 5, 7, 7] := by decide +kernel +zetaReduce
  have first : 3 ∈ indices := by simp [written]
  have last : 7 ∈ indices := by simp [written]
  have enough : 2 * c.ahead.length + 1 < 100 := by decide
  obtain ⟨-, bounded, -, -, complete, twice⟩ := parseTape_consumption c
  have between := complete 3 first 7 last 4 f (by decide) (by decide) rfl (by decide)
  exact ⟨written, twice, first, last, rfl, by decide, between, enough, (bounded 100 enough).2⟩

end Hashlang
