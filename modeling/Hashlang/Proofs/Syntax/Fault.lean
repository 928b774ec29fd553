import Hashlang.Proofs.Syntax.Execution
import Hashlang.Proofs.Syntax.Soundness

namespace Hashlang

/-- What is wrong with a list of tokens, and the token that shows it. There is no such token where the
input ends too early. -/
structure Fault where
  cause : SyntaxError.Cause
  culprit : Option Token := none
deriving DecidableEq

namespace Walk

/-- What an open application needs first: its procedure, or the parenthesis that closes it. -/
inductive Need where
  | procedure
  | closing
deriving DecidableEq

def Need.expected : Need → String
  | procedure => "expression"
  | closing => ")"

inductive State where
  | start
  | directed
  /-- Behind the header, with the needs of the open applications, innermost first. -/
  | body (needs : List Need)
  | finished
deriving DecidableEq

def fill : List Need → List Need
  | [] => []
  | _ :: outer => .closing :: outer

def bodyStep (needs : List Need) (t : Token) : Except Fault State :=
  match t.kind with
  | .comment | .quote | .openBracket | .closeBracket | .directive => .ok (.body needs)
  | .string | .identifier => .ok (.body (fill needs))
  | .number =>
    match Numeral.read? t.value with
    | some _ => .ok (.body (fill needs))
    | none => .error ⟨.malformedNumber t.value, some t⟩
  | .openParen => .ok (.body (.procedure :: needs))
  | .closeParen =>
    match needs with
    | [] => .ok .finished
    | .procedure :: _ => .error ⟨.unexpected "expression" (some .closeParen), some t⟩
    | .closing :: outer => .ok (.body (fill outer))
  | .endOfFile =>
    match needs with
    | [] => .ok .finished
    | need :: _ => .error { cause := .unexpected need.expected none }
  | .illegal => .error ⟨.unexpected "expression" (some .illegal), some t⟩

def step (q : State) (t : Token) : Except Fault State :=
  match q with
  | .start =>
    if t.kind = .comment then .ok .start
    else if t.kind = .directive ∧ t.value = "#lang" then .ok .directed
    else .error ⟨.missingHeader, some t⟩
  | .directed =>
    if t.kind = .comment then .ok .directed
    else if t.kind = .identifier then .ok (.body [])
    else if t.kind = .endOfFile then .error { cause := .unexpected "identifier" none }
    else .error ⟨.unexpected "identifier" (some t.kind), some t⟩
  | .body needs => bodyStep needs t
  | .finished => .ok .finished

def State.missing? : State → Option Fault
  | start => some { cause := .missingHeader }
  | directed => some { cause := .unexpected "identifier" none }
  | body [] => none
  | body (need :: _) => some { cause := .unexpected need.expected none }
  | finished => none

def run (q : State) (ts : List Token) : Except Fault State := ts.foldlM step q

def faultFrom? (q : State) (ts : List Token) : Option Fault :=
  match run q ts with
  | .error f => some f
  | .ok last => last.missing?

end Walk

/-- The leftmost fault of tokens, if there is one. -/
def fault? (ts : List Token) : Option Fault := Walk.faultFrom? .start ts

def Fault.error (f : Fault) : SyntaxError where
  cause := f.cause
  location :=
    match f.cause with
    | .malformedNumber _ => none
    | _ => f.culprit.map Token.span

theorem Fault.error_unexpected {t : Token} {kind : Token.Kind} (expected : String)
    (found : t.kind = kind) (real : kind ≠ .endOfFile) :
    Fault.error ⟨.unexpected expected (some kind), some t⟩ = .unexpectedToken expected (some t) := by
  simp [Fault.error, SyntaxError.unexpectedToken, Option.filter, found, real]

theorem Fault.error_ended {t : Token} (expected : String) (last : t.kind = .endOfFile) :
    Fault.error { cause := .unexpected expected none } = .unexpectedToken expected (some t) := by
  simp [Fault.error, SyntaxError.unexpectedToken, Option.filter, last]

namespace Walk

theorem run_append (q : State) (ts us : List Token) : run q (ts ++ us) = run q ts >>= (run · us) :=
  List.foldlM_append

theorem run_append_ok {q last : State} {ts : List Token} (us : List Token) (ran : run q ts = .ok last) :
    run q (ts ++ us) = run last us := by
  rw [run_append, ran]
  rfl

theorem run_error {q : State} {t : Token} {f : Fault} (ts : List Token) (stopped : step q t = .error f) :
    run q (t :: ts) = .error f := by
  unfold run
  rw [List.foldlM_cons, stopped]
  rfl

theorem run_ok {q next : State} {t : Token} (ts : List Token) (stepped : step q t = .ok next) :
    run q (t :: ts) = run next ts := by
  unfold run
  rw [List.foldlM_cons, stepped]
  rfl

theorem faultFrom?_error {q : State} {t : Token} {f : Fault} (ts : List Token)
    (stopped : step q t = .error f) : faultFrom? q (t :: ts) = some f := by
  unfold faultFrom?
  rw [run_error ts stopped]

theorem faultFrom?_ok {q next : State} {t : Token} (ts : List Token) (stepped : step q t = .ok next) :
    faultFrom? q (t :: ts) = faultFrom? next ts := by
  unfold faultFrom?
  rw [run_ok ts stepped]

theorem faultFrom?_finished (ts : List Token) : faultFrom? .finished ts = none := by
  induction ts with
  | nil => rfl
  | cons t ts ih =>
    rw [faultFrom?_ok ts rfl]
    exact ih

section

variable {t : Token} (needs : List Need)

theorem step_noise (noise : t.kind.isNoise) : step (.body needs) t = .ok (.body needs) := by
  rcases Token.Kind.noise_cases noise with kind | kind | kind | kind | kind <;>
    simp only [step, bodyStep, kind]

theorem faultFrom?_noise {ts : List Token} (noise : t.kind.isNoise) :
    faultFrom? (.body needs) (t :: ts) = faultFrom? (.body needs) ts :=
  faultFrom?_ok ts (step_noise needs noise)

theorem step_leaf {e : Expr} (leaf : Parse.Leaf t e) : step (.body needs) t = .ok (.body (fill needs)) := by
  cases leaf with
  | string => rfl
  | number literal => simp only [step, bodyStep, literal.reads]
  | identifier => rfl

theorem faultFrom?_leaf {ts : List Token} {e : Expr} (leaf : Parse.Leaf t e) :
    faultFrom? (.body needs) (t :: ts) = faultFrom? (.body (fill needs)) ts :=
  faultFrom?_ok ts (step_leaf needs leaf)

theorem step_malformed (number : t.kind = .number) (unreadable : Numeral.read? t.value = none) :
    step (.body needs) t = .error ⟨.malformedNumber t.value, some t⟩ := by
  simp only [step, bodyStep, number, unreadable]

theorem step_illegal (illegal : t.kind = .illegal) :
    step (.body needs) t = .error ⟨.unexpected "expression" (some .illegal), some t⟩ := by
  simp only [step, bodyStep, illegal]

theorem step_paren (paren : t.kind = .openParen) :
    step (.body needs) t = .ok (.body (.procedure :: needs)) := by
  simp only [step, bodyStep, paren]

theorem faultFrom?_paren {ts : List Token} (paren : t.kind = .openParen) :
    faultFrom? (.body needs) (t :: ts) = faultFrom? (.body (.procedure :: needs)) ts :=
  faultFrom?_ok ts (step_paren needs paren)

theorem step_close (close : t.kind = .closeParen) :
    step (.body (.closing :: needs)) t = .ok (.body (fill needs)) := by
  simp only [step, bodyStep, close]

theorem faultFrom?_close {ts : List Token} (close : t.kind = .closeParen) :
    faultFrom? (.body (.closing :: needs)) (t :: ts) = faultFrom? (.body (fill needs)) ts :=
  faultFrom?_ok ts (step_close needs close)

theorem step_unfilled (close : t.kind = .closeParen) :
    step (.body (.procedure :: needs)) t =
      .error ⟨.unexpected "expression" (some .closeParen), some t⟩ := by
  simp only [step, bodyStep, close]

theorem step_endOfFile (need : Need) (last : t.kind = .endOfFile) :
    step (.body (need :: needs)) t = .error { cause := .unexpected need.expected none } := by
  simp only [step, bodyStep, last]

end

theorem faultFrom?_ended {ts : List Token} (stops : Stops ts) : faultFrom? (.body []) ts = none := by
  cases ts with
  | nil => rfl
  | cons t ts =>
    have ended : step (.body []) t = .ok .finished := by
      rcases stops t rfl with kind | kind <;> simp only [step, bodyStep, kind]
    rw [faultFrom?_ok ts ended]
    exact faultFrom?_finished ts

theorem faultFrom?_unfilled {ts : List Token} (needs : List Need) (stops : Stops ts) :
    (faultFrom? (.body (.procedure :: needs)) ts).map Fault.error =
      some (.unexpectedToken "expression" ts.head?) := by
  cases ts with
  | nil => rfl
  | cons t ts =>
    rcases stops t rfl with close | last
    · rw [faultFrom?_error ts (step_unfilled needs close)]
      exact congrArg some (Fault.error_unexpected "expression" close (by decide))
    · rw [faultFrom?_error ts (step_endOfFile needs .procedure last)]
      exact congrArg some (Fault.error_ended "expression" last)

/-- Where a reading of `ts` ended with `result`, the walk over `ts` has met the fault that is reported, or
what it meets is what it meets in `later`. -/
def Meets {β : Type} (q : State) (ts : List Token) (result : Except SyntaxError β)
    (later : β → Option Fault) : Prop :=
  match result with
  | .ok b => faultFrom? q ts = later b
  | .error e => (faultFrom? q ts).map Fault.error = some e

theorem Meets.of_eq {β : Type} {q q' : State} {ts us : List Token} {result : Except SyntaxError β}
    {later : β → Option Fault} (same : faultFrom? q ts = faultFrom? q' us)
    (meets : Meets q' us result later) : Meets q ts result later := by
  unfold Meets at meets ⊢
  rw [same]
  exact meets

theorem Meets.of_error {β : Type} {q : State} {t : Token} {ts : List Token} {f : Fault} {e : SyntaxError}
    {later : β → Option Fault} (stopped : step q t = .error f) (same : f.error = e) :
    Meets q (t :: ts) (.error e) later := by
  unfold Meets
  rw [faultFrom?_error ts stopped, ← same]
  rfl

def behind (needs : List Need) (rest : List Token) : Option Expr → Option Fault
  | some _ => faultFrom? (.body (fill needs)) rest
  | none => faultFrom? (.body needs) rest

theorem behind_argument (outer : List Need) (rest : List Token) (argument : Option Expr) :
    behind (.closing :: outer) rest argument = faultFrom? (.body (.closing :: outer)) rest := by
  cases argument <;> rfl

end Walk

namespace Parse

open Walk

-- Both by induction on the run. The needs are arbitrary: an application is read with one more of them,
-- and only the tokens behind an expression tell whether it fills one.
mutual

theorem ExpressionRun.meets {n m : Nat} {ts rest : List Token} {events : List Event}
    {result : Except SyntaxError (Option Expr)} : ExpressionRun n ts events result m rest →
    ∀ needs, Meets (.body needs) ts result (behind needs rest)
  | .exhausted, _ => rfl
  | .comment comment run, needs =>
    (run.meets needs).of_eq (faultFrom?_noise needs (by rw [comment]; rfl))
  | .skipped noise _ run, needs => (run.meets needs).of_eq (faultFrom?_noise needs noise)
  | .leaf leaf, needs => faultFrom?_leaf needs leaf
  | .malformed number unreadable, needs => .of_error (step_malformed needs number unreadable) rfl
  | .stop _, _ => rfl
  | .illegal illegal, needs => by
    have same := Fault.error_unexpected "expression" illegal (by decide)
    exact .of_error (step_illegal needs illegal) same
  | .procedureError paren run, needs => by
    have failed := run.meets (.procedure :: needs)
    exact failed.of_eq (faultFrom?_paren needs paren)
  | .procedureMissing paren run, needs => by
    -- Here the error is not that of the inner run: it ended without one, in front of the culprit.
    have missing := run.meets (.procedure :: needs)
    obtain ⟨_, _, _, stops⟩ := run.reads
    exact Meets.of_eq ((faultFrom?_paren needs paren).trans missing) (faultFrom?_unfilled needs stops)
  | .argumentsError paren run failed, needs => by
    have procedure := run.meets (.procedure :: needs)
    exact (failed.meets needs).of_eq ((faultFrom?_paren needs paren).trans procedure)
  | .application paren run closed, needs => by
    have procedure := run.meets (.procedure :: needs)
    exact (closed.meets needs).of_eq ((faultFrom?_paren needs paren).trans procedure)

theorem ArgumentsRun.meets {n m : Nat} {ts rest : List Token} {events : List Event}
    {result : Except SyntaxError (List Expr × Token)} : ArgumentsRun n ts events result m rest →
    ∀ outer, Meets (.body (.closing :: outer)) ts result fun _ => faultFrom? (.body (fill outer)) rest
  | .exhausted, _ => rfl
  | .comment comment run, outer =>
    (run.meets outer).of_eq (faultFrom?_noise _ (by rw [comment]; rfl))
  | .close close, outer => faultFrom?_close outer close
  | .endOfFile last, outer => .of_error (step_endOfFile outer .closing last) (Fault.error_ended ")" last)
  | .argumentError _ run, outer => run.meets (.closing :: outer)
  | .laterError _ run failed, outer => by
    have argument := run.meets (.closing :: outer)
    exact (failed.meets outer).of_eq (argument.trans (behind_argument outer _ _))
  | .argument _ run closed, outer => by
    have argument := run.meets (.closing :: outer)
    exact (closed.meets outer).of_eq (argument.trans (behind_argument outer _ _))

end

theorem NameRun.meets {n m : Nat} {ts rest : List Token} {events : List Event}
    {result : Except SyntaxError Header} (run : NameRun n ts events result m rest) :
    Meets .directed ts result fun _ => faultFrom? (.body []) rest := by
  induction run with
  | exhausted => rfl
  | comment comment _ ih => exact ih.of_eq (faultFrom?_ok _ (if_pos comment))
  | @other _ t ts other =>
    simp only [List.mem_cons, List.not_mem_nil, or_false, not_or] at other
    by_cases last : t.kind = .endOfFile
    · have stopped : step .directed t = .error { cause := .unexpected "identifier" none } := by
        simp [step, last]
      exact .of_error stopped (Fault.error_ended "identifier" last)
    · have stopped : step .directed t = .error ⟨.unexpected "identifier" (some t.kind), some t⟩ := by
        simp [step, last, other]
      exact .of_error stopped (Fault.error_unexpected "identifier" rfl last)
  | name name => exact faultFrom?_ok _ (by simp [step, name])

theorem HeaderRun.meets {n m : Nat} {ts rest : List Token} {events : List Event}
    {result : Except SyntaxError Header} (run : HeaderRun n ts events result m rest) :
    Meets .start ts result fun _ => faultFrom? (.body []) rest := by
  induction run with
  | exhausted => rfl
  | comment comment _ ih => exact ih.of_eq (faultFrom?_ok _ (if_pos comment))
  | @other _ t ts notComment other =>
    have stopped : step .start t = .error ⟨.missingHeader, some t⟩ := by simp [step, notComment, other]
    exact .of_error stopped rfl
  | @directive _ _ t ts _ _ _ directive lang run =>
    have stepped : step .start t = .ok .directed := by simp [step, directive, lang]
    exact run.meets.of_eq (faultFrom?_ok ts stepped)

theorem ExpressionsRun.meets {n m : Nat} {ts rest : List Token} {events : List Event}
    {result : Except SyntaxError (List Expr)} (run : ExpressionsRun n ts events result m rest) :
    Meets (.body []) ts result fun _ => none := by
  induction run with
  | stop run =>
    obtain ⟨_, _, _, stops⟩ := run.reads
    exact (run.meets []).trans (faultFrom?_ended stops)
  | error run => exact run.meets []
  | laterError run _ ih => exact ih.of_eq (run.meets [])
  | next run _ ih => exact ih.of_eq (run.meets [])

theorem ProgramRun.meets {n m : Nat} {ts rest : List Token} {events : List Event}
    {result : Except SyntaxError Program} (run : ProgramRun n ts events result m rest) :
    Meets .start ts result fun _ => none := by
  cases run with
  | header header => exact header.meets
  | body header body => exact body.meets.of_eq header.meets
  | complete header body => exact body.meets.of_eq header.meets

end Parse

theorem parse_error_iff {ts : List Token} {e : SyntaxError} :
    parse ts = .error e ↔ ∃ f, fault? ts = some f ∧ f.error = e := by
  obtain ⟨events, m, rest, run⟩ := Parse.parse_eq_iff.mp (Eq.refl (parse ts))
  have meets := run.meets
  unfold Walk.Meets at meets
  unfold fault?
  cases parsed : parse ts with
  | ok p =>
    rw [parsed] at meets
    simp [meets]
  | error e' =>
    rw [parsed] at meets
    rw [← Option.map_eq_some_iff, meets]
    simp

/-- Parsing fails exactly for the leftmost fault. -/
theorem parse_error_leftmost (ts : List Token) (cause : SyntaxError.Cause) :
    (∃ location, parse ts = .error ⟨cause, location⟩) ↔ ∃ culprit, fault? ts = some ⟨cause, culprit⟩ := by
  constructor
  · rintro ⟨location, failed⟩
    obtain ⟨f, found, same⟩ := parse_error_iff.mp failed
    have cause' : f.cause = cause := congrArg SyntaxError.cause same
    subst cause'
    exact ⟨f.culprit, found⟩
  · rintro ⟨culprit, found⟩
    exact ⟨_, parse_error_iff.mpr ⟨_, found, rfl⟩⟩

end Hashlang
