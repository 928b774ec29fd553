import Hashlang.Proofs.Syntax.Completeness
import Hashlang.Proofs.Syntax.Viable

namespace Hashlang

open Parse

inductive WritesHeader : List Token → Header → Prop where
  | header {before between : List Token} {lang name : Token} : (∀ t ∈ before, t.kind = .comment) →
      lang.kind = .directive → lang.value = "#lang" → (∀ t ∈ between, t.kind = .comment) →
      name.kind = .identifier →
      WritesHeader (before ++ lang :: (between ++ [name])) ⟨name.value, name.span⟩

def afterComments (ts : List Token) : List Token := ts.dropWhile fun t => t.kind = .comment

def behindHeader (ts : List Token) : List Token :=
  match afterComments ts with
  | [] => []
  | lang :: rest =>
    if lang.kind = .directive ∧ lang.value = "#lang" then
      match afterComments rest with
      | [] => []
      | name :: body => if name.kind = .identifier then body else []
    else []

theorem afterComments_append {comments : List Token} (skipped : ∀ t ∈ comments, t.kind = .comment)
    (ts : List Token) : afterComments (comments ++ ts) = afterComments ts := by
  unfold afterComments
  exact List.dropWhile_append_of_pos fun t member => decide_eq_true (skipped t member)

theorem afterComments_cons {t : Token} (other : t.kind ≠ .comment) (ts : List Token) :
    afterComments (t :: ts) = t :: ts := by
  unfold afterComments
  exact List.dropWhile_cons_of_neg (by simpa using other)

theorem exists_comments (ts : List Token) :
    ∃ comments, (∀ t ∈ comments, t.kind = .comment) ∧ ts = comments ++ afterComments ts := by
  refine ⟨ts.takeWhile fun t => t.kind = .comment, ?_, List.takeWhile_append_dropWhile.symm⟩
  intro t member
  exact of_decide_eq_true (List.all_eq_true.mp List.all_takeWhile t member)

theorem WritesHeader.behind {front : List Token} {h : Header} (writes : WritesHeader front h)
    (body : List Token) : behindHeader (front ++ body) = body := by
  cases writes with
  | header comments directive lang comments' identifier =>
    have first := afterComments_cons (t := _) (by rw [directive]; decide)
    have second := afterComments_cons (t := _) (by rw [identifier]; decide)
    simp [behindHeader, afterComments_append comments, first, directive, lang,
      afterComments_append comments', second, identifier]

theorem exists_writesHeader {ts : List Token} (some : behindHeader ts ≠ []) :
    ∃ front h, WritesHeader front h ∧ ts = front ++ behindHeader ts := by
  obtain ⟨before, comments, whole⟩ := exists_comments ts
  unfold behindHeader at some ⊢
  split at some
  case h_1 => exact absurd rfl some
  case h_2 lang rest first =>
    obtain ⟨between, comments', whole'⟩ := exists_comments rest
    split at some
    case isFalse => exact absurd rfl some
    case isTrue directive =>
      split at some
      case h_1 => exact absurd rfl some
      case h_2 name body second =>
        split at some
        case isFalse => exact absurd rfl some
        case isTrue identifier =>
          refine ⟨_, _, .header comments directive.1 directive.2 comments' identifier, ?_⟩
          rw [first] at whole
          rw [second] at whole'
          simp [directive, identifier, whole, whole']

structure Laid (ts front used rest : List Token) (p : Program) : Prop where
  whole : ts = front ++ (used ++ rest)
  header : WritesHeader front p.header
  expressions : YieldsEach p.expressions (meaningful used)
  stops : Stops rest

theorem Parse.ProgramRun.laid {n m : Nat} {ts rest : List Token} {events : List Event} {p : Program}
    (run : ProgramRun n ts events (.ok p) m rest) : ∃ front used, Laid ts front used rest p := by
  cases run with
  | complete header body =>
    obtain ⟨before, lang, between, name, rfl, comments, directive, value, comments', identifier, rfl⟩ :=
      header.reads
    obtain ⟨used, passed, each, stops⟩ := body.reads
    obtain rfl := passed.tokens
    exact ⟨_, used, by simp, .header comments directive value comments' identifier, each, stops⟩

theorem exists_laid {ts : List Token} {p : Program} (parsed : parse ts = .ok p) :
    ∃ front used rest, Laid ts front used rest p := by
  obtain ⟨_, _, rest, run⟩ := parse_eq_iff.mp parsed
  obtain ⟨front, used, laid⟩ := run.laid
  exact ⟨front, used, rest, laid⟩

theorem Laid.parse {ts front used rest : List Token} {p : Program} (laid : Laid ts front used rest p) :
    Hashlang.parse ts = .ok p := by
  obtain ⟨rfl, header, each, stops⟩ := laid
  obtain ⟨h, es⟩ := p
  cases header with
  | header comments directive value comments' identifier =>
    have written := meaningful_append used rest
    have grammatical := Grammatical.program comments directive value comments' identifier each written
      stops.meaningful
    simpa using grammatical.parse

namespace Walk

theorem step_comment (q : State) {t : Token} (comment : t.kind = .comment) : step q t = .ok q := by
  cases q <;> simp [step, bodyStep, comment]

theorem run_comments (q : State) {comments : List Token} (skipped : ∀ t ∈ comments, t.kind = .comment)
    (ts : List Token) : run q (comments ++ ts) = run q ts := by
  induction comments with
  | nil => rfl
  | cons t comments ih =>
    obtain ⟨first, others⟩ := List.forall_mem_cons.mp skipped
    rw [List.cons_append, run_ok _ (step_comment q first), ih others]

theorem run_header {front : List Token} {h : Header} (writes : WritesHeader front h) :
    run .start front = .ok (.body []) := by
  cases writes with
  | @header before between lang name comments directive value comments' identifier =>
    have first : step .start lang = .ok .directed := by simp [step, directive, value]
    have second : step .directed name = .ok (.body []) := by simp [step, identifier]
    rw [run_comments _ comments, run_ok _ first, run_comments _ comments', run_ok _ second]
    rfl

theorem fault?_header {front : List Token} {h : Header} (writes : WritesHeader front h)
    (body : List Token) : fault? (front ++ body) = faultFrom? (.body []) body :=
  faultFrom?_append_ok body (run_header writes)

end Walk

end Hashlang
