import Hashlang.Proofs.Syntax.Headers
import Hashlang.Proofs.Token.Blanking

namespace Hashlang

/-- A token that means nothing where it stands. -/
def Inert (ts : List Token) (t : Token) : Prop :=
  t ∈ ts ∧ (t.kind = .comment ∨ t.kind.isNoise ∧ t ∈ behindHeader ts)

theorem Inert.noise {ts : List Token} {t : Token} (inert : Inert ts t) : t.kind.isNoise := by
  rcases inert.2 with comment | ⟨noise, -⟩
  · rw [comment]
    rfl
  · exact noise

theorem WritesHeader.comment_of_inert {front body : List Token} {h : Header}
    (writes : WritesHeader front h) (distinct : (front ++ body).Nodup) {t : Token} (member : t ∈ front)
    (inert : Inert (front ++ body) t) : t.kind = .comment := by
  rcases inert.2 with comment | ⟨-, behind⟩
  · exact comment
  · rw [writes.behind] at behind
    obtain ⟨-, -, disjoint⟩ := List.nodup_append.mp distinct
    exact absurd rfl (disjoint t member t behind)

variable {keep : Token → Bool}

theorem meaningful_filter {ts : List Token} (dropped : ∀ t ∈ ts, keep t = false → t.kind.isNoise) :
    meaningful (ts.filter keep) = meaningful ts := by
  unfold meaningful
  rw [List.filter_filter]
  apply List.filter_congr
  intro t member
  cases kept : keep t with
  | true => rw [Bool.and_true]
  | false => rw [dropped t member kept]; rfl

theorem WritesHeader.filter {front : List Token} {h : Header} (writes : WritesHeader front h)
    (dropped : ∀ t ∈ front, keep t = false → t.kind = .comment) :
    WritesHeader (front.filter keep) h := by
  cases writes with
  | @header before between lang name comments directive value comments' identifier =>
    have kept : ∀ t ∈ before ++ lang :: (between ++ [name]), t.kind ≠ .comment → keep t = true := by
      intro t member other
      cases keeps : keep t with
      | true => rfl
      | false => exact absurd (dropped t member keeps) other
    have keepsLang : keep lang = true := kept lang (by simp) (by simp [directive])
    have keepsName : keep name = true := kept name (by simp) (by simp [identifier])
    simp only [List.filter_append, List.filter_cons, keepsLang, keepsName, if_true, List.filter_nil]
    exact .header (fun t member => comments t (List.mem_filter.mp member).1) directive value
      (fun t member => comments' t (List.mem_filter.mp member).1) identifier

theorem Stops.filter {ts : List Token} (stops : Stops ts)
    (dropped : ∀ t ∈ ts, keep t = false → t.kind.isNoise) : Stops (ts.filter keep) := by
  cases ts with
  | nil => exact stops
  | cons t ts =>
    have kept : keep t = true := by
      cases keeps : keep t with
      | true => rfl
      | false =>
        have noise := dropped t List.mem_cons_self keeps
        rw [stops.real] at noise
        exact absurd noise Bool.false_ne_true
    rw [List.filter_cons_of_pos kept]
    exact fun s first => stops s first

theorem Laid.filter {ts front used rest : List Token} {p : Program} (laid : Laid ts front used rest p)
    (comments : ∀ t ∈ front, keep t = false → t.kind = .comment)
    (noise : ∀ t ∈ used ++ rest, keep t = false → t.kind.isNoise) :
    Laid (ts.filter keep) (front.filter keep) (used.filter keep) (rest.filter keep) p where
  whole := by rw [laid.whole, List.filter_append, List.filter_append]
  header := laid.header.filter comments
  expressions := by
    rw [meaningful_filter fun t member => noise t (List.mem_append_left _ member)]
    exact laid.expressions
  stops := laid.stops.filter fun t member => noise t (List.mem_append_right _ member)

namespace Walk

def State.Inside : State → Prop
  | start | directed => False
  | body _ | finished => True

theorem step_inside {q next : State} {t : Token} (inside : q.Inside) (stepped : step q t = .ok next) :
    next.Inside := by
  cases q with
  | start => exact inside.elim
  | directed => exact inside.elim
  | finished =>
    cases stepped
    trivial
  | body needs =>
    simp only [step, bodyStep] at stepped
    repeat' split at stepped
    all_goals cases stepped <;> trivial

theorem State.Inside.step_noise {q : State} {t : Token} (inside : q.Inside) (noise : t.kind.isNoise) :
    step q t = .ok q := by
  cases q with
  | start => exact inside.elim
  | directed => exact inside.elim
  | body needs => exact Walk.step_noise needs noise
  | finished => rfl

/-- Tokens at which a walk stays where it is can be dropped. -/
theorem run_filter {P : State → Prop} (kept : ∀ q t next, P q → step q t = .ok next → P next)
    {ts : List Token} (idle : ∀ t ∈ ts, keep t = false → ∀ q, P q → step q t = .ok q) {q : State}
    (holds : P q) : run q (ts.filter keep) = run q ts := by
  induction ts generalizing q with
  | nil => rfl
  | cons t ts ih =>
    obtain ⟨first, others⟩ := List.forall_mem_cons.mp idle
    cases keeps : keep t with
    | false => rw [List.filter_cons_of_neg (by simp [keeps]), run_ok _ (first keeps q holds), ih others holds]
    | true =>
      rw [List.filter_cons_of_pos keeps]
      cases stepped : step q t with
      | error f => rw [run_error _ stepped, run_error _ stepped]
      | ok next => rw [run_ok _ stepped, run_ok _ stepped, ih others (kept q t next holds stepped)]

theorem run_filter_comments (q : State) {ts : List Token}
    (comments : ∀ t ∈ ts, keep t = false → t.kind = .comment) : run q (ts.filter keep) = run q ts :=
  run_filter (P := fun _ => True) (fun _ _ _ _ _ => trivial)
    (fun t member gone q _ => step_comment q (comments t member gone)) trivial

theorem run_filter_noise {q : State} (inside : q.Inside) {ts : List Token}
    (noise : ∀ t ∈ ts, keep t = false → t.kind.isNoise) : run q (ts.filter keep) = run q ts :=
  run_filter (fun _ _ _ => step_inside)
    (fun t member gone _ inside => inside.step_noise (noise t member gone)) inside

end Walk

theorem fault?_filter {ts : List Token} (distinct : ts.Nodup)
    (dropped : ∀ t ∈ ts, keep t = false → Inert ts t) : fault? (ts.filter keep) = fault? ts := by
  by_cases headed : behindHeader ts = []
  · have comments : ∀ t ∈ ts, keep t = false → t.kind = .comment := by
      intro t member gone
      rcases (dropped t member gone).2 with comment | ⟨-, behind⟩
      · exact comment
      · rw [headed] at behind
        exact absurd behind List.not_mem_nil
    unfold fault? Walk.faultFrom?
    rw [Walk.run_filter_comments _ comments]
  · obtain ⟨front, h, writes, whole⟩ := exists_writesHeader headed
    rw [whole] at distinct dropped ⊢
    have comments : ∀ t ∈ front, keep t = false → t.kind = .comment := fun t member gone =>
      writes.comment_of_inert distinct member (dropped t (List.mem_append_left _ member) gone)
    have noise : ∀ t ∈ behindHeader ts, keep t = false → t.kind.isNoise := fun t member gone =>
      (dropped t (List.mem_append_right _ member) gone).noise
    rw [List.filter_append, Walk.fault?_header (writes.filter comments), Walk.fault?_header writes]
    unfold Walk.faultFrom?
    have inside : (Walk.State.body []).Inside := trivial
    rw [Walk.run_filter_noise inside noise]

theorem parse_filter {ts : List Token} (distinct : ts.Nodup)
    (dropped : ∀ t ∈ ts, keep t = false → Inert ts t) : parse (ts.filter keep) = parse ts := by
  cases parsed : parse ts with
  | error e =>
    obtain ⟨f, found, same⟩ := parse_error_iff.mp parsed
    exact parse_error_iff.mpr ⟨f, (fault?_filter distinct dropped).trans found, same⟩
  | ok p =>
    obtain ⟨front, used, rest, laid⟩ := exists_laid parsed
    obtain rfl := laid.whole
    refine (laid.filter (fun t member gone => ?_) fun t member gone => ?_).parse
    · exact laid.header.comment_of_inert distinct member (dropped t (List.mem_append_left _ member) gone)
    · exact (dropped t (List.mem_append_right _ member) gone).noise

theorem nodup_scan (source : String) : (scan source).Nodup := by
  obtain ⟨tokens, whole, cut⟩ := Scan.exists_cut source
  have tiling := cut.tiling
  have distinct : tokens.Nodup := by
    refine tiling.ordered.imp_of_mem fun left _ apart same => ?_
    subst same
    have present := (tiling.inside _ left).1
    simp only [Span.stop] at apart
    omega
  have last : Token.fixed .endOfFile ⟨source.length, 0⟩ ∉ tokens :=
    fun member => tiling.proper _ member rfl
  rw [whole]
  exact List.nodup_append.mpr ⟨distinct, List.pairwise_singleton _ _, fun t member u single same =>
    last (List.mem_singleton.mp single ▸ same ▸ member)⟩

/-- Inert tokens can be blanked out of a text without any change to what is read from it. -/
theorem parseSource_blanked {source : String} {chosen : List Token}
    (inert : ∀ t ∈ chosen, Inert (scan source) t) :
    parseSource (blanked (chosen.map Token.span) source) = parseSource source := by
  have noise : ∀ t ∈ chosen, t.kind.isNoise := fun t member => (inert t member).noise
  have among : ∀ t ∈ chosen, t ∈ scan source := fun t member => (inert t member).1
  rw [parseSource, scan_blanked noise among]
  refine parse_filter (nodup_scan source) fun t _ gone => inert t ?_
  simpa using gone

theorem parseSource_blanked_call :
    parseSource "#lang a   \n (f  1 ) x   " = parseSource "#lang a ;c\n'(f [1]) x#ab" := by
  have scanned : scan "#lang a ;c\n'(f [1]) x#ab" = [⟨.directive, "#lang", ⟨0, 5⟩⟩,
      ⟨.identifier, "a", ⟨6, 1⟩⟩, ⟨.comment, "c", ⟨8, 2⟩⟩, ⟨.quote, "'", ⟨11, 1⟩⟩,
      ⟨.openParen, "(", ⟨12, 1⟩⟩, ⟨.identifier, "f", ⟨13, 1⟩⟩, ⟨.openBracket, "[", ⟨15, 1⟩⟩,
      ⟨.number, "1", ⟨16, 1⟩⟩, ⟨.closeBracket, "]", ⟨17, 1⟩⟩, ⟨.closeParen, ")", ⟨18, 1⟩⟩,
      ⟨.identifier, "x", ⟨20, 1⟩⟩, ⟨.directive, "#ab", ⟨21, 3⟩⟩, .fixed .endOfFile ⟨24, 0⟩] := by
    decide +kernel
  let chosen : List Token := [⟨.comment, "c", ⟨8, 2⟩⟩, ⟨.quote, "'", ⟨11, 1⟩⟩,
    ⟨.openBracket, "[", ⟨15, 1⟩⟩, ⟨.closeBracket, "]", ⟨17, 1⟩⟩, ⟨.directive, "#ab", ⟨21, 3⟩⟩]
  have inert : ∀ t ∈ chosen, Inert (scan "#lang a ;c\n'(f [1]) x#ab") t := by
    rw [scanned]
    simp [chosen, Inert, Token.Kind.isNoise, behindHeader, afterComments]
  have text : blanked (chosen.map Token.span) "#lang a ;c\n'(f [1]) x#ab" = "#lang a   \n (f  1 ) x   " := by
    decide +kernel
  rw [← text]
  exact parseSource_blanked inert

end Hashlang
