import Hashlang.Proofs.Syntax.Fault

namespace Hashlang

/-- The error reports that the input ended where something was still needed. -/
def SyntaxError.Incomplete (e : SyntaxError) : Prop :=
  (∃ expected, e.cause = .unexpected expected none) ∨ e = { cause := .missingHeader }

namespace Walk

/-- Tokens that bring a walk from a state to the end of a program. -/
def State.completion : State → List Token
  | start => [⟨.directive, "#lang", {}⟩, ⟨.identifier, "x", {}⟩]
  | directed => [⟨.identifier, "x", {}⟩]
  | body needs => ⟨.identifier, "x", {}⟩ :: List.replicate needs.length (.fixed .closeParen {})
  | finished => []

theorem faultFrom?_append_ok {q last : State} {ts : List Token} (us : List Token)
    (ran : run q ts = .ok last) : faultFrom? q (ts ++ us) = faultFrom? last us := by
  unfold faultFrom?
  rw [run_append_ok us ran]

theorem faultFrom?_append_error {q : State} {ts : List Token} {f : Fault} (us : List Token)
    (stopped : run q ts = .error f) : faultFrom? q (ts ++ us) = some f := by
  have both : run q (ts ++ us) = .error f := by
    rw [run_append, stopped]
    rfl
  unfold faultFrom?
  rw [both]

theorem faultFrom?_closing (needs : List Need) :
    faultFrom? (.body (fill needs)) (List.replicate needs.length (.fixed .closeParen {})) = none := by
  -- Each parenthesis completes the innermost application, which in turn fills a need of the next one.
  induction needs with
  | nil => rfl
  | cons need outer ih =>
    rw [List.length_cons, List.replicate_succ, fill, faultFrom?_close outer rfl]
    exact ih

theorem faultFrom?_completion (q : State) : faultFrom? q q.completion = none := by
  cases q with
  | start => rfl
  | directed => rfl
  | body needs =>
    rw [State.completion, faultFrom?_leaf needs .identifier]
    exact faultFrom?_closing needs
  | finished => rfl

theorem missing?_incomplete {q : State} {f : Fault} (missing : q.missing? = some f) :
    f.error.Incomplete := by
  cases q with
  | start =>
    cases missing
    exact .inr rfl
  | directed =>
    cases missing
    exact .inl ⟨_, rfl⟩
  | body needs =>
    cases needs with
    | nil => cases missing
    | cons need outer =>
      cases missing
      exact .inl ⟨_, rfl⟩
  | finished => cases missing

inductive Finds (q : State) (t : Token) : Fault → Prop where
  | header : q = .start → t.kind ≠ .comment → Finds q t ⟨.missingHeader, some t⟩
  | ended {expected : String} : t.kind = .endOfFile → Finds q t { cause := .unexpected expected none }
  | unexpected {expected : String} : t.kind ≠ .endOfFile →
      Finds q t ⟨.unexpected expected (some t.kind), some t⟩
  | number : t.kind = .number → Numeral.read? t.value = none →
      Finds q t ⟨.malformedNumber t.value, some t⟩

inductive Rejects : State → Token → Fault → Prop where
  | header {t : Token} : t.kind ≠ .comment → ¬(t.kind = .directive ∧ t.value = "#lang") →
    Rejects .start t ⟨.missingHeader, some t⟩
  | name {t : Token} : t.kind ∉ [.comment, .identifier, .endOfFile] →
    Rejects .directed t ⟨.unexpected "identifier" (some t.kind), some t⟩
  | nameless {t : Token} : t.kind = .endOfFile →
    Rejects .directed t { cause := .unexpected "identifier" none }
  | illegal {needs : List Need} {t : Token} : t.kind = .illegal →
    Rejects (.body needs) t ⟨.unexpected "expression" (some t.kind), some t⟩
  | close {needs : List Need} {t : Token} : t.kind = .closeParen →
    Rejects (.body (.procedure :: needs)) t ⟨.unexpected "expression" (some t.kind), some t⟩
  | number {needs : List Need} {t : Token} : t.kind = .number → Numeral.read? t.value = none →
    Rejects (.body needs) t ⟨.malformedNumber t.value, some t⟩
  | unfinished {need : Need} {needs : List Need} {t : Token} : t.kind = .endOfFile →
    Rejects (.body (need :: needs)) t { cause := .unexpected need.expected none }

theorem bodyStep_rejects {needs : List Need} {t : Token} {f : Fault}
    (stopped : bodyStep needs t = .error f) : Rejects (.body needs) t f := by
  unfold bodyStep at stopped
  split at stopped
  case h_8 number =>
    split at stopped
    · cases stopped
    · rename_i unreadable
      cases stopped
      exact .number number unreadable
  case h_10 close =>
    split at stopped
    · cases stopped
    · cases stopped
      rw [← close]
      exact .close close
    · cases stopped
  case h_11 last =>
    split at stopped
    · cases stopped
    · cases stopped
      exact .unfinished last
  case h_12 illegal =>
    cases stopped
    rw [← illegal]
    exact .illegal illegal
  all_goals cases stopped

theorem step_rejects {q : State} {t : Token} {f : Fault} (stopped : step q t = .error f) :
    Rejects q t f := by
  cases q with
  | start =>
    simp only [step] at stopped
    split at stopped
    · cases stopped
    rename_i ink
    split at stopped
    · cases stopped
    · rename_i other
      cases stopped
      exact .header ink other
  | directed =>
    simp only [step] at stopped
    split at stopped
    · cases stopped
    rename_i ink
    split at stopped
    · cases stopped
    rename_i other
    split at stopped
    · rename_i last
      cases stopped
      exact .nameless last
    · rename_i real
      cases stopped
      exact .name (by simp [ink, other, real])
  | body needs => exact bodyStep_rejects stopped
  | finished => cases stopped

theorem Rejects.finds {q : State} {t : Token} {f : Fault} (rejects : Rejects q t f) : Finds q t f := by
  cases rejects with
  | header ink other => exact .header rfl ink
  | name other => exact .unexpected fun last => other (by simp [last])
  | nameless last => exact .ended last
  | illegal illegal => exact .unexpected (by simp [illegal])
  | close close => exact .unexpected (by simp [close])
  | number number unreadable => exact .number number unreadable
  | unfinished last => exact .ended last

theorem step_finds {q : State} {t : Token} {f : Fault} (stopped : step q t = .error f) :
    Finds q t f :=
  (step_rejects stopped).finds

inductive Blames (t : Token) : Fault → Prop where
  | header : Blames t ⟨.missingHeader, some t⟩
  | unexpected {expected : String} : Blames t ⟨.unexpected expected (some t.kind), some t⟩
  | number : Blames t ⟨.malformedNumber t.value, some t⟩

theorem step_blames {q : State} {t : Token} {f : Fault} (notEnd : t.kind ≠ .endOfFile)
    (stopped : step q t = .error f) : Blames t f := by
  cases step_finds stopped with
  | header => exact .header
  | ended last => exact absurd last notEnd
  | unexpected => exact .unexpected
  | number => exact .number

theorem Blames.final {t : Token} {f : Fault} (blames : Blames t f) : ¬ f.error.Incomplete := by
  intro incomplete
  rcases incomplete with ⟨expected, cause⟩ | same
  · cases blames <;> cases cause
  · cases blames <;> cases same

theorem exists_step_of_run {q : State} {ts : List Token} {f : Fault} (stopped : run q ts = .error f) :
    ∃ before t behind last, ts = before ++ t :: behind ∧ run q before = .ok last ∧
      step last t = .error f := by
  induction ts generalizing q with
  | nil => cases stopped
  | cons t ts ih =>
    cases stepped : step q t with
    | error g =>
      rw [run_error ts stepped] at stopped
      cases stopped
      exact ⟨[], t, ts, q, rfl, rfl, stepped⟩
    | ok next =>
      rw [run_ok ts stepped] at stopped
      obtain ⟨before, u, behind, last, rfl, ran, failed⟩ := ih stopped
      exact ⟨t :: before, u, behind, last, rfl, by rw [run_ok before stepped, ran], failed⟩

theorem run_final {q : State} {ts : List Token} {f : Fault} (noEnd : ∀ t ∈ ts, t.kind ≠ .endOfFile)
    (stopped : run q ts = .error f) : ¬ f.error.Incomplete := by
  obtain ⟨before, t, behind, last, rfl, -, failed⟩ := exists_step_of_run stopped
  exact (step_blames (noEnd t (by simp)) failed).final

end Walk

open Walk in
/-- Tokens that fail because they end too early can be completed to a program, and all others fail with
the same error whatever follows them. -/
theorem parse_viable {ts : List Token} {e : SyntaxError} (noEnd : ∀ t ∈ ts, t.kind ≠ .endOfFile)
    (failed : parse ts = .error e) :
    (e.Incomplete → ∃ us p, parse (ts ++ us) = .ok p) ∧
      (¬ e.Incomplete → ∀ us, parse (ts ++ us) = .error e) := by
  obtain ⟨f, found, rfl⟩ := parse_error_iff.mp failed
  unfold fault? faultFrom? at found
  cases ran : run .start ts with
  | error g =>
    rw [ran] at found
    cases found
    have final := run_final noEnd ran
    refine ⟨fun incomplete => absurd incomplete final, fun _ us => ?_⟩
    have still : fault? (ts ++ us) = some f := faultFrom?_append_error us ran
    exact parse_error_iff.mpr ⟨f, still, rfl⟩
  | ok q =>
    rw [ran] at found
    have incomplete := missing?_incomplete found
    refine ⟨fun _ => ⟨q.completion, ?_⟩, fun final => absurd incomplete final⟩
    have none : fault? (ts ++ q.completion) = none :=
      (faultFrom?_append_ok _ ran).trans (faultFrom?_completion q)
    cases parsed : parse (ts ++ q.completion) with
    | ok p => exact ⟨p, rfl⟩
    | error e =>
      obtain ⟨g, found, -⟩ := parse_error_iff.mp parsed
      rw [none] at found
      cases found

theorem parse_viable_paren :
    (∃ us p, parse ([⟨.directive, "#lang", ⟨0, 5⟩⟩, ⟨.identifier, "a", ⟨6, 1⟩⟩,
        ⟨.openParen, "(", ⟨7, 1⟩⟩] ++ us) = .ok p) ∧
      ∀ us, parse ([⟨.directive, "#lang", ⟨0, 5⟩⟩, ⟨.identifier, "a", ⟨6, 1⟩⟩,
        ⟨.openParen, "(", ⟨7, 1⟩⟩, ⟨.closeParen, ")", ⟨8, 1⟩⟩] ++ us) =
          .error ⟨.unexpected "expression" (some .closeParen), some ⟨8, 1⟩⟩ := by
  constructor
  · have failed : parse [⟨.directive, "#lang", ⟨0, 5⟩⟩, ⟨.identifier, "a", ⟨6, 1⟩⟩,
        ⟨.openParen, "(", ⟨7, 1⟩⟩] = .error ⟨.unexpected "expression" none, none⟩ :=
      parse_error_iff.mpr ⟨⟨.unexpected "expression" none, none⟩, rfl, rfl⟩
    exact (parse_viable (by decide) failed).1 (.inl ⟨"expression", rfl⟩)
  · have failed : parse [⟨.directive, "#lang", ⟨0, 5⟩⟩, ⟨.identifier, "a", ⟨6, 1⟩⟩,
        ⟨.openParen, "(", ⟨7, 1⟩⟩, ⟨.closeParen, ")", ⟨8, 1⟩⟩] =
        .error ⟨.unexpected "expression" (some .closeParen), some ⟨8, 1⟩⟩ :=
      parse_error_iff.mpr ⟨⟨_, some ⟨.closeParen, ")", ⟨8, 1⟩⟩⟩, rfl, rfl⟩
    exact (parse_viable (by decide) failed).2 (by simp [SyntaxError.Incomplete])

end Hashlang
