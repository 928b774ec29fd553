import Hashlang.Proofs.Syntax.Viable

namespace Hashlang

/-- Tokens that can be completed to a program. -/
def Viable (ts : List Token) : Prop := ∃ us p, parse (ts ++ us) = .ok p

/-- The tokens in front of `t` can be completed, but not together with it. -/
structure Offends (before : List Token) (t : Token) : Prop where
  viable : Viable before
  stuck : ¬Viable (before ++ [t])

theorem parse_of_fault? {ts : List Token} (sound : fault? ts = none) : ∃ p, parse ts = .ok p := by
  cases parsed : parse ts with
  | ok p => exact ⟨p, rfl⟩
  | error e =>
    obtain ⟨f, found, -⟩ := parse_error_iff.mp parsed
    rw [sound] at found
    cases found

open Walk

theorem viable_iff {ts : List Token} : Viable ts ↔ ∃ q, run .start ts = .ok q := by
  constructor
  · rintro ⟨us, p, parsed⟩
    cases ran : run .start ts with
    | ok q => exact ⟨q, rfl⟩
    | error f =>
      have failed : fault? (ts ++ us) = some f := faultFrom?_append_error us ran
      have error := parse_error_iff.mpr ⟨f, failed, rfl⟩
      rw [parsed] at error
      cases error
  · rintro ⟨q, ran⟩
    have sound : fault? (ts ++ q.completion) = none :=
      (faultFrom?_append_ok _ ran).trans (faultFrom?_completion q)
    exact ⟨q.completion, parse_of_fault? sound⟩

theorem offends_iff {before : List Token} {t : Token} :
    Offends before t ↔ ∃ q f, run .start before = .ok q ∧ step q t = .error f := by
  constructor
  · rintro ⟨viable, stuck⟩
    obtain ⟨q, ran⟩ := viable_iff.mp viable
    cases stepped : step q t with
    | error f => exact ⟨q, f, ran, stepped⟩
    | ok next =>
      have on : run .start (before ++ [t]) = .ok next := by
        rw [run_append_ok [t] ran, run_ok [] stepped]
        rfl
      exact absurd (viable_iff.mpr ⟨next, on⟩) stuck
  · rintro ⟨q, f, ran, stopped⟩
    refine ⟨viable_iff.mpr ⟨q, ran⟩, fun viable => ?_⟩
    obtain ⟨next, on⟩ := viable_iff.mp viable
    rw [run_append_ok [t] ran, run_error [] stopped] at on
    cases on

theorem parse_stopped {before : List Token} {t : Token} {q : State} {f : Fault} (behind : List Token)
    (ran : run .start before = .ok q) (stopped : step q t = .error f) :
    parse (before ++ t :: behind) = .error f.error := by
  have found : fault? (before ++ t :: behind) = some f :=
    (faultFrom?_append_ok _ ran).trans (faultFrom?_error behind stopped)
  exact parse_error_iff.mpr ⟨f, found, rfl⟩

theorem viable_or_offends (ts : List Token) :
    Viable ts ∨ ∃ before t behind, ts = before ++ t :: behind ∧ Offends before t := by
  cases ran : run .start ts with
  | ok q => exact .inl (viable_iff.mpr ⟨q, ran⟩)
  | error f =>
    obtain ⟨before, t, behind, q, whole, ranBefore, stopped⟩ := exists_step_of_run ran
    exact .inr ⟨before, t, behind, whole, offends_iff.mpr ⟨q, f, ranBefore, stopped⟩⟩

/-- An error has the place of the token to blame, if there is one and it does not end the file. A number that
cannot be read is the exception: its error has no place. -/
theorem parse_error_location {ts : List Token} {e : SyntaxError} (failed : parse ts = .error e) :
    (Viable ts ∨ ∃ before t behind, ts = before ++ t :: behind ∧ Offends before t) ∧
    ∀ before t behind, ts = before ++ t :: behind → Offends before t → t.kind ≠ .endOfFile →
      (∃ q culprit, run .start before = .ok q ∧ Rejects q t ⟨e.cause, culprit⟩) ∧
        e.location =
          match e.cause with
          | .malformedNumber _ => none
          | _ => some t.span := by
  refine ⟨viable_or_offends ts, ?_⟩
  rintro before t behind rfl offends proper
  obtain ⟨q, f, ran, stopped⟩ := offends_iff.mp offends
  have reported := parse_stopped behind ran stopped
  rw [failed] at reported
  cases reported
  refine ⟨⟨q, f.culprit, ran, step_rejects stopped⟩, ?_⟩
  -- The fault names its culprit in every case; only the report of a number leaves it out.
  cases step_blames proper stopped <;> rfl

theorem parse_error_location_close :
    let front : List Token := [⟨.directive, "#lang", ⟨0, 5⟩⟩, ⟨.identifier, "a", ⟨6, 1⟩⟩,
      ⟨.openParen, "(", ⟨8, 1⟩⟩]
    let close : Token := ⟨.closeParen, ")", ⟨9, 1⟩⟩
    let e : SyntaxError := ⟨.unexpected "expression" (some .closeParen), some ⟨9, 1⟩⟩
    parse (front ++ [close]) = .error e ∧ Offends front close ∧ close.kind ≠ .endOfFile ∧
      e.location = some close.span := by
  intro front close e
  have ran : run .start front = .ok (.body [.procedure]) := rfl
  have stopped : step (.body [.procedure]) close = .error ⟨e.cause, some close⟩ := rfl
  have failed : parse (front ++ [close]) = .error e := parse_stopped [] ran stopped
  have offends : Offends front close := offends_iff.mpr ⟨_, _, ran, stopped⟩
  have proper : close.kind ≠ .endOfFile := by decide
  obtain ⟨-, blamed⟩ := parse_error_location failed
  obtain ⟨-, located⟩ := blamed front close [] rfl offends proper
  exact ⟨failed, offends, proper, located⟩

/-- The place of a number that cannot be read is not reported. -/
theorem parse_number_unlocated : ¬∀ (before behind : List Token) (t : Token) (e : SyntaxError),
    parse (before ++ t :: behind) = .error e → Offends before t → t.kind ≠ .endOfFile →
      e.location = some t.span := by
  intro located
  let front : List Token := [⟨.directive, "#lang", ⟨0, 5⟩⟩, ⟨.identifier, "a", ⟨6, 1⟩⟩]
  let number : Token := ⟨.number, "x", ⟨8, 1⟩⟩
  have ran : run .start front = .ok (.body []) := rfl
  have unreadable : Numeral.read? number.value = none := by decide +kernel
  have stopped := step_malformed [] (Eq.refl number.kind) unreadable
  have offends : Offends front number := offends_iff.mpr ⟨_, _, ran, stopped⟩
  have place := located front [] number _ (parse_stopped [] ran stopped) offends (by decide)
  cases place

end Hashlang
