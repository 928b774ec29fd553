import Hashlang.Proofs.Decimal.Reading
import Hashlang.Proofs.Decimal.Rounding
import Hashlang.Proofs.Syntax.Noise
import Hashlang.Proofs.Syntax.WellFormed
import Hashlang.Proofs.Token.Tiling

namespace Hashlang

namespace Walk

theorem bodyStep_ne_start (needs : List Need) (t : Token) : bodyStep needs t ≠ .ok .start := by
  intro stepped
  have inside := step_inside (q := .body needs) trivial stepped
  exact inside

theorem eq_start_of_step {q : State} {t : Token} (stepped : step q t = .ok .start) :
    q = .start ∧ t.kind = .comment := by
  cases q with
  | start =>
    simp only [step] at stepped
    split at stepped
    · rename_i comment
      exact ⟨rfl, comment⟩
    · split at stepped <;> cases stepped
  | directed =>
    simp only [step] at stepped
    repeat
      split at stepped
      · cases stepped
    cases stepped
  | body needs => exact absurd stepped (bodyStep_ne_start needs t)
  | finished => cases stepped

theorem eq_start_of_run {q : State} {ts : List Token} (ran : run q ts = .ok .start) :
    q = .start ∧ ∀ t ∈ ts, t.kind = .comment := by
  induction ts generalizing q with
  | nil =>
    cases ran
    exact ⟨rfl, by simp⟩
  | cons t ts ih =>
    cases stepped : step q t with
    | error f =>
      rw [run_error ts stepped] at ran
      cases ran
    | ok next =>
      rw [run_ok ts stepped] at ran
      obtain ⟨rfl, others⟩ := ih ran
      obtain ⟨rfl, first⟩ := eq_start_of_step stepped
      exact ⟨rfl, List.forall_mem_cons.mpr ⟨first, others⟩⟩

end Walk

theorem find?_of_comments {before behind : List Token} {t : Token}
    (comments : ∀ s ∈ before, s.kind = .comment) (ink : t.kind ≠ .comment) :
    (before ++ t :: behind).find? (fun s => s.kind ≠ .comment) = some t := by
  have skipped : before.find? (fun s => s.kind ≠ .comment) = none := by simpa using comments
  rw [List.find?_append, skipped, List.find?_cons_of_pos (by simpa using ink)]
  rfl

/-- Whether an error tells where it was found in a text, as far as there is a token to blame. -/
def SyntaxError.Located (source : String) (e : SyntaxError) : Prop :=
  match e.cause with
  | .missingHeader =>
    ∃ t, (scan source).find? (fun s => s.kind ≠ .comment) = some t ∧ e.location = some t.span
  | .unexpected _ (some kind) =>
    ∃ t ∈ scan source, t.kind = kind ∧ e.location = some t.span ∧
      0 < t.span.length ∧ t.span.stop ≤ source.length
  | .unexpected _ none => e.location = none
  | .wrongKind .. | .malformedNumber _ => False

open Scan

theorem exists_decimal {source : String} {t : Token} (member : t ∈ scan source) (number : t.kind = .number) :
    ∃ negative n e, Numeral.read? t.value = some (.decimal negative n e) := by
  have lexical := (tiles_scan source).lexical t member
  exact Numeral.ofChars?_of_isNumber (lexical.number number)

theorem inside_of_mem_scan {source : String} {t : Token} (member : t ∈ scan source)
    (proper : t.kind ≠ .endOfFile) : 0 < t.span.length ∧ t.span.stop ≤ source.length := by
  obtain ⟨pieces, whole, cut⟩ := exists_cut source
  rw [whole, List.mem_append, List.mem_singleton] at member
  rcases member with member | rfl
  · exact cut.tiling.inside t member
  · exact absurd rfl proper

theorem Walk.Finds.located {source : String} {before behind : List Token} {t : Token} {q : State} {f : Fault}
    (whole : scan source = before ++ t :: behind) (ran : run .start before = .ok q) (finds : Finds q t f) :
    f.error.Located source := by
  have member : t ∈ scan source := by simp [whole]
  cases finds with
  | header start ink =>
    subst start
    have comments := (eq_start_of_run ran).2
    exact ⟨t, by rw [whole]; exact find?_of_comments comments ink, rfl⟩
  | ended => rfl
  | unexpected proper => exact ⟨t, member, rfl, rfl, inside_of_mem_scan member proper⟩
  | number number unreadable =>
    obtain ⟨negative, n, e, read⟩ := exists_decimal member number
    rw [unreadable] at read
    cases read

theorem Walk.missing?_located {source : String} {q : State} {f : Fault}
    (ran : run .start (scan source) = .ok q) (missing : q.missing? = some f) : f.error.Located source := by
  cases q with
  | start =>
    -- A text has a token that is no comment: the end of the file.
    obtain ⟨pieces, whole, -⟩ := exists_cut source
    have last : Token.fixed .endOfFile ⟨source.length, 0⟩ ∈ scan source := by simp [whole]
    have comment := (eq_start_of_run ran).2 _ last
    cases comment
  | directed =>
    cases missing
    rfl
  | body needs =>
    cases needs with
    | nil => cases missing
    | cons need outer =>
      cases missing
      rfl
  | finished => cases missing

/-- The number tokens of a text are numbers, and its syntax errors are a missing header, tokens that
cannot stand where they are, and an end that comes too early; only the last one has no place. -/
theorem parseSource_located (source : String) :
    (∀ t ∈ scan source, t.kind = .number →
      ∃ value, t.numeral? = some value ∧ value.toFloat.isNaN = false) ∧
    ∀ e, parseSource source = .error e → e.Located source := by
  constructor
  · intro t member number
    obtain ⟨negative, n, e, read⟩ := exists_decimal member number
    exact ⟨_, by rw [Token.numeral?, if_pos number, read], Numeral.isNaN_toFloat_decimal negative n e⟩
  · intro e failed
    obtain ⟨f, found, rfl⟩ := parse_error_iff.mp failed
    unfold fault? Walk.faultFrom? at found
    cases ran : Walk.run .start (scan source) with
    | ok q =>
      rw [ran] at found
      exact Walk.missing?_located ran found
    | error g =>
      rw [ran] at found
      cases found
      obtain ⟨before, t, behind, q, whole, ranBefore, stopped⟩ := Walk.exists_step_of_run ran
      exact (Walk.step_finds stopped).located whole ranBefore

theorem parseSource_located_illegal :
    (∃ value, Token.numeral? ⟨.number, "-1.", ⟨11, 3⟩⟩ = some value ∧ value.toFloat.isNaN = false) ∧
    SyntaxError.Located "#lang a (b -1. ;c\n ?)"
      ⟨.unexpected "expression" (some .illegal), some ⟨19, 1⟩⟩ := by
  have scanned : scan "#lang a (b -1. ;c\n ?)" = [⟨.directive, "#lang", ⟨0, 5⟩⟩,
      ⟨.identifier, "a", ⟨6, 1⟩⟩, ⟨.openParen, "(", ⟨8, 1⟩⟩, ⟨.identifier, "b", ⟨9, 1⟩⟩,
      ⟨.number, "-1.", ⟨11, 3⟩⟩, ⟨.comment, "c", ⟨15, 2⟩⟩, ⟨.illegal, "?", ⟨19, 1⟩⟩,
      ⟨.closeParen, ")", ⟨20, 1⟩⟩, .fixed .endOfFile ⟨21, 0⟩] := by decide +kernel
  have failed : parseSource "#lang a (b -1. ;c\n ?)" =
      .error ⟨.unexpected "expression" (some .illegal), some ⟨19, 1⟩⟩ := by
    rw [parseSource, scanned]
    exact parse_error_iff.mpr ⟨⟨_, some ⟨.illegal, "?", ⟨19, 1⟩⟩⟩, rfl, rfl⟩
  obtain ⟨numbers, errors⟩ := parseSource_located "#lang a (b -1. ;c\n ?)"
  exact ⟨numbers _ (by simp [scanned]) rfl, errors _ failed⟩

end Hashlang
