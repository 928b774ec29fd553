import Hashlang.Proofs.Syntax.Derivation

namespace Hashlang

mutual

/-- The tokens that write an expression. -/
inductive Yields : Expr → List Token → Prop where
  | leaf {t : Token} {e : Expr} : Parse.Leaf t e → Yields e [t]
  | application {opening close : Token} {procedure : Expr} {arguments : List Expr}
      {us vs : List Token} : opening.kind = .openParen → Yields procedure us →
      YieldsEach arguments vs → close.kind = .closeParen →
      Yields (.application procedure arguments (opening.span.join close.span))
        (opening :: (us ++ (vs ++ [close])))

inductive YieldsEach : List Expr → List Token → Prop where
  | nil : YieldsEach [] []
  | cons {e : Expr} {es : List Expr} {us vs : List Token} : Yields e us → YieldsEach es vs →
      YieldsEach (e :: es) (us ++ vs)

end

/-- The tokens that are no noise. -/
def meaningful (ts : List Token) : List Token := ts.filter fun t => !t.kind.isNoise

/-- No expression begins here. -/
def Stops (ts : List Token) : Prop := ∀ t ∈ ts.head?, t.kind = .closeParen ∨ t.kind = .endOfFile

/-- The token lists that are read as a program. What stands behind its last expression is ignored
from where no expression begins. -/
inductive Grammatical : List Token → Program → Prop where
  | program {before between rest us tail : List Token} {lang name : Token} {es : List Expr} :
      (∀ t ∈ before, t.kind = .comment) → lang.kind = .directive → lang.value = "#lang" →
      (∀ t ∈ between, t.kind = .comment) → name.kind = .identifier →
      YieldsEach es us → meaningful rest = us ++ tail → Stops tail →
      Grammatical (before ++ lang :: (between ++ name :: rest)) ⟨⟨name.value, name.span⟩, es⟩

theorem meaningful_append (ts us : List Token) :
    meaningful (ts ++ us) = meaningful ts ++ meaningful us := List.filter_append _ _

theorem meaningful_noise {t : Token} {ts : List Token} (noise : t.kind.isNoise) :
    meaningful (t :: ts) = meaningful ts := List.filter_cons_of_neg (by simp [noise])

theorem meaningful_cons {t : Token} {ts : List Token} (real : t.kind.isNoise = false) :
    meaningful (t :: ts) = t :: meaningful ts := List.filter_cons_of_pos (by simp [real])

theorem meaningful_eq_nil {ts : List Token} : meaningful ts = [] ↔ ∀ t ∈ ts, t.kind.isNoise := by
  unfold meaningful
  simp only [List.filter_eq_nil_iff, Bool.not_eq_true', Bool.not_eq_false]

theorem mem_meaningful {ts : List Token} {t : Token} :
    t ∈ meaningful ts ↔ t ∈ ts ∧ t.kind.isNoise = false := by
  unfold meaningful
  rw [List.mem_filter, Bool.not_eq_true']

theorem meaningful_eq_cons {ts us : List Token} {t : Token} (first : meaningful ts = t :: us) :
    ∃ noise rest, ts = noise ++ t :: rest ∧ (∀ s ∈ noise, s.kind.isNoise) ∧ meaningful rest = us := by
  obtain ⟨noise, rest, whole, skipped, -, later⟩ := List.filter_eq_cons_iff.mp first
  refine ⟨noise, rest, whole, fun s member => ?_, later⟩
  simpa using skipped s member

theorem meaningful_eq_mid {ts us vs : List Token} {t : Token} (kept : meaningful ts = us ++ t :: vs) :
    ∃ left right, ts = left ++ t :: right ∧ meaningful left = us ∧ meaningful right = vs := by
  obtain ⟨left, right, rfl, before, behind⟩ := List.filter_eq_append_iff.mp kept
  obtain ⟨noise, rest, rfl, skipped, later⟩ := meaningful_eq_cons behind
  refine ⟨left ++ noise, rest, (List.append_assoc ..).symm, ?_, later⟩
  rw [meaningful_append, meaningful_eq_nil.mpr skipped, List.append_nil]
  exact before

theorem Stops.real {t : Token} {ts : List Token} (stops : Stops (t :: ts)) : t.kind.isNoise = false := by
  rcases stops t rfl with kind | kind <;> rw [kind] <;> rfl

theorem Stops.meaningful {ts : List Token} (stops : Stops ts) : Stops (meaningful ts) := by
  cases ts with
  | nil => exact stops
  | cons t ts =>
    rw [meaningful_cons stops.real]
    exact fun s first => stops s first

theorem Grammatical.of_tokens {lang name : Token} {s : Span} {es : List Expr} {ts : List Token}
    (directive : lang.kind = .directive) (value : lang.value = "#lang")
    (identifier : name.kind = .identifier) (yields : YieldsEach es (meaningful ts)) :
    Grammatical (lang :: name :: (ts ++ [.fixed .endOfFile s])) ⟨⟨name.value, name.span⟩, es⟩ := by
  have stops : Stops [Token.fixed .endOfFile s] := by
    intro t first
    cases first
    exact .inr rfl
  have none : ∀ t ∈ ([] : List Token), t.kind = .comment := fun t member => absurd member List.not_mem_nil
  exact .program none directive value none identifier yields (meaningful_append ..) stops

theorem Parse.Leaf.real {t : Token} {e : Expr} (leaf : Parse.Leaf t e) : t.kind.isNoise = false := by
  cases leaf <;> rfl

end Hashlang
