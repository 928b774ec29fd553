import Hashlang.Proofs.Syntax.Execution
import Hashlang.Proofs.Syntax.Soundness
import Hashlang.Proofs.Token.Tiles

namespace Hashlang

open Lexeme

namespace Expr

mutual

/-- The identifiers and numbers are lexemes, and no string has a quote in it. -/
def WellFormed : Expr → Prop
  | number literal _ => IsNumber literal.text.toList
  | string text _ => '"' ∉ text.toList
  | identifier name _ => IsIdentifier name.toList
  | application procedure arguments _ => procedure.WellFormed ∧ WellFormedEach arguments

def WellFormedEach : List Expr → Prop
  | [] => True
  | e :: rest => e.WellFormed ∧ WellFormedEach rest

end

end Expr

structure Program.WellFormed (p : Program) : Prop where
  name : IsIdentifier p.header.name.toList
  expressions : Expr.WellFormedEach p.expressions

structure Token.Lexical (t : Token) : Prop where
  identifier : t.kind = .identifier → IsIdentifier t.value.toList
  number : t.kind = .number → IsNumber t.value.toList
  string : t.kind = .string → '"' ∉ t.value.toList

theorem Token.Lexical.of_other {t : Token} (other : t.kind ∉ [.identifier, .number, .string]) :
    t.Lexical := by
  simp only [List.mem_cons, List.not_mem_nil, or_false, not_or] at other
  exact ⟨fun kind => absurd kind other.1, fun kind => absurd kind other.2.1,
    fun kind => absurd kind other.2.2⟩

namespace Scan

theorem Piece.lexical {kind : Token.Kind} {value used rest : List Char}
    (piece : Piece kind value used rest) (s : Span) : Token.Lexical ⟨kind, .ofList value, s⟩ := by
  cases piece with
  | illegal => exact .of_other (by simp)
  | lexeme longest =>
    cases longest with
    | bracket member =>
      simp only [brackets, List.mem_cons, List.not_mem_nil, or_false, Prod.mk.injEq] at member
      rcases member with ⟨-, rfl⟩ | ⟨-, rfl⟩ | ⟨-, rfl⟩ | ⟨-, rfl⟩ <;> exact .of_other (by simp)
    | string free => exact ⟨by simp, by simp, fun _ => by rwa [String.toList_ofList]⟩
    | number number => exact ⟨by simp, fun _ => by rwa [String.toList_ofList], by simp⟩
    | identifier identifier => exact ⟨fun _ => by rwa [String.toList_ofList], by simp, by simp⟩
    | _ => exact .of_other (by simp)

theorem Tiles.lexical {n : Nat} {text : List Char} {tokens : List Token} (tiles : Tiles n text tokens) :
    ∀ t ∈ tokens, t.Lexical := by
  induction tiles with
  | done => exact List.forall_mem_singleton.mpr (.of_other (by simp [Token.fixed]))
  | blank _ _ ih => exact ih
  | piece piece _ ih => exact List.forall_mem_cons.mpr ⟨piece.lexical _, ih⟩

end Scan

theorem Parse.Leaf.wellFormed {t : Token} {e : Expr} (leaf : Parse.Leaf t e) (lexical : t.Lexical) :
    e.WellFormed := by
  cases leaf with
  | string => exact lexical.string rfl
  | number => exact lexical.number rfl
  | identifier => exact lexical.identifier rfl

mutual

theorem Yields.wellFormed {e : Expr} {us : List Token} :
    Yields e us → (∀ t ∈ us, t.Lexical) → e.WellFormed
  | .leaf leaf, lexical => leaf.wellFormed (lexical _ List.mem_cons_self)
  | .application _ procedure arguments _, lexical =>
    ⟨procedure.wellFormed fun t member => lexical t (by simp [member]),
      arguments.wellFormed fun t member => lexical t (by simp [member])⟩

theorem YieldsEach.wellFormed {es : List Expr} {us : List Token} :
    YieldsEach es us → (∀ t ∈ us, t.Lexical) → Expr.WellFormedEach es
  | .nil, _ => trivial
  | .cons first others, lexical =>
    ⟨first.wellFormed fun t member => lexical t (List.mem_append_left _ member),
      others.wellFormed fun t member => lexical t (List.mem_append_right _ member)⟩

end

theorem Grammatical.wellFormed {ts : List Token} {p : Program} (grammatical : Grammatical ts p)
    (lexical : ∀ t ∈ ts, t.Lexical) : p.WellFormed := by
  cases grammatical with
  | @program _ _ rest us tail _ name _ _ _ _ _ identifier each written =>
    have inRest : ∀ t ∈ us, t ∈ rest := by
      intro t member
      have kept : t ∈ meaningful rest := by
        rw [written]
        exact List.mem_append_left _ member
      exact (List.mem_filter.mp kept).1
    have lexicalName : name.Lexical := lexical name (by simp)
    exact ⟨lexicalName.identifier identifier,
      each.wellFormed fun t member => lexical t (by simp [inRest t member])⟩

theorem parseSource_wellFormed {source : String} {p : Program} (parsed : parseSource source = .ok p) :
    p.WellFormed := by
  obtain ⟨events, m, rest, run⟩ := Parse.parse_eq_iff.mp parsed
  exact run.grammatical.wellFormed (tiles_scan source).lexical

end Hashlang
