import Hashlang.Proofs.Decimal.Reading
import Hashlang.Proofs.Syntax.WellFormed
import Hashlang.Proofs.Text.Slice

namespace Hashlang

open Lexeme

namespace Expr

mutual

/-- The expression as it stands where its text begins at index `n`. -/
def placed (n : Nat) : Expr → Expr
  | number literal s => number literal ⟨n, (number literal s).render.length⟩
  | string text s => string text ⟨n, (string text s).render.length⟩
  | identifier name s => identifier name ⟨n, (identifier name s).render.length⟩
  | application procedure arguments s =>
    application (procedure.placed (n + 1)) (placedEach (n + 1 + procedure.render.length) arguments)
      ⟨n, (application procedure arguments s).render.length⟩

def placedEach (n : Nat) : List Expr → List Expr
  | [] => []
  | e :: rest => e.placed (n + 1) :: placedEach (n + 1 + e.render.length) rest

end

def placedLines (n : Nat) : List Expr → List Expr
  | [] => []
  | e :: rest => e.placed n :: placedLines (n + e.render.length + 1) rest

theorem toList_render_application (procedure : Expr) (arguments : List Expr) (s : Span) :
    (application procedure arguments s).render.toList =
      '(' :: (procedure.render.toList ++ ((renderEach arguments).toList ++ [')'])) := by
  rw [render]
  simp

theorem toList_renderEach_cons (e : Expr) (rest : List Expr) :
    (renderEach (e :: rest)).toList = ' ' :: (e.render.toList ++ (renderEach rest).toList) := by
  rw [renderEach]
  simp

theorem span_placed (n : Nat) (e : Expr) : (e.placed n).span = ⟨n, e.render.length⟩ := by
  cases e <;> rfl

mutual

theorem render_placed : ∀ (n : Nat) (e : Expr), (e.placed n).render = e.render
  | _, .number _ _ => rfl
  | _, .string _ _ => rfl
  | _, .identifier _ _ => rfl
  | n, .application procedure arguments _ => by
    rw [placed, render, render, render_placed (n + 1) procedure, renderEach_placed _ arguments]

theorem renderEach_placed : ∀ (n : Nat) (es : List Expr), renderEach (placedEach n es) = renderEach es
  | _, [] => rfl
  | n, e :: rest => by
    rw [placedEach, renderEach, renderEach, render_placed (n + 1) e, renderEach_placed _ rest]

end

theorem alike_self {literal : NumberText} (number : IsNumber literal.text.toList) :
    literal.alike literal = true := by
  obtain ⟨negative, n, e, read⟩ := Numeral.ofChars?_of_isNumber number
  have value : literal.value = .decimal negative n e :=
    Option.some.inj (literal.reads.symm.trans read)
  simp [NumberText.alike, value, Numeral.isNaN]

mutual

theorem alike_placed : ∀ (n : Nat) (e : Expr), e.WellFormed → (e.placed n).alike e = true
  | _, .number _ _, shape => alike_self shape
  | _, .string _ _, _ => by simp [placed, alike]
  | _, .identifier _ _, _ => by simp [placed, alike]
  | n, .application procedure arguments _, ⟨wellFormed, each⟩ => by
    rw [placed, alike, alike_placed (n + 1) procedure wellFormed, alikeEach_placed _ arguments each]
    rfl

theorem alikeEach_placed : ∀ (n : Nat) (es : List Expr), WellFormedEach es →
    alikeEach (placedEach n es) es = true
  | _, [], _ => rfl
  | n, e :: rest, ⟨wellFormed, each⟩ => by
    rw [placedEach, alikeEach, alike_placed (n + 1) e wellFormed, alikeEach_placed _ rest each]
    rfl

end

theorem alikeEach_placedLines {es : List Expr} (wellFormed : WellFormedEach es) (n : Nat) :
    alikeEach (placedLines n es) es = true := by
  induction es generalizing n with
  | nil => rfl
  | cons e rest ih =>
    rw [placedLines, alikeEach, alike_placed n e wellFormed.1, ih wellFormed.2]
    rfl

def Covering (source : String) (nodes : List (Nat × Expr)) : Prop :=
  ∀ node ∈ nodes, node.2.span.text? source = some node.2.render

theorem Covering.append {source : String} {first others : List (Nat × Expr)}
    (left : Covering source first) (right : Covering source others) :
    Covering source (first ++ others) := by
  intro node member
  rcases List.mem_append.mp member with member | member
  · exact left node member
  · exact right node member

theorem text?_placed {source : String} {n : Nat} {before after : List Char} (e : Expr)
    (place : before.length = n) (whole : source.toList = before ++ (e.render.toList ++ after)) :
    (e.placed n).span.text? source = some (e.placed n).render := by
  rw [span_placed, render_placed, ← place, ← String.length_toList, Span.text?_of_append whole,
    String.ofList_toList]

mutual

theorem nodes_placed {source : String} : ∀ (e : Expr) (depth n : Nat) (before after : List Char),
    before.length = n → source.toList = before ++ (e.render.toList ++ after) →
    Covering source ((e.placed n).nodes depth)
  | .number literal s, _, _, _, _, place, whole =>
    List.forall_mem_singleton.mpr (text?_placed (.number literal s) place whole)
  | .string text s, _, _, _, _, place, whole =>
    List.forall_mem_singleton.mpr (text?_placed (.string text s) place whole)
  | .identifier name s, _, _, _, _, place, whole =>
    List.forall_mem_singleton.mpr (text?_placed (.identifier name s) place whole)
  | .application procedure arguments s, depth, n, before, after, place, whole => by
    have here := text?_placed (.application procedure arguments s) place whole
    rw [toList_render_application] at whole
    have first : Covering source ((procedure.placed (n + 1)).nodes (depth + 1)) :=
      nodes_placed procedure (depth + 1) _ (before ++ ['('])
        ((renderEach arguments).toList ++ ([')'] ++ after)) (by simp [place]) (by simp [whole])
    have behind : (before ++ '(' :: procedure.render.toList).length = n + 1 + procedure.render.length := by
      rw [List.length_append, List.length_cons, String.length_toList, place]
      omega
    have others : Covering source
        (nodesOfEach (depth + 1) (placedEach (n + 1 + procedure.render.length) arguments)) :=
      nodes_placedEach arguments (depth + 1) _ _ ([')'] ++ after) behind (by simp [whole])
    rw [placed] at here ⊢
    exact List.forall_mem_cons.mpr ⟨here, first.append others⟩

theorem nodes_placedEach {source : String} : ∀ (es : List Expr) (depth n : Nat)
    (before after : List Char), before.length = n →
    source.toList = before ++ ((renderEach es).toList ++ after) →
    Covering source (nodesOfEach depth (placedEach n es))
  | [], _, _, _, _, _, _ => fun node member => absurd member List.not_mem_nil
  | e :: rest, depth, n, before, after, place, whole => by
    rw [toList_renderEach_cons] at whole
    have first : Covering source ((e.placed (n + 1)).nodes depth) :=
      nodes_placed e depth _ (before ++ [' ']) ((renderEach rest).toList ++ after) (by simp [place])
        (by simp [whole])
    have behind : (before ++ ' ' :: e.render.toList).length = n + 1 + e.render.length := by
      rw [List.length_append, List.length_cons, String.length_toList, place]
      omega
    have others : Covering source (nodesOfEach depth (placedEach (n + 1 + e.render.length) rest)) :=
      nodes_placedEach rest depth _ _ after behind (by simp [whole])
    exact first.append others

end

end Expr

end Hashlang
