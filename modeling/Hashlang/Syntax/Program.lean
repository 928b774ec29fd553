import Hashlang.Syntax.Expr

namespace Hashlang

structure Header where
  name : String
  span : Span
deriving DecidableEq, Inhabited

def Header.render (h : Header) : String := "#lang " ++ h.name

def Header.alike (a b : Header) : Bool := a.name == b.name

inductive Statement where
  | header (h : Header)
  | expression (e : Expr)
deriving Inhabited

namespace Statement

def span : Statement → Span
  | header h => h.span
  | expression e => e.span

def render : Statement → String
  | header h => h.render
  | expression e => e.render

def alike : Statement → Statement → Bool
  | header a, header b => a.alike b
  | expression a, expression b => a.alike b
  | _, _ => false

end Statement

structure Program where
  header : Header
  expressions : List Expr
deriving Inhabited

namespace Program

def statements (p : Program) : List Statement :=
  .header p.header :: p.expressions.map .expression

def render (p : Program) : String :=
  String.join (p.statements.map fun s => s.render ++ "\n")

def alike (p q : Program) : Bool :=
  p.header.alike q.header && Expr.alikeEach p.expressions q.expressions

end Program

end Hashlang
