import Mathlib.Data.List.Forall2
import Hashlang.Proofs.Decimal.Rounding
import Hashlang.Proofs.Syntax.Consumption
import Hashlang.Proofs.Syntax.Culprit
import Hashlang.Proofs.Syntax.Headers

namespace Hashlang

namespace Token

/-- Two tokens of the same kind and, parentheses and directives apart, with the same text. -/
@[mk_iff]
structure Agrees (s t : Token) : Prop where
  kind : s.kind = t.kind
  value : s.kind ∉ [.openParen, .closeParen, .directive] → s.value = t.value

/-- The token is the text of a number, but what it denotes is no number. -/
def DenotesNaN (t : Token) : Prop := ∃ x, t.numeral? = some x ∧ x.toFloat.isNaN = true

theorem Agrees.symm {s t : Token} (agrees : s.Agrees t) : t.Agrees s where
  kind := agrees.kind.symm
  value free := (agrees.value (by rwa [agrees.kind])).symm

theorem Agrees.denotesNaN_iff {s t : Token} (agrees : s.Agrees t) : s.DenotesNaN ↔ t.DenotesNaN := by
  have same : s.numeral? = t.numeral? := by
    unfold numeral?
    rw [← agrees.kind]
    split
    case isTrue number => rw [agrees.value (by simp [number])]
    case isFalse => rfl
  unfold DenotesNaN
  rw [same]

theorem not_denotesNaN_of_kind {t : Token} (other : t.kind ≠ .number) : ¬t.DenotesNaN := by
  rintro ⟨x, denoted, -⟩
  rw [numeral?, if_neg other] at denoted
  cases denoted

theorem agrees_of_kind {kind : Kind} (bare : kind ∈ [.openParen, .closeParen, .directive]) {s t : Token}
    (left : s.kind = kind) (right : t.kind = kind) : s.Agrees t ∧ ¬s.DenotesNaN := by
  refine ⟨⟨left.trans right.symm, fun text => absurd (left ▸ bare) text⟩, not_denotesNaN_of_kind ?_⟩
  rintro number
  simp [← left, number] at bare

theorem not_denotesNaN_of_agree {us vs : List Token} (agree : List.Forall₂ Agrees us vs)
    (numbers : ∀ t ∈ us, ¬t.DenotesNaN) : ∀ t ∈ vs, ¬t.DenotesNaN := by
  induction agree with
  | nil => simp
  | cons first _ ih =>
    obtain ⟨number, numbers⟩ := List.forall_mem_cons.mp numbers
    exact List.forall_mem_cons.mpr ⟨mt first.denotesNaN_iff.mpr number, ih numbers⟩

end Token

theorem NumberText.alike_eq (a b : NumberText) :
    a.alike b = (a.text == b.text && a.value.toFloat == b.value.toFloat) := by
  by_cases text : a.text = b.text
  · rw [NumberText.eq_of_text text, alike, Numeral.beq_self, Numeral.isNaN_toFloat]
  · have different : (a.text == b.text) = false := beq_eq_false_iff_ne.mpr text
    rw [alike, different]
    rfl

open Parse

theorem NumberText.denotesNaN_iff (literal : NumberText) (s : Span) :
    Token.DenotesNaN ⟨.number, literal.text, s⟩ ↔ literal.value.toFloat.isNaN = true := by
  simp [Token.DenotesNaN, Token.numeral?, literal.reads]

theorem NumberText.alike_iff (a b : NumberText) (s : Span) :
    a.alike b = true ↔ a.text = b.text ∧ ¬Token.DenotesNaN ⟨.number, a.text, s⟩ := by
  rw [alike_eq, Bool.and_eq_true, beq_iff_eq, denotesNaN_iff]
  refine and_congr_right fun text => ?_
  rw [NumberText.eq_of_text text, Numeral.beq_self, Bool.not_eq_true', Bool.not_eq_true]

namespace Parse.Leaf

theorem kind_mem {t : Token} {e : Expr} (leaf : Leaf t e) : t.kind ∈ [.string, .number, .identifier] := by
  cases leaf <;> simp

theorem alike_iff {s t : Token} {e f : Expr} (left : Leaf s e) (right : Leaf t f) :
    e.alike f = true ↔ s.Agrees t ∧ ¬s.DenotesNaN := by
  by_cases kind : s.kind = t.kind
  · cases left with
    | string =>
      cases right <;> cases kind
      exact ⟨fun same => ⟨⟨rfl, fun _ => eq_of_beq same⟩, Token.not_denotesNaN_of_kind (by simp)⟩,
        fun agree => beq_iff_eq.mpr (agree.1.value (by simp))⟩
    | @number a place =>
      cases right <;> cases kind
      refine (a.alike_iff _ place).trans (and_congr_left fun _ => ?_)
      exact ⟨fun text => ⟨rfl, fun _ => text⟩, fun agree => agree.value (by simp)⟩
    | identifier =>
      cases right <;> cases kind
      exact ⟨fun same => ⟨⟨rfl, fun _ => eq_of_beq same⟩, Token.not_denotesNaN_of_kind (by simp)⟩,
        fun agree => beq_iff_eq.mpr (agree.1.value (by simp))⟩
  · refine iff_of_false ?_ fun agree => kind agree.1.kind
    cases left <;> cases right <;> first | exact absurd rfl kind | exact Bool.false_ne_true

end Parse.Leaf

theorem Yields.begins {e : Expr} {us : List Token} (yields : Yields e us) :
    ∃ t ts, us = t :: ts ∧ ¬(t.kind = .closeParen ∨ t.kind = .endOfFile) := by
  cases yields with
  | leaf leaf =>
    refine ⟨_, _, rfl, fun stop => ?_⟩
    have kind := leaf.kind_mem
    rcases stop with stop | stop <;> simp [stop] at kind
  | application paren => exact ⟨_, _, rfl, by simp [paren]⟩

theorem Yields.not_stops {e : Expr} {us vs as : List Token} (yields : Yields e us)
    (agree : List.Forall₂ Token.Agrees (us ++ vs) as) : ¬Stops as := by
  obtain ⟨t, ts, rfl, begins⟩ := yields.begins
  cases agree with
  | cons first => exact fun stops => begins (first.kind ▸ stops _ rfl)

theorem Stops.of_close {close : Token} (closing : close.kind = .closeParen) (ts : List Token) :
    Stops (close :: ts) := by
  rintro t ⟨⟩
  exact .inl closing

mutual

/-- Where tokens agree with whatever stands behind, the expressions are alike, they end at the same place
and what stands behind agrees. -/
theorem Yields.alike : ∀ {e f : Expr} {us vs as bs : List Token}, Yields e us → Yields f vs →
    List.Forall₂ Token.Agrees (us ++ as) (vs ++ bs) → (∀ t ∈ us, ¬t.DenotesNaN) →
      e.alike f = true ∧ List.Forall₂ Token.Agrees as bs
  | _, _, _, _, _, _, .leaf left, .leaf right, agree, numbers => by
    obtain ⟨first, rest⟩ := List.forall₂_cons.mp agree
    exact ⟨(left.alike_iff right).mpr ⟨first, numbers _ (List.mem_singleton_self _)⟩, rest⟩
  | _, _, _, _, _, _, .leaf left, .application paren .., agree, _ => by
    obtain ⟨first, -⟩ := List.forall₂_cons.mp agree
    have kind := left.kind_mem
    simp [first.kind, paren] at kind
  | _, _, _, _, _, _, .application paren .., .leaf right, agree, _ => by
    obtain ⟨first, -⟩ := List.forall₂_cons.mp agree
    have kind := right.kind_mem
    simp [← first.kind, paren] at kind
  | _, _, _, _, as, bs, .application _ procedure arguments closing,
      .application _ procedure' arguments' closing', agree, numbers => by
    simp only [List.cons_append, List.append_assoc] at agree
    obtain ⟨-, inner⟩ := List.forall₂_cons.mp agree
    obtain ⟨same, inner⟩ := procedure.alike procedure' inner fun t member => numbers t (by simp [member])
    obtain ⟨same', last⟩ := arguments.alike arguments' inner (.of_close closing as) (.of_close closing' bs)
      fun t member => numbers t (by simp [member])
    obtain ⟨-, rest⟩ := List.forall₂_cons.mp last
    exact ⟨by rw [Expr.alike, same, same']; rfl, rest⟩

theorem YieldsEach.alike : ∀ {es fs : List Expr} {us vs as bs : List Token}, YieldsEach es us →
    YieldsEach fs vs → List.Forall₂ Token.Agrees (us ++ as) (vs ++ bs) → Stops as → Stops bs →
      (∀ t ∈ us, ¬t.DenotesNaN) → Expr.alikeEach es fs = true ∧ List.Forall₂ Token.Agrees as bs
  | _, _, _, _, _, _, .nil, .nil, agree, _, _, _ => ⟨rfl, agree⟩
  | _, _, _, _, _, _, .nil, .cons first _, agree, stops, _, _ => by
    rw [List.append_assoc] at agree
    exact absurd stops (first.not_stops (agree.flip.imp fun _ _ => Token.Agrees.symm))
  | _, _, _, _, _, _, .cons first _, .nil, agree, _, stops, _ => by
    rw [List.append_assoc] at agree
    exact absurd stops (first.not_stops agree)
  | _, _, _, _, _, _, .cons first others, .cons first' others', agree, stops, stops', numbers => by
    simp only [List.append_assoc] at agree
    obtain ⟨same, behind⟩ := first.alike first' agree
      fun t member => numbers t (List.mem_append_left _ member)
    obtain ⟨same', rest⟩ := others.alike others' behind stops stops'
      fun t member => numbers t (List.mem_append_right _ member)
    exact ⟨by rw [Expr.alikeEach, same, same']; rfl, rest⟩

end

mutual

theorem Yields.agree : ∀ {e f : Expr} {us vs : List Token}, Yields e us → Yields f vs → e.alike f = true →
    List.Forall₂ Token.Agrees us vs ∧ ∀ t ∈ us, ¬t.DenotesNaN
  | _, _, _, _, .leaf left, .leaf right, same => by
    obtain ⟨first, number⟩ := (left.alike_iff right).mp same
    exact ⟨.cons first .nil, List.forall_mem_singleton.mpr number⟩
  | _, _, _, _, .leaf left, .application .., same => by cases left <;> cases same
  | _, _, _, _, .application .., .leaf right, same => by cases right <;> cases same
  | _, _, _, _, .application paren procedure arguments closing,
      .application paren' procedure' arguments' closing', same => by
    rw [Expr.alike, Bool.and_eq_true] at same
    obtain ⟨inner, numbers⟩ := procedure.agree procedure' same.1
    obtain ⟨others, numbers'⟩ := arguments.agree arguments' same.2
    obtain ⟨opening, first⟩ := Token.agrees_of_kind (by simp) paren paren'
    obtain ⟨close, last⟩ := Token.agrees_of_kind (by simp) closing closing'
    refine ⟨.cons opening (List.rel_append inner (List.rel_append others (.cons close .nil))), ?_⟩
    rw [List.forall_mem_cons, List.forall_mem_append, List.forall_mem_append, List.forall_mem_singleton]
    exact ⟨first, numbers, numbers', last⟩

theorem YieldsEach.agree : ∀ {es fs : List Expr} {us vs : List Token}, YieldsEach es us → YieldsEach fs vs →
    Expr.alikeEach es fs = true → List.Forall₂ Token.Agrees us vs ∧ ∀ t ∈ us, ¬t.DenotesNaN
  | _, _, _, _, .nil, .nil, _ => ⟨.nil, by simp⟩
  | _, _, _, _, .nil, .cons .., same => by cases same
  | _, _, _, _, .cons .., .nil, same => by cases same
  | _, _, _, _, .cons first others, .cons first' others', same => by
    rw [Expr.alikeEach, Bool.and_eq_true] at same
    obtain ⟨left, numbers⟩ := first.agree first' same.1
    obtain ⟨right, numbers'⟩ := others.agree others' same.2
    exact ⟨List.rel_append left right, List.forall_mem_append.mpr ⟨numbers, numbers'⟩⟩

end

theorem YieldsEach.alike_iff {es fs : List Expr} {us vs : List Token} (left : YieldsEach es us)
    (right : YieldsEach fs vs) : Expr.alikeEach es fs = true ↔
      List.Forall₂ Token.Agrees us vs ∧ ∀ t ∈ us, ¬t.DenotesNaN := by
  constructor
  · exact left.agree right
  · rintro ⟨agree, numbers⟩
    have stops : Stops [] := by simp [Stops]
    have whole : List.Forall₂ Token.Agrees (us ++ []) (vs ++ []) := by simpa using agree
    exact (left.alike right whole stops stops numbers).1

def stopIndex (ts : List Token) : Nat := (parseTape (Cursor.ofList ts)).tape.position

/-- The directive of the header and all tokens behind it that mean something, up to where the parser
stops. -/
def essentials (ts : List Token) : List Token :=
  match afterComments (ts.take (stopIndex ts)) with
  | [] => []
  | lang :: rest => lang :: meaningful rest

theorem Parse.ProgramRun.length_eq {n m : Nat} {ts rest : List Token} {events : List Event} {p : Program}
    (run : ProgramRun n ts events (.ok p) m rest) : m + rest.length = n + ts.length := by
  cases run with
  | complete header body =>
    obtain ⟨used, passed, -⟩ := body.reads
    rw [← header.swept.length_eq, passed.place, passed.tokens, List.length_append, Nat.add_assoc]

theorem WritesHeader.essentials {front used : List Token} {h : Header} (writes : WritesHeader front h) :
    ∃ lang name rest, afterComments (front ++ used) = lang :: rest ∧
      meaningful rest = name :: meaningful used ∧ lang.kind = .directive ∧ name.kind = .identifier ∧
      name.value = h.name := by
  cases writes with
  | @header before between lang name comments directive value comments' identifier =>
    refine ⟨lang, name, between ++ name :: used, ?_, ?_, directive, identifier, rfl⟩
    · rw [List.append_assoc, afterComments_append comments]
      simpa using afterComments_cons (by simp [directive]) _
    · have noise : ∀ t ∈ between, t.kind.isNoise := fun t member => by rw [comments' t member]; rfl
      rw [meaningful_append, meaningful_eq_nil.mpr noise, meaningful_cons (by rw [identifier]; rfl)]
      rfl

theorem exists_laid_stopIndex {ts : List Token} {p : Program} (parsed : parse ts = .ok p) :
    ∃ front used, Laid ts front used (ts.drop (stopIndex ts)) p ∧
      ts.take (stopIndex ts) = front ++ used := by
  obtain ⟨events, m, rest, run⟩ := parse_eq_iff.mp parsed
  obtain ⟨c, stopped, place, -⟩ := run.parseTape (k := Cursor.ofList ts) (And.intro rfl rfl)
  obtain ⟨front, used, laid⟩ := run.laid
  have whole : ts = (front ++ used) ++ rest := by rw [laid.whole, List.append_assoc]
  have index : stopIndex ts = (front ++ used).length := by
    have length := run.length_eq
    rw [whole, List.length_append] at length
    rw [stopIndex, stopped, place]
    omega
  have behind : ts.drop (stopIndex ts) = rest := by rw [index, whole, List.drop_left]
  refine ⟨front, used, behind ▸ laid, ?_⟩
  rw [index, whole, List.take_left]

theorem exists_essentials {ts : List Token} {p : Program} (parsed : parse ts = .ok p) :
    ∃ lang name us, essentials ts = lang :: name :: us ∧ lang.kind = .directive ∧
      name.kind = .identifier ∧ name.value = p.header.name ∧ YieldsEach p.expressions us := by
  obtain ⟨front, used, laid, cut⟩ := exists_laid_stopIndex parsed
  obtain ⟨lang, name, rest, first, kept, directive, identifier, value⟩ :=
    laid.header.essentials
  refine ⟨lang, name, meaningful used, ?_, directive, identifier, value, laid.expressions⟩
  rw [essentials, cut, first]
  exact congrArg _ kept

theorem stops_drop_stopIndex {ts : List Token} {p : Program} (parsed : parse ts = .ok p) :
    Stops (ts.drop (stopIndex ts)) := by
  obtain ⟨_, _, laid, -⟩ := exists_laid_stopIndex parsed
  exact laid.stops

/-- The parser stops at a closing parenthesis, at the end of the file or where there are no more tokens.
Programs are alike if and only if the essential tokens that they were read from agree one by one and no
number among them denotes NaN. -/
theorem parse_alike_iff {ts us : List Token} {p q : Program} (parsed : parse ts = .ok p)
    (parsed' : parse us = .ok q) :
    (Stops (ts.drop (stopIndex ts)) ∧ Stops (us.drop (stopIndex us))) ∧
    (p.alike q = true ↔ List.Forall₂ Token.Agrees (essentials ts) (essentials us) ∧
      ∀ t ∈ essentials ts ++ essentials us, ¬t.DenotesNaN) := by
  refine ⟨⟨stops_drop_stopIndex parsed, stops_drop_stopIndex parsed'⟩, ?_⟩
  obtain ⟨lang, name, vs, tokens, directive, identifier, value, each⟩ := exists_essentials parsed
  obtain ⟨lang', name', ws, tokens', directive', identifier', value', each'⟩ := exists_essentials parsed'
  rw [tokens, tokens', Program.alike, Bool.and_eq_true, each.alike_iff each']
  obtain ⟨heads, unread⟩ := Token.agrees_of_kind (by simp) directive directive'
  have unread' : ¬name.DenotesNaN := Token.not_denotesNaN_of_kind (by simp [identifier])
  have names : p.header.alike q.header = true ↔ name.Agrees name' := by
    rw [Header.alike, beq_iff_eq, ← value, ← value']
    exact ⟨fun same => ⟨identifier.trans identifier'.symm, fun _ => same⟩,
      fun agrees => agrees.value (by simp [identifier])⟩
  rw [names]
  constructor
  · rintro ⟨first, agree, numbers⟩
    have whole : List.Forall₂ Token.Agrees (lang :: name :: vs) (lang' :: name' :: ws) :=
      .cons heads (.cons first agree)
    have left : ∀ t ∈ lang :: name :: vs, ¬t.DenotesNaN := by
      rw [List.forall_mem_cons, List.forall_mem_cons]
      exact ⟨unread, unread', numbers⟩
    exact ⟨whole, List.forall_mem_append.mpr ⟨left, Token.not_denotesNaN_of_agree whole left⟩⟩
  · rintro ⟨whole, numbers⟩
    obtain ⟨-, rest⟩ := List.forall₂_cons.mp whole
    obtain ⟨first, agree⟩ := List.forall₂_cons.mp rest
    exact ⟨first, agree, fun t member => numbers t (by simp [member])⟩

/-- Noise, other parentheses and other places make no difference, and a program with NaN is not even like
itself. -/
theorem parse_alike_iff_noise :
    let ts : List Token := [⟨.directive, "#lang", ⟨0, 5⟩⟩, ⟨.identifier, "a", ⟨6, 1⟩⟩,
      ⟨.openParen, "(", ⟨8, 1⟩⟩, ⟨.comment, "c", ⟨9, 2⟩⟩, ⟨.identifier, "f", ⟨12, 1⟩⟩,
      ⟨.directive, "#lang", ⟨14, 5⟩⟩, ⟨.number, "1", ⟨20, 1⟩⟩, ⟨.closeParen, ")", ⟨21, 1⟩⟩,
      ⟨.closeParen, ")", ⟨22, 1⟩⟩, ⟨.identifier, "x", ⟨24, 1⟩⟩]
    let us : List Token := [⟨.directive, "#lang", ⟨0, 5⟩⟩, ⟨.identifier, "a", ⟨7, 1⟩⟩,
      ⟨.openParen, "<", ⟨8, 1⟩⟩, ⟨.identifier, "f", ⟨9, 1⟩⟩, ⟨.number, "1", ⟨11, 1⟩⟩,
      ⟨.quote, "'", ⟨12, 1⟩⟩, ⟨.closeParen, ">", ⟨13, 1⟩⟩, ⟨.endOfFile, "", ⟨14, 0⟩⟩]
    let ws : List Token := [⟨.directive, "#lang", ⟨0, 5⟩⟩, ⟨.identifier, "a", ⟨6, 1⟩⟩,
      ⟨.number, "nan", ⟨8, 3⟩⟩]
    ∃ p q r, parse ts = .ok p ∧ parse us = .ok q ∧ parse ws = .ok r ∧ p.alike q = true ∧
      ¬r.alike r = true := by
  intro ts us ws
  obtain ⟨p, first⟩ := @parse_of_fault? ts (by decide +kernel +zetaReduce)
  obtain ⟨q, second⟩ := @parse_of_fault? us (by decide +kernel +zetaReduce)
  obtain ⟨r, third⟩ := @parse_of_fault? ws (by decide +kernel +zetaReduce)
  have left : essentials ts = [⟨.directive, "#lang", ⟨0, 5⟩⟩, ⟨.identifier, "a", ⟨6, 1⟩⟩,
      ⟨.openParen, "(", ⟨8, 1⟩⟩, ⟨.identifier, "f", ⟨12, 1⟩⟩, ⟨.number, "1", ⟨20, 1⟩⟩,
      ⟨.closeParen, ")", ⟨21, 1⟩⟩] := by decide +kernel +zetaReduce
  have right : essentials us = [⟨.directive, "#lang", ⟨0, 5⟩⟩, ⟨.identifier, "a", ⟨7, 1⟩⟩,
      ⟨.openParen, "<", ⟨8, 1⟩⟩, ⟨.identifier, "f", ⟨9, 1⟩⟩, ⟨.number, "1", ⟨11, 1⟩⟩,
      ⟨.closeParen, ">", ⟨13, 1⟩⟩] := by decide +kernel +zetaReduce
  have all : essentials ws = ws := by decide +kernel +zetaReduce
  let literal : NumberText := ⟨"1", .decimal false 1 0, by decide +kernel⟩
  have one (s : Span) : ¬Token.DenotesNaN ⟨.number, "1", s⟩ := by
    rw [literal.denotesNaN_iff s, Numeral.isNaN_toFloat]
    decide
  refine ⟨p, q, r, first, second, third, ?_, fun same => ?_⟩
  · refine (parse_alike_iff first second).2.mpr ⟨?_, ?_⟩
    · rw [left, right]
      simp [Token.agrees_iff]
    · rw [left, right]
      simp [one, Token.not_denotesNaN_of_kind]
  · obtain ⟨-, numbers⟩ := (parse_alike_iff third third).2.mp same
    exact numbers ⟨.number, "nan", ⟨8, 3⟩⟩ (by simp [all, ws]) ⟨.nan, by decide +kernel, rfl⟩

end Hashlang
