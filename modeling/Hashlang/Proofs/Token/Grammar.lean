import Hashlang.Token.Lexeme

namespace Hashlang

namespace Lexeme

/-- An identifier does not look like a number at its start; an apostrophe may stand in front of it,
and then digits and minus signs are no exception. -/
inductive IsIdentifier : List Char → Prop where
  | plain {start : Char} {name : List Char} : isNameStart start → start.isDigit = false →
      (start = '-' → ∀ d ∈ name.head?, d.isDigit = false) → (∀ c ∈ name, isNameChar c) →
      IsIdentifier (start :: name)
  | quoted {start : Char} {name : List Char} : isNameStart start → (∀ c ∈ name, isNameChar c) →
      IsIdentifier ('\'' :: start :: name)

inductive IsFraction : List Char → Prop where
  | absent : IsFraction []
  | point {digits : List Char} : (∀ d ∈ digits, d.isDigit) → IsFraction ('.' :: digits)

inductive IsNumber : List Char → Prop where
  | unsigned {digits fraction : List Char} : digits ≠ [] → (∀ d ∈ digits, d.isDigit) →
      IsFraction fraction → IsNumber (digits ++ fraction)
  | negative {digits fraction : List Char} : digits ≠ [] → (∀ d ∈ digits, d.isDigit) →
      IsFraction fraction → IsNumber ('-' :: (digits ++ fraction))

def strayChars : List Char := ['.', '?', '!', '\x7b', '\x7d', ',', '\x60', '|', '\\']

/-- Illegal text: stray characters and hash signs that begin no name. -/
structure IsIllegal (text : List Char) : Prop where
  stray : ∀ c ∈ text, c = '#' ∨ c ∈ strayChars
  hash : ∀ before c after, text = before ++ '#' :: c :: after → c ≠ '.' ∧ c ≠ '?' ∧ c ≠ '!'

def brackets : List (Char × Token.Kind) :=
  [('(', .openParen), (')', .closeParen), ('[', .openBracket), (']', .closeBracket)]

def NameEnds (rest : List Char) : Prop := ∀ d ∈ rest.head?, isNameChar d = false

/-- The number `text` cannot go on with `rest`: neither by a digit nor by its first point. -/
def NumberEnds (text rest : List Char) : Prop :=
  ∀ d ∈ rest.head?, d.isDigit = false ∧ ('.' ∉ text → d ≠ '.')

/-- A run of illegal text that is written as `used` in front of `rest` and kept as `text`. Only the
quote is kept of a string that is never closed. -/
inductive IllegalRun : (text used rest : List Char) → Prop where
  | plain {text rest : List Char} : IsIllegal text → (text.getLast? = some '#' → NameEnds rest) →
      IllegalRun text text rest
  | unclosed {text lost : List Char} : IsIllegal text → '"' ∉ lost →
      IllegalRun (text ++ ['"']) (text ++ '"' :: lost) []

/-- In a text that begins with the character `c` and goes on with `used` and then `rest`, the lexeme
that begins with `c` is the given one, and it ends in front of `rest`. -/
inductive Longest : Char → (used rest : List Char) → Lexeme → Prop where
  | bracket {c : Char} {kind : Token.Kind} {rest : List Char} : (c, kind) ∈ brackets →
      Longest c [] rest (.token kind [c])
  | comment {text rest : List Char} : '\n' ∉ text → (∀ d ∈ rest.head?, d = '\n') →
      Longest ';' text rest (.token .comment text)
  | quote {rest : List Char} : (∀ d ∈ rest.head?, isNameStart d = false) →
      Longest '\'' [] rest (.token .quote ['\''])
  | string {text rest : List Char} : '"' ∉ text → Longest '"' (text ++ ['"']) rest (.token .string text)
  /-- Where no quote follows, the one that opens a string is illegal, and all that follows is lost. -/
  | unterminated {text : List Char} : '"' ∉ text → Longest '"' text [] (.stray ['"'])
  | directive {name rest : List Char} : name ≠ [] → (∀ c ∈ name, isNameChar c) → NameEnds rest →
      Longest '#' name rest (.token .directive ('#' :: name))
  | hash {rest : List Char} : NameEnds rest → Longest '#' [] rest (.stray ['#'])
  | number {c : Char} {used rest : List Char} : IsNumber (c :: used) → NumberEnds (c :: used) rest →
      Longest c used rest (.token .number (c :: used))
  | identifier {c : Char} {used rest : List Char} : IsIdentifier (c :: used) → NameEnds rest →
      Longest c used rest (.token .identifier (c :: used))
  | stray {c : Char} {rest : List Char} : c ∈ strayChars → Longest c [] rest (.stray [c])

theorem forall_mem_of_all {l : List Char} {p : Char → Prop} [DecidablePred p]
    (checked : (l.all fun c => decide (p c)) = true) : ∀ c ∈ l, p c := by
  intro c member
  exact of_decide_eq_true (List.all_eq_true.mp checked c member)

theorem isNameChar_of_start {c : Char} (start : isNameStart c) : isNameChar c := by
  simp only [isNameStart, Bool.and_eq_true] at start
  exact start.1

theorem ne_of_isDigit {c d : Char} (digit : c.isDigit) (other : d.isDigit = false) : c ≠ d := by
  rintro rfl
  exact absurd digit (by rw [other]; decide)

theorem isNameStart_of_digit {c : Char} (digit : c.isDigit) : isNameStart c := by
  have inNoList : ∀ l : List Char, (∀ d ∈ l, d.isDigit = false) → c ∉ l := fun l free member =>
    ne_of_isDigit digit (free c member) rfl
  have delimiter := inNoList delimiters (forall_mem_of_all (by decide))
  have other := inNoList [' ', '\t', '\r', '\n', '.', '?', '!'] (forall_mem_of_all (by decide))
  simp only [List.mem_cons, List.not_mem_nil, or_false, not_or] at other
  simp [isNameStart, isNameChar, isBlank, delimiter, other]

theorem IsIllegal.nil : IsIllegal [] where
  stray c member := absurd member List.not_mem_nil
  hash before c after whole := by simp at whole

theorem IsIllegal.cons {c : Char} {text : List Char} (first : c = '#' ∧ NameEnds text ∨ c ∈ strayChars)
    (illegal : IsIllegal text) : IsIllegal (c :: text) where
  stray := List.forall_mem_cons.mpr ⟨first.imp_left And.left, illegal.stray⟩
  hash before d after whole := by
    cases before with
    | nil =>
      obtain ⟨rfl, rfl⟩ := List.cons.inj whole
      rcases first with ⟨-, stop⟩ | stray
      · have noName := stop d rfl
        refine ⟨?_, ?_, ?_⟩ <;> (rintro rfl; exact absurd noName (by decide))
      · exact absurd stray (by decide)
    | cons b before => exact illegal.hash before d after (List.cons.inj whole).2

theorem NameEnds.left {first second : List Char} (stop : NameEnds (first ++ second)) : NameEnds first := by
  cases first with
  | nil => exact fun d head => absurd head (by simp)
  | cons c first => exact stop

theorem IllegalRun.cons {c : Char} {text used rest : List Char}
    (first : c = '#' ∧ NameEnds (used ++ rest) ∨ c ∈ strayChars) (run : IllegalRun text used rest) :
    IllegalRun (c :: text) (c :: used) rest := by
  cases run with
  | plain illegal last =>
    refine .plain (illegal.cons (first.imp_left (And.imp_right NameEnds.left))) fun hash => ?_
    cases text with
    | nil =>
      obtain rfl := Option.some.inj hash
      rcases first with ⟨-, stop⟩ | stray
      · exact stop
      · exact absurd stray (by decide)
    | cons d text => exact last (by rwa [List.getLast?_cons_cons] at hash)
  | unclosed illegal free =>
    rw [List.append_assoc] at first
    exact .unclosed (illegal.cons (first.imp_left (And.imp_right NameEnds.left))) free

theorem isDigit_of_not_name {c : Char} (other : isNameChar c = false) : c.isDigit = false := by
  apply Bool.eq_false_iff.mpr
  intro digit
  have name := isNameChar_of_start (isNameStart_of_digit digit)
  exact absurd name (by rw [other]; decide)

theorem classes {c : Char} (ink : isBlank c = false) (other : isNameStart c = false) :
    c ∈ strayChars ∨ c ∈ brackets.map Prod.fst ∨ c = ';' ∨ c = '\'' ∨ c = '"' ∨ c = '#' := by
  simp only [isNameStart, isNameChar, ink, Bool.not_false, Bool.true_and, Bool.and_eq_false_iff,
    Bool.not_eq_false', List.contains_eq_mem, decide_eq_true_eq, Bool.or_eq_true] at other
  rcases other with delimiter | (rfl | rfl) | rfl
  · simp only [delimiters, List.mem_cons, List.not_mem_nil, or_false] at delimiter
    rcases delimiter with rfl | rfl | rfl | rfl | rfl | rfl | rfl | rfl | rfl | rfl | rfl | rfl | rfl | rfl <;>
      decide
  all_goals decide

end Lexeme

end Hashlang
