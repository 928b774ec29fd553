import Hashlang.Proofs.Reading.Faithful
import Hashlang.Proofs.Token.Grammar

namespace Hashlang

namespace Lexeme

theorem isNumber_cons_iff {c : Char} {used : List Char} :
    IsNumber (c :: used) ↔ ∃ digits fraction, used = digits ++ fraction ∧ (∀ d ∈ digits, d.isDigit) ∧
      IsFraction fraction ∧ (c.isDigit ∨ c = '-' ∧ digits ≠ []) := by
  constructor
  · intro number
    generalize whole : c :: used = text at number
    cases number with
    | @unsigned digits fraction present digital shape =>
      obtain ⟨d, digits, rfl⟩ := List.exists_cons_of_ne_nil present
      obtain ⟨rfl, rfl⟩ := List.cons.inj whole
      exact ⟨digits, fraction, rfl, fun d member => digital d (List.mem_cons_of_mem _ member), shape,
        .inl (digital c List.mem_cons_self)⟩
    | @negative digits fraction present digital shape =>
      obtain ⟨rfl, rfl⟩ := List.cons.inj whole
      exact ⟨digits, fraction, rfl, digital, shape, .inr ⟨rfl, present⟩⟩
  · rintro ⟨digits, fraction, rfl, digital, shape, first | ⟨rfl, present⟩⟩
    · rw [← List.cons_append]
      exact .unsigned (List.cons_ne_nil _ _) (List.forall_mem_cons.mpr ⟨first, digital⟩) shape
    · exact .negative present digital shape

theorem exists_run (p : Char → Bool) (text : List Char) :
    ∃ used rest, text = used ++ rest ∧ (∀ c ∈ used, p c) ∧ ∀ d ∈ rest.head?, p d = false := by
  refine ⟨text.takeWhile p, text.dropWhile p, List.takeWhile_append_dropWhile.symm, ?_, ?_⟩
  · intro c member
    exact List.all_eq_true.mp List.all_takeWhile c member
  · intro d head
    have refused := List.head?_dropWhile_not p text
    rw [Option.mem_def.mp head] at refused
    exact refused

theorem exists_number {c : Char} {text : List Char}
    (begins : c.isDigit ∨ c = '-' ∧ ∃ d ∈ text.head?, d.isDigit) :
    ∃ used rest, text = used ++ rest ∧ IsNumber (c :: used) ∧ NumberEnds (c :: used) rest := by
  obtain ⟨digits, rest, rfl, digital, stop⟩ := exists_run Char.isDigit text
  have first : c.isDigit ∨ c = '-' ∧ digits ≠ [] := by
    rcases begins with digit | ⟨minus, d, head, digit⟩
    · exact .inl digit
    · refine .inr ⟨minus, ?_⟩
      rintro rfl
      exact absurd digit (by rw [stop d head]; decide)
  by_cases point : rest.head? = some '.'
  · obtain ⟨rest, rfl⟩ := List.head?_eq_some_iff.mp point
    obtain ⟨places, rest, rfl, digitalPlaces, stop⟩ := exists_run Char.isDigit rest
    refine ⟨digits ++ '.' :: places, rest, by simp, ?_, ?_⟩
    · exact isNumber_cons_iff.mpr ⟨digits, '.' :: places, rfl, digital, .point digitalPlaces, first⟩
    · exact fun d head => ⟨stop d head, fun noPoint => absurd (by simp) noPoint⟩
  · refine ⟨digits, rest, rfl, ?_, ?_⟩
    · exact isNumber_cons_iff.mpr ⟨digits, [], (List.append_nil _).symm, digital, .absent, first⟩
    · refine fun d head => ⟨stop d head, fun _ same => point ?_⟩
      rw [← same]
      exact head

theorem exists_longest {c : Char} (ink : isBlank c = false) (text : List Char) :
    ∃ used rest lexeme, text = used ++ rest ∧ Longest c used rest lexeme := by
  cases start : isNameStart c with
  | false =>
    rcases classes ink start with stray | bracket | rfl | rfl | rfl | rfl
    · exact ⟨[], text, _, rfl, .stray stray⟩
    · obtain ⟨⟨_, kind⟩, member, rfl⟩ := List.mem_map.mp bracket
      exact ⟨[], text, _, rfl, .bracket member⟩
    · obtain ⟨line, rest, rfl, inLine, stop⟩ := exists_run (· ≠ '\n') text
      refine ⟨line, rest, _, rfl, .comment (fun member => ?_) fun d head => ?_⟩
      · exact absurd (inLine _ member) (by decide)
      · exact of_decide_eq_true (by simpa using stop d head)
    · by_cases named : ∃ d ∈ text.head?, isNameStart d
      · obtain ⟨d, head, start⟩ := named
        obtain ⟨text, rfl⟩ := List.head?_eq_some_iff.mp (Option.mem_def.mp head)
        obtain ⟨name, rest, rfl, inName, stop⟩ := exists_run isNameChar text
        exact ⟨d :: name, rest, _, rfl, .identifier (.quoted start inName) stop⟩
      · refine ⟨[], text, _, rfl, .quote fun d head => Bool.eq_false_iff.mpr fun start => ?_⟩
        exact named ⟨d, head, start⟩
    -- A string ends at the first quote; where there is none, everything ahead is lost.
    · by_cases closed : '"' ∈ text
      · obtain ⟨string, rest, rfl, free⟩ := List.eq_append_cons_of_mem closed
        exact ⟨string ++ ['"'], rest, _, by simp, .string free⟩
      · exact ⟨text, [], _, (List.append_nil _).symm, .unterminated closed⟩
    · obtain ⟨name, rest, rfl, inName, stop⟩ := exists_run isNameChar text
      by_cases empty : name = []
      · subst empty
        exact ⟨[], rest, _, rfl, .hash stop⟩
      · exact ⟨name, rest, _, rfl, .directive empty inName stop⟩
  | true =>
    -- Digits may stand in names, so only the start tells numbers from identifiers.
    by_cases begins : c.isDigit ∨ c = '-' ∧ ∃ d ∈ text.head?, d.isDigit
    · obtain ⟨used, rest, rfl, number, stop⟩ := exists_number begins
      exact ⟨used, rest, _, rfl, .number number stop⟩
    · obtain ⟨noDigit, noNumber⟩ := not_or.mp begins
      obtain ⟨name, rest, rfl, inName, stop⟩ := exists_run isNameChar text
      refine ⟨name, rest, _, rfl, .identifier (.plain start (Bool.eq_false_iff.mpr noDigit) ?_ inName) stop⟩
      intro minus d head
      apply Bool.eq_false_iff.mpr
      intro digit
      exact noNumber ⟨minus, d, by simp [Option.mem_def.mp head], digit⟩

theorem foldlM_nameStep {name : List Char} (inName : ∀ c ∈ name, isNameChar c) :
    name.foldlM nameStep () = some () := by
  induction name with
  | nil => rfl
  | cons c name ih =>
    have first := inName c List.mem_cons_self
    rw [List.foldlM_cons, nameStep, first]
    exact ih fun d member => inName d (List.mem_cons_of_mem _ member)

theorem foldlM_digits {digits : List Char} (digital : ∀ d ∈ digits, d.isDigit) (pointSeen : Bool) :
    digits.foldlM numberStep pointSeen = some pointSeen := by
  induction digits with
  | nil => rfl
  | cons d digits ih =>
    have first := digital d List.mem_cons_self
    rw [List.foldlM_cons, numberStep, first]
    exact ih fun c member => digital c (List.mem_cons_of_mem _ member)

theorem foldlM_number {digits fraction : List Char} (digital : ∀ d ∈ digits, d.isDigit)
    (shape : IsFraction fraction) :
    (digits ++ fraction).foldlM numberStep false = some (decide ('.' ∈ fraction)) := by
  rw [List.foldlM_append, foldlM_digits digital]
  cases shape with
  | absent => rfl
  | @point places digitalPlaces =>
    have point : numberStep false '.' = some true := by decide
    have later := foldlM_digits digitalPlaces true
    simp only [Option.bind_eq_bind, Option.bind_some, List.foldlM_cons, point, later, List.mem_cons,
      true_or, decide_true]

theorem point_mem_fraction {c : Char} {digits fraction : List Char} (first : c.isDigit ∨ c = '-')
    (digital : ∀ d ∈ digits, d.isDigit) : '.' ∈ c :: (digits ++ fraction) ↔ '.' ∈ fraction := by
  have notFirst : '.' ≠ c := by
    rcases first with digit | rfl
    · exact (ne_of_isDigit digit (by decide)).symm
    · decide
  have notDigit : '.' ∉ digits := fun member => absurd (digital _ member) (by decide)
  simp only [List.mem_cons, List.mem_append, notFirst, notDigit, false_or]

def openers : List Char := ['(', ')', '[', ']', ';', '\'', '"', '#']

theorem read_plain {κ : Type} [Tape κ Char] {c : Char} (plain : c ∉ openers) (k : κ) :
    read c k =
      if startsNumber c k then
        let (number, k) := readNumber c k
        (.token .number number, k)
      else if isNameStart c then
        let (name, k) := readName c k
        (.token .identifier name, k)
      else (.stray [c], k) := by
  simp only [openers, List.mem_cons, List.not_mem_nil, or_false, not_or] at plain
  simp only [read, plain, if_false]

variable {κ : Type} [Tape κ Char] [Tape.Faithful κ] {k : κ} {n : Nat} {c : Char}
  {used rest : List Char} {lexeme : Lexeme}

open Tape Tape.Faithful

theorem length_le_remaining (shown : Shows k n (used ++ rest)) : used.length ≤ remaining k := by
  rw [remaining_eq shown, List.length_append]
  omega

theorem readName_longest (shown : Shows k n (used ++ rest)) (inName : ∀ c ∈ used, isNameChar c)
    (stop : NameEnds rest) :
    ∃ k', readName c k = (c :: used, k') ∧ Shows k' (n + used.length) rest := by
  have refused : ∀ d ∈ rest.head?, nameStep () d = none := by
    intro d head
    rw [nameStep, stop d head]
    rfl
  obtain ⟨k', taken, shown⟩ :=
    readWhile_accepted shown (foldlM_nameStep inName) refused (length_le_remaining shown)
  exact ⟨k', by rw [readName, taken], shown⟩

theorem readNumber_longest (shown : Shows k n (used ++ rest)) (number : IsNumber (c :: used))
    (stop : NumberEnds (c :: used) rest) :
    ∃ k', readNumber c k = (c :: used, k') ∧ Shows k' (n + used.length) rest := by
  obtain ⟨digits, fraction, rfl, digital, shape, first⟩ := isNumber_cons_iff.mp number
  have pointAfter : '.' ∈ c :: (digits ++ fraction) ↔ '.' ∈ fraction :=
    point_mem_fraction (first.imp_right And.left) digital
  have refused : ∀ d ∈ rest.head?, numberStep (decide ('.' ∈ fraction)) d = none := by
    intro d head
    obtain ⟨noDigit, noPoint⟩ := stop d head
    rw [pointAfter] at noPoint
    by_cases seen : '.' ∈ fraction
    · simp [numberStep, noDigit, seen]
    · simp [numberStep, noDigit, noPoint seen]
  obtain ⟨k', taken, shown⟩ :=
    readWhile_accepted shown (foldlM_number digital shape) refused (length_le_remaining shown)
  exact ⟨k', by rw [readNumber, taken], shown⟩

theorem startsNumber_of_number (shown : Shows k n (used ++ rest)) (number : IsNumber (c :: used)) :
    startsNumber c k := by
  obtain ⟨digits, fraction, rfl, digital, -, digit | ⟨rfl, present⟩⟩ := isNumber_cons_iff.mp number
  · simp [startsNumber, digit]
  · obtain ⟨d, digits, rfl⟩ := List.exists_cons_of_ne_nil present
    have digit := digital d List.mem_cons_self
    have next : peek k = some d := peek_eq shown
    simp [startsNumber, next, digit]

theorem startsNumber_of_identifier {start : Char} {name : List Char} (shown : Shows k n (name ++ rest))
    (noDigit : start.isDigit = false) (noNumber : start = '-' → ∀ d ∈ name.head?, d.isDigit = false)
    (stop : NameEnds rest) : startsNumber start k = false := by
  rw [startsNumber, noDigit, peek_eq shown, Bool.false_or, Bool.and_eq_false_iff]
  by_cases minus : start = '-'
  · refine .inr ?_
    cases name with
    | nil =>
      cases rest with
      | nil => rfl
      | cons d rest => exact isDigit_of_not_name (stop d rfl)
    | cons d name => exact noNumber minus d rfl
  · exact .inl (decide_eq_false minus)

theorem not_opener_of_start (start : isNameStart c) : c ∉ openers := by
  intro member
  have noStart : ∀ d ∈ openers, isNameStart d = false := forall_mem_of_all (by decide)
  exact absurd start (by rw [noStart c member]; decide)

theorem not_opener_of_number (number : IsNumber (c :: used)) : c ∉ openers := by
  obtain ⟨-, -, -, -, -, digit | ⟨rfl, -⟩⟩ := isNumber_cons_iff.mp number
  · exact not_opener_of_start (isNameStart_of_digit digit)
  · decide

theorem read_longest (longest : Longest c used rest lexeme) (shown : Shows k n (used ++ rest)) :
    ∃ k', read c k = (lexeme, k') ∧ Shows k' (n + used.length) rest := by
  cases longest with
  | bracket member =>
    simp only [brackets, List.mem_cons, List.not_mem_nil, or_false, Prod.mk.injEq] at member
    rcases member with ⟨rfl, rfl⟩ | ⟨rfl, rfl⟩ | ⟨rfl, rfl⟩ | ⟨rfl, rfl⟩ <;> exact ⟨k, rfl, shown⟩
  | comment inLine stop =>
    have free : ∀ d ∈ used, decide (d = '\n') = false := fun d member =>
      decide_eq_false fun same => inLine (same ▸ member)
    have found : ∀ d ∈ rest.head?, decide (d = '\n') = true := fun d head => decide_eq_true (stop d head)
    obtain ⟨k', taken, shown⟩ := readUntil_free shown free found (length_le_remaining shown)
    exact ⟨k', by simp [read, taken], shown⟩
  | quote stop =>
    have unnamed : (peek k).any isNameStart = false := by
      rw [peek_eq shown, List.nil_append]
      cases rest with
      | nil => rfl
      | cons d rest => exact stop d rfl
    exact ⟨k, by simp [read, unnamed], shown⟩
  | @string text rest free =>
    rw [List.append_assoc] at shown
    have noQuote : ∀ d ∈ text, decide (d = '"') = false := fun d member =>
      decide_eq_false fun same => free (same ▸ member)
    obtain ⟨k', taken, shown⟩ :=
      readThrough?_found shown noQuote (decide_eq_true rfl) (length_le_remaining shown)
    exact ⟨k', by simp [read, taken], by simpa [Nat.add_assoc] using shown⟩
  | unterminated free =>
    rw [List.append_nil] at shown
    have noQuote : ∀ d ∈ used, decide (d = '"') = false := fun d member =>
      decide_eq_false fun same => free (same ▸ member)
    obtain ⟨k', taken, shown⟩ := readThrough?_missing shown noQuote (Nat.le_of_eq (remaining_eq shown).symm)
    exact ⟨k', by simp [read, taken], shown⟩
  | directive present inName stop =>
    obtain ⟨k', taken, shown⟩ := readName_longest (c := '#') shown inName stop
    exact ⟨k', by simp [read, taken, present], shown⟩
  | hash stop =>
    obtain ⟨k', taken, shown⟩ := readName_longest (c := '#') shown (by simp) stop
    exact ⟨k', by simp [read, taken], shown⟩
  | number number stop =>
    obtain ⟨k', taken, shown'⟩ := readNumber_longest shown number stop
    refine ⟨k', ?_, shown'⟩
    rw [read_plain (not_opener_of_number number), startsNumber_of_number shown number, if_pos rfl, taken]
  | identifier identifier stop =>
    cases identifier with
    | plain start noDigit noNumber inName =>
      obtain ⟨k', taken, shown'⟩ := readName_longest (c := c) shown inName stop
      have noNumber := startsNumber_of_identifier shown noDigit noNumber stop
      refine ⟨k', ?_, shown'⟩
      rw [read_plain (not_opener_of_start start), noNumber, start, taken]
      rfl
    | @quoted start name initial inName =>
      have inName : ∀ d ∈ start :: name, isNameChar d :=
        List.forall_mem_cons.mpr ⟨isNameChar_of_start initial, inName⟩
      obtain ⟨k', taken, shown'⟩ := readName_longest (c := '\'') shown inName stop
      have named : (peek k).any isNameStart := by
        rw [peek_eq shown]
        exact initial
      exact ⟨k', by simp [read, named, taken], shown'⟩
  | stray member =>
    have plain : ∀ d ∈ strayChars, d ∉ openers ∧ d.isDigit = false ∧ d ≠ '-' ∧ isNameStart d = false :=
      forall_mem_of_all (by decide)
    obtain ⟨plain, noDigit, noMinus, noStart⟩ := plain c member
    refine ⟨k, ?_, shown⟩
    rw [read_plain plain]
    simp [startsNumber, noDigit, noMinus, noStart]

end Lexeme

end Hashlang
