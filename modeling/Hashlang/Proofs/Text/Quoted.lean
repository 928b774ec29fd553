import Mathlib.Data.List.Nodup
import Hashlang.Text.Quoted

namespace Hashlang

theorem cut_unique {p : Char → Bool} {u v x y : List Char} (left : ∀ c ∈ u, p c) (right : ∀ c ∈ v, p c)
    (endsLeft : ∀ c ∈ x.head?, ¬ p c) (endsRight : ∀ c ∈ y.head?, ¬ p c) (same : u ++ x = v ++ y) :
    u = v ∧ x = y := by
  have taken {w z : List Char} (inside : ∀ c ∈ w, p c) (ends : ∀ c ∈ z.head?, ¬ p c) :
      (w ++ z).takeWhile p = w := by
    rw [List.takeWhile_append_of_pos inside]
    cases z with
    | nil => exact List.append_nil w
    | cons c z =>
      rw [List.takeWhile_cons, if_neg (ends c rfl), List.append_nil]
  have first : u = v := by
    rw [← taken left endsLeft, same, taken right endsRight]
  subst first
  exact ⟨rfl, List.append_cancel_left same⟩

theorem cut_unique_at {d : Char} {u v x y : List Char} (left : d ∉ u) (right : d ∉ v)
    (same : u ++ d :: x = v ++ d :: y) : u = v ∧ x = y := by
  have other {w : List Char} (free : d ∉ w) : ∀ c ∈ w, (c != d) = true := by
    intro c member
    rw [bne_iff_ne]
    rintro rfl
    exact free member
  have ends (z : List Char) : ∀ c ∈ (d :: z).head?, ¬ (c != d) = true := by
    rintro c ⟨⟩
    simp
  obtain ⟨first, rest⟩ := cut_unique (other left) (other right) (ends x) (ends y) same
  exact ⟨first, (List.cons.inj rest).2⟩

theorem digitChar_inj : ∀ m < 16, ∀ n < 16, Nat.digitChar m = Nat.digitChar n → m = n := by
  decide

theorem toDigits_concat_ne {b k : Nat} {c d : Char} : Nat.toDigits b k ++ [c] ≠ [d] := by
  intro same
  have short := congrArg List.length same
  have present := Nat.length_toDigits_pos (b := b) (n := k)
  rw [List.length_append, List.length_singleton, List.length_singleton] at short
  omega

theorem toDigits_inj {b m n : Nat} (large : 1 < b) (small : b ≤ 16)
    (same : Nat.toDigits b m = Nat.toDigits b n) : m = n := by
  induction m using Nat.strongRecOn generalizing n with
  | ind m ih =>
    rw [Nat.toDigits_eq_if large, Nat.toDigits_eq_if (n := n) large] at same
    by_cases left : m < b <;> by_cases right : n < b <;>
      simp only [left, right, if_true, if_false] at same
    · exact digitChar_inj m (by omega) n (by omega) (List.singleton_inj.mp same)
    · exact absurd same.symm toDigits_concat_ne
    · exact absurd same toDigits_concat_ne
    · obtain ⟨front, last⟩ := List.append_inj' same rfl
      have quotient := ih (m / b) (Nat.div_lt_self (by omega) large) front
      have boundM := Nat.mod_lt m (Nat.zero_lt_of_lt large)
      have boundN := Nat.mod_lt n (Nat.zero_lt_of_lt large)
      have remainder := digitChar_inj (m % b) (by omega) (n % b) (by omega) (List.singleton_inj.mp last)
      rw [← Nat.div_add_mod m b, quotient, remainder, Nat.div_add_mod]

theorem not_mem_toDigits {b n : Nat} {c : Char} (large : 1 < b) (other : ∀ k, Nat.digitChar k ≠ c) :
    c ∉ Nat.toDigits b n := by
  induction n using Nat.strongRecOn with
  | ind n ih =>
    rw [Nat.toDigits_eq_if large]
    split
    · rw [List.mem_singleton]
      exact (other n).symm
    · rw [List.mem_append, List.mem_singleton, not_or]
      exact ⟨ih (n / b) (Nat.div_lt_self (by omega) large), (other _).symm⟩

namespace Quoted

def shortEscapes : List (Char × Char) :=
  [('"', '"'), ('\\', '\\'), ('\n', 'n'), ('\r', 'r'), ('\t', 't'), ('\x00', '0')]

/-- The ways to write a character between double quotes. -/
inductive Writes : Char → List Char → Prop where
  | plain {c : Char} (quote : c ≠ '"') (backslash : c ≠ '\\') (line : c ≠ '\n') : Writes c [c]
  | short {c d : Char} (listed : (c, d) ∈ shortEscapes) : Writes c ['\\', d]
  | code (c : Char) : Writes c (codePoint c)

theorem writes_escape (c : Char) : Writes c (escape c) := by
  unfold escape
  split
  next here => subst here; exact .short (by decide)
  split
  next here => subst here; exact .short (by decide)
  split
  next here => subst here; exact .short (by decide)
  split
  next here => subst here; exact .short (by decide)
  split
  next here => subst here; exact .short (by decide)
  split
  next here =>
    obtain rfl : c = '\x00' := Char.toNat_inj.mp here
    exact .short (by decide)
  split
  · exact .plain ‹_› ‹_› ‹_›
  · exact .code c

theorem codePoint_eq (c : Char) :
    codePoint c = '\\' :: 'u' :: '\x7b' :: (Nat.toDigits 16 c.toNat ++ ['\x7d']) := rfl

theorem codePoint_unique {c d : Char} {x y : List Char} (same : codePoint c ++ x = codePoint d ++ y) :
    c = d ∧ x = y := by
  have free (n : Nat) : '\x7d' ∉ Nat.toDigits 16 n := not_mem_toDigits (by decide) fun k => by simp
  simp only [codePoint_eq, List.cons_append, List.append_assoc, List.nil_append, List.cons.injEq, true_and] at same
  obtain ⟨digits, rest⟩ := cut_unique_at (free _) (free _) same
  exact ⟨Char.toNat_inj.mp (toDigits_inj (by decide) (by decide) digits), rest⟩

theorem shortEscapes_inj {c d e : Char} (left : (c, e) ∈ shortEscapes) (right : (d, e) ∈ shortEscapes) :
    c = d := by
  have distinct : (shortEscapes.map Prod.snd).Nodup := by decide
  exact congrArg Prod.fst (List.inj_on_of_nodup_map distinct left right rfl)

theorem not_mem_shortEscapes (c : Char) : (c, 'u') ∉ shortEscapes := by
  simp [shortEscapes]

theorem Writes.unique {c d : Char} {u v x y : List Char} (left : Writes c u) (right : Writes d v)
    (same : u ++ x = v ++ y) : c = d ∧ x = y := by
  cases left with
  | plain quote backslash line =>
    cases right with
    | plain => exact List.cons.inj same
    | short => exact absurd (List.cons.inj same).1 backslash
    | code => exact absurd (List.cons.inj same).1 backslash
  | short listed =>
    cases right with
    | plain quote backslash line => exact absurd (List.cons.inj same).1.symm backslash
    | short listed' =>
      simp only [List.cons_append, List.nil_append, List.cons.injEq, true_and] at same
      obtain ⟨rfl, rest⟩ := same
      exact ⟨shortEscapes_inj listed listed', rest⟩
    | code =>
      obtain ⟨rfl, -⟩ := List.cons.inj (List.cons.inj same).2
      exact absurd listed (not_mem_shortEscapes c)
  | code =>
    cases right with
    | plain quote backslash line => exact absurd (List.cons.inj same).1.symm backslash
    | short listed =>
      obtain ⟨rfl, -⟩ := List.cons.inj (List.cons.inj same).2
      exact absurd listed (not_mem_shortEscapes d)
    | code => exact codePoint_unique same

theorem Writes.ne_quote {c : Char} {u : List Char} (writes : Writes c u) (x : List Char) :
    ∃ d y, u ++ x = d :: y ∧ d ≠ '"' := by
  cases writes with
  | plain quote => exact ⟨c, x, rfl, quote⟩
  | short => exact ⟨'\\', _, rfl, by decide⟩
  | code => exact ⟨'\\', _, rfl, by decide⟩

theorem Writes.not_line {c : Char} {u : List Char} (writes : Writes c u) : '\n' ∉ u := by
  cases writes with
  | plain quote backslash line => simpa using line.symm
  | short listed =>
    rw [List.mem_cons, List.mem_singleton, not_or]
    refine ⟨by decide, ?_⟩
    rintro rfl
    simp [shortEscapes] at listed
  | code =>
    rw [codePoint_eq]
    have free : '\n' ∉ Nat.toDigits 16 c.toNat := not_mem_toDigits (by decide) fun k => by simp
    simp [free]

theorem body_unique {text text' x y : List Char}
    (same : text.flatMap escape ++ '"' :: x = text'.flatMap escape ++ '"' :: y) : text = text' ∧ x = y := by
  induction text generalizing text' with
  | nil =>
    cases text' with
    | nil => exact ⟨rfl, (List.cons.inj same).2⟩
    | cons d rest' =>
      rw [List.flatMap_cons, List.append_assoc] at same
      obtain ⟨e, z, whole, other⟩ := (writes_escape d).ne_quote (rest'.flatMap escape ++ '"' :: y)
      rw [whole] at same
      exact absurd (List.cons.inj same).1.symm other
  | cons c rest ih =>
    rw [List.flatMap_cons, List.append_assoc] at same
    cases text' with
    | nil =>
      obtain ⟨e, z, whole, other⟩ := (writes_escape c).ne_quote (rest.flatMap escape ++ '"' :: x)
      rw [whole] at same
      exact absurd (List.cons.inj same).1 other
    | cons d rest' =>
      rw [List.flatMap_cons, List.append_assoc] at same
      obtain ⟨rfl, behind⟩ := (writes_escape c).unique (writes_escape d) same
      obtain ⟨rfl, ends⟩ := ih behind
      exact ⟨rfl, ends⟩

end Quoted

theorem toList_quoted (text : String) :
    (quoted text).toList = '"' :: (text.toList.flatMap Quoted.escape ++ ['"']) :=
  String.toList_ofList

theorem quoted_inj {s t : String} (same : quoted s = quoted t) : s = t := by
  have bodies := congrArg String.toList same
  rw [toList_quoted, toList_quoted] at bodies
  exact String.toList_inj.mp (Quoted.body_unique (List.cons.inj bodies).2).1

theorem line_not_mem_quoted (text : String) : '\n' ∉ (quoted text).toList := by
  rw [toList_quoted]
  simp only [List.mem_cons, List.mem_append, List.mem_flatMap, List.not_mem_nil, or_false, not_or, not_exists,
    not_and]
  exact ⟨by decide, fun c _ => (Quoted.writes_escape c).not_line, by decide⟩

end Hashlang
