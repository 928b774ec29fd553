import Mathlib.Data.List.Forall2
import Hashlang.Host.Execution
import Hashlang.Proofs.Text.Quoted

namespace Hashlang

namespace Span

theorem toList_toString (s : Span) :
    (toString s).toList = Nat.toDigits 10 s.offset ++ '.' :: '.' :: Nat.toDigits 10 s.stop := by
  simp [toString]

theorem not_mem_toString {c : Char} (s : Span) (other : ∀ k, Nat.digitChar k ≠ c) (point : '.' ≠ c) :
    c ∉ (toString s).toList := by
  have free (n : Nat) : c ∉ Nat.toDigits 10 n := not_mem_toDigits (by decide) other
  simp only [toList_toString, List.mem_append, List.mem_cons, free, point.symm, or_self, not_false_eq_true]

theorem toString_inj {s t : Span} (same : (toString s).toList = (toString t).toList) : s = t := by
  have free (n : Nat) : '.' ∉ Nat.toDigits 10 n := not_mem_toDigits (by decide) fun k => by simp
  rw [toList_toString, toList_toString] at same
  obtain ⟨offsets, rest⟩ := cut_unique_at (free _) (free _) same
  have offset := toDigits_inj (by decide) (by decide) offsets
  have stop := toDigits_inj (by decide) (by decide) (List.cons.inj rest).2
  obtain ⟨start, length⟩ := s
  obtain ⟨start', length'⟩ := t
  simp only [Span.stop] at offset stop
  rw [mk.injEq]
  omega

end Span

namespace Token

theorem Kind.name_inj {k l : Kind} (same : k.name = l.name) : k = l := by
  have named (kind : Kind) : ofName? kind.name = some kind := by
    cases kind <;> decide
  exact Option.some.inj (by rw [← named k, same, named])

theorem Kind.not_mem_name (kind : Kind) : ' ' ∉ kind.name.toList ∧ '\n' ∉ kind.name.toList := by
  cases kind <;> decide

theorem Kind.head?_name (kind : Kind) (rest : List Char) : ∀ c ∈ (kind.name.toList ++ rest).head?, c ≠ ' ' := by
  cases kind <;>
    · rintro c ⟨⟩
      decide

namespace Listing

/-- A row that shows where a token stands, its kind and its quoted value, with blanks in between. -/
def Shows (row : String) (t : Token) : Prop :=
  ∃ m n, row.toList = (toString t.span).toList ++ ' ' :: (List.replicate m ' ' ++
    (t.kind.name.toList ++ ' ' :: (List.replicate n ' ' ++ (quoted t.value).toList)))

def row (t : Token) : String :=
  column 9 (toString t.span) ++ " " ++ column 14 t.kind.name ++ " " ++ quoted t.value

theorem toList_column (width : Nat) (text : String) :
    (column width text).toList = text.toList ++ List.replicate (width - text.toList.length) ' ' := by
  rw [column, String.toList_ofList, List.rightpad]

theorem shows_row (t : Token) : Shows (row t) t := by
  have moved (k : Nat) (rest : List Char) :
      List.replicate k ' ' ++ ' ' :: rest = ' ' :: (List.replicate k ' ' ++ rest) := by
    rw [← List.cons_append, ← List.replicate_succ, List.replicate_succ', List.append_assoc, List.singleton_append]
  refine ⟨9 - (toString t.span).toList.length, 14 - t.kind.name.toList.length, ?_⟩
  simp [row, toList_column, moved]

theorem blanks_unique {m n : Nat} {x y : List Char} (left : ∀ c ∈ x.head?, c ≠ ' ') (right : ∀ c ∈ y.head?, c ≠ ' ')
    (same : List.replicate m ' ' ++ x = List.replicate n ' ' ++ y) : x = y := by
  have blank (k : Nat) : ∀ c ∈ List.replicate k ' ', (c == ' ') = true := by
    intro c member
    rw [List.eq_of_mem_replicate member]
    rfl
  refine (cut_unique (blank m) (blank n) ?_ ?_ same).2
  · intro c first
    simpa using left c first
  · intro c first
    simpa using right c first

theorem Shows.unique {row : String} {s t : Token} (left : Shows row s) (right : Shows row t) : s = t := by
  obtain ⟨m, n, readLeft⟩ := left
  obtain ⟨m', n', readRight⟩ := right
  rw [readLeft] at readRight
  have noBlank (s : Span) : ' ' ∉ (toString s).toList := s.not_mem_toString (fun k => by simp) (by decide)
  have quote (text : String) : ∀ c ∈ (quoted text).toList.head?, c ≠ ' ' := by
    rw [toList_quoted]
    rintro c ⟨⟩
    decide
  obtain ⟨spans, afterSpan⟩ := cut_unique_at (noBlank _) (noBlank _) readRight
  have kinds := blanks_unique (s.kind.head?_name _) (t.kind.head?_name _) afterSpan
  obtain ⟨names, afterKind⟩ := cut_unique_at s.kind.not_mem_name.1 t.kind.not_mem_name.1 kinds
  have values := blanks_unique (quote _) (quote _) afterKind
  obtain ⟨kind, value, span⟩ := s
  obtain ⟨kind', value', span'⟩ := t
  obtain rfl := Span.toString_inj spans
  obtain rfl := Kind.name_inj (String.toList_inj.mp names)
  obtain rfl := quoted_inj (String.toList_inj.mp values)
  rfl

theorem Shows.one_line {row : String} {t : Token} (shown : Shows row t) : '\n' ∉ row.toList := by
  obtain ⟨m, n, whole⟩ := shown
  have span := t.span.not_mem_toString (c := '\n') (fun k => by simp) (by decide)
  have blanks (k : Nat) : '\n' ∉ List.replicate k ' ' := by
    rw [List.mem_replicate]
    exact fun found => absurd found.2 (by decide)
  simp [whole, span, blanks, t.kind.not_mem_name.2, line_not_mem_quoted]

theorem rows_unique {rows rows' : List String} (left : ∀ row ∈ rows, '\n' ∉ row.toList)
    (right : ∀ row ∈ rows', '\n' ∉ row.toList)
    (same : String.join (rows.map (· ++ "\n")) = String.join (rows'.map (· ++ "\n"))) : rows = rows' := by
  have lines (rows : List String) :
      (String.join (rows.map (· ++ "\n"))).toList = rows.flatMap fun row => row.toList ++ ['\n'] := by
    simp [String.toList_join, List.flatMap_map]
  have texts := congrArg String.toList same
  rw [lines, lines] at texts
  clear same
  induction rows generalizing rows' with
  | nil =>
    cases rows' with
    | nil => rfl
    | cons row' rest' => simp at texts
  | cons row rest ih =>
    cases rows' with
    | nil => simp at texts
    | cons row' rest' =>
      simp only [List.flatMap_cons, List.append_assoc, List.singleton_append] at texts
      obtain ⟨first, behind⟩ := cut_unique_at (left row List.mem_cons_self) (right row' List.mem_cons_self) texts
      rw [String.toList_inj.mp first, ih (fun row member => left row (List.mem_cons_of_mem _ member))
        (fun row member => right row (List.mem_cons_of_mem _ member)) behind]

theorem exists_rows (tokens : List Token) :
    ∃ rows, listing false tokens = String.join (rows.map (· ++ "\n")) ∧
      (∀ row ∈ rows, '\n' ∉ row.toList) ∧ List.Forall₂ Shows rows tokens := by
  have shown : List.Forall₂ Shows (tokens.map row) tokens := by
    rw [List.forall₂_map_left_iff]
    exact List.forall₂_same.mpr fun t _ => shows_row t
  refine ⟨tokens.map row, ?_, ?_, shown⟩
  · rw [listing, List.map_map]
    rfl
  · rw [List.forall_mem_map]
    exact fun t _ => (shows_row t).one_line

end Listing

theorem listing_inj {tokens tokens' : List Token} (same : listing false tokens = listing false tokens') :
    tokens = tokens' := by
  obtain ⟨rows, whole, lines, shown⟩ := Listing.exists_rows tokens
  obtain ⟨rows', whole', lines', shown'⟩ := Listing.exists_rows tokens'
  rw [whole, whole'] at same
  obtain rfl := Listing.rows_unique lines lines' same
  have unique : Relator.RightUnique Listing.Shows := fun _ _ _ => Listing.Shows.unique
  exact List.right_unique_forall₂' unique shown shown'

end Token

/-- The tokens of a source are listed one on a line, and sources with one listing have the same tokens. -/
theorem execute_tokens_listing (source : String) :
    (execute .tokens false source).result = .ok () ∧
    (∃ rows : List String,
      (execute .tokens false source).written = String.join (rows.map (· ++ "\n")) ∧
      (∀ row ∈ rows, '\n' ∉ row.toList) ∧ rows.length = (scan source).length ∧
      List.Forall₂ Token.Listing.Shows rows (scan source)) ∧
    ∀ source', (execute .tokens false source).written = (execute .tokens false source').written →
      scan source = scan source' := by
  refine ⟨rfl, ?_, fun source' same => Token.listing_inj same⟩
  obtain ⟨rows, whole, lines, shown⟩ := Token.Listing.exists_rows (scan source)
  exact ⟨rows, whole, lines, shown.length_eq, shown⟩

theorem execute_tokens_listing_blanks :
    (execute .tokens false "\"a\\\n\"\t;b").written = (execute .tokens false "\"a\\\n\" ;b").written ∧
      scan "\"a\\\n\"\t;b" = scan "\"a\\\n\" ;b" := by
  have same : (execute .tokens false "\"a\\\n\"\t;b").written = (execute .tokens false "\"a\\\n\" ;b").written := by
    decide +kernel
  exact ⟨same, (execute_tokens_listing _).2.2 _ same⟩

end Hashlang
