import Mathlib.Data.List.Induction
import Hashlang.Evaluation.Evaluate
import Hashlang.Proofs.Text.ByteOrder

namespace Hashlang

variable {φ : Type}

theorem find?_named_cons (l : Language φ) (rest : List (Language φ)) (name : String) :
    (l :: rest).find? (fun other => other.name = name) =
      if l.name = name then some l else rest.find? fun other => other.name = name := by
  rw [List.find?_cons]
  by_cases same : l.name = name
  · simp only [same, decide_true, if_true]
  · simp only [same, decide_false, if_false]

namespace Registry

/-- The language that was registered last under a name. -/
def lastNamed? (history : List (Language φ)) (name : String) : Option (Language φ) :=
  history.reverse.find? fun l => l.name = name

theorem lastNamed?_concat (history : List (Language φ)) (l : Language φ) (name : String) :
    lastNamed? (history ++ [l]) name = if l.name = name then some l else lastNamed? history name := by
  rw [lastNamed?, List.reverse_append, List.reverse_singleton, List.singleton_append, find?_named_cons, lastNamed?]

theorem isSome_lastNamed? (history : List (Language φ)) (name : String) :
    (lastNamed? history name).isSome ↔ ∃ l ∈ history, l.name = name := by
  simp [lastNamed?, List.find?_isSome]

theorem name_of_lastNamed? {history : List (Language φ)} {name : String} {l : Language φ}
    (last : lastNamed? history name = some l) : l.name = name := by
  unfold lastNamed? at last
  simpa using List.find?_some last

theorem find?_insert (l : Language φ) (languages : List (Language φ)) (name : String) :
    (insert l languages).find? (fun other => other.name = name) =
      if l.name = name then some l else languages.find? fun other => other.name = name := by
  induction languages with
  | nil => exact find?_named_cons l [] name
  | cons other rest ih =>
    rw [insert]
    split
    case isTrue here =>
      rw [find?_named_cons, find?_named_cons, here]
      split <;> rfl
    case isFalse elsewhere =>
      split
      case isTrue before => exact find?_named_cons l (other :: rest) name
      case isFalse behind =>
        rw [find?_named_cons, find?_named_cons, ih]
        by_cases same : other.name = name
        · subst same
          simp only [if_true, elsewhere, if_false]
        · simp only [same, if_false]

theorem find?_of_mem {languages : List (Language φ)} (increasing : languages.Pairwise fun l m => l.name < m.name)
    {l : Language φ} (member : l ∈ languages) : languages.find? (fun other => other.name = l.name) = some l := by
  induction languages with
  | nil => exact absurd member List.not_mem_nil
  | cons other rest ih =>
    obtain ⟨first, later⟩ := List.pairwise_cons.mp increasing
    rw [find?_named_cons]
    rcases List.mem_cons.mp member with rfl | member
    · exact if_pos rfl
    · rw [if_neg (first l member).ne, ih later member]

theorem find?_eq_some_iff (r : Registry φ) (l : Language φ) : r.find? l.name = some l ↔ l ∈ r.languages :=
  ⟨List.mem_of_find?_eq_some, find?_of_mem r.increasing⟩

theorem nodup_languages (r : Registry φ) : r.languages.Nodup := by
  refine r.increasing.imp fun less => ?_
  rintro rfl
  exact lt_irrefl _ less

theorem eq_of_find? {r r' : Registry φ} (same : ∀ name, r.find? name = r'.find? name) : r = r' := by
  have members : r.languages.Perm r'.languages := by
    apply (List.perm_ext_iff_of_nodup r.nodup_languages r'.nodup_languages).mpr
    intro l
    rw [← find?_eq_some_iff, ← find?_eq_some_iff, same]
  -- The order of the names leaves one arrangement of the members.
  have arranged : r.languages = r'.languages :=
    members.eq_of_pairwise (fun l m _ _ less more => absurd less more.not_gt) r.increasing r'.increasing
  exact Registry.ext arranged

section

variable (history : List (Language φ))

theorem ofList_concat (l : Language φ) : ofList (history ++ [l]) = ((ofList history).register l).2 :=
  List.foldl_concat ..

theorem find?_ofList (name : String) : (ofList history).find? name = lastNamed? history name := by
  induction history using List.reverseRecOn with
  | nil => rfl
  | append_singleton history l ih =>
    rw [ofList_concat, lastNamed?_concat, ← ih]
    exact find?_insert ..

/-- Every registry comes from a run of registrations, so what holds of all runs holds of all registries. -/
theorem ofList_languages (r : Registry φ) : ofList r.languages = r := by
  refine eq_of_find? fun name => (find?_ofList r.languages name).trans ?_
  cases last : lastNamed? r.languages name with
  | none =>
    have absent := List.find?_eq_none.mp last
    exact (List.find?_eq_none.mpr fun l member => absent l (List.mem_reverse.mpr member)).symm
  | some l =>
    have member : l ∈ r.languages := List.mem_reverse.mp (List.mem_of_find?_eq_some last)
    rw [← name_of_lastNamed? last, (r.find?_eq_some_iff l).mpr member]

theorem ofList_eq {history history' : List (Language φ)}
    (same : ∀ name, lastNamed? history name = lastNamed? history' name) : ofList history = ofList history' :=
  eq_of_find? fun name => (find?_ofList history name).trans <| (same name).trans (find?_ofList history' name).symm

theorem register_comm {l m : Language φ} (different : l.name ≠ m.name) :
    (((ofList history).register l).2.register m).2 = (((ofList history).register m).2.register l).2 := by
  rw [← ofList_concat, ← ofList_concat, ← ofList_concat, ← ofList_concat]
  refine ofList_eq fun name => ?_
  simp only [lastNamed?_concat]
  by_cases first : l.name = name
  · subst first
    simp only [if_true, different.symm, if_false]
  · simp only [first, if_false]

end

end Registry

section

variable {r r' : Registry φ}

theorem Header.load_congr (h : Header) (s : Scope φ) (same : r.find? h.name = r'.find? h.name) :
    h.load r s = h.load r' s := by
  rw [load, load, same]

variable [Bodies φ]

theorem Statement.evaluateEach_expressions (r r' : Registry φ) (s : Scope φ) (last : Option (Value φ))
    (es : List Expr) :
    evaluateEach r s last (es.map expression) = evaluateEach r' s last (es.map expression) := by
  induction es generalizing last with
  | nil => rfl
  | cons e rest ih =>
    rw [List.map_cons, evaluateEach, evaluateEach, evaluate, evaluate]
    cases (e.evaluate s).result with
    | error failure => rfl
    | ok value => simp only [Except.map, ih]

theorem Program.evaluate_congr (p : Program) (s : Scope φ)
    (same : r.find? p.header.name = r'.find? p.header.name) : p.evaluate r s = p.evaluate r' s := by
  rw [evaluate, evaluate, statements, Statement.evaluateEach, Statement.evaluateEach, Statement.evaluate,
    Statement.evaluate, p.header.load_congr s same]
  cases (p.header.load r' s).result with
  | error failure => rfl
  | ok => simp only [Except.map, Statement.evaluateEach_expressions r r']

end

namespace Registry

/-- What can be learned from a registry about the run of registrations that made it. -/
structure Recalls [Bodies φ] (r : Registry φ) (history : List (Language φ)) : Prop where
  listed : ∀ name, name ∈ r.names ↔ ∃ l ∈ history, l.name = name
  once : r.names.Nodup
  byBytes : r.names.Pairwise fun a b => bytes a < bytes b
  byScalars : r.names.Pairwise fun a b => a.toList < b.toList
  found : ∀ name, r.find? name = lastNamed? history name
  known : ∀ name, r.contains name = (lastNamed? history name).isSome
  unloaded : ∀ (h : Header) (s : Scope φ), lastNamed? history h.name = none →
    h.load r s = { scope := s, events := [.unknownLanguage h.name], result := .ok () }
  loaded : ∀ (h : Header) (s : Scope φ) (l : Language φ), lastNamed? history h.name = some l →
    h.load r s = { l.load s with events := .loading h.name :: (l.load s).events }
  evaluated : ∀ (p : Program) (s : Scope φ),
    p.evaluate r s = p.evaluate (ofList (lastNamed? history p.header.name).toList) s
  empty : r.isEmpty ↔ history = []

theorem find?_ofList_toList (history : List (Language φ)) (name : String) :
    (ofList (lastNamed? history name).toList).find? name = lastNamed? history name := by
  rw [find?_ofList]
  cases last : lastNamed? history name with
  | none => rfl
  | some l => exact (lastNamed?_concat [] l name).trans (if_pos (name_of_lastNamed? last))

variable (history : List (Language φ))

theorem mem_names_ofList (name : String) :
    name ∈ (ofList history).names ↔ ∃ l ∈ history, l.name = name := by
  rw [← isSome_lastNamed?, ← find?_ofList, find?, List.find?_isSome, names, List.mem_map]
  simp only [decide_eq_true_eq]

theorem names_ofList : (ofList history).names.Pairwise (· < ·) :=
  List.pairwise_map.mpr (ofList history).increasing

theorem isEmpty_ofList : (ofList history).isEmpty ↔ history = [] := by
  constructor
  · intro empty
    have names : (ofList history).names = [] := by
      rw [names, List.isEmpty_iff.mp empty, List.map_nil]
    refine List.eq_nil_iff_forall_not_mem.mpr fun l member => ?_
    have listed := (mem_names_ofList history l.name).mpr ⟨l, member, rfl⟩
    rw [names] at listed
    exact List.not_mem_nil listed
  · rintro rfl
    rfl

theorem recalls_ofList [Bodies φ] : (ofList history).Recalls history where
  listed := mem_names_ofList history
  once := (names_ofList history).imp ne_of_lt
  byBytes := (names_ofList history).imp bytes_lt_bytes.mpr
  byScalars := names_ofList history
  found := find?_ofList history
  known name := by rw [contains, find?_ofList]
  unloaded h s last := by rw [Header.load, find?_ofList, last]
  loaded h s l last := by rw [Header.load, find?_ofList, last]
  evaluated p s := p.evaluate_congr s ((find?_ofList history _).trans (find?_ofList_toList history _).symm)
  empty := isEmpty_ofList history

/-- A run of registrations answers each of them with the language that it replaces, and leaves a registry of the
languages that were registered last under their names, for languages of two names in either order. -/
theorem ofList_registrations [Bodies φ] :
    (ofList history).Recalls history ∧
    (∀ l, (ofList history).register l = (lastNamed? history l.name, ofList (history ++ [l]))) ∧
    ∀ l m : Language φ, l.name ≠ m.name →
      (((ofList history).register l).2.register m).2 = (((ofList history).register m).2.register l).2 := by
  refine ⟨recalls_ofList history, fun l => ?_, fun l m different => register_comm history different⟩
  exact Prod.ext (find?_ofList history l.name) (ofList_concat history l).symm

/-- The names are in another order by their bytes than by the units of an encoding with surrogates. -/
theorem ofList_registrations_replaced :
    let first : Language Empty := { name := "😀", bindings := [] }
    let other : Language Empty := { name := "\uffff", bindings := [("x", .string "x")] }
    let second : Language Empty := { name := "😀", bindings := [("y", .string "y")] }
    let history := [first, other, second]
    (ofList history).names = ["\uffff", "😀"] ∧ (ofList history).Recalls history ∧
      (lastNamed? history "😀" = some second ∧ ∀ s,
        (Header.mk "😀" {}).load (ofList history) s =
          { second.load s with events := .loading "😀" :: (second.load s).events }) ∧
      ((ofList history).register first).1 = some second ∧
      first.name ≠ other.name ∧
      (((ofList history).register first).2.register other).2 =
        (((ofList history).register other).2.register first).2 := by
  intro first other second history
  obtain ⟨recalls, answers, commutes⟩ := ofList_registrations history
  have last : lastNamed? history "😀" = some second := by decide +kernel
  have different : first.name ≠ other.name := by decide
  refine ⟨by decide +kernel, recalls, ⟨last, fun s => recalls.loaded ⟨"😀", {}⟩ s second last⟩, ?_, different,
    commutes first other different⟩
  rw [answers]
  exact last

end Registry

end Hashlang
