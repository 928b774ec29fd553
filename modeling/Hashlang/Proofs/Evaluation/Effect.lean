import Hashlang.Evaluation.Builtin
import Hashlang.Proofs.Evaluation.Chain
import Hashlang.Proofs.Evaluation.Registrations

namespace Hashlang

variable {φ : Type}

namespace Table

theorem set_set (name : String) (old new : Value φ) (entries : List (String × Value φ)) :
    set name new (set name old entries) = set name new entries := by
  induction entries with
  | nil => simp [set]
  | cons entry rest ih =>
    obtain ⟨key, held⟩ := entry
    by_cases here : key = name <;> simp [set, here, ih]

-- Of two names that are both new, the one that comes first is added first: so one must be known.
theorem set_comm {name other : String} {entries : List (String × Value φ)} (different : name ≠ other)
    (known : name ∈ entries.map Prod.fst) (value another : Value φ) :
    set name value (set other another entries) = set other another (set name value entries) := by
  induction entries with
  | nil => cases known
  | cons entry rest ih =>
    obtain ⟨key, held⟩ := entry
    by_cases here : key = name
    · simp [set, here, different]
    · have later : name ∈ rest.map Prod.fst := by simpa [Ne.symm here] using known
      by_cases there : key = other
      · simp [set, there, different.symm]
      · simp [set, here, there, ih later]

theorem insert_insert (t : Table φ) (name : String) (old new : Value φ) :
    (t.insert name old).insert name new = t.insert name new :=
  Table.ext (set_set name old new t.entries)

theorem insert_comm {t : Table φ} {name other : String} (different : name ≠ other)
    (known : (t.find? name).isSome) (value another : Value φ) :
    (t.insert other another).insert name value = (t.insert name value).insert other another := by
  have member : name ∈ t.entries.map Prod.fst := (t.isSome_find? name).mp known
  exact Table.ext (set_comm different member value another)

variable (bindings : History φ) (t : Table φ)

theorem find?_writeAll (name : String) :
    (frames.writeAll bindings t).find? name = (bindings.last? name).or (t.find? name) := by
  induction bindings using List.reverseRecOn with
  | nil => rfl
  | append_singleton bindings binding ih =>
    obtain ⟨key, value⟩ := binding
    have written := find?_insert (frames.writeAll bindings t) key name value
    rw [ih] at written
    rw [frames.writeAll_concat, History.last?, List.reverse_concat, lookup_cons_eq_if]
    refine written.trans ?_
    split <;> rfl

variable {bindings t}

theorem insert_writeAll_insert {name : String} (known : ∀ binding ∈ bindings, (t.find? binding.1).isSome)
    (old new : Value φ) : (frames.writeAll bindings (t.insert name old)).insert name new =
      (frames.writeAll bindings t).insert name new := by
  induction bindings generalizing t with
  | nil => exact t.insert_insert name old new
  | cons binding rest ih =>
    obtain ⟨first, others⟩ := List.forall_mem_cons.mp known
    have kept : ∀ later ∈ rest, ((t.insert binding.1 binding.2).find? later.1).isSome := by
      intro later member
      rw [find?_insert]
      split
      · rfl
      · exact others later member
    show (frames.writeAll rest ((t.insert name old).insert binding.1 binding.2)).insert name new =
      (frames.writeAll rest (t.insert binding.1 binding.2)).insert name new
    by_cases same : binding.1 = name
    · rw [same, insert_insert]
    · rw [insert_comm same first]
      exact ih kept

theorem writeAll_writeAll : frames.writeAll bindings (frames.writeAll bindings t) =
    frames.writeAll bindings t := by
  induction bindings using List.reverseRecOn with
  | nil => rfl
  | append_singleton bindings binding ih =>
    obtain ⟨name, value⟩ := binding
    have known : ∀ earlier ∈ bindings, ((frames.writeAll bindings t).find? earlier.1).isSome := by
      intro earlier member
      have bound : (History.last? bindings earlier.1).isSome :=
        (History.isSome_last? bindings earlier.1).mpr ⟨earlier.2, member⟩
      rw [find?_writeAll, Option.isSome_or, bound, Bool.true_or]
    rw [frames.writeAll_concat, frames.writeAll_concat]
    exact (insert_writeAll_insert known value value).trans (congrArg (insert · name value) ih)

end Table

namespace Scope

variable (s : Scope φ) (bindings : History φ)

theorem table_bindAll : (s.bindAll bindings).table = Table.frames.writeAll bindings s.table :=
  congrArg Stack.top (s.stack_bindAll bindings)

theorem enclosing_bindAll : (s.bindAll bindings).enclosing = s.enclosing :=
  congrArg Stack.below (s.stack_bindAll bindings)

theorem bindAll_bindAll : (s.bindAll bindings).bindAll bindings = s.bindAll bindings := by
  refine stack_inj ?_
  simp only [stack_bindAll, Stack.write, Table.writeAll_writeAll]

end Scope

/-- However the evaluation of a program ends, all that it changes is the innermost table, which is overwritten
in order by what the language binds that was registered last under the name, if there is one. To evaluate the
program again changes nothing more. -/
theorem Program.scope_effect [Bodies φ] (p : Program) (history : List (Language φ)) (s : Scope φ) :
    (match Registry.lastNamed? history p.header.name with
      | none => (p.evaluate (.ofList history) s).scope.table = s.table
      | some language =>
        (p.evaluate (.ofList history) s).scope.table.toNames =
            Names.frames.writeAll language.bindings s.table.toNames ∧
          ∀ name, (p.evaluate (.ofList history) s).scope.findLocal? name =
            (History.last? language.bindings name).or (s.findLocal? name)) ∧
    (p.evaluate (.ofList history) s).scope.enclosing = s.enclosing ∧
    (p.evaluate (.ofList history) (p.evaluate (.ofList history) s).scope).scope =
      (p.evaluate (.ofList history) s).scope := by
  refine ⟨?_, ?_, ?_⟩
  · have table : (p.evaluate (.ofList history) s).scope.table =
        Table.frames.writeAll ((Registry.ofList history).bindings p.header.name) s.table := by
      rw [scope_evaluate, Scope.table_bindAll]
    rw [Registry.bindings, Registry.find?_ofList] at table
    cases last : Registry.lastNamed? history p.header.name with
    | none =>
      rw [last] at table
      exact table
    | some language =>
      rw [last] at table
      have maps := Table.maps_toNames.writeAll language.bindings s.table
      refine ⟨(congrArg Table.toNames table).trans maps, fun name => ?_⟩
      exact (congrArg (Table.find? · name) table).trans (Table.find?_writeAll ..)
  · rw [scope_evaluate, Scope.enclosing_bindAll]
  · rw [scope_evaluate, scope_evaluate, Scope.bindAll_bindAll]

/-- The language fails when it has bound a name twice, and an older language of its name binds nothing. -/
theorem Program.scope_effect_broken :
    let old : Language Builtin := ⟨"broken", [("z", .string "old")], none⟩
    let broken : Language Builtin := ⟨"broken",
      [("x", .string "first"), ("y", .string "other"), ("x", .string "last")], some (.custom "failed")⟩
    let outer : Scope Builtin := .bind {} "x" (.string "outer")
    let s : Scope Builtin := outer.child.bind "w" (.string "kept")
    let p : Program := ⟨⟨"broken", {}⟩, [.identifier "x" {}]⟩
    let run := p.evaluate (.ofList [old, broken]) s
    run.result = .error (.custom "failed") ∧
      run.scope.findLocal? "x" = some (.string "last") ∧ run.scope.findLocal? "w" = some (.string "kept") ∧
      run.scope.findLocal? "z" = none ∧ run.scope.enclosing = [outer.table] ∧
      (p.evaluate (.ofList [old, broken]) run.scope).scope = run.scope := by
  intro old broken outer s p run
  obtain ⟨⟨-, found⟩, ancestors, again⟩ := p.scope_effect [old, broken] s
  exact ⟨rfl, found "x", found "w", found "z", ancestors, again⟩

end Hashlang
