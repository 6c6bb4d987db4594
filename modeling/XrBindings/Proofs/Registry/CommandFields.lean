import XrBindings.Proofs.Registry.Accepted

/-!
# Fields of commands

The parameters of a command are fields that elements of the document declare. So the levels of
indirection of a parameter are those that its declarator, its lengths and its marks for null give,
and its outermost level is linked to a length exactly if the first of the lengths says so.
-/

namespace XrBindings

open XrBindings.Xml XrBindings.Load

/-! ## Levels of indirection -/

/-- A field is declared by an element. -/
def Field.Declared (f : Field) : Prop := ∃ e : Element, Load.field e = .ok f

/-- The levels of a declared field are matched to its lengths. -/
theorem Field.Declared.pointers_eq {f : Field} (h : f.Declared) :
    ∃ constness optional,
      f.pointers = Declarator.pointerInfos f.typeName constness f.length optional := by
  obtain ⟨e, h⟩ := h
  rw [Load.field] at h
  split at h
  · next typeChild typeName _ _ =>
    dsimp only at h
    split at h
    · obtain ⟨size, -, h⟩ := Result.bind_eq_ok_iff.mp h
      obtain rfl := Result.pure_eq_ok_iff.mp h
      exact ⟨_, _, rfl⟩
    · exact absurd h Result.reject_ne_ok
  · exact absurd h Result.reject_ne_ok

namespace Declarator

theorem head?_pointerInfos (typeName : String) (constness : List Bool)
    (length optional : Option String) :
    ∃ innermost nullable, (pointerInfos typeName constness length optional).head?
      = constness.head?.map fun constant ↦
          pointerLevel typeName innermost constant nullable (listAttribute length).head? := by
  cases constness with
  | nil => exact ⟨false, false, rfl⟩
  | cons constant constness =>
    refine ⟨1 == (constant :: constness).length, (listAttribute optional)[0]? == some "true", ?_⟩
    rw [pointerInfos, List.mapIdx_cons, List.head?_cons, List.head?_cons, Option.map_some,
      List.head?_eq_getElem?]

/-- A level is linked to a length unless this says that there is one object, or a final zero. -/
theorem pointerLevel_lengthLinked_iff {typeName n : String} {innermost constant nullable : Bool}
    {entry : Option String} :
    ((pointerLevel typeName innermost constant nullable entry).multiplicity = .lengthLinked ∧
        (pointerLevel typeName innermost constant nullable entry).length = some n)
      ↔ entry = some n ∧ n ≠ "null-terminated" ∧ n ≠ "1" := by
  cases entry with
  | none =>
    rw [pointerLevel]
    split <;> simp
  | some length =>
    rw [pointerLevel, Option.some.injEq]
    by_cases hzero : length = "null-terminated"
    · rw [if_pos (by simpa using hzero)]
      simp only [reduceCtorEq, false_and, false_iff]
      rintro ⟨rfl, hn, -⟩
      exact hn hzero
    · rw [if_neg (by simpa using hzero)]
      by_cases hone : length = "1"
      · rw [if_pos (by simpa using hone)]
        simp only [reduceCtorEq, false_and, false_iff]
        rintro ⟨rfl, -, hn⟩
        exact hn hone
      · rw [if_neg (by simpa using hone)]
        simp only [true_and, Option.some.injEq]
        constructor
        · rintro rfl
          exact ⟨rfl, hzero, hone⟩
        · exact fun h ↦ h.1

end Declarator

/-! ## Parameters of accepted documents -/

/-- Every parameter of every command is a declared field. -/
def ParamsDeclared (commands : Table String CommandDecl) : Prop :=
  ∀ name c, commands.get? name = some c → ∀ p ∈ c.params, p.Declared

theorem CommandTables.paramsDeclared_add {tables tables' : CommandTables} {e : Element}
    (h : tables.add e = .ok tables') (htables : ParamsDeclared tables.commands) :
    ParamsDeclared tables'.commands := by
  rw [CommandTables.add] at h
  split at h
  · exact Result.pure_eq_ok_iff.mp h ▸ htables
  · split at h
    · obtain ⟨_, -, h⟩ := Result.bind_eq_ok_iff.mp h
      exact Result.pure_eq_ok_iff.mp h ▸ htables
    · split at h
      · exact absurd h Result.reject_ne_ok
      · obtain ⟨result, -, h⟩ := Result.bind_eq_ok_iff.mp h
        obtain ⟨_, -, h⟩ := Result.bind_eq_ok_iff.mp h
        obtain ⟨params, hparams, h⟩ := Result.bind_eq_ok_iff.mp h
        rw [← Result.pure_eq_ok_iff.mp h]
        refine Table.forall_get?_insert htables fun p hp ↦ ?_
        obtain ⟨e, -, he⟩ := (Result.mem_of_mapM hparams).mp hp
        exact ⟨e, he⟩

theorem paramsDeclared_commandTables {root : Element} {tables : CommandTables}
    (h : Load.commandTables root = .ok tables) : ParamsDeclared tables.commands := by
  refine Result.foldlM_induction (fun tables : CommandTables ↦ ParamsDeclared tables.commands) h
    (by simp [ParamsDeclared, Table.get?, Table.empty]) ?_
  exact fun tables e tables' htables hstep ↦ CommandTables.paramsDeclared_add hstep htables

theorem Document.Accepted.declared_of_mem_params {d : Document} (hd : d.Accepted) {c : CommandDecl}
    (hc : c ∈ d.commands.values) {p : Field} (hp : p ∈ c.params) : p.Declared := by
  obtain ⟨root, tables, commandTables, enums, hread⟩ := hd.readFrom
  rw [hread.commands_eq] at hc
  obtain ⟨c', hc', hsame⟩ := mem_values_withOrigins hc
  obtain ⟨name, hget⟩ := commandTables.commands.mem_values_iff.mp hc'
  rw [hsame] at hp
  exact paramsDeclared_commandTables hread.commands_read name c' hget p hp

end XrBindings
