import Mathlib.Data.List.Induction
import Mathlib.Logic.Relation
import XrBindings.Proofs.Registry.Accepted

/-!
# Constants of the API

A constant has a value of its own or repeats another constant, which may repeat one in turn. The
constants are loaded in one pass, and one that repeats another takes its value at once, from the
constants that were loaded before. So what repeats a later constant is left out, and nothing is
said about it.

## Definition and chain

Which names the pass defines is said by `Defines`, for any list of elements. If no name stands twice
this is a matter of chains: from an element there is one chain of repetitions, and if it arrives at
a value, the element has a constant exactly if every link of the chain goes back in the document.
The constant then has the value at the end, so that the order decides whether there is one, but not
what it is.
-/

namespace XrBindings.Load

open Relation XrBindings.Xml

variable {root e f : Element} {es before after : List Element} {n m a text : String}
  {constants constants' : Table String ApiConstant} {v : ApiConstant}

/-- The elements of constants, in document order. They may stand in several blocks. -/
def constantElements (root : Element) : List Element :=
  (root.childrenNamed "enums").flatMap fun b ↦
    if (b.get? "name").getD "" = constantsBlock then b.childrenNamed "enum" else []

/-- The elements define a constant of this name: one of them has the name and a value, or has the
name and repeats what the elements before it define. -/
inductive Defines : List Element → String → Prop
  | value {before after : List Element} {e : Element} {n text : String}
      (hname : e.nonempty? "name" = some n) (hvalue : e.get? "value" = some text) :
      Defines (before ++ e :: after) n
  | repeats {before after : List Element} {e : Element} {n a : String}
      (hname : e.nonempty? "name" = some n) (halias : e.get? "alias" = some a)
      (ha : Defines before a) : Defines (before ++ e :: after) n

/-- An element without a value repeats another one. -/
def Repeats (es : List Element) (e f : Element) : Prop :=
  f ∈ es ∧ e.get? "value" = none ∧
    ∃ a, e.get? "alias" = some a ∧ f.nonempty? "name" = some a

/-- An element without a value repeats one that stands before it. -/
def RepeatsEarlier (es : List Element) (e f : Element) : Prop :=
  ∃ before after, es = before ++ e :: after ∧ Repeats before e f

theorem RepeatsEarlier.repeats (h : RepeatsEarlier es e f) : Repeats es e f := by
  obtain ⟨before, after, rfl, hmem, hlink⟩ := h
  exact ⟨List.mem_append_left _ hmem, hlink⟩

/-- The value of an element counts: the element repeats nothing that is defined before it. -/
def ValueCounts (es : List Element) (e : Element) : Prop :=
  ∀ before after a, es = before ++ e :: after → e.get? "alias" = some a → ¬Defines before a

/-- No name stands twice. -/
def DistinctNames (es : List Element) : Prop := (es.filterMap (·.nonempty? "name")).Nodup

theorem valueCounts_of_alias_eq_none (h : e.get? "alias" = none) : ValueCounts es e := by
  intro before after a _ halias
  simp [h] at halias

/-! ## Defined names -/

theorem Defines.append (h : Defines before n) (after : List Element) :
    Defines (before ++ after) n := by
  cases h with
  | value hname hvalue =>
    rw [List.append_assoc]
    exact .value hname hvalue
  | repeats hname halias ha =>
    rw [List.append_assoc]
    exact .repeats hname halias ha

theorem defines_nil : ¬Defines [] n := by
  intro h
  generalize hes : ([] : List Element) = es at h
  cases h <;> simp at hes

theorem eq_or_exists_of_concat_eq {before' after' : List Element} {e' : Element}
    (h : before ++ [e] = before' ++ e' :: after') :
    before' = before ∧ e' = e ∨ ∃ after, before = before' ++ e' :: after := by
  rcases List.eq_nil_or_concat after' with rfl | ⟨after, last, rfl⟩
  · obtain ⟨rfl, he⟩ := List.append_inj' h rfl
    exact Or.inl ⟨rfl, (List.singleton_inj.mp he).symm⟩
  · rw [List.concat_eq_append, ← List.cons_append, ← List.append_assoc] at h
    exact Or.inr ⟨after, (List.append_inj' h rfl).1⟩

/-- What one more element defines. -/
theorem defines_concat_iff :
    Defines (before ++ [e]) n ↔ Defines before n ∨ e.nonempty? "name" = some n ∧
      ((∃ text, e.get? "value" = some text) ∨ ∃ a, e.get? "alias" = some a ∧ Defines before a) := by
  constructor
  · intro h
    generalize hes : before ++ [e] = es at h
    cases h with
    | value hname hvalue =>
      rcases eq_or_exists_of_concat_eq hes with ⟨rfl, rfl⟩ | ⟨after, rfl⟩
      · exact Or.inr ⟨hname, Or.inl ⟨_, hvalue⟩⟩
      · exact Or.inl (.value hname hvalue)
    | repeats hname halias ha =>
      rcases eq_or_exists_of_concat_eq hes with ⟨rfl, rfl⟩ | ⟨after, rfl⟩
      · exact Or.inr ⟨hname, Or.inr ⟨_, halias, ha⟩⟩
      · exact Or.inl (.repeats hname halias ha)
  · rintro (h | ⟨hname, ⟨text, hvalue⟩ | ⟨a, halias, ha⟩⟩)
    · exact h.append [e]
    · exact .value hname hvalue
    · exact .repeats hname halias ha

theorem Defines.exists_mem (h : Defines es n) : ∃ e ∈ es, e.nonempty? "name" = some n := by
  cases h with
  | value hname _ => exact ⟨_, by simp, hname⟩
  | repeats hname _ _ => exact ⟨_, by simp, hname⟩

theorem Defines.of_append (h : Defines (before ++ after) n)
    (hafter : ∀ e ∈ after, e.nonempty? "name" ≠ some n) : Defines before n := by
  induction after using List.reverseRecOn with
  | nil => rwa [List.append_nil] at h
  | append_singleton after e ih =>
    rw [← List.append_assoc, defines_concat_iff] at h
    rcases h with h | ⟨hname, -⟩
    · exact ih h fun f hf ↦ hafter f (List.mem_append_left _ hf)
    · exact absurd hname (hafter e (by simp))

/-! ## The pass -/

/-- What an element gives beside the constants that are known: the one that it repeats, or else what
its value is read as. -/
inductive GivesConstant (constants : Table String ApiConstant) (e : Element) : ApiConstant → Prop
  | repeated {v : ApiConstant} (hv : (e.get? "alias").bind constants.get? = some v) :
      GivesConstant constants e v
  | read {text : String} {v : ApiConstant} (halias : (e.get? "alias").bind constants.get? = none)
      (hvalue : e.get? "value" = some text) (hv : constantValue text = .ok (some v)) :
      GivesConstant constants e v

theorem GivesConstant.unique {v' : ApiConstant} (h : GivesConstant constants e v)
    (h' : GivesConstant constants e v') : v = v' := by
  cases h with
  | repeated hv =>
    cases h' with
    | repeated hv' => exact Option.some.inj (hv.symm.trans hv')
    | read halias => exact absurd (hv.symm.trans halias) (by simp)
  | read halias hvalue hv =>
    cases h' with
    | repeated hv' => exact absurd (hv'.symm.trans halias) (by simp)
    | read _ hvalue' hv' =>
      obtain rfl := Option.some.inj (hvalue.symm.trans hvalue')
      exact Option.some.inj (Except.ok.inj (hv.symm.trans hv'))

/-- **One element.** What it gives is put under its name. An element that gives nothing has no name,
or no value and nothing that it repeats. -/
theorem addConstant_cases (h : addConstant constants e = .ok constants') :
    (∃ n v, e.nonempty? "name" = some n ∧ GivesConstant constants e v ∧
      constants' = constants.insert n v) ∨
    (e.nonempty? "name" ≠ none →
      (e.get? "alias").bind constants.get? = none ∧ e.get? "value" = none) ∧
      constants' = constants := by
  rw [addConstant] at h
  split at h
  · next hname => exact Or.inr ⟨fun hne ↦ absurd hname hne, (Except.ok.inj h).symm⟩
  · next n hname =>
    split at h
    · next v hv => exact Or.inl ⟨n, v, hname, .repeated hv, (Except.ok.inj h).symm⟩
    · next halias =>
      split at h
      · next hvalue => exact Or.inr ⟨fun _ ↦ ⟨halias, hvalue⟩, (Except.ok.inj h).symm⟩
      · next text hvalue =>
        obtain ⟨v?, hv, h⟩ := Result.bind_eq_ok_iff.mp h
        cases v? with
        | none => exact absurd h Result.reject_ne_ok
        | some v =>
          exact Or.inl ⟨n, v, hname, .read halias hvalue hv, (Result.pure_eq_ok_iff.mp h).symm⟩

theorem bind_get?_ne_none_iff :
    (e.get? "alias").bind constants.get? ≠ none
      ↔ ∃ a, e.get? "alias" = some a ∧ a ∈ constants.keys := by
  rw [Option.ne_none_iff_exists']
  simp only [Option.bind_eq_some_iff, Table.mem_keys_iff]
  constructor
  · rintro ⟨v, a, halias, hv⟩
    exact ⟨a, halias, v, hv⟩
  · rintro ⟨a, halias, v, hv⟩
    exact ⟨v, a, halias, hv⟩

theorem mem_keys_addConstant_iff (h : addConstant constants e = .ok constants') :
    n ∈ constants'.keys ↔ n ∈ constants.keys ∨ e.nonempty? "name" = some n ∧
      ((∃ text, e.get? "value" = some text) ∨
        ∃ a, e.get? "alias" = some a ∧ a ∈ constants.keys) := by
  rcases addConstant_cases h with ⟨n', v, hname, hv, rfl⟩ | ⟨hnone, rfl⟩
  · have hgives : (∃ text, e.get? "value" = some text) ∨
        ∃ a, e.get? "alias" = some a ∧ a ∈ constants.keys := by
      cases hv with
      | repeated hv => exact Or.inr (bind_get?_ne_none_iff.mp (by simp [hv]))
      | read _ hvalue _ => exact Or.inl ⟨_, hvalue⟩
    rw [Table.mem_keys_insert, hname, Option.some.injEq, and_iff_left hgives, or_comm, eq_comm]
  · refine (or_iff_left ?_).symm
    rintro ⟨hname, hgives⟩
    obtain ⟨halias, hvalue⟩ := hnone (by simp [hname])
    rcases hgives with ⟨text, htext⟩ | hgives
    · simp [hvalue] at htext
    · exact bind_get?_ne_none_iff.mpr hgives halias

/-- What an element gives is the constant of its name. -/
theorem get?_addConstant (h : addConstant constants e = .ok constants')
    (hname : e.nonempty? "name" = some n) (hv : GivesConstant constants e v) :
    constants'.get? n = some v := by
  rcases addConstant_cases h with ⟨n', v', hname', hv', rfl⟩ | ⟨hnone, -⟩
  · obtain rfl := Option.some.inj (hname.symm.trans hname')
    obtain rfl := hv.unique hv'
    exact Table.get?_insert_self _ _ _
  · obtain ⟨halias, hvalue⟩ := hnone (by simp [hname])
    cases hv with
    | repeated hv => exact absurd (hv.symm.trans halias) (by simp)
    | read _ hvalue' _ => exact absurd (hvalue'.symm.trans hvalue) (by simp)

/-- **The pass** has a constant exactly for each name that the elements define. -/
theorem mem_keys_iff_defines (h : es.foldlM addConstant .empty = .ok constants) (n : String) :
    n ∈ constants.keys ↔ Defines es n := by
  refine Result.foldlM_prefix_induction
    (fun before constants ↦ ∀ n, n ∈ constants.keys ↔ Defines before n) h ?_ ?_ n
  · exact fun n ↦ iff_of_false List.not_mem_nil defines_nil
  · intro before e constants constants' hbefore hstep n
    rw [mem_keys_addConstant_iff hstep, defines_concat_iff]
    simp only [hbefore]

theorem get?_foldlM_addConstant (h : es.foldlM addConstant constants = .ok constants')
    (hes : ∀ e ∈ es, e.nonempty? "name" ≠ some n) : constants'.get? n = constants.get? n := by
  induction es generalizing constants with
  | nil => rw [Result.pure_eq_ok_iff.mp h]
  | cons e es ih =>
    rw [List.forall_mem_cons] at hes
    rw [List.foldlM_cons] at h
    obtain ⟨known, hstep, h⟩ := Result.bind_eq_ok_iff.mp h
    rw [ih h hes.2]
    rcases addConstant_cases hstep with ⟨n', v, hname, -, rfl⟩ | ⟨-, rfl⟩
    · refine Table.get?_insert_of_ne _ ?_ _
      rintro rfl
      exact hes.1 hname
    · rfl

/-- The constants of a registry are those of its elements, whatever blocks these stand in. -/
theorem foldlM_constantElements {tables : EnumTables} (h : enumTables root = .ok tables) :
    (constantElements root).foldlM addConstant .empty = .ok tables.constants := by
  refine Result.foldlM_prefix_induction (fun blocks (tables : EnumTables) ↦
    (blocks.flatMap fun b : Element ↦
      if (b.get? "name").getD "" = constantsBlock then b.childrenNamed "enum"
      else []).foldlM addConstant .empty = .ok tables.constants) h rfl ?_
  intro blocks b tables tables' hblocks hstep
  rw [List.flatMap_append, List.foldlM_append, hblocks, Result.ok_bind, List.flatMap_singleton]
  rw [addBlock] at hstep
  split at hstep
  · next hreserved =>
    obtain ⟨constants, hconstants, hstep⟩ := Result.bind_eq_ok_iff.mp hstep
    rw [if_pos (by simpa using hreserved), hconstants, ← Result.pure_eq_ok_iff.mp hstep]
  · next hother =>
    rw [if_neg (by simpa using hother), List.foldlM_nil]
    split at hstep
    · exact absurd hstep Result.reject_ne_ok
    · obtain ⟨decl, -, hstep⟩ := Result.bind_eq_ok_iff.mp hstep
      rw [← Result.pure_eq_ok_iff.mp hstep]
      rfl

/-! ## Distinct names -/

namespace DistinctNames

theorem ne_of_mem (hd : DistinctNames (before ++ e :: after))
    (hname : e.nonempty? "name" = some n) :
    (∀ f ∈ before, f.nonempty? "name" ≠ some n) ∧ ∀ f ∈ after, f.nonempty? "name" ≠ some n := by
  rw [DistinctNames, List.filterMap_append,
    List.filterMap_cons_some (f := fun f : Element ↦ f.nonempty? "name") hname, List.nodup_append,
    List.nodup_cons] at hd
  obtain ⟨-, ⟨hafter, -⟩, hbefore⟩ := hd
  constructor
  · intro f hf hfn
    exact hbefore n (List.mem_filterMap.mpr ⟨f, hf, hfn⟩) n List.mem_cons_self rfl
  · intro f hf hfn
    exact hafter (List.mem_filterMap.mpr ⟨f, hf, hfn⟩)

theorem eq_of_name (hd : DistinctNames es) (he : e ∈ es) (hf : f ∈ es)
    (hname : e.nonempty? "name" = some n) (hfname : f.nonempty? "name" = some n) : f = e := by
  obtain ⟨before, after, rfl⟩ := List.append_of_mem he
  obtain ⟨hbefore, hafter⟩ := hd.ne_of_mem hname
  rcases List.mem_append.mp hf with hf | hf
  · exact absurd hfname (hbefore f hf)
  · rcases List.mem_cons.mp hf with rfl | hf
    · rfl
    · exact absurd hfname (hafter f hf)

theorem ne_of_mem_before (hd : DistinctNames (before ++ after)) (he : e ∈ before)
    (hname : e.nonempty? "name" = some n) : ∀ f ∈ after, f.nonempty? "name" ≠ some n := by
  obtain ⟨left, right, rfl⟩ := List.append_of_mem he
  rw [List.append_assoc, List.cons_append] at hd
  exact fun f hf ↦ (hd.ne_of_mem hname).2 f (List.mem_append_right _ hf)

end DistinctNames

section

variable (hd : DistinctNames es) (hes : es.foldlM addConstant .empty = .ok constants)
include hd

theorem Defines.of_repeatsEarlier (hlink : RepeatsEarlier es e f)
    (hname : e.nonempty? "name" = some n) (hfname : f.nonempty? "name" = some m)
    (hf : Defines es m) : Defines es n := by
  obtain ⟨before, after, rfl, hmem, -, a, halias, hfa⟩ := hlink
  obtain rfl := Option.some.inj (hfname.symm.trans hfa)
  exact .repeats hname halias (hf.of_append (hd.ne_of_mem_before hmem hfname))

theorem Defines.of_repeats (he : e ∈ es) (hlink : Repeats es e f)
    (hname : e.nonempty? "name" = some n) (h : Defines es n) :
    RepeatsEarlier es e f ∧ ∃ m, f.nonempty? "name" = some m ∧ Defines es m := by
  obtain ⟨hf, hnone, a, halias, hfname⟩ := hlink
  cases h with
  | value hname' hvalue =>
    obtain rfl := hd.eq_of_name he (by simp) hname hname'
    simp [hnone] at hvalue
  | repeats hname' halias' ha' =>
    obtain rfl := hd.eq_of_name he (by simp) hname hname'
    obtain rfl := Option.some.inj (halias.symm.trans halias')
    obtain ⟨f', hf', hfname'⟩ := ha'.exists_mem
    obtain rfl := hd.eq_of_name hf (List.mem_append_left _ hf') hfname hfname'
    exact ⟨⟨_, _, rfl, hf', hnone, a, halias, hfname⟩, a, hfname, ha'.append _⟩

/-- What a chain that goes back leads from to a value is defined. -/
theorem defines_of_goesBack (he : e ∈ es) (hname : e.nonempty? "name" = some n)
    (hchain : ReflTransGen (RepeatsEarlier es) e f) (hvalue : f.get? "value" = some text) :
    Defines es n := by
  induction hchain using ReflTransGen.head_induction_on generalizing n with
  | refl =>
    obtain ⟨before, after, rfl⟩ := List.append_of_mem he
    exact .value hname hvalue
  | head hlink _ ih =>
    obtain ⟨before, after, hsplit, hmem, -, m, -, hm⟩ := id hlink
    have hdefined := ih (hsplit ▸ List.mem_append_left _ hmem) hm
    exact hdefined.of_repeatsEarlier hd hlink hname hm

/-- **Chains.** What a chain of repetitions leads from to a value is defined exactly if every link
goes back. -/
theorem defines_iff_goesBack (he : e ∈ es) (hname : e.nonempty? "name" = some n)
    (hchain : ReflTransGen (Repeats es) e f) (hvalue : f.get? "value" = some text) :
    Defines es n ↔ ReflTransGen (RepeatsEarlier es) e f := by
  refine ⟨fun h ↦ ?_, fun hback ↦ defines_of_goesBack hd he hname hback hvalue⟩
  induction hchain using ReflTransGen.head_induction_on generalizing n with
  | refl => exact .refl
  | head hlink _ ih =>
    obtain ⟨hback, m, hm, hdefined⟩ := h.of_repeats hd he hlink hname
    exact (ih hlink.1 hm hdefined).head hback

include hes

/-- An element of a pass that gives a result: it adds what it gives beside the constants before it,
and the constants of other names that are known there are kept. -/
theorem exists_known (hsplit : es = before ++ e :: after)
    (hname : e.nonempty? "name" = some n) :
    ∃ known added, before.foldlM addConstant .empty = .ok known ∧
      addConstant known e = .ok added ∧ constants.get? n = added.get? n ∧
      ∀ f ∈ before, ∀ m, f.nonempty? "name" = some m → constants.get? m = known.get? m := by
  subst hsplit
  rw [List.foldlM_append] at hes
  obtain ⟨known, hknown, hes⟩ := Result.bind_eq_ok_iff.mp hes
  have hkept : ∀ f ∈ before, ∀ m, f.nonempty? "name" = some m →
      constants.get? m = known.get? m :=
    fun f hf m hm ↦ get?_foldlM_addConstant hes (hd.ne_of_mem_before hf hm)
  rw [List.foldlM_cons] at hes
  obtain ⟨added, hadded, hes⟩ := Result.bind_eq_ok_iff.mp hes
  exact ⟨known, added, hknown, hadded, get?_foldlM_addConstant hes (hd.ne_of_mem hname).2, hkept⟩

theorem get?_of_repeatsEarlier (hlink : RepeatsEarlier es e f)
    (hname : e.nonempty? "name" = some n) (hfname : f.nonempty? "name" = some m)
    (hf : Defines es m) : constants.get? n = constants.get? m := by
  obtain ⟨before, after, hsplit, hmem, -, a, halias, hfa⟩ := hlink
  obtain rfl := Option.some.inj (hfname.symm.trans hfa)
  obtain ⟨known, added, hknown, hadded, hget, hkept⟩ := exists_known hd hes hsplit hname
  rw [hsplit] at hd hf
  have hbefore : Defines before m := hf.of_append (hd.ne_of_mem_before hmem hfname)
  obtain ⟨v, hv⟩ := known.mem_keys_iff.mp ((mem_keys_iff_defines hknown m).mpr hbefore)
  have hgiven : GivesConstant known e v := .repeated (by rw [halias, Option.bind_some, hv])
  rw [hget, hkept f hmem m hfname, hv, get?_addConstant hadded hname hgiven]

theorem get?_of_valueCounts (he : e ∈ es) (hname : e.nonempty? "name" = some n)
    (hcounts : ValueCounts es e) (hvalue : e.get? "value" = some text) :
    ∃ v, constantValue text = .ok (some v) ∧ constants.get? n = some v := by
  obtain ⟨before, after, hsplit⟩ := List.append_of_mem he
  obtain ⟨known, added, hknown, hadded, hget, -⟩ := exists_known hd hes hsplit hname
  have halias : (e.get? "alias").bind known.get? = none := by
    by_contra hne
    obtain ⟨a, ha, hmem⟩ := bind_get?_ne_none_iff.mp hne
    exact hcounts before after a hsplit ha ((mem_keys_iff_defines hknown a).mp hmem)
  rcases addConstant_cases hadded with ⟨n', v, hname', hv, -⟩ | ⟨hnone, -⟩
  · refine ⟨v, ?_, hget.trans (get?_addConstant hadded hname hv)⟩
    cases hv with
    | repeated hv => exact absurd (hv.symm.trans halias) (by simp)
    | read _ hvalue' hv =>
      obtain rfl := Option.some.inj (hvalue.symm.trans hvalue')
      exact hv
  · simp [(hnone (by simp [hname])).2] at hvalue

/-- Along a chain that goes back to a value the constant is the same. -/
theorem get?_of_goesBack (he : e ∈ es) (hname : e.nonempty? "name" = some n)
    (hchain : ReflTransGen (RepeatsEarlier es) e f) (hvalue : f.get? "value" = some text) :
    f ∈ es ∧ ∃ m, f.nonempty? "name" = some m ∧ constants.get? n = constants.get? m := by
  induction hchain using ReflTransGen.head_induction_on generalizing n with
  | refl => exact ⟨he, n, hname, rfl⟩
  | head hlink hrest ih =>
    obtain ⟨before, after, hsplit, hmem, -, k, -, hk⟩ := id hlink
    have hmem : _ ∈ es := hsplit ▸ List.mem_append_left _ hmem
    obtain ⟨hf, m, hm, hget⟩ := ih hmem hk
    have hdefined := defines_of_goesBack hd hmem hk hrest hvalue
    exact ⟨hf, m, hm, (get?_of_repeatsEarlier hd hes hlink hname hk hdefined).trans hget⟩

end

/-- **Constants are kept unless they repeat a later one.** An accepted document has a constant for
each name that its elements define, and for no other name. So every element with a value has one. If
no name stands twice, an element whose chain of repetitions arrives at a value has a constant
exactly if every link of the chain goes back in the document. Then the constant has the value at the
end, if this value counts there, as it always does without an alias beside it. -/
theorem constants_kept_iff {d : Document} (h : Document.ofElement root = .ok d) :
    (∀ n, n ∈ d.apiConstants.keys ↔ Defines (constantElements root) n) ∧
    (∀ e ∈ constantElements root, ∀ n text, e.nonempty? "name" = some n →
      e.get? "value" = some text → n ∈ d.apiConstants.keys) ∧
    (DistinctNames (constantElements root) → ∀ e ∈ constantElements root, ∀ f n text,
      e.nonempty? "name" = some n → ReflTransGen (Repeats (constantElements root)) e f →
      f.get? "value" = some text →
        (n ∈ d.apiConstants.keys ↔ ReflTransGen (RepeatsEarlier (constantElements root)) e f) ∧
        (n ∈ d.apiConstants.keys → ValueCounts (constantElements root) f →
          ∃ v, constantValue text = .ok (some v) ∧ d.apiConstants.get? n = some v)) := by
  obtain ⟨tables, commandTables, enums, hread⟩ := Document.readFrom_of_ofElement h
  have hes := foldlM_constantElements hread.tables_read
  rw [← hread.apiConstants_eq] at hes
  have hkeys := mem_keys_iff_defines hes
  refine ⟨hkeys, ?_, ?_⟩
  · intro e he n text hname hvalue
    obtain ⟨before, after, hsplit⟩ := List.append_of_mem he
    rw [hkeys, hsplit]
    exact .value hname hvalue
  · intro hd e he f n text hname hchain hvalue
    have hback := defines_iff_goesBack hd he hname hchain hvalue
    refine ⟨(hkeys n).trans hback, fun hn hcounts ↦ ?_⟩
    obtain ⟨hf, m, hm, hget⟩ :=
      get?_of_goesBack hd hes he hname (hback.mp ((hkeys n).mp hn)) hvalue
    rw [hget]
    exact get?_of_valueCounts hd hes hf hm hcounts hvalue

/-! ## Documents whose constants repeat others -/

/-- A constant with a value. -/
def sizeElement : Element :=
  ⟨"enum", [("name", "XR_UUID_SIZE_EXT"), ("value", "16")], "", [], ""⟩

/-- Another spelling of it. -/
def spellingElement : Element :=
  ⟨"enum", [("name", "XR_UUID_SIZE"), ("alias", "XR_UUID_SIZE_EXT")], "", [], ""⟩

/-- Another spelling of the spelling. -/
def lengthElement : Element :=
  ⟨"enum", [("name", "XR_UUID_LENGTH"), ("alias", "XR_UUID_SIZE")], "", [], ""⟩

/-- A block of constants. -/
def constantsElement (es : List Element) : Element :=
  ⟨"enums", [("name", "API Constants")], "", es, ""⟩

/-- A document whose chain goes back, from the second block into the first one. -/
def uuidRegistry : Element :=
  ⟨"registry", [], "", [constantsElement [sizeElement, spellingElement],
    constantsElement [lengthElement]], ""⟩

def uuidDocument : Document where
  tags := []
  types := .empty
  enums := .empty
  commands := .empty
  commandAliases := .empty
  apiConstants := Table.ofList [("XR_UUID_SIZE_EXT", .integer 16), ("XR_UUID_SIZE", .integer 16),
    ("XR_UUID_LENGTH", .integer 16)]
  features := []
  extensions := []
  origins := .empty
  version := "unknown"

/-- The chain of two spellings leads to the value. -/
theorem constants_kept_iff_uuid :
    Document.ofElement uuidRegistry = .ok uuidDocument ∧
      DistinctNames (constantElements uuidRegistry) ∧
      lengthElement ∈ constantElements uuidRegistry ∧
      lengthElement.nonempty? "name" = some "XR_UUID_LENGTH" ∧
      ReflTransGen (Repeats (constantElements uuidRegistry)) lengthElement sizeElement ∧
      sizeElement.get? "value" = some "16" ∧
      uuidDocument.apiConstants.get? "XR_UUID_LENGTH" = some (.integer 16) := by
  have haccepted : Document.ofElement uuidRegistry = .ok uuidDocument := by
    with_unfolding_all rfl
  have helements : constantElements uuidRegistry = [sizeElement, spellingElement, lengthElement] :=
    by with_unfolding_all rfl
  have hd : DistinctNames (constantElements uuidRegistry) := by
    rw [DistinctNames, helements]
    decide +kernel
  have hlength : lengthElement ∈ constantElements uuidRegistry := by simp [helements]
  have hname : lengthElement.nonempty? "name" = some "XR_UUID_LENGTH" := by decide +kernel
  have hfirst : RepeatsEarlier (constantElements uuidRegistry) lengthElement spellingElement :=
    ⟨[sizeElement, spellingElement], [], helements, by simp, rfl, "XR_UUID_SIZE",
      by decide +kernel, by decide +kernel⟩
  have hsecond : RepeatsEarlier (constantElements uuidRegistry) spellingElement sizeElement :=
    ⟨[sizeElement], [lengthElement], helements, by simp, rfl, "XR_UUID_SIZE_EXT",
      by decide +kernel, by decide +kernel⟩
  have hback : ReflTransGen (RepeatsEarlier (constantElements uuidRegistry)) lengthElement
      sizeElement := .head hfirst (.single hsecond)
  have hchain : ReflTransGen (Repeats (constantElements uuidRegistry)) lengthElement sizeElement :=
    hback.lift id fun _ _ ↦ RepeatsEarlier.repeats
  have hvalue : sizeElement.get? "value" = some "16" := by decide +kernel
  obtain ⟨hkeys, hread⟩ :=
    (constants_kept_iff haccepted).2.2 hd _ hlength _ _ _ hname hchain hvalue
  obtain ⟨v, hv, hget⟩ := hread (hkeys.mpr hback) (valueCounts_of_alias_eq_none rfl)
  have hsixteen : constantValue "16" = .ok (some (.integer 16)) := by decide +kernel
  obtain rfl := Option.some.inj (Except.ok.inj (hv.symm.trans hsixteen))
  exact ⟨haccepted, hd, hlength, hname, hchain, hvalue, hget⟩

/-- A document whose spelling stands before what it repeats. -/
def forwardRegistry : Element :=
  ⟨"registry", [], "", [constantsElement [spellingElement, sizeElement]], ""⟩

/-- The spelling is left out, although it leads to a value. -/
theorem constant_lost_forward :
    DistinctNames (constantElements forwardRegistry) ∧
      spellingElement ∈ constantElements forwardRegistry ∧
      spellingElement.nonempty? "name" = some "XR_UUID_SIZE" ∧
      Repeats (constantElements forwardRegistry) spellingElement sizeElement ∧
      sizeElement.get? "value" = some "16" ∧
      (Document.ofElement forwardRegistry).map (·.apiConstants.get? "XR_UUID_SIZE") = .ok none := by
  have helements : constantElements forwardRegistry = [spellingElement, sizeElement] := by
    with_unfolding_all rfl
  rw [DistinctNames, Repeats, helements]
  refine ⟨by decide +kernel, by simp, by decide +kernel, ⟨by simp, rfl, "XR_UUID_SIZE_EXT",
    by decide +kernel, by decide +kernel⟩, by decide +kernel, by with_unfolding_all rfl⟩

end XrBindings.Load
