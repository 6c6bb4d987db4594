/-!
# Tables in order of insertion

The declarations of a registry are looked up by name and listed in the order in which the
document first gives them. A table is a list of pairs with distinct keys. Inserting under a key
that is present changes the value where it stands; inserting under a new key appends.
-/

namespace XrBindings

/-- Pairs with distinct keys, in order of first insertion. -/
structure Table (κ α : Type) where
  /-- The pairs. -/
  entries : List (κ × α)
  /-- No key stands twice. -/
  nodup_keys : (entries.map Prod.fst).Nodup

namespace Table

variable {κ α β : Type}

def empty : Table κ α := ⟨[], List.nodup_nil⟩

instance : Inhabited (Table κ α) := ⟨empty⟩

def keys (t : Table κ α) : List κ := t.entries.map Prod.fst

def values (t : Table κ α) : List α := t.entries.map Prod.snd

def size (t : Table κ α) : Nat := t.entries.length

/-- Change every value, given its key. -/
def map (f : κ → α → β) (t : Table κ α) : Table κ β :=
  ⟨t.entries.map fun e ↦ (e.1, f e.1 e.2), by
    have h := t.nodup_keys
    simpa [Function.comp_def] using h⟩

variable [DecidableEq κ]

def get? (t : Table κ α) (k : κ) : Option α := t.entries.lookup k

/-- Whether a key is present. -/
def contains (t : Table κ α) (k : κ) : Bool := t.keys.contains k

/-- Put a value under a key that is present, where that key stands. -/
def replace (t : Table κ α) (k : κ) (v : α) : Table κ α :=
  ⟨t.entries.map fun e ↦ if e.1 = k then (e.1, v) else e, by
    have h : (t.entries.map fun e ↦ if e.1 = k then (e.1, v) else e).map Prod.fst
        = t.entries.map Prod.fst := by
      rw [List.map_map]
      refine List.map_congr_left fun e _ ↦ ?_
      by_cases he : e.1 = k <;> simp [he]
    rw [h]
    exact t.nodup_keys⟩

/-- Put a value under a key. -/
def insert (t : Table κ α) (k : κ) (v : α) : Table κ α :=
  if h : k ∈ t.keys then t.replace k v
  else ⟨t.entries ++ [(k, v)], by
    rw [List.map_append, List.nodup_append]
    refine ⟨t.nodup_keys, by simp, ?_⟩
    intro a ha b hb
    simp only [List.map_cons, List.map_nil, List.mem_singleton] at hb
    rintro rfl
    exact h (hb ▸ ha)⟩

/-- Put a value under a key unless the key is present. -/
def insertNew (t : Table κ α) (k : κ) (v : α) : Table κ α :=
  if t.contains k then t else t.insert k v

/-- The table of a list of pairs; a later value replaces an earlier one under the same key. -/
def ofList (pairs : List (κ × α)) : Table κ α :=
  pairs.foldl (fun t e ↦ t.insert e.1 e.2) empty

/-! ## The view as a list -/

theorem contains_iff (t : Table κ α) (k : κ) : t.contains k = true ↔ k ∈ t.keys := by
  simp [contains]

theorem keys_replace (t : Table κ α) (k : κ) (v : α) : (t.replace k v).keys = t.keys := by
  simp only [keys, replace, List.map_map]
  refine List.map_congr_left fun e _ ↦ ?_
  by_cases he : e.1 = k <;> simp [he]

theorem keys_insert_of_mem {t : Table κ α} {k : κ} (h : k ∈ t.keys) (v : α) :
    (t.insert k v).keys = t.keys := by
  rw [insert, dif_pos h, keys_replace]

theorem keys_insert_of_notMem {t : Table κ α} {k : κ} (h : k ∉ t.keys) (v : α) :
    (t.insert k v).keys = t.keys ++ [k] := by
  rw [insert, dif_neg h]
  simp [keys]

theorem lookup_cons_eq_ite (e : κ × α) (rest : List (κ × α)) (k : κ) :
    (e :: rest).lookup k = if k = e.1 then some e.2 else rest.lookup k := by
  by_cases h : k = e.1
  · rw [List.lookup_cons, if_pos h, beq_iff_eq.mpr h]
  · rw [List.lookup_cons, if_neg h, beq_false_of_ne h]

theorem lookup_eq_none_iff_notMem (entries : List (κ × α)) (k : κ) :
    entries.lookup k = none ↔ k ∉ entries.map Prod.fst := by
  induction entries with
  | nil => simp
  | cons e rest ih =>
    rw [lookup_cons_eq_ite, List.map_cons, List.mem_cons, not_or, ← ih]
    by_cases h : k = e.1 <;> simp [h]

/-- Changing the value under a key changes what is found under it, and nothing else. -/
theorem lookup_map_ite (entries : List (κ × α)) (k k' : κ) (v : α) :
    (entries.map fun e ↦ if e.1 = k then (e.1, v) else e).lookup k'
      = if k' = k then (entries.lookup k').map fun _ ↦ v else entries.lookup k' := by
  induction entries with
  | nil => simp
  | cons e rest ih =>
    rw [List.map_cons, lookup_cons_eq_ite, lookup_cons_eq_ite, ih]
    by_cases hk : e.1 = k <;> by_cases hk' : k' = e.1 <;> by_cases hkk : k' = k <;>
      simp_all

theorem get?_eq_none_iff (t : Table κ α) (k : κ) : t.get? k = none ↔ k ∉ t.keys :=
  lookup_eq_none_iff_notMem t.entries k

theorem get?_insert_self (t : Table κ α) (k : κ) (v : α) : (t.insert k v).get? k = some v := by
  by_cases h : k ∈ t.keys
  · obtain ⟨w, hw⟩ := Option.ne_none_iff_exists'.mp fun hn ↦ (t.get?_eq_none_iff k).mp hn h
    rw [get?] at hw
    rw [insert, dif_pos h, get?, replace, lookup_map_ite, if_pos rfl, hw, Option.map_some]
  · have hn := (t.get?_eq_none_iff k).mpr h
    rw [get?] at hn
    rw [insert, dif_neg h, get?, List.lookup_append, hn, Option.none_or, lookup_cons_eq_ite,
      if_pos rfl]

theorem get?_insert_of_ne (t : Table κ α) {k k' : κ} (h : k' ≠ k) (v : α) :
    (t.insert k v).get? k' = t.get? k' := by
  by_cases hk : k ∈ t.keys
  · rw [insert, dif_pos hk, get?, replace, lookup_map_ite, if_neg h, get?]
  · rw [insert, dif_neg hk, get?, List.lookup_append, lookup_cons_eq_ite, if_neg h,
      List.lookup_nil, Option.or_none, get?]

theorem lookup_eq_some_iff_mem {entries : List (κ × α)} (hd : (entries.map Prod.fst).Nodup)
    {k : κ} {v : α} : entries.lookup k = some v ↔ (k, v) ∈ entries := by
  induction entries with
  | nil => simp
  | cons e rest ih =>
    rw [List.map_cons, List.nodup_cons] at hd
    rw [lookup_cons_eq_ite, List.mem_cons]
    by_cases he : k = e.1
    · have hrest : (k, v) ∉ rest := fun hm ↦ hd.1 (he ▸ List.mem_map_of_mem hm)
      rw [if_pos he, Option.some.injEq, or_iff_left hrest]
      constructor
      · rintro rfl
        rw [he]
      · rintro rfl
        rfl
    · have hne : (k, v) ≠ e := fun h ↦ he (by rw [← h])
      rw [if_neg he, ih hd.2, or_iff_right hne]

theorem get?_eq_some_iff (t : Table κ α) {k : κ} {v : α} :
    t.get? k = some v ↔ (k, v) ∈ t.entries := lookup_eq_some_iff_mem t.nodup_keys

theorem mem_keys_iff (t : Table κ α) {k : κ} : k ∈ t.keys ↔ ∃ v, t.get? k = some v := by
  simp only [get?_eq_some_iff, keys, List.mem_map, Prod.exists, exists_and_right, exists_eq_right]

theorem mem_values_iff (t : Table κ α) {v : α} : v ∈ t.values ↔ ∃ k, t.get? k = some v := by
  simp only [get?_eq_some_iff, values, List.mem_map, Prod.exists, exists_eq_right]

theorem mem_keys_insert (t : Table κ α) {k k' : κ} {v : α} :
    k' ∈ (t.insert k v).keys ↔ k' = k ∨ k' ∈ t.keys := by
  by_cases hk : k ∈ t.keys
  · rw [keys_insert_of_mem hk, or_iff_right_of_imp]
    rintro rfl
    exact hk
  · rw [keys_insert_of_notMem hk, List.mem_append, List.mem_singleton, or_comm]

theorem mem_keys_insertNew (t : Table κ α) {k k' : κ} {v : α} :
    k' ∈ (t.insertNew k v).keys ↔ k' = k ∨ k' ∈ t.keys := by
  rw [insertNew]
  split
  · next hk =>
    rw [or_iff_right_of_imp]
    rintro rfl
    exact (t.contains_iff _).mp hk
  · exact t.mem_keys_insert

theorem entries_insert_of_notMem {t : Table κ α} {k : κ} (h : k ∉ t.keys) (v : α) :
    (t.insert k v).entries = t.entries ++ [(k, v)] := by
  rw [insert, dif_neg h]

/-- What holds of every entry, and of a new one, holds of every entry after the insertion. -/
theorem forall_get?_insert {t : Table κ α} {P : κ → α → Prop}
    (h : ∀ k v, t.get? k = some v → P k v) {k : κ} {v : α} (hv : P k v) :
    ∀ k' v', (t.insert k v).get? k' = some v' → P k' v' := by
  intro k' v' hget
  by_cases hk : k' = k
  · subst hk
    rw [get?_insert_self, Option.some.injEq] at hget
    exact hget ▸ hv
  · rw [get?_insert_of_ne t hk] at hget
    exact h k' v' hget

/-- A list of pairs with distinct keys is the list of entries of its table. -/
theorem entries_ofList {pairs : List (κ × α)} (hd : (pairs.map Prod.fst).Nodup) :
    (ofList pairs).entries = pairs := by
  have hfold : ∀ (pairs : List (κ × α)) (t : Table κ α),
      ((t.entries ++ pairs).map Prod.fst).Nodup →
        (pairs.foldl (fun t e ↦ t.insert e.1 e.2) t).entries = t.entries ++ pairs := by
    intro pairs
    induction pairs with
    | nil => simp
    | cons e rest ih =>
      intro t hd
      have hk : e.1 ∉ t.keys := by
        rw [List.map_append, List.nodup_append] at hd
        exact fun hm ↦ hd.2.2 _ hm _ (by simp) rfl
      have he := entries_insert_of_notMem hk e.2
      rw [List.foldl_cons, ih _ (by rw [he]; simpa using hd), he]
      simp
  exact hfold pairs empty hd

/-! ## Counting values -/

theorem map_ite_of_notMem {entries : List (κ × α)} {k : κ} (h : k ∉ entries.map Prod.fst) (v : α) :
    (entries.map fun e ↦ if e.1 = k then (e.1, v) else e) = entries := by
  refine (List.map_congr_left fun e he ↦ ?_).trans (List.map_id entries)
  have hne : e.1 ≠ k := fun hk ↦ h (hk ▸ List.mem_map_of_mem he)
  rw [if_neg hne, id]

/-- Changing the value under a key changes one term of a count. -/
theorem countP_map_ite (p : α → Bool) {entries : List (κ × α)} {k : κ} {v : α}
    (hd : (entries.map Prod.fst).Nodup) (hv : entries.lookup k = some v) (w : α) :
    ((entries.map fun e ↦ if e.1 = k then (e.1, w) else e).map Prod.snd).countP p
        + (if p v then 1 else 0)
      = (entries.map Prod.snd).countP p + (if p w then 1 else 0) := by
  induction entries with
  | nil => simp at hv
  | cons e rest ih =>
    rw [List.map_cons, List.nodup_cons] at hd
    rw [lookup_cons_eq_ite] at hv
    by_cases he : k = e.1
    · rw [if_pos he, Option.some.injEq] at hv
      subst he hv
      rw [List.map_cons, if_pos rfl, map_ite_of_notMem hd.1]
      simp only [List.map_cons, List.countP_cons]
      omega
    · rw [if_neg he] at hv
      have hrest := ih hd.2 hv
      rw [List.map_cons, if_neg (Ne.symm he)]
      simp only [List.map_cons, List.countP_cons]
      omega

/-- Inserting under a key that is present changes one term of a count. -/
theorem countP_insert (t : Table κ α) (p : α → Bool) {k : κ} {v : α} (hv : t.get? k = some v)
    (w : α) :
    (t.insert k w).values.countP p + (if p v then 1 else 0)
      = t.values.countP p + (if p w then 1 else 0) := by
  by_cases hk : k ∈ t.keys
  · rw [insert, dif_pos hk]
    exact countP_map_ite p t.nodup_keys hv w
  · rw [(t.get?_eq_none_iff k).mpr hk] at hv
    exact absurd hv (by simp)

end Table

end XrBindings
