import Mathlib

namespace RcControl.Data

/-! Maps with unique keys, listed in the order an iteration visits them. -/

structure Registry (Key Value : Type*) where
  entries : List (Key × Value)
  nodup : (entries.map Prod.fst).Nodup

namespace Registry

variable {Key Value : Type*}

theorem ext_entries {first second : Registry Key Value} (same : first.entries = second.entries) :
    first = second := by
  cases first
  cases second
  cases same
  rfl

def empty : Registry Key Value := ⟨[], List.nodup_nil⟩

def replace (registry : Registry Key Value) (entries : List (Key × Value))
    (sameKeys : entries.map Prod.fst = registry.entries.map Prod.fst) : Registry Key Value :=
  ⟨entries, sameKeys ▸ registry.nodup⟩

def restrict (registry : Registry Key Value) (keep : Key → Bool) : Registry Key Value where
  entries := registry.entries.filter (keep ·.1)
  nodup := registry.nodup.sublist (List.filter_sublist.map Prod.fst)

variable [DecidableEq Key]

def find? (registry : Registry Key Value) (key : Key) : Option Value :=
  (registry.entries.find? (·.1 = key)).map Prod.snd

/-- Adds an entry unless the key is taken, in which case the older entry stays. -/
def emplace (registry : Registry Key Value) (key : Key) (value : Value) : Registry Key Value :=
  if fresh : key ∈ registry.entries.map Prod.fst then registry
  else
    { entries := registry.entries ++ [(key, value)]
      nodup := by
        rw [List.map_append, List.map_singleton, ← List.concat_eq_append]
        exact registry.nodup.concat fresh }

def erase (registry : Registry Key Value) (key : Key) : Registry Key Value :=
  registry.restrict (· ≠ key)

def update (registry : Registry Key Value) (key : Key) (change : Value → Value) :
    Registry Key Value :=
  registry.replace (registry.entries.map fun entry =>
    if entry.1 = key then (entry.1, change entry.2) else entry) (by
      rw [List.map_map]
      apply List.map_congr_left
      intro entry _
      simp only [Function.comp_apply]
      split <;> rfl)

/-- A key selects the entry found under it and no other. -/
theorem entries_filter_key {registry : Registry Key Value} {key : Key} {value : Value}
    (found : registry.find? key = some value) :
    registry.entries.filter (·.1 = key) = [(key, value)] := by
  obtain ⟨entries, nodup⟩ := registry
  simp only [find?] at found ⊢
  induction entries with
  | nil => simp at found
  | cons entry entries ih =>
      simp only [List.map_cons, List.nodup_cons] at nodup
      by_cases same : entry.1 = key
      · simp only [List.find?_cons, same, decide_true, Option.map_some, Option.some.injEq] at found
        have others : entries.filter (·.1 = key) = [] := by
          apply List.filter_eq_nil_iff.mpr
          intro other member
          have different : other.1 ≠ entry.1 := fun equal =>
            nodup.1 (equal ▸ List.mem_map_of_mem member)
          simpa [same] using different
        rw [List.filter_cons_of_pos (by simpa using same), others, ← same, ← found]
      · rw [List.filter_cons_of_neg (by simpa using same)]
        exact ih nodup.2 (by simpa [List.find?_cons, same] using found)

theorem eq_of_mem {registry : Registry Key Value} {key : Key} {value : Value}
    (found : registry.find? key = some value) {entry : Key × Value}
    (member : entry ∈ registry.entries) (same : entry.1 = key) : entry = (key, value) := by
  have selected : entry ∈ registry.entries.filter (·.1 = key) :=
    List.mem_filter.mpr ⟨member, decide_eq_true same⟩
  rwa [entries_filter_key found, List.mem_singleton] at selected

theorem mem_of_find? {registry : Registry Key Value} {key : Key} {value : Value}
    (found : registry.find? key = some value) : (key, value) ∈ registry.entries := by
  have selected : (key, value) ∈ registry.entries.filter (·.1 = key) := by
    rw [entries_filter_key found]
    exact List.mem_singleton_self _
  exact (List.mem_filter.mp selected).1

theorem find?_of_mem {registry : Registry Key Value} {key : Key} {value : Value}
    (member : (key, value) ∈ registry.entries) : registry.find? key = some value := by
  cases found : registry.find? key with
  | some other => rw [(Prod.mk.inj (eq_of_mem found member rfl)).2]
  | none =>
      rw [find?, Option.map_eq_none_iff, List.find?_eq_none] at found
      exact absurd (decide_eq_true rfl) (found _ member)

theorem find?_restrict {registry : Registry Key Value} {keep : Key → Bool} {key : Key}
    {value : Value} (found : registry.find? key = some value) (kept : keep key = true) :
    (registry.restrict keep).find? key = some value :=
  find?_of_mem (List.mem_filter.mpr ⟨mem_of_find? found, kept⟩)

theorem emplace_entries (registry : Registry Key Value) (key : Key) (value : Value) :
    (registry.emplace key value).entries = registry.entries ∨
      (registry.emplace key value).entries = registry.entries ++ [(key, value)] := by
  unfold emplace
  split
  · exact .inl rfl
  · exact .inr rfl

theorem find?_eq_none_iff {registry : Registry Key Value} {key : Key} :
    registry.find? key = none ↔ key ∉ registry.entries.map Prod.fst := by
  rw [find?, Option.map_eq_none_iff, List.find?_eq_none, List.mem_map]
  apply Iff.intro
  · intro absent found
    obtain ⟨entry, member, same⟩ := found
    exact absent entry member (decide_eq_true same)
  · intro absent entry member same
    exact absent ⟨entry, member, of_decide_eq_true same⟩

theorem find?_emplace (registry : Registry Key Value) (key other : Key) (value : Value) :
    (registry.emplace key value).find? other =
      if other = key then some ((registry.find? key).getD value) else registry.find? other := by
  by_cases taken : key ∈ registry.entries.map Prod.fst
  · have kept : registry.emplace key value = registry := dif_pos taken
    rw [kept]
    split
    · rename_i same
      subst same
      cases found : registry.find? other with
      | none => exact absurd taken (find?_eq_none_iff.mp found)
      | some older => rfl
    · rfl
  · have added : (registry.emplace key value).entries = registry.entries ++ [(key, value)] := by
      rw [emplace, dif_neg taken]
    rw [find?_eq_none_iff.mpr taken, find?, added, List.find?_append]
    split
    · rename_i same
      subst same
      have absent := find?_eq_none_iff.mpr taken
      rw [find?, Option.map_eq_none_iff] at absent
      rw [absent]
      simp
    · rename_i different
      have elsewhere : [(key, value)].find? (·.1 = other) = none := by
        simpa using fun same : key = other => different same.symm
      rw [elsewhere, Option.or_none]
      rfl

theorem find?_erase (registry : Registry Key Value) (key other : Key) :
    (registry.erase key).find? other = if other = key then none else registry.find? other := by
  split
  · rename_i same
    subst same
    rw [find?_eq_none_iff]
    simp [erase, restrict]
  · rename_i different
    cases found : registry.find? other with
    | some value => exact find?_restrict found (by simpa using different)
    | none =>
        rw [find?_eq_none_iff] at found ⊢
        exact fun member => found ((List.filter_sublist.map Prod.fst).subset member)

/-- Changing the values under their keys changes what is found. -/
theorem find?_replace {registry : Registry Key Value} {entries : List (Key × Value)}
    (sameKeys : entries.map Prod.fst = registry.entries.map Prod.fst) (change : Key → Value → Value)
    (changed : ∀ entry ∈ registry.entries, (entry.1, change entry.1 entry.2) ∈ entries) (key : Key) :
    (registry.replace entries sameKeys).find? key = (registry.find? key).map (change key) := by
  cases found : registry.find? key with
  | some value => exact find?_of_mem (changed _ (mem_of_find? found))
  | none =>
      rw [find?_eq_none_iff] at found
      rw [Option.map_none, find?_eq_none_iff, replace, sameKeys]
      exact found

theorem find?_update (registry : Registry Key Value) (key other : Key) (change : Value → Value) :
    (registry.update key change).find? other =
      if other = key then (registry.find? other).map change else registry.find? other := by
  rw [update, find?_replace _ fun own value => if own = key then change value else value]
  · split <;> simp
  · intro entry member
    refine List.mem_map.mpr ⟨entry, member, ?_⟩
    split <;> rfl

theorem update_update (registry : Registry Key Value) (key : Key) (first second : Value → Value) :
    (registry.update key first).update key second =
      registry.update key fun value => second (first value) := by
  apply ext_entries
  simp only [update, replace, List.map_map]
  refine List.map_congr_left fun entry _ => ?_
  by_cases same : entry.1 = key <;> simp [same]

theorem update_congr {registry : Registry Key Value} {key : Key} {value : Value}
    (found : registry.find? key = some value) {first second : Value → Value}
    (same : first value = second value) : registry.update key first = registry.update key second := by
  apply ext_entries
  simp only [update, replace]
  refine List.map_congr_left fun entry member => ?_
  split
  · rename_i own
    obtain rfl := eq_of_mem found member own
    rw [same]
  · rfl

theorem forall_emplace {registry : Registry Key Value} {key : Key} {value : Value}
    {property : Key × Value → Prop} (every : ∀ entry ∈ registry.entries, property entry)
    (added : property (key, value)) : ∀ entry ∈ (registry.emplace key value).entries, property entry := by
  unfold emplace
  split
  · exact every
  · intro entry member
    rcases List.mem_append.mp member with older | new
    · exact every entry older
    · rw [List.mem_singleton.mp new]
      exact added

theorem forall_update {registry : Registry Key Value} {key : Key} {change : Value → Value}
    {property : Key × Value → Prop} (every : ∀ entry ∈ registry.entries, property entry)
    (changed : ∀ value, (key, value) ∈ registry.entries → property (key, change value)) :
    ∀ entry ∈ (registry.update key change).entries, property entry := by
  intro entry member
  obtain ⟨older, stored, rfl⟩ := List.mem_map.mp member
  by_cases same : older.1 = key
  · obtain ⟨own, value⟩ := older
    dsimp only at same
    subst same
    rw [if_pos rfl]
    exact changed value stored
  · rw [if_neg same]
    exact every older stored

end Registry

end RcControl.Data
