import Mathlib.Data.List.Nodup

/-!
# Lists with a key

A list of entries that are found by a key: the first entry with the key is the one that
is read, changed or removed.  The keys stay distinct as long as an entry is only added
for a key that is not found.
-/

namespace RedshiftOdbc.Keyed

variable {α κ : Type} [DecidableEq κ] (key : α → κ)

def find (k : κ) (entries : List α) : Option α := entries.find? fun entry => key entry = k

def remove (k : κ) (entries : List α) : List α := entries.eraseP fun entry => key entry = k

/-- The list with the first entry with a key changed. -/
def modify (k : κ) (change : α → α) : List α → List α
  | [] => []
  | entry :: entries =>
      if key entry = k then change entry :: entries else entry :: modify k change entries

variable {key} {k : κ} {change : α → α} {entries : List α} {entry : α}

theorem find_none_iff : find key k entries = none ↔ k ∉ entries.map key := by
  simp only [find, List.find?_eq_none, decide_eq_true_eq, List.mem_map, not_exists, not_and]

/-! ## Keys -/

theorem map_modify (keeps : ∀ entry, key entry = k → key (change entry) = k) :
    (modify key k change entries).map key = entries.map key := by
  induction entries with
  | nil => rfl
  | cons first rest ih =>
      rw [modify]
      split_ifs with same
      · rw [List.map_cons, List.map_cons, keeps first same, same]
      · rw [List.map_cons, List.map_cons, ih]

/-- An entry that was added at the end is the one that is changed. -/
theorem modify_concat (missing : find key k entries = none) (same : key entry = k) :
    modify key k change (entries ++ [entry]) = entries ++ [change entry] := by
  induction entries with
  | nil => rw [List.nil_append, modify, if_pos same]; rfl
  | cons first rest ih =>
      rw [find_none_iff, List.map_cons, List.mem_cons, not_or] at missing
      rw [List.cons_append, modify, if_neg (Ne.symm missing.1), ih (find_none_iff.mpr missing.2)]
      rfl

theorem map_remove : (remove key k entries).map key = (entries.map key).erase k := by
  induction entries with
  | nil => rfl
  | cons first rest ih =>
      rw [remove, List.eraseP_cons, List.map_cons, List.erase_cons]
      by_cases same : key first = k
      · simp [same]
      · rw [remove] at ih
        simpa [same] using ih

/-- A key that is not there removes nothing. -/
theorem remove_of_find_none (missing : find key k entries = none) :
    remove key k entries = entries :=
  List.eraseP_of_forall_not (by simpa [find, List.find?_eq_none] using missing)

/-! ## Reading behind a change -/

variable {other : κ}

theorem find_modify (keeps : ∀ entry, key entry = k → key (change entry) = k) :
    find key other (modify key k change entries) =
      if other = k then (find key k entries).map change else find key other entries := by
  induction entries with
  | nil => simp [find, modify]
  | cons first rest ih =>
      rw [find] at ih
      rw [find, find, find, modify]
      by_cases same : key first = k
      · by_cases asked : other = k
        · simp [same, asked, keeps first same]
        · simp [same, keeps first same, asked, Ne.symm asked]
      · by_cases here : key first = other
        · have apart : other ≠ k := here ▸ same
          simp [here, apart]
        · rw [if_neg same, List.find?_cons, List.find?_cons, List.find?_cons]
          simpa [here, same, find] using ih

/-- With distinct keys nothing is found for the key that was removed. -/
theorem find_remove (unique : (entries.map key).Nodup) :
    find key other (remove key k entries) =
      if other = k then none else find key other entries := by
  induction entries with
  | nil => simp [find, remove]
  | cons first rest ih =>
      obtain ⟨missing, unique⟩ := List.nodup_cons.mp unique
      rw [remove, List.eraseP_cons]
      by_cases same : key first = k
      · rw [decide_eq_true same, cond_true]
        by_cases asked : other = k
        · rw [if_pos asked, find_none_iff, asked, ← same]
          exact missing
        · have apart : key first ≠ other := fun here => asked (here.symm.trans same)
          rw [if_neg asked, find, find, List.find?_cons_of_neg (by simpa using apart)]
      · have later := ih unique
        rw [remove, find, find] at later
        rw [decide_eq_false same, cond_false, find, find, List.find?_cons, List.find?_cons]
        by_cases here : key first = other
        · have apart : other ≠ k := here ▸ same
          simp [here, apart]
        · simpa [here] using later

theorem find_cons_of_ne (apart : key entry ≠ other) :
    find key other (entry :: entries) = find key other entries :=
  List.find?_cons_of_neg (by simpa using apart)

theorem find_concat (missing : find key k entries = none) (same : key entry = k) :
    find key other (entries ++ [entry]) =
      if other = k then some entry else find key other entries := by
  rw [find, List.find?_append]
  by_cases asked : other = k
  · rw [find] at missing
    simp [asked, missing, same]
  · have apart : key entry ≠ other := fun here => asked (here.symm.trans same)
    simp [asked, apart, find]

theorem find_filter (p : κ → Bool) :
    find key other (entries.filter fun entry => p (key entry)) =
      if p other then find key other entries else none := by
  induction entries with
  | nil => simp [find]
  | cons first rest ih =>
      rw [find, find] at ih ⊢
      by_cases here : key first = other
      · cases admitted : p other with
        | true => simp [here, admitted]
        | false => simpa [here, admitted] using ih
      · cases p (key first) <;> simpa [here] using ih

/-- A change of all entries that leaves their keys. -/
theorem find_map (keeps : ∀ entry, key (change entry) = key entry) :
    find key other (entries.map change) = (find key other entries).map change := by
  rw [find, find, List.find?_map]
  congr 2
  funext entry
  simp [keeps]

/-! ## Counting -/

variable (p : α → Bool)

/-- A change counts the new entry in place of the old one. -/
theorem countP_modify (found : find key k entries = some entry) :
    (modify key k change entries).countP p + (p entry).toNat =
      entries.countP p + (p (change entry)).toNat := by
  induction entries with
  | nil => cases found
  | cons first rest ih =>
      rw [find, List.find?_cons] at found
      rw [modify]
      by_cases same : key first = k
      · rw [decide_eq_true same] at found
        obtain rfl := Option.some.inj found
        rw [if_pos same, List.countP_cons, List.countP_cons]
        cases p first <;> cases p (change first) <;> simp [Nat.add_comm, Nat.add_left_comm]
      · rw [decide_eq_false same] at found
        rw [if_neg same, List.countP_cons, List.countP_cons]
        have rest := ih found
        omega

/-- A removal uncounts the entry. -/
theorem countP_remove (found : find key k entries = some entry) :
    (remove key k entries).countP p + (p entry).toNat = entries.countP p := by
  induction entries with
  | nil => cases found
  | cons first rest ih =>
      rw [find, List.find?_cons] at found
      rw [remove, List.eraseP_cons]
      by_cases same : key first = k
      · rw [decide_eq_true same] at found
        obtain rfl := Option.some.inj found
        rw [decide_eq_true same, cond_true, List.countP_cons]
        cases p first <;> simp
      · rw [decide_eq_false same] at found
        rw [decide_eq_false same, cond_false, List.countP_cons, List.countP_cons]
        have rest := ih found
        rw [remove] at rest
        omega

end RedshiftOdbc.Keyed
