import Mathlib.Data.List.Nodup

/-!
# Lists as Finite Maps

A list whose entries carry a key, with no key twice, represents a finite map from keys to
entries. This module gives the two operations such lists are updated by, dropping the
entry of a key and appending an entry with a new one, and says what each does to the map.

## Main results

* `Unique.erase`, `Unique.append`: the operations keep the keys different.
* `lookup_erase`, `lookup_append`: **the operations on the map**.
* `forall_mem_erase_iff`: when dropping an entry keeps the entries.
* `mem_iff_lookup`: the entries of the list are the values of the map.
-/

set_option autoImplicit false

namespace Keyed

variable {α κ : Type*} [DecidableEq κ] (key : α → κ)

/-- The entry with the key `k`, the first one if there are several. -/
def lookup (l : List α) (k : κ) : Option α :=
  l.find? fun e => decide (key e = k)

/-- Drop the first entry with the key `k`. -/
def erase (k : κ) (l : List α) : List α :=
  l.eraseP fun e => decide (key e = k)

/-- No key occurs twice. -/
def Unique (l : List α) : Prop :=
  (l.map key).Nodup

variable {key} {l : List α}

/-- Nothing is found in the empty list. -/
@[simp] theorem lookup_nil (k : κ) : lookup key [] k = none := rfl

/-- The head is found if its key is the one looked for. -/
theorem lookup_cons (e : α) (k : κ) :
    lookup key (e :: l) k = if key e = k then some e else lookup key l k := by
  rw [lookup, List.find?_cons]
  by_cases h : key e = k
  · simp [h]
  · simp [h, lookup]

/-- The head is erased if its key is the one given. -/
theorem erase_cons (e : α) (k : κ) :
    erase key k (e :: l) = if key e = k then l else e :: erase key k l := by
  rw [erase, List.eraseP_cons]
  by_cases h : key e = k
  · simp [h]
  · simp [h, erase]

/-- A key is not found when no entry has it. -/
theorem lookup_eq_none {k : κ} : lookup key l k = none ↔ k ∉ l.map key := by
  simp [lookup]

/-- A key is found when some entry has it. -/
theorem lookup_ne_none {k : κ} : lookup key l k ≠ none ↔ k ∈ l.map key := by
  rw [Ne, lookup_eq_none, not_not]

/-- What is found under a key is an entry with this key. -/
theorem of_lookup_eq_some {k : κ} {e : α} (h : lookup key l k = some e) :
    e ∈ l ∧ key e = k :=
  ⟨List.mem_of_find?_eq_some h, by simpa using List.find?_some h⟩

omit [DecidableEq κ] in
/-- The empty list has no key twice. -/
theorem unique_nil : Unique key ([] : List α) := List.nodup_nil

omit [DecidableEq κ] in
/-- The keys of a list are unique if that of the head is new and those of the tail are. -/
theorem unique_cons {e : α} : Unique key (e :: l) ↔ key e ∉ l.map key ∧ Unique key l := by
  rw [Unique, List.map_cons, List.nodup_cons, Unique]

/-- The entries are the values of the map. -/
theorem mem_iff_lookup (hl : Unique key l) {e : α} : e ∈ l ↔ lookup key l (key e) = some e := by
  refine ⟨fun he => ?_, fun h => (of_lookup_eq_some h).1⟩
  induction l with
  | nil => simp at he
  | cons x l ih =>
      obtain ⟨hx, hl⟩ := unique_cons.mp hl
      rw [lookup_cons]
      rcases List.mem_cons.mp he with rfl | he
      · rw [if_pos rfl]
      · have hne : key x ≠ key e := fun heq => hx (heq ▸ List.mem_map_of_mem he)
        rw [if_neg hne, ih hl he]

/-! ### Dropping an entry -/

/-- Erasing an entry keeps the keys unique. -/
theorem Unique.erase (hl : Unique key l) (k : κ) : Unique key (erase key k l) :=
  List.Nodup.sublist (List.eraseP_sublist.map key) hl

/-- Dropping the entry of a key removes the key from the map. -/
theorem lookup_erase (hl : Unique key l) (k j : κ) :
    lookup key (Keyed.erase key k l) j = if j = k then none else lookup key l j := by
  induction l with
  | nil => simp [Keyed.erase]
  | cons x l ih =>
      obtain ⟨hx, hl⟩ := unique_cons.mp hl
      rw [erase_cons]
      by_cases hk : key x = k
      · rw [if_pos hk, lookup_cons, hk]
        by_cases hj : j = k
        · rw [if_pos hj, hj]
          exact lookup_eq_none.mpr (hk ▸ hx)
        · rw [if_neg hj, if_neg (Ne.symm hj)]
      · rw [if_neg hk, lookup_cons, lookup_cons, ih hl]
        by_cases hj : j = k
        · rw [if_pos hj, if_pos hj, if_neg (hj ▸ hk)]
        · rw [if_neg hj, if_neg hj]

/-- The entry that is found under a key is the one that is dropped. -/
theorem exists_of_lookup_eq_some {k : κ} {e : α} (h : lookup key l k = some e) :
    ∃ pre post, l = pre ++ e :: post ∧ Keyed.erase key k l = pre ++ post := by
  induction l with
  | nil => simp at h
  | cons x l ih =>
      rw [lookup_cons] at h
      rw [erase_cons]
      by_cases hk : key x = k
      · rw [if_pos hk] at h ⊢
        obtain rfl := Option.some.inj h
        exact ⟨[], l, rfl, rfl⟩
      · rw [if_neg hk] at h ⊢
        obtain ⟨pre, post, hl, herase⟩ := ih h
        exact ⟨x :: pre, post, by rw [hl, List.cons_append], by rw [herase, List.cons_append]⟩

/-- Dropping an entry keeps the entries exactly when the one that is found occurs once
more. -/
theorem forall_mem_erase_iff [DecidableEq α] {k : κ} {e : α} (h : lookup key l k = some e) :
    (∀ x, x ∈ Keyed.erase key k l ↔ x ∈ l) ↔ l.count e ≠ 1 := by
  obtain ⟨pre, post, rfl, herase⟩ := exists_of_lookup_eq_some h
  have hcount : (pre ++ e :: post).count e = (pre ++ post).count e + 1 := by
    rw [List.count_append, List.count_cons_self, List.count_append, Nat.add_assoc]
  have hmem : e ∈ pre ++ post ↔ (pre ++ e :: post).count e ≠ 1 := by
    rw [← List.count_pos_iff, hcount]
    omega
  rw [herase, ← hmem]
  constructor
  · intro hall
    exact (hall e).mpr (by simp)
  · intro he x
    rw [List.mem_append, List.mem_append, List.mem_cons]
    rw [List.mem_append] at he
    constructor
    · rintro (hx | hx)
      · exact Or.inl hx
      · exact Or.inr (Or.inr hx)
    · rintro (hx | rfl | hx)
      · exact Or.inl hx
      · exact he
      · exact Or.inr hx

/-! ### Appending an entry -/

/-- A new key at the end keeps the keys unique. -/
theorem Unique.append (hl : Unique key l) {e : α} (he : lookup key l (key e) = none) :
    Unique key (l ++ [e]) := by
  have hdisjoint : List.Disjoint (l.map key) [key e] := by
    simpa using lookup_eq_none.mp he
  rw [Unique, List.map_append]
  exact List.Nodup.append hl (List.nodup_singleton _) hdisjoint

/-- Appending an entry with a new key adds it to the map. -/
theorem lookup_append {e : α} (he : lookup key l (key e) = none) (j : κ) :
    lookup key (l ++ [e]) j = if j = key e then some e else lookup key l j := by
  have hsplit : lookup key (l ++ [e]) j = (lookup key l j).or (lookup key [e] j) :=
    List.find?_append
  rw [hsplit, lookup_cons, lookup_nil]
  by_cases hj : j = key e
  · rw [if_pos hj, if_pos hj.symm, hj, he, Option.none_or]
  · rw [if_neg hj, if_neg (Ne.symm hj), Option.or_none]

end Keyed
