/-!
# RowFilter — keyed stores

A store holds at most one value under each key. Inserting under a key that is taken replaces the value.

Main results:

* `Store.find?_insert_self`, `Store.find?_insert_of_ne` — what a look-up sees after an insertion.
* `Store.find?_erase_self`, `Store.find?_erase_of_ne` — what a look-up sees after a removal.
* `Store.mem_of_find?_ofList` — a look-up among collected entries finds one of them.
-/

namespace RowFilter

/-- Values under keys. -/
structure Store (κ α : Type) where
  entries : List (κ × α)
deriving Repr, Inhabited

namespace Store

variable {κ α : Type} [DecidableEq κ]

/-- Nothing is stored. -/
def empty : Store κ α := ⟨[]⟩

/-- The value under a key. -/
def find? (s : Store κ α) (key : κ) : Option α :=
  (s.entries.find? fun e => e.1 = key).map Prod.snd

/-- Removes a key. -/
def erase (s : Store κ α) (key : κ) : Store κ α := ⟨s.entries.filter fun e => e.1 ≠ key⟩

/-- Stores a value under a key, in place of an older one. -/
def insert (s : Store κ α) (key : κ) (value : α) : Store κ α :=
  ⟨(s.erase key).entries ++ [(key, value)]⟩

/-- Is a value stored under the key? -/
def contains (s : Store κ α) (key : κ) : Bool := (s.find? key).isSome

/-- The keys. -/
def keys (s : Store κ α) : List κ := s.entries.map Prod.fst

/-- Number of keys. -/
def size (s : Store κ α) : Nat := s.entries.length

/-- Collects entries; of two with one key the later one stays. -/
def ofList (entries : List (κ × α)) : Store κ α :=
  entries.foldl (fun s e => s.insert e.1 e.2) empty

theorem find?_erase_self (s : Store κ α) (key : κ) : (s.erase key).find? key = none := by
  simp [find?, erase, List.find?_eq_none]

theorem find?_erase_of_ne (s : Store κ α) {key other : κ} (h : other ≠ key) :
    (s.erase key).find? other = s.find? other := by
  simp only [find?, erase, List.find?_filter]
  congr 2
  funext e
  by_cases he : e.1 = other
  · simp [he, h]
  · simp [he]

@[simp] theorem find?_insert_self (s : Store κ α) (key : κ) (value : α) :
    (s.insert key value).find? key = some value := by
  have h : (s.erase key).entries.find? (fun e => decide (e.1 = key)) = none := by
    simp [erase, List.find?_eq_none]
  simp [find?, insert, h]

theorem find?_insert_of_ne (s : Store κ α) {key other : κ} (value : α) (h : other ≠ key) :
    (s.insert key value).find? other = s.find? other := by
  have e := find?_erase_of_ne s h
  simp only [find?] at e ⊢
  have hk : decide (key = other) = false := by simp [Ne.symm h]
  simp only [insert, List.find?_append, List.find?_cons, hk, List.find?_nil, Option.or_none]
  exact e

theorem find?_erase (s : Store κ α) (key other : κ) :
    (s.erase key).find? other = if key = other then none else s.find? other := by
  split
  case isTrue h => rw [h, find?_erase_self]
  case isFalse h => rw [find?_erase_of_ne s (Ne.symm h)]

theorem find?_insert (s : Store κ α) (key other : κ) (value : α) :
    (s.insert key value).find? other = if key = other then some value else s.find? other := by
  split
  case isTrue h => rw [h, find?_insert_self]
  case isFalse h => rw [find?_insert_of_ne s value (Ne.symm h)]

theorem contains_eq_false_iff {s : Store κ α} {key : κ} :
    s.contains key = false ↔ ∀ e ∈ s.entries, e.1 ≠ key := by
  simp [contains, find?]

/-- A new key stands behind the others. -/
theorem insert_of_contains_eq_false {s : Store κ α} {key : κ} (h : s.contains key = false) (value : α) :
    s.insert key value = ⟨s.entries ++ [(key, value)]⟩ := by
  have hfilter : s.entries.filter (fun e => e.1 ≠ key) = s.entries := by
    refine List.filter_eq_self.2 fun e he => ?_
    simpa using contains_eq_false_iff.1 h e he
  rw [insert, erase, hfilter]

theorem mem_of_find?_foldl {entries : List (κ × α)} {s : Store κ α} {key : κ} {value : α}
    (h : (entries.foldl (fun s e => s.insert e.1 e.2) s).find? key = some value) :
    (key, value) ∈ entries ∨ s.find? key = some value := by
  induction entries generalizing s with
  | nil => exact .inr h
  | cons e entries ih =>
    rcases ih h with hmem | hfirst
    · exact .inl (List.mem_cons_of_mem _ hmem)
    · by_cases hkey : key = e.1
      · rw [hkey, find?_insert_self] at hfirst
        cases hfirst
        rw [hkey]
        exact .inl List.mem_cons_self
      · rw [find?_insert_of_ne s e.2 hkey] at hfirst
        exact .inr hfirst

/-- What is found among collected entries is one of them. -/
theorem mem_of_find?_ofList {entries : List (κ × α)} {key : κ} {value : α}
    (h : (ofList entries).find? key = some value) : (key, value) ∈ entries := by
  rcases mem_of_find?_foldl h with hmem | hempty
  · exact hmem
  · cases hempty

end Store

end RowFilter
