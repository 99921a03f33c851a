import RowFilter.Decimal.Layout

/-!
# RowFilter — JSON values

JSON values keep integers apart from floating-point numbers and the members of an object in order. A
name that is given again keeps its first place and takes the last value.

Main results:

* `insertMember_keys_of_mem`, `insertMember_keys_of_not_mem` — what an insertion does to the names.
* `nodup_keys_ofMembers` — the names of a collected object are distinct.
* `ofMembers_of_nodup` — members whose names are distinct are collected as they are.
* `member?_of_mem` — a member is found by its name.
-/

namespace RowFilter

/-- A JSON value. -/
inductive Json
  | null
  | bool (b : Bool)
  | int (i : Int)
  | float (x : Binary64)
  | string (s : String)
  | array (items : List Json)
  | object (members : List (String × Json))
deriving Repr, Inhabited

namespace Json

variable {α : Type}

/-- Replaces the value of a name in place, or adds the name at the end. -/
def insertMember (key : String) (value : α) : List (String × α) → List (String × α)
  | [] => [(key, value)]
  | (k, v) :: rest => if k = key then (k, value) :: rest else (k, v) :: insertMember key value rest

theorem insertMember_keys_of_mem {key : String} {value : α} {ms : List (String × α)}
    (h : key ∈ ms.map Prod.fst) : (insertMember key value ms).map Prod.fst = ms.map Prod.fst := by
  induction ms with
  | nil => simp at h
  | cons m rest ih =>
    obtain ⟨k, v⟩ := m
    by_cases hk : k = key
    · simp [insertMember, hk]
    · have : key ∈ rest.map Prod.fst := by
        simp only [List.map_cons, List.mem_cons] at h
        exact h.resolve_left (fun e => hk e.symm)
      simp [insertMember, hk, ih this]

theorem insertMember_of_not_mem {key : String} {value : α} {ms : List (String × α)}
    (h : key ∉ ms.map Prod.fst) : insertMember key value ms = ms ++ [(key, value)] := by
  induction ms with
  | nil => rfl
  | cons m rest ih =>
    obtain ⟨k, v⟩ := m
    rw [List.map_cons, List.mem_cons, not_or] at h
    rw [insertMember, if_neg (Ne.symm h.1), ih h.2, List.cons_append]

theorem insertMember_keys_of_not_mem {key : String} {value : α} {ms : List (String × α)}
    (h : key ∉ ms.map Prod.fst) :
    (insertMember key value ms).map Prod.fst = ms.map Prod.fst ++ [key] := by
  rw [insertMember_of_not_mem h, List.map_append]
  rfl

/-- Collects members in source order. -/
def ofMembers (ms : List (String × α)) : List (String × α) :=
  ms.foldl (fun acc m => insertMember m.1 m.2 acc) []

theorem nodup_keys_foldl (ms acc : List (String × α)) (h : (acc.map Prod.fst).Nodup) :
    ((ms.foldl (fun acc m => insertMember m.1 m.2 acc) acc).map Prod.fst).Nodup := by
  induction ms generalizing acc with
  | nil => exact h
  | cons m rest ih =>
    refine ih _ ?_
    by_cases hm : m.1 ∈ acc.map Prod.fst
    · rw [insertMember_keys_of_mem hm]
      exact h
    · rw [insertMember_keys_of_not_mem hm, List.nodup_append]
      refine ⟨h, by simp, ?_⟩
      intro a ha b hb e
      simp only [List.mem_singleton] at hb
      exact hm (hb ▸ e ▸ ha)

theorem nodup_keys_ofMembers (ms : List (String × α)) : ((ofMembers ms).map Prod.fst).Nodup :=
  nodup_keys_foldl ms [] List.nodup_nil

theorem foldl_insertMember {ms acc : List (String × α)} (h : ((acc ++ ms).map Prod.fst).Nodup) :
    ms.foldl (fun acc m => insertMember m.1 m.2 acc) acc = acc ++ ms := by
  induction ms generalizing acc with
  | nil => exact (List.append_nil acc).symm
  | cons m rest ih =>
    have hm : m.1 ∉ acc.map Prod.fst := by
      intro hm
      rw [List.map_append, List.nodup_append] at h
      exact h.2.2 m.1 hm m.1 List.mem_cons_self rfl
    rw [List.append_cons] at h ⊢
    rw [List.foldl_cons, insertMember_of_not_mem hm]
    exact ih h

/-- Members with distinct names stay as they are. -/
theorem ofMembers_of_nodup {ms : List (String × α)} (h : (ms.map Prod.fst).Nodup) :
    ofMembers ms = ms :=
  foldl_insertMember h

/-- The value of a name. -/
def member? (key : String) : List (String × α) → Option α
  | [] => none
  | (k, v) :: rest => if k = key then some v else member? key rest

theorem member?_of_not_mem {key : String} {ms : List (String × α)} (h : key ∉ ms.map Prod.fst) :
    member? key ms = none := by
  induction ms with
  | nil => rfl
  | cons m rest ih =>
    obtain ⟨k, v⟩ := m
    rw [List.map_cons, List.mem_cons, not_or] at h
    rw [member?, if_neg (Ne.symm h.1)]
    exact ih h.2

theorem member?_of_mem {key : String} {value : α} {ms : List (String × α)} (h : (key, value) ∈ ms)
    (hnodup : (ms.map Prod.fst).Nodup) : member? key ms = some value := by
  induction ms with
  | nil => cases h
  | cons m rest ih =>
    obtain ⟨k, v⟩ := m
    rw [List.map_cons, List.nodup_cons] at hnodup
    rw [member?]
    rcases List.mem_cons.1 h with heq | h
    · cases heq
      rw [if_pos rfl]
    · -- the first name is another one, since no name comes twice
      have hk : k ≠ key := by
        rintro rfl
        exact hnodup.1 (List.mem_map.2 ⟨_, h, rfl⟩)
      rw [if_neg hk]
      exact ih h hnodup.2

end Json

end RowFilter
