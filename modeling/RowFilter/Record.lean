import RowFilter.Json.Basic

/-!
# RowFilter — records

A record has values under distinct names, and keeps the order in which they were given. A value can be
taken out of it; then the last member of the record moves to the place that has become free, so the others
do not keep their order.

Main results:

* `Record.closeGap_perm` — the others are all left when an element is taken out of a list.
* `Record.remove_fst` — what is taken out of a record is its value under the name.
* `Record.member?_remove_of_ne` — the other values stay.
-/

namespace RowFilter

/-- Values under distinct names, in their order. -/
structure Record where
  members : List (String × Json)
  nodup : (members.map Prod.fst).Nodup
deriving Repr

namespace Record

/-- Collects members; of two with one name the later value stays. -/
def ofMembers (ms : List (String × Json)) : Record := ⟨Json.ofMembers ms, Json.nodup_keys_ofMembers ms⟩

theorem ofMembers_members (r : Record) : ofMembers r.members = r := by
  cases r with
  | mk members nodup => simp only [ofMembers, Json.ofMembers_of_nodup nodup]

/-- The names, in their order. -/
def names (r : Record) : List String := r.members.map Prod.fst

/-- The value under a name. -/
def member? (r : Record) (name : String) : Option Json := Json.member? name r.members

/-- The record in JSON. -/
def toJson (r : Record) : Json := .object r.members

theorem member?_eq_some_iff {r : Record} {name : String} {v : Json} :
    r.member? name = some v ↔ (name, v) ∈ r.members := by
  constructor
  · intro h
    by_cases hname : name ∈ r.members.map Prod.fst
    · obtain ⟨⟨_, w⟩, hw, rfl⟩ := List.mem_map.1 hname
      have hmember : r.member? _ = some w := Json.member?_of_mem hw r.nodup
      rw [hmember] at h
      cases h
      exact hw
    · rw [member?, Json.member?_of_not_mem hname] at h
      cases h
  · intro h
    exact Json.member?_of_mem h r.nodup

/-! ## Taking values out -/

/-- What is left of a list when an element between two parts is taken out: the last one moves to its
place. -/
def closeGap {α : Type} (front behind : List α) : List α :=
  match behind.getLast? with
  | some last => front ++ last :: behind.dropLast
  | none => front

theorem closeGap_perm {α : Type} (front behind : List α) :
    (closeGap front behind).Perm (front ++ behind) := by
  unfold closeGap
  cases hlast : behind.getLast? with
  | none =>
    rw [List.getLast?_eq_none_iff.1 hlast, List.append_nil]
  | some last =>
    obtain ⟨init, rfl⟩ := List.getLast?_eq_some_iff.1 hlast
    simp only [List.dropLast_concat]
    exact (List.perm_append_singleton last init).symm.append_left front

/-- Is the member under another name? -/
def isOther (name : String) (m : String × Json) : Bool := m.1 ≠ name

theorem nodup_closeGap {ms front behind : List (String × Json)} {m : String × Json}
    (h : (ms.map Prod.fst).Nodup) (hms : ms = front ++ m :: behind) :
    ((closeGap front behind).map Prod.fst).Nodup := by
  rw [((closeGap_perm front behind).map Prod.fst).nodup_iff]
  rw [hms] at h
  exact h.sublist (((List.sublist_cons_self m behind).append_left front).map Prod.fst)

theorem eq_append_of_dropWhile {α : Type} {p : α → Bool} {xs behind : List α} {x : α}
    (h : xs.dropWhile p = x :: behind) : xs = xs.takeWhile p ++ x :: behind := by
  rw [← h, List.takeWhile_append_dropWhile]

/-- Takes the value under a name out of a record. -/
def remove (name : String) : StateM Record (Option Json) := fun r =>
  match h : r.members.dropWhile (isOther name) with
  | m :: behind =>
    (some m.2, ⟨closeGap (r.members.takeWhile (isOther name)) behind,
      nodup_closeGap r.nodup (eq_append_of_dropWhile h)⟩)
  | [] => (none, r)

/-- The record lacks the name and stays as it is, or a member under the name is taken out of it. -/
theorem remove_cases (name : String) (r : Record) :
    name ∉ r.names ∧ remove name r = (none, r) ∨
    ∃ v front behind, r.members = front ++ (name, v) :: behind ∧ (remove name r).1 = some v ∧
      (remove name r).2.members = closeGap front behind := by
  unfold remove
  split
  · rename_i m behind h
    obtain ⟨key, v⟩ := m
    have hkey : key = name := by
      have hhead := List.head?_dropWhile_not (isOther name) r.members
      rw [h] at hhead
      simpa [isOther] using hhead
    subst hkey
    exact .inr ⟨v, _, behind, eq_append_of_dropWhile h, rfl, rfl⟩
  · rename_i h
    refine .inl ⟨fun hname => ?_, rfl⟩
    obtain ⟨m, hm, rfl⟩ := List.mem_map.1 hname
    have hall := List.all_takeWhile (p := isOther m.1) (l := r.members)
    rw [← List.takeWhile_append_dropWhile (p := isOther m.1) (l := r.members), h, List.append_nil] at hm
    simpa [isOther] using List.all_eq_true.1 hall m hm

theorem remove_fst (name : String) (r : Record) : (remove name r).1 = r.member? name := by
  rcases remove_cases name r with ⟨hname, heq⟩ | ⟨v, front, behind, hmembers, hv, _⟩
  · rw [heq, member?, Json.member?_of_not_mem hname]
  · rw [hv, eq_comm, member?_eq_some_iff, hmembers]
    exact List.mem_append_right _ List.mem_cons_self

theorem member?_remove_of_ne {name other : String} (h : other ≠ name) (r : Record) :
    (remove name r).2.member? other = r.member? other := by
  rcases remove_cases name r with ⟨_, heq⟩ | ⟨v, front, behind, hmembers, _, hrest⟩
  · rw [heq]
  · refine Option.ext fun w => ?_
    rw [member?_eq_some_iff, member?_eq_some_iff, hrest, (closeGap_perm front behind).mem_iff, hmembers]
    simp [h]

end Record

end RowFilter
