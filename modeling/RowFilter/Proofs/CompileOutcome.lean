import RowFilter.Proofs.ErrorKinds

/-!
# RowFilter — the outcome of compiling

Whether a query compiles, and with which error it does not, is settled clause by clause. A clause is at
fault in itself, or it lacks the list that it asks for; the first clause at fault is reported, and only a
query without any fault has its lists looked up, where again the first clause without its list is
reported. The lists that are looked up are kept under the name and the type they were asked for with, and
the last pass finds each of them there.

Main results:

* `Compile.checkClause_eq_error_iff` — the fault of a clause, by its column, its operator and its range.
* `Compile.Backed.resolveClause`, `Compile.resolveFrom_eq_error_iff` — what a look-up keeps, one clause
  after the other.
* `Compile.exists_build` — the last pass does not fail.
* `Compile.verdict` — the outcome of the three passes.
* `compile_outcome_determined` — the outcome in terms of the clauses and of the lists of the user.
-/

namespace RowFilter

/-! ## The first of several -/

section First

variable {α β ε : Type} {p : α → Prop} {x y : α} {xs : List α}

/-- The first of some values with a property. -/
inductive IsFirst (p : α → Prop) : List α → α → Prop
  | head {x : α} {xs : List α} (here : p x) : IsFirst p (x :: xs) x
  | tail {x y : α} {xs : List α} (not_here : ¬ p x) (behind : IsFirst p xs y) :
    IsFirst p (x :: xs) y

namespace IsFirst

theorem holds (h : IsFirst p xs x) : p x := by
  induction h with
  | head here => exact here
  | tail _ _ ih => exact ih

theorem mem (h : IsFirst p xs x) : x ∈ xs := by
  induction h with
  | head => exact List.mem_cons_self
  | tail _ _ ih => exact List.mem_cons_of_mem _ ih

theorem unique (h : IsFirst p xs x) (h' : IsFirst p xs y) : x = y := by
  induction h with
  | head here =>
    cases h' with
    | head => rfl
    | tail not_here => exact absurd here not_here
  | tail not_here _ ih =>
    cases h' with
    | head here => exact absurd here not_here
    | tail _ behind => exact ih behind

end IsFirst

theorem isFirst_cons_iff {z : α} : IsFirst p (z :: xs) x ↔ (p z ∧ x = z) ∨ (¬ p z ∧ IsFirst p xs x) := by
  constructor
  · intro h
    cases h with
    | head here => exact .inl ⟨here, rfl⟩
    | tail not_here behind => exact .inr ⟨not_here, behind⟩
  · rintro (⟨here, rfl⟩ | ⟨not_here, behind⟩)
    · exact .head here
    · exact .tail not_here behind

/-- If some values have a property, one of them is the first. -/
theorem exists_isFirst (hx : x ∈ xs) (h : p x) : ∃ y, IsFirst p xs y := by
  induction xs with
  | nil => cases hx
  | cons z zs ih =>
    by_cases hz : p z
    · exact ⟨z, .head hz⟩
    · rcases List.mem_cons.1 hx with rfl | hx
      · exact absurd h hz
      · obtain ⟨y, hy⟩ := ih hx
        exact ⟨y, .tail hz hy⟩

/-- A sequence fails with the error of the first part that fails. -/
theorem isFirst_of_mapM_eq_error {f : α → Except ε β} {err : ε} (h : xs.mapM f = .error err) :
    ∃ x, IsFirst (fun x => ∃ err, f x = .error err) xs x ∧ f x = .error err := by
  induction xs with
  | nil => cases h
  | cons x xs ih =>
    rw [List.mapM_cons] at h
    rcases bind_eq_error h with hx | ⟨b, hb, h⟩
    · exact ⟨x, .head ⟨err, hx⟩, hx⟩
    · -- the first part went through, so the error is one of the parts behind it
      have hok : ¬ ∃ err, f x = .error err := by
        rintro ⟨err', herr'⟩
        rw [hb] at herr'
        cases herr'
      rcases bind_eq_error h with hxs | ⟨bs, _, h⟩
      · obtain ⟨y, hy, herr⟩ := ih hxs
        exact ⟨y, .tail hok hy, herr⟩
      · cases h

theorem exists_mapM_eq_ok {f : α → Except ε β} (h : ∀ x ∈ xs, ∃ b, f x = .ok b) :
    ∃ bs, xs.mapM f = .ok bs := by
  cases hxs : xs.mapM f with
  | ok bs => exact ⟨bs, rfl⟩
  | error err =>
    obtain ⟨x, hx, herr⟩ := exists_of_mapM_eq_error hxs
    obtain ⟨b, hb⟩ := h x hx
    rw [hb] at herr
    cases herr

end First

namespace Compile

open Query (Clause)
open Literal (NamedLists unquote)

variable {schema : Schema} {lists : NamedLists} {user : String} {c : Clause} {e : FilterError}

/-! ## Faults of a clause -/

/-- What is wrong with a clause in itself: its column, or else its operator, or else the number of its
bounds. -/
inductive Fault (schema : Schema) (c : Clause) : FilterError → Prop
  | column (absent : schema.find? c.column = none) : Fault schema c (.unknownColumn c.column c.offset)
  | operator {type : LogicalType} (found : schema.find? c.column = some type)
    (unsupported : c.operator.supports type = false) :
    Fault schema c (.unsupportedOperator c.operator c.column type)
  | bounds {type : LogicalType} (found : schema.find? c.column = some type)
    (supported : c.operator.supports type = true)
    (ranged : c.operator = .between ∨ c.operator = .notBetween)
    (count : (Literal.elements (rawOf c)).length ≠ 2) :
    Fault schema c (.betweenCount (String.ofList (rawOf c)) (Literal.elements (rawOf c)).length)

/-- A clause with nothing wrong in itself. -/
def IsSound (schema : Schema) (c : Clause) : Prop := ∀ err, ¬ Fault schema c err

/-- The error of the first clause at fault. -/
def FirstFault (schema : Schema) (cs : List Clause) (err : FilterError) : Prop :=
  ∃ c, IsFirst (fun c => ∃ err, Fault schema c err) cs c ∧ Fault schema c err

/-- The kinds of the faults of a clause. -/
def faultKinds : List FilterError.Kind := [.unknownColumn, .unsupportedOperator, .betweenCount]

theorem takesRange_iff {op : Operator} :
    takesRange op = true ↔ op = .between ∨ op = .notBetween := by
  simp [takesRange]

theorem takesList_iff {op : Operator} :
    takesList op = true ↔ op = .inUserList ∨ op = .notInUserList := by
  simp [takesList]

theorem bounds_eq_error_iff {raw : List Char} : Literal.bounds raw = .error e ↔
    (Literal.elements raw).length ≠ 2 ∧
      e = .betweenCount (String.ofList raw) (Literal.elements raw).length := by
  unfold Literal.bounds
  split
  · rename_i low high helements
    rw [helements]
    simp
  · rename_i helements
    have hlength : (Literal.elements raw).length ≠ 2 := by
      intro hlength
      match hes : Literal.elements raw, hlength with
      | [low, high], _ => exact helements low high hes
    constructor
    · intro h
      cases h
      exact ⟨hlength, rfl⟩
    · rintro ⟨_, rfl⟩
      rfl

theorem checkClause_eq_error_iff : checkClause schema c = .error e ↔ Fault schema c e := by
  unfold checkClause
  constructor
  · intro h
    split at h
    · rename_i habsent
      cases h
      exact .column habsent
    · rename_i type hfound
      split at h
      · rename_i hsupported
        split at h
        · rename_i hranged
          obtain ⟨hcount, rfl⟩ := bounds_eq_error_iff.1 (map_eq_error_iff.1 h)
          exact .bounds hfound hsupported (takesRange_iff.1 hranged) hcount
        · cases h
      · rename_i hunsupported
        cases h
        exact .operator hfound (Bool.eq_false_iff.2 hunsupported)
  · intro h
    cases h with
    | column absent => rw [absent]
    | operator found unsupported =>
      rw [found]
      simp [unsupported]
    | bounds found supported ranged count =>
      rw [found]
      simp only [supported, takesRange_iff.2 ranged, if_true]
      exact map_eq_error_iff.2 (bounds_eq_error_iff.2 ⟨count, rfl⟩)

theorem isSound_of_checkClause {r : Clause × LogicalType} (h : checkClause schema c = .ok r) :
    IsSound schema c := by
  intro err hfault
  rw [checkClause_eq_error_iff.2 hfault] at h
  cases h

theorem Fault.kind (h : Fault schema c e) : e.kind ∈ faultKinds :=
  kind_checkClause (checkClause_eq_error_iff.2 h)

/-! ## Lists that are missing -/

/-- The list that a clause asks for. Quotes are dropped from its literal once for the name under which the
list is kept, and once more when it is looked up. -/
def listName (c : Clause) : String := String.ofList (unquote (unquote (rawOf c)))

/-- A clause that asks for a list which the user does not have. -/
def Lacks (lists : NamedLists) (user : String) (c : Clause) : Prop :=
  takesList c.operator = true ∧ lists.find? (user, listName c) = none

/-- The error of the first clause without its list. -/
def FirstLack (lists : NamedLists) (user : String) (cs : List Clause) (err : FilterError) : Prop :=
  ∃ c, IsFirst (Lacks lists user) cs c ∧ err = .listNotFound user (listName c)

/-- What was looked up are the lists of the user, as values of the type they were looked up for. -/
def Backed (lists : NamedLists) (user : String) (found : Resolved) : Prop :=
  ∀ key items, found.lookup key = some items →
    ∃ stored, lists.find? (user, String.ofList (unquote key.1.toList)) = some stored ∧
      items = stored.map (Literal.castItem key.2)

theorem backed_nil : Backed lists user [] := by
  intro key items h
  cases h

theorem lookup_append_single (found : Resolved) (key other : String × LogicalType)
    (items : List Value) : (found ++ [(key, items)]).lookup other =
      (found.lookup other).or (if other = key then some items else none) := by
  rw [List.lookup_append]
  congr 1
  by_cases h : other = key
  · simp [h]
  · simp [h]

/-- The look-up for a clause: nothing is done for a list that is known, or for no list. -/
theorem outcome_resolveClause (found : Resolved) (c : Clause × LogicalType) :
    (resolveClause lists user found c).outcome =
      if takesList c.1.operator = true ∧ found.lookup (listKey c.1 c.2) = none then
        match lists.find? (user, listName c.1) with
        | some stored => .ok (found ++ [(listKey c.1 c.2, stored.map (Literal.castItem c.2))])
        | none => .error (.listNotFound user (listName c.1))
      else .ok found := by
  unfold resolveClause resolveList
  by_cases hlist : takesList c.1.operator = true
  · rw [if_pos hlist]
    simp only
    cases hlookup : found.lookup (listKey c.1 c.2) with
    | some items => simp
    | none =>
      rw [if_pos ⟨hlist, rfl⟩]
      show (_ >>= _ : Traced Resolved).outcome = _
      rw [Traced.outcome_bind, Literal.outcome_resolveTraced]
      have hname : String.ofList (unquote (listKey c.1 c.2).1.toList) = listName c.1 := by
        rw [listKey, listName, String.toList_ofList]
      rw [hname, Literal.namedList]
      cases lists.find? (user, listName c.1) <;> rfl
  · rw [if_neg hlist, if_neg fun h => hlist h.1]
    rfl

/-- What a look-up keeps: the lists that were looked up are lists of the user, none of them is lost, and
the list of the clause is one of them. -/
theorem Backed.resolveClause {found found' : Resolved} {c : Clause × LogicalType}
    (h : Backed lists user found)
    (hstep : (Compile.resolveClause lists user found c).outcome = .ok found') :
    Backed lists user found' ∧
      (∀ key, (found.lookup key).isSome = true → (found'.lookup key).isSome = true) ∧
      (takesList c.1.operator = true → (found'.lookup (listKey c.1 c.2)).isSome = true) := by
  rw [outcome_resolveClause] at hstep
  split at hstep
  · rename_i hnew
    cases hstored : lists.find? (user, listName c.1) with
    | none =>
      rw [hstored] at hstep
      cases hstep
    | some stored =>
      rw [hstored] at hstep
      cases hstep
      refine ⟨?_, ?_, ?_⟩
      · intro key items hkey
        rw [lookup_append_single] at hkey
        cases hold : found.lookup key with
        | some old =>
          rw [hold] at hkey
          cases hkey
          exact h key items hold
        | none =>
          rw [hold, Option.none_or] at hkey
          split at hkey
          · rename_i heq
            cases hkey
            refine ⟨stored, ?_, by rw [heq]; rfl⟩
            rw [heq, listKey, String.toList_ofList]
            exact hstored
          · cases hkey
      · intro key hkey
        rw [lookup_append_single]
        obtain ⟨items, hitems⟩ := Option.isSome_iff_exists.1 hkey
        rw [hitems]
        rfl
      · intro _
        rw [lookup_append_single, hnew.2, if_pos rfl]
        rfl
  · rename_i hknown
    cases hstep
    refine ⟨h, fun _ hkey => hkey, ?_⟩
    intro hlist
    -- the list was there before, or it would have been looked up
    cases hlookup : found.lookup (listKey c.1 c.2) with
    | some items => rfl
    | none => exact absurd ⟨hlist, hlookup⟩ hknown

/-- A look-up fails for a clause that lacks its list. Such a list is not known from a clause before. -/
theorem Backed.resolveClause_eq_error_iff {found : Resolved} {c : Clause × LogicalType}
    (h : Backed lists user found) :
    (Compile.resolveClause lists user found c).outcome = .error e ↔
      Lacks lists user c.1 ∧ e = .listNotFound user (listName c.1) := by
  rw [outcome_resolveClause]
  constructor
  · intro herr
    split at herr
    · rename_i hnew
      cases hstored : lists.find? (user, listName c.1) with
      | none =>
        rw [hstored] at herr
        cases herr
        exact ⟨⟨hnew.1, hstored⟩, rfl⟩
      | some stored =>
        rw [hstored] at herr
        cases herr
    · cases herr
  · rintro ⟨⟨hlist, hmissing⟩, rfl⟩
    have hlookup : found.lookup (listKey c.1 c.2) = none := by
      cases hold : found.lookup (listKey c.1 c.2) with
      | none => rfl
      | some items =>
        obtain ⟨stored, hstored, _⟩ := h _ _ hold
        rw [listKey, String.toList_ofList] at hstored
        rw [listName, hstored] at hmissing
        cases hmissing
    rw [if_pos ⟨hlist, hlookup⟩, hmissing]

/-- The look-ups for the clauses from one on. -/
def resolveFrom (lists : NamedLists) (user : String) (found : Resolved)
    (cs : List (Clause × LogicalType)) : Except FilterError Resolved :=
  (cs.foldlM (resolveClause lists user) found).outcome

theorem resolveFrom_cons (found : Resolved) (c : Clause × LogicalType)
    (cs : List (Clause × LogicalType)) : resolveFrom lists user found (c :: cs) = (do
      let found' ← (resolveClause lists user found c).outcome
      resolveFrom lists user found' cs) := by
  rw [resolveFrom, List.foldlM_cons, Traced.outcome_bind]
  rfl

/-- What the look-ups for several clauses keep, from what one look-up keeps. -/
theorem Backed.resolveFrom {found found' : Resolved} {cs : List (Clause × LogicalType)}
    (h : Backed lists user found) (hrun : Compile.resolveFrom lists user found cs = .ok found') :
    Backed lists user found' ∧
      (∀ key, (found.lookup key).isSome = true → (found'.lookup key).isSome = true) ∧
      ∀ c ∈ cs, takesList c.1.operator = true → (found'.lookup (listKey c.1 c.2)).isSome = true := by
  induction cs generalizing found with
  | nil =>
    cases hrun
    exact ⟨h, fun _ hkey => hkey, fun c hc => (nomatch hc)⟩
  | cons c cs ih =>
    rw [resolveFrom_cons] at hrun
    obtain ⟨next, hstep, hrun⟩ := bind_eq_ok hrun
    obtain ⟨hnext, hkept, hhere⟩ := h.resolveClause hstep
    obtain ⟨hlast, hkept', hthere⟩ := ih hnext hrun
    refine ⟨hlast, fun key hkey => hkept' key (hkept key hkey), ?_⟩
    intro c' hc' hlist
    rcases List.mem_cons.1 hc' with rfl | hc'
    · exact hkept' _ (hhere hlist)
    · exact hthere c' hc' hlist

/-- The look-ups fail for the first clause that lacks its list. -/
theorem resolveFrom_eq_error_iff {found : Resolved} {cs : List (Clause × LogicalType)}
    (h : Backed lists user found) : resolveFrom lists user found cs = .error e ↔
      FirstLack lists user (cs.map Prod.fst) e := by
  induction cs generalizing found with
  | nil =>
    constructor
    · intro herr
      cases herr
    · rintro ⟨c, hfirst, _⟩
      cases hfirst
  | cons c cs ih =>
    rw [resolveFrom_cons, List.map_cons]
    cases hstep : (resolveClause lists user found c).outcome with
    | error err =>
      obtain ⟨hlacks, rfl⟩ := h.resolveClause_eq_error_iff.1 hstep
      constructor
      · intro herr
        cases herr
        exact ⟨c.1, .head hlacks, rfl⟩
      · rintro ⟨c', hfirst, rfl⟩
        cases hfirst with
        | head => rfl
        | tail hnot => exact absurd hlacks hnot
    | ok next =>
      have hhas : ¬ Lacks lists user c.1 := by
        intro hlacks
        have herr := h.resolveClause_eq_error_iff.2 ⟨hlacks, rfl⟩
        rw [hstep] at herr
        cases herr
      show resolveFrom lists user next cs = .error e ↔ _
      rw [ih (h.resolveClause hstep).1]
      constructor
      · rintro ⟨c', hfirst, rfl⟩
        exact ⟨c', .tail hhas hfirst, rfl⟩
      · rintro ⟨c', hfirst, rfl⟩
        cases hfirst with
        | head hlacks => exact absurd hlacks hhas
        | tail _ hfirst => exact ⟨c', hfirst, rfl⟩

/-! ## The last pass -/

theorem takesRange_of_shape {op : Operator} (h : op.shape = .range) : takesRange op = true := by
  cases op <;> first | rfl | cases h

/-- A checked clause whose list was looked up has a predicate. -/
theorem exists_plainPredicate {found : Resolved} {type : LogicalType}
    (hcheck : checkClause schema c = .ok (c, type))
    (hlist : takesList c.operator = true → (found.lookup (listKey c type)).isSome = true) :
    ∃ p, plainPredicate user found (c, type) = .ok p := by
  have hbounds : takesRange c.operator = true → ∃ b, Literal.bounds (rawOf c) = .ok b := by
    intro hrange
    cases hb : Literal.bounds (rawOf c) with
    | ok b => exact ⟨b, rfl⟩
    | error err =>
      -- the bounds were counted when the clause was checked
      unfold checkClause at hcheck
      rw [hrange, hb] at hcheck
      split at hcheck
      · cases hcheck
      · split at hcheck <;> cases hcheck
  have hoperand : ∃ operand, plainOperand user found c type = .ok operand := by
    unfold plainOperand
    cases hshape : c.operator.shape with
    | none => exact ⟨_, rfl⟩
    | scalar => exact ⟨_, rfl⟩
    | range =>
      obtain ⟨b, hb⟩ := hbounds (takesRange_of_shape hshape)
      rw [hb]
      exact ⟨_, rfl⟩
    | set =>
      by_cases htakes : takesList c.operator = true
      · obtain ⟨items, hitems⟩ := Option.isSome_iff_exists.1 (hlist htakes)
        simp only [if_pos htakes, hitems]
        exact ⟨_, rfl⟩
      · simp only [if_neg htakes]
        exact ⟨_, rfl⟩
  obtain ⟨operand, hoperand⟩ := hoperand
  unfold plainPredicate
  split
  · exact ⟨_, rfl⟩
  · rw [hoperand]
    exact ⟨_, rfl⟩

/-- Once the clauses are checked and their lists are looked up, the last pass does not fail. -/
theorem exists_traverse_predicateTraced {query : Formula Clause}
    {checked : Formula (Clause × LogicalType)} {found : Resolved}
    (hchecked : query.traverse (checkClause schema) = .ok checked)
    (hfound : (resolveAll lists user checked.leaves).outcome = .ok found) :
    ∃ root, (checked.traverse (predicateTraced user found)).outcome = .ok root := by
  obtain ⟨_, _, hknown⟩ := backed_nil.resolveFrom hfound
  have hleaves := outcome_traverse_predicateTraced user found checked
  have hcasts : ∀ c ∈ checked.leaves, ∃ p, plainPredicate user found c = .ok p := by
    intro c hc
    exact exists_plainPredicate (checked_of_mem hchecked hc) (hknown c hc)
  obtain ⟨ps, hps⟩ := exists_mapM_eq_ok hcasts
  rw [hps] at hleaves
  obtain ⟨root, hroot, _⟩ := map_eq_ok hleaves
  exact ⟨root, hroot⟩

theorem exists_build {query : Formula Clause} {found : Resolved} (hchecks : checkAll schema query = .ok ())
    (hfound : (resolveLists schema lists user query).outcome = .ok found) :
    ∃ root, (build schema user found query).outcome = .ok root := by
  rw [checkAll_eq] at hchecks
  obtain ⟨checked, hchecked, _⟩ := map_eq_ok hchecks
  rw [resolveLists_eq hchecked] at hfound
  rw [build_eq hchecked]
  exact exists_traverse_predicateTraced hchecked hfound

/-! ## The three passes -/

/-- The outcome of compiling some clauses: the first fault, or without a fault the first list that is
missing, or without either a compiled filter. -/
inductive Verdict (schema : Schema) (lists : NamedLists) (user : String) (cs : List Clause) :
    Except FilterError Compiled → Prop
  | fault {err : FilterError} (first : FirstFault schema cs err) :
    Verdict schema lists user cs (.error err)
  | lack {err : FilterError} (sound : ∀ c ∈ cs, IsSound schema c) (first : FirstLack lists user cs err) :
    Verdict schema lists user cs (.error err)
  | compiled {e : Compiled} (sound : ∀ c ∈ cs, IsSound schema c)
    (complete : ∀ c ∈ cs, ¬ Lacks lists user c) : Verdict schema lists user cs (.ok e)

theorem verdict (schema : Schema) (lists : NamedLists) (user source : String)
    (query : Formula Clause) :
    Verdict schema lists user query.leaves (formula schema lists user source query).outcome := by
  rw [formula_eq, Traced.outcome_bind, Traced.outcome_ofExcept]
  have hleaves := Formula.outcome_traverse (checkClause schema) query
  cases hchecked : query.traverse (checkClause schema) with
  | error err =>
    rw [hchecked] at hleaves
    obtain ⟨c, hfirst, hc⟩ := isFirst_of_mapM_eq_error hleaves.symm
    simp only [checkClause_eq_error_iff] at hfirst hc
    exact .fault ⟨c, hfirst, hc⟩
  | ok checked =>
    rw [hchecked] at hleaves
    have hsound : ∀ c ∈ query.leaves, IsSound schema c := by
      intro c hc
      rw [← fst_checked hchecked] at hc
      obtain ⟨c', hc', rfl⟩ := List.mem_map.1 hc
      exact isSound_of_checkClause (checked_of_mem hchecked hc')
    show Verdict schema lists user query.leaves (_ >>= _ : Traced Compiled).outcome
    rw [Traced.outcome_bind]
    cases hfound : (resolveAll lists user checked.leaves).outcome with
    | error err =>
      have hfirst := (resolveFrom_eq_error_iff backed_nil).1 hfound
      rw [fst_checked hchecked] at hfirst
      exact .lack hsound hfirst
    | ok found =>
      have hcomplete : ∀ c ∈ query.leaves, ¬ Lacks lists user c := by
        intro c hc hlacks
        obtain ⟨c', hfirst⟩ := exists_isFirst hc hlacks
        have herr : resolveFrom lists user [] checked.leaves = .error _ :=
          (resolveFrom_eq_error_iff backed_nil).2 ⟨c', by rwa [fst_checked hchecked], rfl⟩
        rw [show resolveFrom lists user [] checked.leaves = .ok found from hfound] at herr
        cases herr
      obtain ⟨root, hroot⟩ := exists_traverse_predicateTraced hchecked hfound
      show Verdict schema lists user query.leaves (_ >>= _ : Traced Compiled).outcome
      rw [Traced.outcome_bind, hroot]
      exact .compiled hsound hcomplete

variable {cs : List Clause} {outcome : Except FilterError Compiled}

/-- A fault comes before everything else. -/
theorem Verdict.eq_of_firstFault (h : Verdict schema lists user cs outcome)
    (hfault : FirstFault schema cs e) : outcome = .error e := by
  obtain ⟨c, hfirst, hc⟩ := hfault
  cases h with
  | fault first =>
    obtain ⟨c', hfirst', hc'⟩ := first
    obtain rfl := hfirst.unique hfirst'
    -- a clause has one fault at most, since its check has one outcome
    rw [← checkClause_eq_error_iff] at hc hc'
    rw [hc] at hc'
    cases hc'
    rfl
  | lack sound => exact absurd hc (sound c hfirst.mem e)
  | compiled sound => exact absurd hc (sound c hfirst.mem e)

theorem Verdict.firstFault (h : Verdict schema lists user cs (.error e)) (hkind : e.kind ∈ faultKinds) :
    FirstFault schema cs e := by
  cases h with
  | fault first => exact first
  | lack sound first =>
    obtain ⟨c, _, rfl⟩ := first
    exact absurd hkind (by simp [faultKinds, FilterError.kind])

theorem FirstFault.kind (h : FirstFault schema cs e) : e.kind ∈ faultKinds := by
  obtain ⟨c, _, hc⟩ := h
  exact hc.kind

theorem exists_firstFault (hc : c ∈ cs) (h : Fault schema c e) : ∃ err, FirstFault schema cs err := by
  obtain ⟨first, hfirst⟩ := exists_isFirst (p := fun c => ∃ err, Fault schema c err) hc ⟨e, h⟩
  obtain ⟨err, herr⟩ := hfirst.holds
  exact ⟨err, first, hfirst, herr⟩

/-- Without a fault the outcome is that of the look-ups. -/
theorem Verdict.eq_error_iff (h : Verdict schema lists user cs outcome)
    (hsound : ∀ c ∈ cs, IsSound schema c) : outcome = .error e ↔ FirstLack lists user cs e := by
  cases h with
  | fault first =>
    obtain ⟨c, hfirst, hc⟩ := first
    exact absurd hc (hsound c hfirst.mem _)
  | lack _ first =>
    obtain ⟨c, hfirst, rfl⟩ := first
    constructor
    · intro heq
      cases heq
      exact ⟨c, hfirst, rfl⟩
    · rintro ⟨c', hfirst', rfl⟩
      rw [hfirst.unique hfirst']
  | compiled _ complete =>
    constructor
    · intro heq
      cases heq
    · rintro ⟨c, hfirst, _⟩
      exact absurd hfirst.holds (complete c hfirst.mem)

end Compile

open Query (Clause)
open Literal (NamedLists)
open Compile

/-- **The outcome of compiling.** A query fails with an error about a column, an operator or a range just if
a clause is at fault in itself, with the fault of the first such clause, whatever lists there are.
Without a fault it compiles just if the user has every list that a clause asks for, and fails with the
first list that is missing otherwise. Once the clauses are checked and the lists are looked up, nothing
fails any more. -/
theorem compile_outcome_determined (schema : Schema) (user source : String) (query : Formula Clause) :
    let outcome := fun lists : NamedLists => (formula schema lists user source query).outcome
    (∀ lists err, outcome lists = .error err ∧ err.kind ∈ faultKinds ↔
      FirstFault schema query.leaves err) ∧
    (∀ lists, (∃ err, outcome lists = .error err ∧ err.kind ∈ faultKinds) ↔
      ∃ c ∈ query.leaves, ∃ err, Fault schema c err) ∧
    (∀ lists lists' err, err.kind ∈ faultKinds →
      (outcome lists = .error err ↔ outcome lists' = .error err)) ∧
    ((∀ c ∈ query.leaves, IsSound schema c) → ∀ lists,
      ((∃ e, outcome lists = .ok e) ↔ ∀ c ∈ query.leaves, takesList c.operator = true →
        ∃ items, lists.find? (user, listName c) = some items) ∧
      ∀ err, outcome lists = .error err ↔ FirstLack lists user query.leaves err) ∧
    ∀ lists found, checkAll schema query = .ok () →
      (resolveLists schema lists user query).outcome = .ok found →
      ∃ root, (build schema user found query).outcome = .ok root := by
  intro outcome
  have hverdict := fun lists => verdict schema lists user source query
  have hfault : ∀ lists err, outcome lists = .error err ∧ err.kind ∈ faultKinds ↔
      FirstFault schema query.leaves err := by
    intro lists err
    constructor
    · rintro ⟨herr, hkind⟩
      have hv : Verdict schema lists user query.leaves (outcome lists) := hverdict lists
      rw [herr] at hv
      exact hv.firstFault hkind
    · intro hfirst
      exact ⟨(hverdict lists).eq_of_firstFault hfirst, hfirst.kind⟩
  refine ⟨hfault, ?_, ?_, ?_, fun _ _ => exists_build⟩
  · intro lists
    simp only [hfault]
    constructor
    · rintro ⟨err, c, hfirst, hc⟩
      exact ⟨c, hfirst.mem, err, hc⟩
    · rintro ⟨c, hc, err, herr⟩
      exact exists_firstFault hc herr
  · intro lists lists' err hkind
    -- neither side depends on the lists
    have hleft := hfault lists err
    have hright := hfault lists' err
    rw [and_iff_left hkind] at hleft hright
    rw [hleft, hright]
  · intro hsound lists
    have herror : ∀ err, outcome lists = .error err ↔ FirstLack lists user query.leaves err :=
      fun err => (hverdict lists).eq_error_iff hsound
    refine ⟨?_, herror⟩
    constructor
    · rintro ⟨e, he⟩ c hc hlist
      cases hfind : lists.find? (user, listName c) with
      | some items => exact ⟨items, rfl⟩
      | none =>
        -- a missing list would have been an error
        obtain ⟨first, hfirst⟩ := exists_isFirst (p := Lacks lists user) hc ⟨hlist, hfind⟩
        have herr := (herror _).2 ⟨first, hfirst, rfl⟩
        rw [he] at herr
        cases herr
    · intro hlists
      cases houtcome : outcome lists with
      | ok e => exact ⟨e, rfl⟩
      | error err =>
        obtain ⟨c, hfirst, _⟩ := (herror err).1 houtcome
        obtain ⟨hlist, hmissing⟩ := hfirst.holds
        obtain ⟨items, hitems⟩ := hlists c hfirst.mem hlist
        rw [hitems] at hmissing
        cases hmissing

/-- A list that is there and one that is missing; a range with one bound comes before both. -/
theorem compile_outcome_determined_lists :
    let schema : Schema := ⟨[("age", .integer), ("city", .string)]⟩
    let lists : NamedLists := ⟨[(("u", "vip"), [.text "NYC"])]⟩
    let vip : Clause := ⟨"city", 0, .inUserList, some "'vip'"⟩
    let gone : Clause := ⟨"city", 30, .notInUserList, some " gone "⟩
    let range : Clause := ⟨"age", 60, .between, some "[1]"⟩
    (∃ e, (formula schema lists "u" "" (.leaf vip)).outcome = .ok e) ∧
      (formula schema lists "u" "" (.any [.leaf vip, .leaf gone])).outcome =
        .error (.listNotFound "u" "gone") ∧
      ∀ lists', (formula schema lists' "u" "" (.all [.leaf gone, .group (.leaf range)])).outcome =
        .error (.betweenCount "[1]" 1) := by
  intro schema lists vip gone range
  have hvip : IsSound schema vip := isSound_of_checkClause (r := (vip, .string)) rfl
  have hgone : IsSound schema gone := isSound_of_checkClause (r := (gone, .string)) rfl
  have hthere : lists.find? ("u", listName vip) = some [.text "NYC"] := by decide +kernel
  have hmissing : lists.find? ("u", listName gone) = none := by decide +kernel
  have hname : listName gone = "gone" := by decide +kernel
  have hrange : Fault schema range (.betweenCount "[1]" 1) := by
    have hlength : (Literal.elements (rawOf range)).length = 1 := by decide +kernel
    have hraw : String.ofList (rawOf range) = "[1]" := by decide +kernel
    have hbounds : Fault schema range _ := .bounds rfl rfl (.inl rfl) (by rw [hlength]; decide)
    rwa [hlength, hraw] at hbounds
  obtain ⟨_, _, _, hone, _⟩ := compile_outcome_determined schema "u" "" (.leaf vip)
  obtain ⟨_, _, _, htwo, _⟩ := compile_outcome_determined schema "u" "" (.any [.leaf vip, .leaf gone])
  obtain ⟨hfault, _⟩ :=
    compile_outcome_determined schema "u" "" (.all [.leaf gone, .group (.leaf range)])
  refine ⟨?_, ?_, ?_⟩
  · refine (hone (List.forall_mem_singleton.2 hvip) lists).1.2 ?_
    exact List.forall_mem_singleton.2 fun _ => ⟨_, hthere⟩
  · refine ((htwo ?_ lists).2 _).2 ⟨gone, .tail ?_ (.head ⟨rfl, hmissing⟩), by rw [hname]⟩
    · exact List.forall_mem_cons.2 ⟨hvip, List.forall_mem_singleton.2 hgone⟩
    · rintro ⟨_, hnone⟩
      rw [hthere] at hnone
      cases hnone
  · intro lists'
    refine ((hfault lists' _).2 ⟨range, .tail ?_ (.head ⟨_, hrange⟩), hrange⟩).1
    rintro ⟨err, herr⟩
    exact hgone err herr

end RowFilter
