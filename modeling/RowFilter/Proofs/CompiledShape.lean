import RowFilter.Proofs.Complement
import RowFilter.Proofs.CompileOutcome

/-!
# RowFilter — compiled filters keep the shape of their queries

A compiled filter has the chains and the parentheses of its query, with a predicate in the place of every
clause. A predicate is the one that its clause would have on its own: the lists that were looked up for
other clauses do not count, since what is kept under a name and a type is what a new look-up would give.

The name of a list loses its quotes before the look-up, and the look-up drops quotes once more. So a clause
whose literal is in quotes inside quotes gets the list of the inner name.

Main results:

* `Formula.shape_traverse` — replacing the leaves keeps the shape.
* `Compile.Backed.lookup_unique` — what is kept does not depend on what was looked up before.
* `Compile.plainPredicate_of_takesList` — what a clause on a named list is compiled to.
* `Compile.standsFor_of_plainPredicate` — the predicate of a clause is the one it has on its own.
* `compiled_keeps_shape` — the shape of a compiled filter, and what each of its predicates is.
-/

namespace RowFilter

/-! ## Shapes -/

namespace Formula

variable {α β : Type}

/-- The shape of a formula, whatever its leaves are. -/
def shape (f : Formula α) : Formula Unit := f.map fun _ => ()

mutual
theorem shape_traverse {m : Type → Type} [Monad m] [LawfulMonad m] (g : α → m β) :
    ∀ f : Formula α, shape <$> f.traverse g = (fun _ => f.shape) <$> f.leaves.mapM g
  | .leaf a => by simp [traverse, leaves, shape, map]
  | .all fs => by
    have hfs := congrArg (Formula.all <$> ·) (mapOf_traverseOf g fs)
    simpa [traverse, leaves, shape, map] using hfs
  | .any fs => by
    have hfs := congrArg (Formula.any <$> ·) (mapOf_traverseOf g fs)
    simpa [traverse, leaves, shape, map] using hfs
  | .group f => by
    have hf := congrArg (Formula.group <$> ·) (shape_traverse g f)
    simpa [traverse, leaves, shape, map] using hf

theorem mapOf_traverseOf {m : Type → Type} [Monad m] [LawfulMonad m] (g : α → m β) :
    ∀ fs : List (Formula α), mapOf (fun _ => ()) <$> traverseOf g fs =
      (fun _ => mapOf (fun _ => ()) fs) <$> (leavesOf fs).mapM g
  | [] => by simp [traverseOf, leavesOf, mapOf]
  | f :: fs => by
    have hf := shape_traverse g f
    have hfs := mapOf_traverseOf g fs
    calc mapOf (fun _ => ()) <$> traverseOf g (f :: fs)
        = (do
            let first ← shape <$> f.traverse g
            let rest ← mapOf (fun _ => ()) <$> traverseOf g fs
            return first :: rest) := by simp [traverseOf, mapOf, shape]
      _ = (do
            let first ← (fun _ => f.shape) <$> f.leaves.mapM g
            let rest ← (fun _ => mapOf (fun _ => ()) fs) <$> (leavesOf fs).mapM g
            return first :: rest) := by rw [hf, hfs]
      _ = (fun _ => mapOf (fun _ => ()) (f :: fs)) <$> (leavesOf (f :: fs)).mapM g := by
          simp [leavesOf, List.mapM_append, mapOf, shape]
end

end Formula

theorem Traced.shape_of_traverse {α β : Type} {g : α → Traced β} {f : Formula α} {f' : Formula β}
    (h : (f.traverse g).outcome = .ok f') : f'.shape = f.shape := by
  have hshape := Formula.shape_traverse g f
  rw [← Formula.leaves_traverse g f] at hshape
  have houtcome := congrArg Traced.outcome hshape
  rw [Traced.outcome_map, Traced.outcome_map, Traced.outcome_map, h] at houtcome
  exact Except.ok.inj houtcome

/-! ## Places of clauses -/

namespace Query

/-- The clauses of a query stand one behind the other. -/
theorem offsets_of_parse {source : String} {query : Formula Clause} (h : parse source = .ok query) :
    query.leaves.Pairwise fun a b => a.offset < b.offset := by
  obtain ⟨stream, htokens, hread⟩ := bind_eq_ok h
  obtain ⟨ps, _, _, hts⟩ := tokenize_eq_ok htokens
  have hspells := (readTokens_sound hread).2
  -- the tokens are merged in the order of their places
  have hcolumns : (ofKind .column stream.merged).Pairwise fun a b => a.start < b.start :=
    (tokensAt_ordered hts).2.sublist List.filter_sublist
  rw [← List.pairwise_map (f := Clause.offset) (R := (· < ·)), hspells.records.offsets,
    List.pairwise_map]
  exact hcolumns

end Query

/-! ## Lists that were looked up -/

namespace Compile

open Query (Clause)
open Literal (NamedLists unquote)

variable {schema : Schema} {lists : NamedLists} {user source : String} {c : Clause}
  {type : LogicalType} {found found' : Resolved} {p : Predicate}

/-- What is kept under a name and a type does not depend on what else was looked up. -/
theorem Backed.lookup_unique (h : Backed lists user found) (h' : Backed lists user found')
    {key : String × LogicalType} (hkey : (found.lookup key).isSome = true)
    (hkey' : (found'.lookup key).isSome = true) : found'.lookup key = found.lookup key := by
  obtain ⟨items, hitems⟩ := Option.isSome_iff_exists.1 hkey
  obtain ⟨items', hitems'⟩ := Option.isSome_iff_exists.1 hkey'
  -- both were made of the list that is stored under the name
  obtain ⟨stored, hstored, rfl⟩ := h key items hitems
  obtain ⟨stored', hstored', rfl⟩ := h' key items' hitems'
  obtain rfl := Option.some.inj (hstored.symm.trans hstored')
  rw [hitems, hitems']

/-- What is kept for a clause is what a new look-up gives. -/
theorem Backed.resolveTraced (h : Backed lists user found) {items : List Value}
    (hitems : found.lookup (listKey c type) = some items) :
    (Literal.resolveTraced lists user (unquote (rawOf c)) type).outcome = .ok items := by
  obtain ⟨stored, hstored, rfl⟩ := h _ items hitems
  rw [listKey, String.toList_ofList] at hstored
  rw [Literal.outcome_resolveTraced, Literal.namedList, hstored]
  rfl

/-- A predicate depends on the lists only through the one that its clause asks for. -/
theorem plainPredicate_congr (h : takesList c.operator = true →
    found'.lookup (listKey c type) = found.lookup (listKey c type)) :
    plainPredicate user found' (c, type) = plainPredicate user found (c, type) := by
  have hoperand : plainOperand user found' c type = plainOperand user found c type := by
    unfold plainOperand
    cases c.operator.shape with
    | none | scalar | range => rfl
    | set =>
      by_cases hlist : takesList c.operator = true
      · simp only [h hlist]
      · simp only [if_neg hlist]
  unfold plainPredicate
  rw [hoperand]

/-- A clause on a named list gets the list that was looked up for it. -/
theorem plainPredicate_of_takesList (hlist : takesList c.operator = true) :
    plainPredicate user found (c, type) =
      match found.lookup (listKey c type) with
      | some items => .ok ⟨c.column, type, c.operator, .set items, c.value, c.offset⟩
      | none => .error (.listNotFound user (listKey c type).1) := by
  have hop := takesList_iff.1 hlist
  have hshape : c.operator.shape = .set := by rcases hop with hop | hop <;> rw [hop] <;> rfl
  have his : c.operator ≠ .is := by rcases hop with hop | hop <;> rw [hop] <;> decide
  rw [plainPredicate, if_neg fun h => his h.1, plainOperand, hshape]
  simp only [if_pos hlist]
  cases found.lookup (listKey c type) <;> rfl

/-- The operand of a clause on a named list is what was looked up for it. -/
theorem operand_of_takesList (hlist : takesList c.operator = true)
    (h : plainPredicate user found (c, type) = .ok p) :
    ∃ items, p.operand = .set items ∧ found.lookup (listKey c type) = some items := by
  rw [plainPredicate_of_takesList hlist] at h
  split at h
  · rename_i items hitems
    cases h
    exact ⟨items, rfl, hitems⟩
  · cases h

/-- A new look-up keeps the list of the clause. -/
theorem outcome_resolveClause_new {stored : List Value} (hlist : takesList c.operator = true)
    (hnew : found.lookup (listKey c type) = none)
    (hstored : lists.find? (user, listName c) = some stored) :
    (Compile.resolveClause lists user found (c, type)).outcome =
      .ok (found ++ [(listKey c type, stored.map (Literal.castItem type))]) := by
  rw [outcome_resolveClause, if_pos ⟨hlist, hnew⟩, hstored]

/-- Three passes without an error give a filter. -/
theorem outcome_formula_of_passes {query : Formula Clause}
    {checked : Formula (Clause × LogicalType)} {root : Formula Predicate}
    (hchecked : query.traverse (checkClause schema) = .ok checked)
    (hfound : (resolveAll lists user checked.leaves).outcome = .ok found)
    (hroot : (checked.traverse (predicateTraced user found)).outcome = .ok root) :
    (formula schema lists user source query).outcome = .ok ⟨source, root⟩ := by
  rw [formula_eq, Traced.outcome_bind_ok ((Traced.outcome_ofExcept _).trans hchecked),
    Traced.outcome_bind_ok hfound, Traced.outcome_bind_ok hroot]
  rfl

/-! ## Predicates in the place of clauses -/

/-- The predicate has the column, the place and the literal of the clause, and the type that the schema
gives the column. It has the operator of the clause, save that `is` with a word for a missing value has
become the test for one. It is what the clause is compiled to on its own, whatever query it stands in; for
a named list that is what a look-up under the unquoted literal gives, and one under the literal as it is
written if quotes are dropped from it only once. -/
structure StandsFor (schema : Schema) (lists : NamedLists) (user : String) (c : Clause)
    (p : Predicate) : Prop where
  column : p.column = c.column
  offset : p.offset = c.offset
  raw : p.raw = c.value
  type : schema.find? c.column = some p.type
  operator : ¬ (c.operator = .is ∧ isNullWord (rawOf c) = true) → p.operator = c.operator
  null : c.operator = .is ∧ isNullWord (rawOf c) = true → p.operator = .null ∧ p.operand = .none
  alone : ∀ source, (formula schema lists user source (.leaf c)).outcome = .ok ⟨source, .leaf p⟩
  list : takesList c.operator = true → ∃ items, p.operand = .set items ∧
    (Literal.resolveTraced lists user (unquote (rawOf c)) p.type).outcome = .ok items ∧
    (unquote (unquote (rawOf c)) = unquote (rawOf c) →
      (Literal.resolveTraced lists user (rawOf c) p.type).outcome = .ok items)

/-- On its own a clause finds its list again, and gets the same predicate. -/
theorem outcome_formula_alone (hcheck : checkClause schema c = .ok (c, type))
    (hbacked : Backed lists user found) (h : plainPredicate user found (c, type) = .ok p)
    (source : String) :
    (formula schema lists user source (.leaf c)).outcome = .ok ⟨source, .leaf p⟩ := by
  have hknown : takesList c.operator = true → (found.lookup (listKey c type)).isSome = true := by
    intro hlist
    obtain ⟨items, _, hitems⟩ := operand_of_takesList hlist h
    rw [hitems]
    rfl
  cases hfound : (Compile.resolveClause lists user [] (c, type)).outcome with
  | error err =>
    -- the list was there for the whole query, so it is there for the clause
    obtain ⟨⟨hlist, hmissing⟩, _⟩ := backed_nil.resolveClause_eq_error_iff.1 hfound
    obtain ⟨items, hitems⟩ := Option.isSome_iff_exists.1 (hknown hlist)
    obtain ⟨stored, hstored, _⟩ := hbacked _ _ hitems
    rw [listKey, String.toList_ofList] at hstored
    rw [listName, hstored] at hmissing
    cases hmissing
  | ok alone =>
    -- what the clause has looked up on its own is what was there for it
    obtain ⟨hbackedAlone, _, hknownAlone⟩ := backed_nil.resolveClause hfound
    have hsame : plainPredicate user alone (c, type) = .ok p := by
      rw [← h]
      refine plainPredicate_congr ?_
      intro hlist
      exact hbacked.lookup_unique hbackedAlone (hknown hlist) (hknownAlone hlist)
    rw [outcome_formula_leaf, hcheck, ok_bind, hfound, ok_bind, hsame, ok_bind]
    rfl

theorem standsFor_of_plainPredicate (hcheck : checkClause schema c = .ok (c, type))
    (hbacked : Backed lists user found) (h : plainPredicate user found (c, type) = .ok p) :
    StandsFor schema lists user c p := by
  have halone := outcome_formula_alone hcheck hbacked h
  have htype : schema.find? c.column = some type := (checkClause_eq_ok hcheck).2
  -- the fields of the predicate, whichever of the two forms it has
  have hfields : p.column = c.column ∧ p.offset = c.offset ∧ p.raw = c.value ∧ p.type = type ∧
      (¬ (c.operator = .is ∧ isNullWord (rawOf c) = true) → p.operator = c.operator) ∧
      (c.operator = .is ∧ isNullWord (rawOf c) = true → p.operator = .null ∧ p.operand = .none) := by
    have hplain := h
    unfold plainPredicate at hplain
    split at hplain
    · rename_i hnull
      cases hplain
      exact ⟨rfl, rfl, rfl, rfl, fun hno => absurd hnull hno, fun _ => ⟨rfl, rfl⟩⟩
    · rename_i hplainOp
      obtain ⟨operand, _, rfl⟩ := map_eq_ok hplain
      exact ⟨rfl, rfl, rfl, rfl, fun _ => rfl, fun hnull => absurd hnull hplainOp⟩
  obtain ⟨hcolumn, hoffset, hraw, rfl, hoperator, hnull⟩ := hfields
  refine ⟨hcolumn, hoffset, hraw, htype, hoperator, hnull, halone, ?_⟩
  intro hlist
  obtain ⟨items, hoperand, hitems⟩ := operand_of_takesList hlist h
  refine ⟨items, hoperand, hbacked.resolveTraced hitems, ?_⟩
  intro honce
  have hresolve := hbacked.resolveTraced hitems
  rw [Literal.outcome_resolveTraced, honce] at hresolve
  rw [Literal.outcome_resolveTraced]
  exact hresolve

/-- A compiled filter has the shape of its query. -/
theorem shape_of_formula {query : Formula Clause} {e : Compiled}
    (h : (formula schema lists user source query).outcome = .ok e) :
    e.source = source ∧ e.root.shape = query.shape := by
  obtain ⟨_, _, h⟩ := Traced.outcome_bind_eq_ok h
  obtain ⟨found, _, h⟩ := Traced.outcome_bind_eq_ok h
  obtain ⟨root, hroot, h⟩ := Traced.outcome_bind_eq_ok h
  rw [Traced.outcome_bind, Traced.outcome_report] at h
  cases h
  exact ⟨rfl, Traced.shape_of_traverse hroot⟩

/-- Each clause of a query has its predicate in the compiled filter. -/
theorem exists_standsFor {query : Formula Clause} {e : Compiled}
    (h : (formula schema lists user source query).outcome = .ok e) {i : Nat}
    (hc : query.leaves[i]? = some c) :
    ∃ p, e.predicates[i]? = some p ∧ StandsFor schema lists user c p := by
  obtain ⟨checked, found, hchecked, hfound, hpredicates⟩ := formula_eq_ok h
  obtain ⟨hbacked, _, _⟩ := backed_nil.resolveFrom hfound
  rw [← fst_checked hchecked, List.getElem?_map, Option.map_eq_some_iff] at hc
  obtain ⟨⟨c', type⟩, hchecked', rfl⟩ := hc
  have hcheck := checked_of_mem hchecked (List.mem_of_getElem? hchecked')
  have hplace := getElem?_of_mapM_eq_ok hpredicates i
  rw [hchecked', Option.map_some, eq_comm, Option.map_eq_some_iff] at hplace
  obtain ⟨p, hp, hplain⟩ := hplace
  exact ⟨p, hp, standsFor_of_plainPredicate hcheck hbacked hplain.symm⟩

theorem length_predicates_of_formula {query : Formula Clause} {e : Compiled}
    (h : (formula schema lists user source query).outcome = .ok e) :
    e.predicates.length = query.leaves.length := by
  obtain ⟨checked, found, hchecked, _, hpredicates⟩ := formula_eq_ok h
  rw [length_of_mapM_eq_ok hpredicates, ← fst_checked hchecked, List.length_map]

end Compile

open Query (Clause)
open Literal (NamedLists unquote)
open Compile

/-- **Compiling keeps the shape.** A compiled filter knows the text it came from and has the chains and the
parentheses of its query, with as many operands each; its predicates stand for the clauses of the query,
one for one and in their order. The predicates of a text stand one behind the other in it. -/
theorem compiled_keeps_shape {schema : Schema} {lists : NamedLists} {user source : String}
    {query : Formula Clause} {e : Compiled}
    (h : (formula schema lists user source query).outcome = .ok e) :
    e.source = source ∧ e.root.shape = query.shape ∧
      e.predicates.length = query.leaves.length ∧
      (∀ (i : Nat) (c : Clause), query.leaves[i]? = some c →
        ∃ p, e.predicates[i]? = some p ∧ StandsFor schema lists user c p) ∧
      (Query.parse source = .ok query →
        e.predicates.Pairwise fun p q => p.offset < q.offset) := by
  obtain ⟨hsource, hshape⟩ := shape_of_formula h
  have hlength := length_predicates_of_formula h
  refine ⟨hsource, hshape, hlength, fun _ _ => exists_standsFor h, ?_⟩
  intro hparse
  have horder := Query.offsets_of_parse hparse
  -- predicates and clauses have the same offsets
  have hoffsets : e.predicates.map Predicate.offset = query.leaves.map Clause.offset := by
    refine List.ext_getElem? fun i => ?_
    rw [List.getElem?_map, List.getElem?_map]
    cases hc : query.leaves[i]? with
    | none =>
      rw [List.getElem?_eq_none_iff, ← hlength, ← List.getElem?_eq_none_iff] at hc
      rw [hc]
      rfl
    | some c =>
      obtain ⟨p, hp, hstands⟩ := exists_standsFor h hc
      rw [hp]
      exact congrArg some hstands.offset
  rw [← List.pairwise_map (f := Predicate.offset) (R := (· < ·)), hoffsets, List.pairwise_map]
  exact horder

/-- One list under two quotings and for two types, and a word for a missing value in capitals. -/
theorem compiled_keeps_shape_lists :
    let schema : Schema := ⟨[("paid", .boolean), ("city", .string)]⟩
    let lists : NamedLists := ⟨[(("u", "vip"), [.text "yes", .null])]⟩
    let quoted : Clause := ⟨"city", 0, .inUserList, some "'vip'"⟩
    let bare : Clause := ⟨"paid", 40, .notInUserList, some " vip "⟩
    let missing : Clause := ⟨"city", 80, .is, some "NULL"⟩
    let query : Formula Clause := .any [.leaf quoted, .group (.all [.leaf bare, .leaf missing])]
    let first : Predicate := ⟨"city", .string, .inUserList, .set [.text "yes", .null], some "'vip'", 0⟩
    let second : Predicate :=
      ⟨"paid", .boolean, .notInUserList, .set [.bool true, .null], some " vip ", 40⟩
    let third : Predicate := ⟨"city", .string, .null, .none, some "NULL", 80⟩
    let e : Compiled := ⟨"", .any [.leaf first, .group (.all [.leaf second, .leaf third])]⟩
    (formula schema lists "u" "" query).outcome = .ok e ∧ e.root.shape = query.shape ∧
      StandsFor schema lists "u" quoted first ∧ StandsFor schema lists "u" bare second ∧
      StandsFor schema lists "u" missing third := by
  intro schema lists quoted bare missing query first second third e
  have hvip : lists.find? ("u", "vip") = some [.text "yes", .null] := by decide +kernel
  have hquoted : listKey quoted .string = ("vip", .string) ∧ listName quoted = "vip" := by
    decide +kernel
  have hbare : listKey bare .boolean = ("vip", .boolean) ∧ listName bare = "vip" := by
    decide +kernel
  -- the list is looked up once for each of the two types
  let one : Resolved := [(("vip", .string), [.text "yes", .null])]
  let both : Resolved := one ++ [(("vip", .boolean), [.bool true, .null])]
  have hone : (Compile.resolveClause lists "u" [] (quoted, .string)).outcome = .ok one := by
    rw [outcome_resolveClause_new rfl rfl (by rw [hquoted.2]; exact hvip), hquoted.1]
    rfl
  have hboth : (Compile.resolveClause lists "u" one (bare, .boolean)).outcome = .ok both := by
    have hcast : [Value.text "yes", .null].map (Literal.castItem .boolean) = [.bool true, .null] := by
      decide +kernel
    rw [outcome_resolveClause_new rfl (by rw [hbare.1]; rfl) (by rw [hbare.2]; exact hvip),
      hbare.1, hcast]
  have hfound : (resolveAll lists "u"
      [(quoted, .string), (bare, .boolean), (missing, .string)]).outcome = .ok both := by
    rw [resolveAll, Traced.outcome_foldlM, List.foldlM_cons, hone, ok_bind, List.foldlM_cons, hboth]
    rfl
  have hfirst : plainPredicate "u" both (quoted, .string) = .ok first := by
    rw [plainPredicate_of_takesList rfl, hquoted.1]
    rfl
  have hsecond : plainPredicate "u" both (bare, .boolean) = .ok second := by
    rw [plainPredicate_of_takesList rfl, hbare.1]
    rfl
  have hthird : plainPredicate "u" both (missing, .string) = .ok third := by
    rw [plainPredicate, if_pos (by decide +kernel)]
  let checked : Formula (Clause × LogicalType) :=
    .any [.leaf (quoted, .string), .group (.all [.leaf (bare, .boolean), .leaf (missing, .string)])]
  have hroot : (checked.traverse (predicateTraced "u" both)).outcome = .ok e.root := by
    simp only [checked, Formula.traverse, Formula.traverseOf, Traced.outcome_bind,
      outcome_predicateTraced, hfirst, hsecond, hthird]
    rfl
  have hchecked : query.traverse (checkClause schema) = .ok checked := rfl
  have h : (formula schema lists "u" "" query).outcome = .ok e :=
    outcome_formula_of_passes hchecked hfound hroot
  obtain ⟨_, hshape, _, hstands, _⟩ := compiled_keeps_shape h
  have hplace : ∀ {i : Nat} {c : Clause} {p : Predicate}, query.leaves[i]? = some c →
      e.predicates[i]? = some p → StandsFor schema lists "u" c p := by
    intro i c p hc hp
    obtain ⟨p', hp', hstand⟩ := hstands i c hc
    obtain rfl := Option.some.inj (hp.symm.trans hp')
    exact hstand
  exact ⟨h, hshape, hplace (i := 0) rfl rfl, hplace (i := 1) rfl rfl, hplace (i := 2) rfl rfl⟩

/-- With quotes inside its quotes a clause gets the list of the inner name, and a look-up under its literal
gets the list whose name has the inner quotes. -/
theorem compiled_list_not_fresh :
    let schema : Schema := ⟨[("c", .string)]⟩
    let lists : NamedLists := ⟨[(("u1", "x"), [.text "one"]), (("u1", "\"x\""), [.text "two"])]⟩
    let c : Clause := ⟨"c", 0, .inUserList, some "'\"x\"'"⟩
    let p : Predicate := ⟨"c", .string, .inUserList, .set [.text "one"], some "'\"x\"'", 0⟩
    (formula schema lists "u1" "" (.leaf c)).outcome = .ok ⟨"", .leaf p⟩ ∧
      (Literal.resolveTraced lists "u1" (rawOf c) .string).outcome = .ok [.text "two"] ∧
      ¬ ∃ items, p.operand = .set items ∧
        (Literal.resolveTraced lists "u1" (rawOf c) p.type).outcome = .ok items := by
  intro schema lists c p
  have hnames : listName c = "x" ∧ String.ofList (unquote (rawOf c)) = "\"x\"" := by decide +kernel
  have hone : lists.find? ("u1", "x") = some [.text "one"] := by decide +kernel
  have htwo : lists.find? ("u1", "\"x\"") = some [.text "two"] := by decide +kernel
  have hfresh : (Literal.resolveTraced lists "u1" (rawOf c) .string).outcome = .ok [.text "two"] := by
    rw [Literal.outcome_resolveTraced, hnames.2, Literal.namedList, htwo]
    rfl
  have hkey : listKey c .string = ("\"x\"", .string) := congrArg (·, LogicalType.string) hnames.2
  have hfound : (Compile.resolveClause lists "u1" [] (c, .string)).outcome =
      .ok [(("\"x\"", .string), [.text "one"])] := by
    rw [outcome_resolveClause_new rfl rfl (by rw [hnames.1]; exact hone), hkey]
    rfl
  have hplain : plainPredicate "u1" [(("\"x\"", .string), [.text "one"])] (c, .string) = .ok p := by
    rw [plainPredicate_of_takesList rfl, hkey]
    rfl
  have hall : (resolveAll lists "u1" [(c, .string)]).outcome =
      .ok [(("\"x\"", .string), [.text "one"])] := by
    rw [resolveAll, Traced.outcome_foldlM, List.foldlM_cons, hfound]
    rfl
  have hroot : ((Formula.leaf (c, .string)).traverse (predicateTraced "u1"
      [(("\"x\"", .string), [.text "one"])])).outcome = .ok (.leaf p) := by
    simp only [Formula.traverse, Traced.outcome_bind, outcome_predicateTraced, hplain]
    rfl
  refine ⟨outcome_formula_of_passes rfl hall hroot, hfresh, ?_⟩
  rintro ⟨items, hoperand, hitems⟩
  obtain rfl : [.text "one"] = items := Operand.set.inj hoperand
  have hsame : [Value.text "one"] = [.text "two"] := Except.ok.inj (hitems.symm.trans hfresh)
  exact absurd hsame (by decide)

end RowFilter
