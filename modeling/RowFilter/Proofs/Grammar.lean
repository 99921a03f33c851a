import RowFilter.Query.Reading

/-!
# RowFilter — the grammar of queries

The grammar relates formulas and token lists without a reader. A formula is *well formed* when its
chains have two operands or more, an operand of a chain neither goes on that chain nor binds looser,
its clauses could have been written, and parentheses are nested at most as deep as the reader allows.
A token list *spells* a formula when it consists of the tokens of its clauses, the conjunctions between
operands and the parentheses around groups, and of nothing else.

The second half shows that the reader follows the grammar: it reads a spelling from the first token to
the last and ends with the formula that was spelled. Parentheses are the only way from a formula back
to a looser one, so the induction is on the derivation that the formula is well formed, and the chains
inside one pair of parentheses are read from left to right.

Main results:

* `FitsIn.readable` — a spelling of a well-formed formula is read as that formula.
* `spells_unique` — a token list spells at most one well-formed formula.
-/

namespace RowFilter

namespace Formula

variable {α : Type}

/-- Leaves and groups, which may be operands of any chain. -/
def isPrimary : Formula α → Bool
  | .leaf _ | .group _ => true
  | .all _ | .any _ => false

/-- Leaves, groups and `and` chains, which may be operands of an `or` chain. -/
def isDisjunct : Formula α → Bool
  | .any _ => false
  | .leaf _ | .all _ | .group _ => true

theorem isDisjunct_of_isPrimary {f : Formula α} (h : f.isPrimary = true) : f.isDisjunct = true := by
  cases f with
  | leaf a => rfl
  | group f => rfl
  | all fs => cases h
  | any fs => cases h

theorem isPrimary_map {β : Type} (g : α → β) (f : Formula α) : (f.map g).isPrimary = f.isPrimary := by
  cases f <;> rfl

theorem isDisjunct_map {β : Type} (g : α → β) (f : Formula α) : (f.map g).isDisjunct = f.isDisjunct := by
  cases f <;> rfl

theorem mapOf_eq_map {β : Type} (g : α → β) (fs : List (Formula α)) :
    mapOf g fs = fs.map (Formula.map g) := by
  induction fs with
  | nil => rfl
  | cons f fs ih => rw [mapOf, ih, List.map_cons]

mutual
theorem map_map {β γ : Type} (g : α → β) (h : β → γ) : ∀ f : Formula α,
    (f.map g).map h = f.map fun a => h (g a)
  | .leaf _ => rfl
  | .all fs => congrArg Formula.all (mapOf_mapOf g h fs)
  | .any fs => congrArg Formula.any (mapOf_mapOf g h fs)
  | .group f => congrArg Formula.group (map_map g h f)

theorem mapOf_mapOf {β γ : Type} (g : α → β) (h : β → γ) : ∀ fs : List (Formula α),
    mapOf h (mapOf g fs) = mapOf (fun a => h (g a)) fs
  | [] => rfl
  | f :: fs => by
    rw [mapOf, mapOf, mapOf, map_map g h f, mapOf_mapOf g h fs]
end

theorem chainAll_of_two_le {fs : List (Formula α)} (h : 2 ≤ fs.length) : chainAll fs = .all fs := by
  match fs, h with
  | _ :: _ :: _, _ => rfl

theorem chainAny_of_two_le {fs : List (Formula α)} (h : 2 ≤ fs.length) : chainAny fs = .any fs := by
  match fs, h with
  | _ :: _ :: _, _ => rfl

end Formula

namespace Query

open Formula (chainAll chainAny)

/-! ## Well-formed formulas -/

/-- A clause that can be written: its column has a name without blanks around it, and it has a literal
exactly if its operator takes one. -/
structure Clause.WellFormed (c : Clause) : Prop where
  column_ne : c.column.toList ≠ []
  column_trim : Text.trim c.column.toList = c.column.toList
  value_iff : c.value.isSome = true ↔ c.operator.arity = 1

/-- Chains and clauses are as they can be written, and at most `n` groups are nested in one another. -/
inductive FitsIn : Nat → Formula Clause → Prop
  | leaf {n : Nat} {c : Clause} : c.WellFormed → FitsIn n (.leaf c)
  | all {n : Nat} {fs : List (Formula Clause)} : 2 ≤ fs.length → (∀ f ∈ fs, f.isPrimary = true) →
      (∀ f ∈ fs, FitsIn n f) → FitsIn n (.all fs)
  | any {n : Nat} {fs : List (Formula Clause)} : 2 ≤ fs.length → (∀ f ∈ fs, f.isDisjunct = true) →
      (∀ f ∈ fs, FitsIn n f) → FitsIn n (.any fs)
  | group {n : Nat} {f : Formula Clause} : FitsIn n f → FitsIn (n + 1) (.group f)

/-- A formula that the reader can have made. -/
def WellFormed (f : Formula Clause) : Prop := FitsIn maxNesting f

theorem Clause.WellFormed.arity_of_none {c : Clause} (h : c.WellFormed) (hv : c.value = none) :
    c.operator.arity ≠ 1 := by
  intro harity
  have hsome := h.value_iff.2 harity
  rw [hv] at hsome
  cases hsome

theorem Clause.WellFormed.arity_of_some {c : Clause} (h : c.WellFormed) {v : String}
    (hv : c.value = some v) : c.operator.arity = 1 := by
  refine h.value_iff.1 ?_
  rw [hv]
  rfl

instance (c : Clause) : Decidable c.WellFormed :=
  decidable_of_iff (c.column.toList ≠ [] ∧ Text.trim c.column.toList = c.column.toList ∧
    (c.value.isSome = true ↔ c.operator.arity = 1))
    ⟨fun h => ⟨h.1, h.2.1, h.2.2⟩, fun h => ⟨h.column_ne, h.column_trim, h.value_iff⟩⟩

mutual
/-- Checks chains, clauses and nesting. -/
def fits : Formula Clause → Nat → Bool
  | .leaf c, _ => decide c.WellFormed
  | .all fs, n => decide (2 ≤ fs.length) && fs.all Formula.isPrimary && fitsAll fs n
  | .any fs, n => decide (2 ≤ fs.length) && fs.all Formula.isDisjunct && fitsAll fs n
  | .group _, 0 => false
  | .group f, n + 1 => fits f n

/-- Checks several formulas. -/
def fitsAll : List (Formula Clause) → Nat → Bool
  | [], _ => true
  | f :: fs, n => fits f n && fitsAll fs n
end

mutual
theorem fits_iff : ∀ (f : Formula Clause) (n : Nat), fits f n = true ↔ FitsIn n f
  | .leaf c, n => by
    rw [fits, decide_eq_true_iff]
    constructor
    · exact .leaf
    · rintro ⟨h⟩
      assumption
  | .all fs, n => by
    rw [fits, Bool.and_eq_true, Bool.and_eq_true, decide_eq_true_iff, List.all_eq_true,
      fitsAll_iff fs n]
    constructor
    · exact fun h => .all h.1.1 h.1.2 h.2
    · rintro ⟨⟩
      exact ⟨⟨‹_›, ‹_›⟩, ‹_›⟩
  | .any fs, n => by
    rw [fits, Bool.and_eq_true, Bool.and_eq_true, decide_eq_true_iff, List.all_eq_true,
      fitsAll_iff fs n]
    constructor
    · exact fun h => .any h.1.1 h.1.2 h.2
    · rintro ⟨⟩
      exact ⟨⟨‹_›, ‹_›⟩, ‹_›⟩
  | .group f, 0 => by
    constructor
    · intro h
      cases h
    · rintro ⟨⟩
  | .group f, n + 1 => by
    rw [fits, fits_iff f n]
    constructor
    · exact .group
    · rintro ⟨⟩
      assumption

theorem fitsAll_iff : ∀ (fs : List (Formula Clause)) (n : Nat),
    fitsAll fs n = true ↔ ∀ f ∈ fs, FitsIn n f
  | [], n => by simp [fitsAll]
  | f :: fs, n => by
    rw [fitsAll, Bool.and_eq_true, fits_iff f n, fitsAll_iff fs n, List.forall_mem_cons]
end

instance (f : Formula Clause) : Decidable (WellFormed f) := decidable_of_iff _ (fits_iff f maxNesting)

/-! ## Spellings -/

/-- The tokens of the literal of a clause. -/
def SpellsValue : Option String → List Token → Prop
  | none, ts => ts = []
  | some v, ts => ∃ t, ts = [t] ∧ t.kind = .value ∧ t.text = v

/-- A column, at the offset of the clause, then its operator, then its literal. -/
def SpellsClause (c : Clause) (ts : List Token) : Prop :=
  ∃ column operator value, ts = column :: operator :: value ∧
    column.kind = .column ∧ Text.trim column.text.toList = c.column.toList ∧
    column.start = c.offset ∧ operator.kind = .operator ∧
    Operator.ofKeyword? operator.text.toList = some c.operator ∧ SpellsValue c.value value

mutual
/-- A token list is the written form of a formula. -/
def Spells : Formula Clause → List Token → Prop
  | .leaf c, ts => SpellsClause c ts
  | .all fs, ts => SpellsChain .and fs ts
  | .any fs, ts => SpellsChain .or fs ts
  | .group f, ts => ∃ left inner right, ts = left :: (inner ++ [right]) ∧
      left.conjunction? = some .opening ∧ Spells f inner ∧ right.conjunction? = some .closing

/-- A token list is the written form of operands with a conjunction between any two. -/
def SpellsChain (k : Conjunction) : List (Formula Clause) → List Token → Prop
  | [], _ => False
  | [f], ts => Spells f ts
  | f :: fs, ts => ∃ first between rest, ts = first ++ between :: rest ∧ Spells f first ∧
      between.conjunction? = some k ∧ SpellsChain k fs rest
end

/-- Operands of a chain that goes on: the conjunction stands behind each of them. -/
def SpellsEach (k : Conjunction) : List (Formula Clause) → List Token → Prop
  | [], ts => ts = []
  | f :: fs, ts => ∃ first between rest, ts = first ++ between :: rest ∧ Spells f first ∧
      between.conjunction? = some k ∧ SpellsEach k fs rest

theorem SpellsEach.concat {k : Conjunction} {fs : List (Formula Clause)} {f : Formula Clause}
    {a s : List Token} {t : Token} (h : SpellsEach k fs a) (hf : Spells f s)
    (ht : t.conjunction? = some k) : SpellsEach k (fs ++ [f]) (a ++ s ++ [t]) := by
  induction fs generalizing a with
  | nil =>
    cases h
    exact ⟨s, t, [], by simp, hf, ht, rfl⟩
  | cons g fs ih =>
    obtain ⟨first, between, rest, rfl, hg, hb, hrest⟩ := h
    exact ⟨first, between, rest ++ s ++ [t], by simp, hg, hb, ih hrest⟩

theorem SpellsEach.chain {k : Conjunction} {fs : List (Formula Clause)} {f : Formula Clause}
    {a s : List Token} (h : SpellsEach k fs a) (hf : Spells f s) :
    SpellsChain k (fs ++ [f]) (a ++ s) := by
  induction fs generalizing a with
  | nil =>
    cases h
    exact hf
  | cons g fs ih =>
    obtain ⟨first, between, rest, rfl, hg, hb, hrest⟩ := h
    have htail := ih hrest
    -- the rest of the chain has an operand, so the last equation of `SpellsChain` applies
    cases fs with
    | nil => exact ⟨first, between, rest ++ s, by simp, hg, hb, htail⟩
    | cons g' fs => exact ⟨first, between, rest ++ s, by simp, hg, hb, htail⟩

/-! ## Runs of the reader -/

namespace Reading

theorem run_cons {r r' : Reading} {t : Token} (h : r.step t = .ok r') (ts : List Token) :
    r.run (t :: ts) = r'.run ts := by
  rw [run, List.foldlM_cons, h]
  rfl

theorem run_append_ok {r r' : Reading} {s : List Token} (h : r.run s = .ok r') (t : List Token) :
    r.run (s ++ t) = r'.run t := by
  rw [run_append, h]
  rfl

theorem step_opening {r : Reading} {t : Token} (hr : r.await = .operand)
    (ht : t.conjunction? = some .opening) (hdepth : r.opened.length < maxNesting) :
    r.step t = .ok ⟨(t.start, r.chain) :: r.opened, .empty, .operand⟩ := by
  rw [step, hr]
  show r.readOperand t = _
  rw [readOperand, if_pos ht, if_neg (by omega)]

theorem step_and {r : Reading} {t : Token} (hr : r.await = .connective)
    (ht : t.conjunction? = some .and) : r.step t = .ok { r with await := .operand } := by
  rw [step, hr]
  show r.readConnective t = _
  rw [readConnective, ht]

theorem step_or {r : Reading} {t : Token} (hr : r.await = .connective)
    (ht : t.conjunction? = some .or) : r.step t = .ok ⟨r.opened, r.chain.split, .operand⟩ := by
  rw [step, hr]
  show r.readConnective t = _
  rw [readConnective, ht]

theorem step_closing {pos : Nat} {outer chain : Chain} {opened : List (Nat × Chain)} {t : Token}
    (ht : t.conjunction? = some .closing) :
    step ⟨(pos, outer) :: opened, chain, .connective⟩ t =
      .ok ⟨opened, outer.push (.group chain.formula), .connective⟩ := by
  show readConnective _ t = _
  rw [readConnective, ht]

theorem not_conjunction {t : Token} {k : TokenKind} (ht : t.kind = k) (hk : k ≠ .conjunction) :
    t.conjunction? = none := by
  rw [Token.conjunction?, if_neg (by rw [ht]; exact hk)]

/-- A clause is read as one operand. -/
theorem run_clause {r : Reading} {c : Clause} {ts : List Token} (hr : r.await = .operand)
    (hc : c.WellFormed) (h : SpellsClause c ts) : r.run ts = .ok (r.complete (.leaf c)) := by
  obtain ⟨column, operator, value, rfl, hck, hct, hcs, hok, hop, hv⟩ := h
  have h1 : r.step column = .ok { r with await := .operator c.column c.offset } := by
    rw [step, hr]
    show r.readOperand column = _
    have hne : c.column.toList.isEmpty = false := List.isEmpty_eq_false_iff.2 hc.column_ne
    rw [readOperand, not_conjunction hck (by decide), if_neg (by decide), if_pos hck]
    simp only [hct, hne, hcs, String.ofList_toList, Bool.false_eq_true, if_false]
  rw [run_cons h1]
  -- whether a literal follows is decided by the clause, since it is well formed
  have hstep : step { r with await := .operator c.column c.offset } operator =
      readOperator { r with await := .operator c.column c.offset } c.column c.offset operator := rfl
  cases hval : c.value with
  | none =>
    have harity := hc.arity_of_none hval
    rw [hval] at hv
    cases hv
    have h2 : step { r with await := .operator c.column c.offset } operator =
        .ok (r.complete (.leaf c)) := by
      rw [hstep, readOperator, if_pos hok, hop]
      simp only [if_neg harity, complete]
      rw [← hval]
    rw [run_cons h2]
    rfl
  | some v =>
    have harity := hc.arity_of_some hval
    rw [hval] at hv
    obtain ⟨t, rfl, htk, htt⟩ := hv
    have h2 : step { r with await := .operator c.column c.offset } operator =
        .ok { r with await := .value c.column c.offset c.operator } := by
      rw [hstep, readOperator, if_pos hok, hop]
      simp only [if_pos harity]
    have h3 : step { r with await := .value c.column c.offset c.operator } t =
        .ok (r.complete (.leaf c)) := by
      show readValue _ c.column c.offset c.operator t = _
      rw [readValue, if_pos htk, htt, ← hval]
      rfl
    rw [run_cons h2, run_cons h3]
    rfl

/-! ## Spellings are read -/

/-- What reading a spelling of a formula does, by the place where the formula may stand, while `n` more
parentheses may be opened. -/
structure Reads (n : Nat) (f : Formula Clause) : Prop where
  /-- An operand is added to the `and` chain. -/
  primary : f.isPrimary = true → ∀ {r : Reading} {ts : List Token}, r.await = .operand →
    r.opened.length + n ≤ maxNesting → Spells f ts → r.run ts = .ok (r.complete f)
  /-- The `and` chain that is read next is the formula. -/
  disjunct : f.isDisjunct = true → ∀ (opened : List (Nat × Chain)) (done : List (Formula Clause))
    {ts : List Token}, opened.length + n ≤ maxNesting → Spells f ts →
    ∃ fs, run ⟨opened, ⟨done, []⟩, .operand⟩ ts = .ok ⟨opened, ⟨done, fs⟩, .connective⟩ ∧
      chainAll fs = f
  /-- What is read inside new parentheses is the formula. -/
  whole : ∀ (opened : List (Nat × Chain)) {ts : List Token}, opened.length + n ≤ maxNesting →
    Spells f ts → ∃ c, run ⟨opened, .empty, .operand⟩ ts = .ok ⟨opened, c, .connective⟩ ∧
      c.formula = f

/-- For a disjunct it is enough to know how it is read as one. -/
theorem Reads.of_disjunct {n : Nat} {f : Formula Clause}
    (hp : f.isPrimary = true → ∀ {r : Reading} {ts : List Token}, r.await = .operand →
      r.opened.length + n ≤ maxNesting → Spells f ts → r.run ts = .ok (r.complete f))
    (hd : ∀ (opened : List (Nat × Chain)) (done : List (Formula Clause)) {ts : List Token},
      opened.length + n ≤ maxNesting → Spells f ts →
      ∃ fs, run ⟨opened, ⟨done, []⟩, .operand⟩ ts = .ok ⟨opened, ⟨done, fs⟩, .connective⟩ ∧
        chainAll fs = f) : Reads n f := by
  refine ⟨hp, fun _ => hd, ?_⟩
  intro opened _ hdepth hs
  obtain ⟨fs, hrun, hf⟩ := hd opened [] hdepth hs
  exact ⟨⟨[], fs⟩, hrun, hf⟩

/-- For a leaf or a group it is enough to know how it is read as an operand. -/
theorem Reads.of_primary {n : Nat} {f : Formula Clause}
    (h : ∀ {r : Reading} {ts : List Token}, r.await = .operand →
      r.opened.length + n ≤ maxNesting → Spells f ts → r.run ts = .ok (r.complete f)) :
    Reads n f :=
  .of_disjunct (fun _ => h) fun _ _ _ hdepth hs => ⟨[f], h rfl hdepth hs, rfl⟩

/-- Operands with `and` between them are added to the `and` chain one by one. -/
theorem run_and_chain {n : Nat} {opened : List (Nat × Chain)} {done : List (Formula Clause)}
    (hdepth : opened.length + n ≤ maxNesting) {fs : List (Formula Clause)}
    (hfs : ∀ f ∈ fs, f.isPrimary = true ∧ Reads n f) (read : List (Formula Clause))
    {ts : List Token} (h : SpellsChain .and fs ts) :
    run ⟨opened, ⟨done, read⟩, .operand⟩ ts =
      .ok ⟨opened, ⟨done, read ++ fs⟩, .connective⟩ := by
  induction fs generalizing read ts with
  | nil => cases h
  | cons f fs ih =>
    obtain ⟨hp, hf⟩ := hfs f List.mem_cons_self
    cases fs with
    | nil => exact hf.primary hp rfl hdepth h
    | cons g fs =>
      obtain ⟨first, between, rest, rfl, hfirst, hb, hrest⟩ := h
      -- the operand, the `and` behind it, and then the rest of the chain
      rw [run_append_ok (hf.primary hp rfl hdepth hfirst), run_cons (step_and rfl hb)]
      have htail := ih (fun f' hf' => hfs f' (List.mem_cons_of_mem _ hf')) (read ++ [f]) hrest
      rw [List.append_assoc, List.singleton_append] at htail
      exact htail

/-- Disjuncts with `or` between them are added to the `or` chain one by one. -/
theorem run_or_chain {n : Nat} {opened : List (Nat × Chain)}
    (hdepth : opened.length + n ≤ maxNesting) {fs : List (Formula Clause)}
    (hfs : ∀ f ∈ fs, f.isDisjunct = true ∧ Reads n f) (done : List (Formula Clause))
    {ts : List Token} (h : SpellsChain .or fs ts) :
    ∃ c, run ⟨opened, ⟨done, []⟩, .operand⟩ ts = .ok ⟨opened, c, .connective⟩ ∧
      c.done ++ [chainAll c.current] = done ++ fs := by
  induction fs generalizing done ts with
  | nil => cases h
  | cons f fs ih =>
    obtain ⟨hd, hf⟩ := hfs f List.mem_cons_self
    cases fs with
    | nil =>
      -- no `or` follows, so the last disjunct is still the current chain at the end
      obtain ⟨current, hrun, hcur⟩ := hf.disjunct hd opened done hdepth h
      exact ⟨⟨done, current⟩, hrun, by rw [hcur]⟩
    | cons g fs =>
      obtain ⟨first, between, rest, rfl, hfirst, hb, hrest⟩ := h
      obtain ⟨current, hrun, hcur⟩ := hf.disjunct hd opened done hdepth hfirst
      rw [run_append_ok hrun, run_cons (step_or rfl hb)]
      obtain ⟨c, htail, hc⟩ :=
        ih (fun f' hf' => hfs f' (List.mem_cons_of_mem _ hf')) (done ++ [chainAll current]) hrest
      refine ⟨c, htail, ?_⟩
      rw [hc, hcur, List.append_assoc, List.singleton_append]

end Reading

open Reading in
/-- A spelling of a formula is read as that formula, wherever it may stand. -/
theorem FitsIn.readable {n : Nat} {f : Formula Clause} (h : FitsIn n f) : Reads n f := by
  induction h with
  | leaf hc => exact .of_primary fun hr _ hs => run_clause hr hc hs
  | all hlen hp _ ih =>
    refine .of_disjunct (fun h => nomatch h) fun _ _ _ hdepth hs =>
      ⟨_, ?_, Formula.chainAll_of_two_le hlen⟩
    exact run_and_chain hdepth (fun f hf => ⟨hp f hf, ih f hf⟩) [] hs
  | any hlen hd _ ih =>
    -- an `or` chain is an operand of no chain: it is read inside parentheses or as the whole query
    refine ⟨fun h => (nomatch h), fun h => (nomatch h), ?_⟩
    intro _ _ hdepth hs
    obtain ⟨c, hrun, hc⟩ := run_or_chain hdepth (fun f hf => ⟨hd f hf, ih f hf⟩) [] hs
    exact ⟨c, hrun, by rw [Chain.formula, hc]; exact Formula.chainAny_of_two_le hlen⟩
  | @group m g _ ih =>
    refine .of_primary fun {r ts} hr hdepth hs => ?_
    obtain ⟨left, inner, right, rfl, hl, hinner, hright⟩ := hs
    -- the inner formula is read one level deeper, where one parenthesis less may be opened
    have hopen : r.opened.length < maxNesting := by omega
    have hinside : ((left.start, r.chain) :: r.opened).length + m ≤ maxNesting := by
      rw [List.length_cons]
      omega
    rw [run_cons (step_opening hr hl hopen)]
    obtain ⟨c, hrun, hc⟩ := ih.whole ((left.start, r.chain) :: r.opened) hinside hinner
    rw [run_append_ok hrun, run_cons (step_closing hright), hc]
    rfl

theorem WellFormed.run {f : Formula Clause} (h : WellFormed f) {ts : List Token}
    (hs : Spells f ts) :
    ∃ c, Reading.start.run ts = .ok ⟨[], c, .connective⟩ ∧ c.formula = f :=
  (FitsIn.readable h).whole [] (Nat.le_of_eq (Nat.zero_add _)) hs

/-- Reading is deterministic, so nothing can be read in two ways. -/
theorem spells_unique {f g : Formula Clause} {ts : List Token} (hf : WellFormed f)
    (hg : WellFormed g) (hfs : Spells f ts) (hgs : Spells g ts) : f = g := by
  obtain ⟨c, hc, rfl⟩ := hf.run hfs
  obtain ⟨d, hd, rfl⟩ := hg.run hgs
  rw [hc] at hd
  cases hd
  rfl

end Query

end RowFilter
