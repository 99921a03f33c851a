import Mathlib.Data.List.DropRight
import RowFilter.Proofs.Grammar

/-!
# RowFilter — what the reader accepts

The reader accepts the spellings of well-formed formulas and no other token lists. The invariant says
what a state of the reader remembers of the tokens that were read: for every open parenthesis the
chains before it, then the chains inside the innermost one, then the tokens of a clause that is not
complete. One step keeps it, so it holds after every run, and at the end it is a derivation that the
tokens spell the formula.

Main results:

* `Reading.Holds.step`, `Reading.Holds.run` — the invariant is kept by a step and so by a run.
* `readTokens_accepts_spellings` — the reader accepts the spellings of well-formed formulas.
-/

namespace RowFilter

/-! ## Trimmed names -/

theorem Text.trimStart_trim (s : List Char) : trimStart (trim s) = trim s :=
  trimStart_trimEnd (List.dropWhile_idempotent isBlank s)

/-- A trimmed text has no blanks to trim. -/
theorem Text.trim_trim (s : List Char) : trim (trim s) = trim s := by
  rw [trim, trimStart_trim]
  exact List.rdropWhile_idempotent isBlank (trimStart s)

namespace Query

open Formula (chainAll chainAny)

/-! ## Chains that were read -/

/-- The chains of one level while an operand is awaited: behind every operand stands its conjunction. -/
def Chain.Awaits (n : Nat) (c : Chain) (ts : List Token) : Prop :=
  ∃ a b, ts = a ++ b ∧ SpellsEach .or c.done a ∧ SpellsEach .and c.current b ∧
    (∀ f ∈ c.done, f.isDisjunct = true ∧ FitsIn n f) ∧
    (∀ f ∈ c.current, f.isPrimary = true ∧ FitsIn n f)

/-- The chains of one level behind an operand. -/
def Chain.Ends (n : Nat) (c : Chain) (ts : List Token) : Prop :=
  ∃ c' f a s, c = Chain.push c' f ∧ ts = a ++ s ∧ c'.Awaits n a ∧ Spells f s ∧
    f.isPrimary = true ∧ FitsIn n f

namespace Chain

variable {n : Nat} {c : Chain} {ts : List Token}

theorem awaits_empty (n : Nat) : Chain.empty.Awaits n [] :=
  ⟨[], [], rfl, rfl, rfl, fun _ hf => (nomatch hf), fun _ hf => (nomatch hf)⟩

theorem Awaits.push {f : Formula Clause} {s : List Token} (h : c.Awaits n ts) (hs : Spells f s)
    (hp : f.isPrimary = true) (hf : FitsIn n f) : (c.push f).Ends n (ts ++ s) :=
  ⟨c, f, ts, s, rfl, rfl, h, hs, hp, hf⟩

theorem fitsIn_chainAll {fs : List (Formula Clause)} (hne : fs ≠ [])
    (h : ∀ f ∈ fs, f.isPrimary = true ∧ FitsIn n f) :
    (chainAll fs).isDisjunct = true ∧ FitsIn n (chainAll fs) := by
  match fs, hne with
  | [f], _ =>
    obtain ⟨hp, hf⟩ := h f List.mem_cons_self
    exact ⟨Formula.isDisjunct_of_isPrimary hp, hf⟩
  | f :: g :: fs, _ =>
    exact ⟨rfl, .all (by simp) (fun f hf => (h f hf).1) fun f hf => (h f hf).2⟩

theorem fitsIn_chainAny {fs : List (Formula Clause)} (hne : fs ≠ [])
    (h : ∀ f ∈ fs, f.isDisjunct = true ∧ FitsIn n f) : FitsIn n (chainAny fs) := by
  match fs, hne with
  | [f], _ => exact (h f List.mem_cons_self).2
  | f :: g :: fs, _ => exact .any (by simp) (fun f hf => (h f hf).1) fun f hf => (h f hf).2

theorem spells_chainAll {fs : List (Formula Clause)} (h : SpellsChain .and fs ts) :
    Spells (chainAll fs) ts := by
  match fs, h with
  | [_], h => exact h
  | _ :: _ :: _, h => exact h

theorem spells_chainAny {fs : List (Formula Clause)} (h : SpellsChain .or fs ts) :
    Spells (chainAny fs) ts := by
  match fs, h with
  | [_], h => exact h
  | _ :: _ :: _, h => exact h

/-- Behind an operand the `and` chain is an operand of the `or` chain. -/
theorem Ends.disjunct (h : c.Ends n ts) :
    ∃ a b, ts = a ++ b ∧ SpellsEach .or c.done a ∧ Spells (chainAll c.current) b ∧
      (∀ f ∈ c.done, f.isDisjunct = true ∧ FitsIn n f) ∧
      (chainAll c.current).isDisjunct = true ∧ FitsIn n (chainAll c.current) := by
  obtain ⟨c', f, _, s, rfl, rfl, ⟨a, b, rfl, ha, hb, hdone, hcur⟩, hs, hp, hf⟩ := h
  refine ⟨a, b ++ s, by simp, ha, spells_chainAll (hb.chain hs), hdone, ?_⟩
  exact fitsIn_chainAll (by simp [Chain.push])
    (List.forall_mem_append.2 ⟨hcur, List.forall_mem_singleton.2 ⟨hp, hf⟩⟩)

theorem Ends.and {t : Token} (h : c.Ends n ts) (ht : t.conjunction? = some .and) :
    c.Awaits n (ts ++ [t]) := by
  obtain ⟨c', f, _, s, rfl, rfl, ⟨a, b, rfl, ha, hb, hdone, hcur⟩, hs, hp, hf⟩ := h
  refine ⟨a, b ++ s ++ [t], by simp, ha, hb.concat hs ht, hdone, ?_⟩
  exact List.forall_mem_append.2 ⟨hcur, List.forall_mem_singleton.2 ⟨hp, hf⟩⟩

theorem Ends.or {t : Token} (h : c.Ends n ts) (ht : t.conjunction? = some .or) :
    c.split.Awaits n (ts ++ [t]) := by
  obtain ⟨a, b, rfl, ha, hb, hdone, hd, hf⟩ := h.disjunct
  -- the `or` ends the `and` chain, so nothing of the current chain remains
  refine ⟨a ++ b ++ [t], [], by simp, ha.concat hb ht, rfl, ?_, fun g hg => (nomatch hg)⟩
  exact List.forall_mem_append.2 ⟨hdone, List.forall_mem_singleton.2 ⟨hd, hf⟩⟩

/-- Behind an operand the chains of a level are a formula. -/
theorem Ends.formula (h : c.Ends n ts) : Spells c.formula ts ∧ FitsIn n c.formula := by
  obtain ⟨a, b, rfl, ha, hb, hdone, hd, hf⟩ := h.disjunct
  refine ⟨spells_chainAny (ha.chain hb), fitsIn_chainAny (by simp) ?_⟩
  exact List.forall_mem_append.2 ⟨hdone, List.forall_mem_singleton.2 ⟨hd, hf⟩⟩

end Chain

/-! ## States of the reader -/

/-- The tokens in front of the innermost open parenthesis, and that parenthesis. -/
def Opened : List (Nat × Chain) → List Token → Prop
  | [], ts => ts = []
  | (_, outer) :: opened, ts => ∃ a b t, ts = a ++ b ++ [t] ∧ Opened opened a ∧
      outer.Awaits (maxNesting - opened.length) b ∧ t.conjunction? = some .opening ∧
      opened.length < maxNesting

/-- A token that is a column with a name, at an offset. -/
def IsColumn (t : Token) (column : String) (offset : Nat) : Prop :=
  t.kind = .column ∧ Text.trim t.text.toList = column.toList ∧ column.toList ≠ [] ∧
    t.start = offset

/-- A token that is an operator. -/
def IsOperator (t : Token) (op : Operator) : Prop :=
  t.kind = .operator ∧ Operator.ofKeyword? t.text.toList = some op

namespace Reading

/-- The tokens that were read since the innermost open parenthesis. -/
def Inside (r : Reading) (ts : List Token) : Prop :=
  match r.await with
  | .operand => r.chain.Awaits (maxNesting - r.opened.length) ts
  | .operator column offset => ∃ a t, ts = a ++ [t] ∧
      r.chain.Awaits (maxNesting - r.opened.length) a ∧ IsColumn t column offset
  | .value column offset op => ∃ a t o, ts = a ++ [t, o] ∧
      r.chain.Awaits (maxNesting - r.opened.length) a ∧ IsColumn t column offset ∧
      IsOperator o op ∧ op.arity = 1
  | .connective => r.chain.Ends (maxNesting - r.opened.length) ts

/-- The invariant: what a state remembers is what was read. -/
def Holds (r : Reading) (ts : List Token) : Prop :=
  ∃ a b, ts = a ++ b ∧ Opened r.opened a ∧ r.Inside b

theorem holds_start : start.Holds [] :=
  ⟨[], [], rfl, rfl, Chain.awaits_empty _⟩

/-! ## What one step can do -/

variable {r r' : Reading} {t : Token}

theorem readOperand_eq_ok (h : r.readOperand t = .ok r') :
    (t.conjunction? = some .opening ∧ r.opened.length < maxNesting ∧
      r' = ⟨(t.start, r.chain) :: r.opened, .empty, .operand⟩) ∨
    (∃ column, IsColumn t column t.start ∧ r' = { r with await := .operator column t.start }) := by
  unfold readOperand at h
  split at h
  · rename_i ht
    split at h
    · cases h
    · cases h
      exact .inl ⟨ht, by omega, rfl⟩
  · split at h
    · rename_i hk
      simp only at h
      split at h
      · cases h
      · rename_i hne
        cases h
        refine .inr ⟨_, ⟨hk, by rw [String.toList_ofList], ?_, rfl⟩, rfl⟩
        rw [String.toList_ofList]
        intro he
        rw [he] at hne
        exact hne rfl
    · cases h

theorem readOperator_eq_ok {column : String} {offset : Nat}
    (h : r.readOperator column offset t = .ok r') :
    ∃ op, IsOperator t op ∧
      ((op.arity = 1 ∧ r' = { r with await := .value column offset op }) ∨
        (op.arity ≠ 1 ∧ r' = r.complete (.leaf ⟨column, offset, op, none⟩))) := by
  unfold readOperator at h
  split at h
  · rename_i hk
    split at h
    · cases h
    · rename_i op hop
      refine ⟨op, ⟨hk, hop⟩, ?_⟩
      split at h
      · rename_i ha
        cases h
        exact .inl ⟨ha, rfl⟩
      · rename_i ha
        cases h
        exact .inr ⟨ha, rfl⟩
  · cases h

theorem readValue_eq_ok {column : String} {offset : Nat} {op : Operator}
    (h : r.readValue column offset op t = .ok r') :
    t.kind = .value ∧ r' = r.complete (.leaf ⟨column, offset, op, some t.text⟩) := by
  unfold readValue at h
  split at h
  · rename_i hk
    cases h
    exact ⟨hk, rfl⟩
  · cases h

theorem readConnective_eq_ok (h : r.readConnective t = .ok r') :
    (t.conjunction? = some .and ∧ r' = { r with await := .operand }) ∨
    (t.conjunction? = some .or ∧ r' = ⟨r.opened, r.chain.split, .operand⟩) ∨
    (t.conjunction? = some .closing ∧ ∃ pos outer opened, r.opened = (pos, outer) :: opened ∧
      r' = ⟨opened, outer.push (.group r.chain.formula), .connective⟩) := by
  unfold readConnective at h
  split at h
  · rename_i hk
    cases h
    exact .inl ⟨hk, rfl⟩
  · rename_i hk
    cases h
    exact .inr (.inl ⟨hk, rfl⟩)
  · rename_i hk ho
    cases h
    exact .inr (.inr ⟨hk, _, _, _, ho, rfl⟩)
  · cases h
  · cases h

theorem wellFormed_clause {column : String} {offset : Nat} {op : Operator} {value : Option String}
    (ht : IsColumn t column offset) (hv : value.isSome = true ↔ op.arity = 1) :
    Clause.WellFormed ⟨column, offset, op, value⟩ where
  column_ne := ht.2.2.1
  column_trim := by
    show Text.trim column.toList = column.toList
    rw [← ht.2.1, Text.trim_trim]
  value_iff := hv

/-! ## The invariant is kept -/

/-- A complete clause is an operand. -/
theorem ends_clause {n : Nat} {c : Chain} {a ts : List Token} {clause : Clause}
    (h : c.Awaits n a) (hc : clause.WellFormed) (hs : SpellsClause clause ts) :
    (c.push (.leaf clause)).Ends n (a ++ ts) :=
  h.push hs rfl (.leaf hc)

theorem Holds.readOperand {ts : List Token} (h : r.Holds ts) (hr : r.await = .operand)
    (hs : r.readOperand t = .ok r') : r'.Holds (ts ++ [t]) := by
  obtain ⟨a, b, rfl, ho, hb⟩ := h
  rw [Inside, hr] at hb
  rcases readOperand_eq_ok hs with ⟨ht, hdepth, rfl⟩ | ⟨column, ht, rfl⟩
  · -- a parenthesis: what was read on this level is now outside
    exact ⟨a ++ b ++ [t], [], by simp, ⟨a, b, t, rfl, ho, hb, ht, hdepth⟩, Chain.awaits_empty _⟩
  · exact ⟨a, b ++ [t], by simp, ho, b, t, rfl, hb, ht⟩

theorem Holds.readOperator {column : String} {offset : Nat} {ts : List Token} (h : r.Holds ts)
    (hr : r.await = .operator column offset) (hs : r.readOperator column offset t = .ok r') :
    r'.Holds (ts ++ [t]) := by
  obtain ⟨a, b, rfl, ho, hb⟩ := h
  rw [Inside, hr] at hb
  obtain ⟨b, u, rfl, hb, hu⟩ := hb
  obtain ⟨op, hop, ⟨ha, rfl⟩ | ⟨ha, rfl⟩⟩ := readOperator_eq_ok hs
  · -- the literal is still to come
    exact ⟨a, b ++ [u, t], by simp, ho, b, u, t, rfl, hb, hu, hop, ha⟩
  · -- the clause is complete
    refine ⟨a, b ++ [u, t], by simp, ho, ?_⟩
    refine ends_clause hb (wellFormed_clause hu ?_) ⟨u, t, [], rfl, hu.1, hu.2.1, hu.2.2.2,
      hop.1, hop.2, rfl⟩
    exact ⟨fun h => (nomatch h), fun h => absurd h ha⟩

theorem Holds.readValue {column : String} {offset : Nat} {op : Operator} {ts : List Token}
    (h : r.Holds ts) (hr : r.await = .value column offset op)
    (hs : r.readValue column offset op t = .ok r') : r'.Holds (ts ++ [t]) := by
  obtain ⟨a, b, rfl, ho, hb⟩ := h
  rw [Inside, hr] at hb
  obtain ⟨b, u, o, rfl, hb, hu, hop, ha⟩ := hb
  obtain ⟨ht, rfl⟩ := readValue_eq_ok hs
  refine ⟨a, b ++ [u, o, t], by simp, ho, ?_⟩
  exact ends_clause hb (wellFormed_clause hu ⟨fun _ => ha, fun _ => rfl⟩)
    ⟨u, o, [t], rfl, hu.1, hu.2.1, hu.2.2.2, hop.1, hop.2, t, rfl, ht, rfl⟩

theorem Holds.readConnective {ts : List Token} (h : r.Holds ts) (hr : r.await = .connective)
    (hs : r.readConnective t = .ok r') : r'.Holds (ts ++ [t]) := by
  obtain ⟨a, b, rfl, ho, hb⟩ := h
  rw [Inside, hr] at hb
  rcases readConnective_eq_ok hs with ⟨ht, rfl⟩ | ⟨ht, rfl⟩ | ⟨ht, pos, outer, opened, he, rfl⟩
  · exact ⟨a, b ++ [t], by simp, ho, hb.and ht⟩
  · exact ⟨a, b ++ [t], by simp, ho, hb.or ht⟩
  · -- a closing parenthesis: the group is an operand of the level outside
    rw [he] at ho hb
    obtain ⟨a, c, l, rfl, ho, hc, hl, hdepth⟩ := ho
    obtain ⟨hspell, hfits⟩ := hb.formula
    refine ⟨a, c ++ (l :: (b ++ [t])), by simp, ho, ?_⟩
    refine hc.push ⟨l, b, t, rfl, hl, hspell, ht⟩ rfl ?_
    -- one level less remains inside the group than outside
    have hn : maxNesting - opened.length = maxNesting - (opened.length + 1) + 1 := by omega
    show FitsIn (maxNesting - opened.length) _
    rw [hn]
    exact .group hfits

theorem Holds.step {ts : List Token} (h : r.Holds ts) (hs : r.step t = .ok r') :
    r'.Holds (ts ++ [t]) := by
  unfold Reading.step at hs
  split at hs
  · rename_i hr
    exact h.readOperand hr hs
  · rename_i hr
    exact h.readOperator hr hs
  · rename_i hr
    exact h.readValue hr hs
  · rename_i hr
    exact h.readConnective hr hs

theorem Holds.run {ts us : List Token} (h : r.Holds ts) (hrun : r.run us = .ok r') :
    r'.Holds (ts ++ us) := by
  induction us generalizing r ts with
  | nil =>
    cases hrun
    simpa using h
  | cons u us ih =>
    -- the run went on, so the step over the first token did not fail
    cases hs : r.step u with
    | error e =>
      rw [Reading.run, List.foldlM_cons, hs] at hrun
      cases hrun
    | ok r₁ =>
      rw [run_cons hs] at hrun
      simpa using ih (h.step hs) hrun

theorem finish_eq_ok {stop : Nat} {f : Formula Clause} (h : r.finish stop = .ok f) :
    r.await = .connective ∧ r.opened = [] ∧ r.chain.formula = f := by
  unfold finish at h
  split at h
  · cases h
  · cases h
  · cases h
  · cases h
  · rename_i ha ho
    cases h
    exact ⟨ha, ho, rfl⟩

/-! ## Errors -/

theorem readOperand_error {e : FilterError} (h : r.readOperand t = .error e) :
    ∃ fault, e = .querySyntax t.start fault := by
  unfold readOperand at h
  split at h
  · split at h <;> cases h
    exact ⟨_, rfl⟩
  · split at h
    · simp only at h
      split at h <;> cases h
      exact ⟨_, rfl⟩
    · cases h
      exact ⟨_, rfl⟩

theorem readOperator_error {column : String} {offset : Nat} {e : FilterError}
    (h : r.readOperator column offset t = .error e) : ∃ fault, e = .querySyntax t.start fault := by
  unfold readOperator at h
  split at h
  · split at h
    · cases h
      exact ⟨_, rfl⟩
    · split at h <;> cases h
  · cases h
    exact ⟨_, rfl⟩

theorem readValue_error {column : String} {offset : Nat} {op : Operator} {e : FilterError}
    (h : r.readValue column offset op t = .error e) : ∃ fault, e = .querySyntax t.start fault := by
  unfold readValue at h
  split at h <;> cases h
  exact ⟨_, rfl⟩

/-- Behind an operand the error may also be that of a parenthesis that is open. -/
theorem readConnective_error {e : FilterError} (h : r.readConnective t = .error e) :
    ∃ offset fault, e = .querySyntax offset fault ∧
      (offset = t.start ∨ offset ∈ r.opened.map Prod.fst) := by
  unfold readConnective at h
  split at h
  · cases h
  · cases h
  · cases h
  · rename_i ho _ _ _
    cases h
    exact ⟨_, _, rfl, .inr (by rw [ho]; exact List.mem_cons_self)⟩
  · cases h
    exact ⟨_, _, rfl, .inl rfl⟩

/-- A token that is not read is named itself, or a parenthesis that is open is. -/
theorem step_error {e : FilterError} (h : r.step t = .error e) :
    ∃ offset fault, e = .querySyntax offset fault ∧
      (offset = t.start ∨ offset ∈ r.opened.map Prod.fst) := by
  have hhere : (∃ fault, e = .querySyntax t.start fault) → ∃ offset fault,
      e = .querySyntax offset fault ∧ (offset = t.start ∨ offset ∈ r.opened.map Prod.fst) :=
    fun ⟨fault, he⟩ => ⟨_, fault, he, .inl rfl⟩
  unfold step at h
  split at h
  · exact hhere (readOperand_error h)
  · exact hhere (readOperator_error h)
  · exact hhere (readValue_error h)
  · exact readConnective_error h

theorem run_error {us : List Token} {e : FilterError} (h : r.run us = .error e) :
    ∃ offset fault, e = .querySyntax offset fault := by
  induction us generalizing r with
  | nil => cases h
  | cons u us ih =>
    cases hs : r.step u with
    | error e' =>
      rw [run, List.foldlM_cons, hs] at h
      cases h
      obtain ⟨offset, fault, he, _⟩ := step_error hs
      exact ⟨offset, fault, he⟩
    | ok r₁ =>
      rw [run_cons hs] at h
      exact ih h

/-- At the end the end is named, or a parenthesis that is open. -/
theorem finish_error {stop : Nat} {e : FilterError} (h : r.finish stop = .error e) :
    ∃ offset fault, e = .querySyntax offset fault ∧
      (offset = stop ∨ offset ∈ r.opened.map Prod.fst) := by
  unfold finish at h
  split at h
  · cases h
    exact ⟨_, _, rfl, .inl rfl⟩
  · cases h
    exact ⟨_, _, rfl, .inl rfl⟩
  · cases h
    exact ⟨_, _, rfl, .inl rfl⟩
  · rename_i ho
    cases h
    exact ⟨_, _, rfl, .inr (by rw [ho]; exact List.mem_cons_self)⟩
  · cases h

end Reading

theorem readTokens_run {s : TokenStream} {stop : Nat} {f : Formula Clause}
    (h : readTokens s stop = .ok f) :
    ∃ r, Reading.start.run s.merged = .ok r ∧ r.finish stop = .ok f := by
  unfold readTokens at h
  split at h
  · cases h
  · cases hrun : Reading.start.run s.merged with
    | error e =>
      rw [hrun] at h
      cases h
    | ok r =>
      rw [hrun] at h
      exact ⟨r, rfl, h⟩

theorem readTokens_sound {s : TokenStream} {stop : Nat} {f : Formula Clause}
    (h : readTokens s stop = .ok f) : WellFormed f ∧ Spells f s.merged := by
  obtain ⟨r, hrun, hfinish⟩ := readTokens_run h
  obtain ⟨ha, ho, rfl⟩ := Reading.finish_eq_ok hfinish
  -- at the end no parenthesis is open, so all tokens lie on the outermost level
  obtain ⟨a, b, hm, hopened, hb⟩ := Reading.holds_start.run hrun
  rw [ho] at hopened
  cases hopened
  rw [Reading.Inside, ha, ho] at hb
  rw [List.nil_append] at hm
  rw [hm]
  exact hb.formula.symm

theorem readTokens_complete {s : TokenStream} {f : Formula Clause} (hf : WellFormed f)
    (h : Spells f s.merged) (stop : Nat) : readTokens s stop = .ok f := by
  obtain ⟨c, hrun, rfl⟩ := hf.run h
  have hne : s.merged.isEmpty = false := by
    rw [List.isEmpty_eq_false_iff]
    intro he
    -- without a token the reader would still await an operand
    rw [he] at hrun
    cases hrun
  rw [readTokens, hne, hrun]
  rfl

theorem readTokens_error {s : TokenStream} {stop : Nat} {e : FilterError}
    (h : readTokens s stop = .error e) : ∃ offset fault, e = .querySyntax offset fault := by
  unfold readTokens at h
  split at h
  · cases h
    exact ⟨_, _, rfl⟩
  · cases hrun : Reading.start.run s.merged with
    | error e' =>
      rw [hrun] at h
      cases h
      exact Reading.run_error hrun
    | ok r =>
      rw [hrun] at h
      obtain ⟨offset, fault, he, _⟩ := Reading.finish_error h
      exact ⟨offset, fault, he⟩

/-- **Acceptance.** The reader accepts exactly the spellings of well-formed formulas, whatever the
lists of a stream hold and wherever the query ends; a spelling has one formula only, and all other
token lists are syntax errors. -/
theorem readTokens_accepts_spellings (s : TokenStream) (stop : Nat) :
    (∀ f, readTokens s stop = .ok f ↔ WellFormed f ∧ Spells f s.merged) ∧
    (∀ ts f g, WellFormed f ∧ Spells f ts → WellFormed g ∧ Spells g ts → f = g) ∧
    ((¬ ∃ f, WellFormed f ∧ Spells f s.merged) →
      ∃ offset fault, readTokens s stop = .error (.querySyntax offset fault)) := by
  refine ⟨?_, ?_, ?_⟩
  · intro f
    constructor
    · exact readTokens_sound
    · intro h
      exact readTokens_complete h.1 h.2 stop
  · intro ts f g hf hg
    exact spells_unique hf.1 hg.1 hf.2 hg.2
  · intro hno
    cases h : readTokens s stop with
    | ok f => exact absurd ⟨f, readTokens_sound h⟩ hno
    | error e =>
      obtain ⟨offset, fault, rfl⟩ := readTokens_error h
      exact ⟨offset, fault, rfl⟩

end Query

end RowFilter
