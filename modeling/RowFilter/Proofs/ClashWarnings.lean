import RowFilter.Proofs.CompileOutcome
import RowFilter.Proofs.ShortCircuit

/-!
# RowFilter — clash warnings

An evaluator is asked about rows, one after the other: for the answer of the whole filter, or of one of its
predicates. On the way it compares cells with literals, and it notices a comparison of two values that have
no order, unless the predicate that makes it has had one before. Which comparisons are made can be told by
recording all of them, and that does not depend on what was noticed. So what is noticed is the first clash of
each predicate, and the answers are those of an evaluator that has not been asked anything before.

Main results:

* `Predicate.apply_eq_any_tried` — the answer of an equality or membership test by its comparisons.
* `Evaluator.run_testLeaf` — the clashes that a test notices on the way are those of its comparisons.
* `Evaluator.answer_single` — a test for equality or membership is answered by its comparisons.
* `Evaluator.run_ask` — an answer, and what has been noticed behind it, by the comparisons made.
* `Evaluator.mem_noticed_iff` — a clash is noticed just if it is the first one of its predicate.
* `clash_warned_once` — the warnings and the answers of an evaluator over any questions.
-/

namespace RowFilter

/-! ## Comparisons of one predicate -/

namespace Predicate

variable {p : Predicate} {cell v : Value} {vs : List Value}

/-- Neither value is missing, the column does not compare as text, and the two have no order. -/
def Clashes (p : Predicate) (cell literal : Value) : Prop :=
  cell.isNull = false ∧ literal.isNull = false ∧ p.type.isTextual = false ∧
    cell.compare? literal = none

instance (p : Predicate) (cell literal : Value) : Decidable (p.Clashes cell literal) :=
  inferInstanceAs (Decidable (_ ∧ _ ∧ _ ∧ _))

/-- The items of a list that a cell is compared with: those up to the first one that equals it. -/
def itemsTried (p : Predicate) (cell : Value) : List Value → List Value
  | [] => []
  | v :: vs => if p.equals cell v then [v] else v :: p.itemsTried cell vs

/-- The literals of an equality or membership test. -/
def literals (p : Predicate) : List Value :=
  match p.positive, p.operand with
  | .eq, .scalar v => [v]
  | .is, .scalar v => [v]
  | .inSet, .set vs => vs
  | .inUserList, .set vs => vs
  | _, _ => []

/-- The literals that a test for equality or membership compares a cell with, in their order. A missing
cell is compared with nothing. -/
def tried (p : Predicate) (cell : Value) : List Value :=
  if cell.isNull then [] else p.itemsTried cell p.literals

theorem any_itemsTried (p : Predicate) (cell : Value) (vs : List Value) :
    (p.itemsTried cell vs).any (p.equals cell) = vs.any (p.equals cell) := by
  induction vs with
  | nil => rfl
  | cons v vs ih =>
    rw [itemsTried]
    by_cases hequals : p.equals cell v = true
    · rw [if_pos hequals, List.any_cons, List.any_cons, hequals, Bool.true_or, Bool.true_or]
    · rw [if_neg hequals, List.any_cons, List.any_cons, ih]

/-- The answer of an equality or membership test is told by these comparisons. -/
theorem apply_eq_any_tried (h : p.literals ≠ []) (cell : Value) :
    p.apply p.positive cell = .ok ((p.tried cell).any (p.equals cell)) := by
  have hnull : p.positive ≠ .null := by
    intro hop
    rw [literals, hop] at h
    exact h rfl
  unfold apply tried
  rw [if_neg hnull]
  split
  · rfl
  · rw [any_itemsTried]
    unfold literals at h ⊢
    -- every operator without such literals is excluded
    split at h
    case h_5 => exact absurd rfl h
    all_goals simp [*]

/-- A cell that is not missing has no order with a literal just if the literal is missing or clashes. -/
theorem order?_eq_none_iff (hcell : cell.isNull = false) :
    p.order? cell v = none ↔ v.isNull = true ∨ p.Clashes cell v := by
  unfold order? Clashes
  split
  · simp [*]
  · split <;> simp [*]

end Predicate

/-! ## Noticing -/

namespace Clash

/-- The record is that of a clash. Comparisons are recorded in the form of clashes, whether they are any or
not. -/
def IsReal (c : Clash) : Prop := c.predicate.Clashes c.cell c.literal

instance (c : Clash) : Decidable c.IsReal := inferInstanceAs (Decidable (Predicate.Clashes ..))

/-- A clash of the same predicate as this one. -/
def Repeats (c d : Clash) : Prop := d.IsReal ∧ d.position = c.position

end Clash

namespace Evaluator

/-- What has been noticed after some comparisons. -/
def noticeAll (seen : List Clash) (made : List Clash) : List Clash :=
  made.foldl (fun seen c => if c.IsReal then notice c seen else seen) seen

theorem noticeAll_append (seen made more : List Clash) :
    noticeAll seen (made ++ more) = noticeAll (noticeAll seen made) more := List.foldl_append

theorem notice_of_mem {c : Clash} {seen : List Clash} (h : c.position ∈ seen.map Clash.position) :
    notice c seen = seen := by
  rw [notice, if_pos]
  simpa using h

theorem notice_of_notMem {c : Clash} {seen : List Clash} (h : c.position ∉ seen.map Clash.position) :
    notice c seen = seen ++ [c] := by
  rw [notice, if_neg]
  simpa using h

theorem noticeAll_cons_of_new {c : Clash} {seen made : List Clash} (hreal : c.IsReal)
    (hnew : c.position ∉ seen.map Clash.position) :
    noticeAll seen (c :: made) = noticeAll (seen ++ [c]) made := by
  rw [noticeAll, List.foldl_cons, if_pos hreal, notice_of_notMem hnew]
  rfl

theorem noticeAll_cons_of_not_new {c : Clash} {seen made : List Clash}
    (h : ¬ (c.IsReal ∧ c.position ∉ seen.map Clash.position)) :
    noticeAll seen (c :: made) = noticeAll seen made := by
  rw [noticeAll, List.foldl_cons]
  by_cases hreal : c.IsReal
  · have hold : c.position ∈ seen.map Clash.position := Decidable.of_not_not fun hnew => h ⟨hreal, hnew⟩
    rw [if_pos hreal, notice_of_mem hold]
    rfl
  · rw [if_neg hreal]
    rfl

/-- What is noticed by some comparisons: of each predicate that had no clash before, the first one. -/
theorem exists_noticed (seen made : List Clash) : ∃ noticed, noticeAll seen made = seen ++ noticed ∧
    noticed.Sublist made ∧
    ∀ c, c ∈ noticed ↔ IsFirst c.Repeats made c ∧ c.position ∉ seen.map Clash.position := by
  -- induction on the comparisons that are still to come, for all that may have been noticed
  induction made generalizing seen with
  | nil =>
    refine ⟨[], (List.append_nil seen).symm, .slnil, fun c => ⟨nofun, ?_⟩⟩
    rintro ⟨hfirst, _⟩
    cases hfirst
  | cons d made ih =>
    by_cases hd : d.IsReal ∧ d.position ∉ seen.map Clash.position
    · obtain ⟨noticed, happend, hsub, hmem⟩ := ih (seen ++ [d])
      refine ⟨d :: noticed, ?_, hsub.cons_cons d, fun c => ?_⟩
      · rw [noticeAll_cons_of_new hd.1 hd.2, happend, List.append_assoc]
        rfl
      rw [List.mem_cons, hmem, isFirst_cons_iff, List.map_append, List.mem_append, not_or]
      constructor
      · rintro (rfl | ⟨hfirst, hseen, hother⟩)
        · exact ⟨.inl ⟨⟨hd.1, rfl⟩, rfl⟩, hd.2⟩
        · refine ⟨.inr ⟨fun h => hother ?_, hfirst⟩, hseen⟩
          exact List.mem_singleton.2 h.2.symm
      · rintro ⟨⟨_, rfl⟩ | ⟨hother, hfirst⟩, hseen⟩
        · exact .inl rfl
        · refine .inr ⟨hfirst, hseen, fun h => hother ⟨hd.1, ?_⟩⟩
          exact (List.mem_singleton.1 h).symm
    · obtain ⟨noticed, happend, hsub, hmem⟩ := ih seen
      refine ⟨noticed, (noticeAll_cons_of_not_new hd).trans happend, hsub.cons d, fun c => ?_⟩
      rw [hmem, isFirst_cons_iff]
      constructor
      · rintro ⟨hfirst, hseen⟩
        exact ⟨.inr ⟨fun h => hd ⟨h.1, h.2 ▸ hseen⟩, hfirst⟩, hseen⟩
      · rintro ⟨⟨h, _⟩ | ⟨_, hfirst⟩, hseen⟩
        · exact absurd ⟨h.1, h.2 ▸ hseen⟩ hd
        · exact ⟨hfirst, hseen⟩

/-- The predicates that something has been noticed of are those that have had a clash. -/
theorem mem_positions_noticeAll {n : Nat} {seen made : List Clash} :
    n ∈ (noticeAll seen made).map Clash.position ↔
      n ∈ seen.map Clash.position ∨ ∃ d ∈ made, d.IsReal ∧ d.position = n := by
  induction made generalizing seen with
  | nil => simp [noticeAll]
  | cons d made ih =>
    simp only [List.mem_cons, exists_eq_or_imp]
    by_cases hd : d.IsReal ∧ d.position ∉ seen.map Clash.position
    · rw [noticeAll_cons_of_new hd.1 hd.2, ih, List.map_append, List.mem_append, or_assoc]
      simp [hd.1, eq_comm]
    · rw [noticeAll_cons_of_not_new hd, ih]
      -- a clash of this predicate would not be its first one
      have hold : d.IsReal ∧ d.position = n → n ∈ seen.map Clash.position := by
        rintro ⟨hreal, rfl⟩
        exact Decidable.of_not_not fun hnew => hd ⟨hreal, hnew⟩
      constructor
      · exact Or.imp_right .inr
      · rintro (h | h | h)
        · exact .inl h
        · exact .inl (hold h)
        · exact .inr h

/-- No predicate is noticed twice. -/
theorem nodup_positions_noticeAll {seen made : List Clash} (h : (seen.map Clash.position).Nodup) :
    ((noticeAll seen made).map Clash.position).Nodup := by
  induction made generalizing seen with
  | nil => exact h
  | cons d made ih =>
    by_cases hd : d.IsReal ∧ d.position ∉ seen.map Clash.position
    · rw [noticeAll_cons_of_new hd.1 hd.2]
      refine ih ?_
      rw [List.map_append, List.nodup_append]
      refine ⟨h, List.pairwise_singleton _ _, ?_⟩
      rintro n hn m hm rfl
      exact hd.2 (List.mem_singleton.1 hm ▸ hn)
    · rw [noticeAll_cons_of_not_new hd]
      exact ih h

end Evaluator

/-! ## Recording -/

namespace Noticing

variable {α β : Type}

/-- A piece of work notices what the record of another one says, and both have the same result, whatever
was noticed and recorded before. -/
def Follows (x y : Noticing α) : Prop := ∀ seen made,
  x.run.run (Evaluator.noticeAll seen made) =
    ((y.run.run made).1, Evaluator.noticeAll seen (y.run.run made).2)

theorem follows_pure (a : α) : Follows (pure a) (pure a) := fun _ _ => rfl

theorem follows_bind {x y : Noticing α} {f g : α → Noticing β} (hx : Follows x y)
    (hf : ∀ a, Follows (f a) (g a)) : Follows (x >>= f) (y >>= g) := by
  intro seen made
  rw [Stateful.run_bind, Stateful.run_bind, hx seen made]
  rcases y.run.run made with ⟨r, made'⟩
  cases r with
  | error err => rfl
  | ok a => exact hf a seen made'

/-- A piece of work adds to a record only what has a property. -/
def Records (P : Clash → Prop) (y : Noticing α) : Prop := ∀ made,
  ∀ c ∈ (y.run.run made).2, c ∈ made ∨ P c

theorem records_pure (P : Clash → Prop) (a : α) : Records P (pure a) := fun _ _ => .inl

theorem records_bind {P : Clash → Prop} {y : Noticing α} {g : α → Noticing β} (hy : Records P y)
    (hg : ∀ a, Records P (g a)) : Records P (y >>= g) := by
  intro made c hc
  have hmade := hy made
  rw [Stateful.run_bind] at hc
  generalize y.run.run made = first at hc hmade
  obtain ⟨r, made'⟩ := first
  cases r with
  | error err => exact hmade c hc
  | ok a =>
    rcases hg a made' c hc with h | h
    · exact hmade c h
    · exact .inr h

end Noticing

namespace Evaluator

/-- A comparison that a predicate makes, in the form of a clash. -/
def comparison (leaf : Nat × Predicate) (cell literal : Value) : Clash := ⟨leaf.1, leaf.2, cell, literal⟩

/-- The comparisons of a predicate on a row, with its position. -/
def comparisons (places : Places) (leaf : Nat × Predicate) (row : Row) : List Clash :=
  match cellOf places leaf.2.column row with
  | .error _ => []
  | .ok cell => (leaf.2.tried cell).map (comparison leaf cell)

theorem mem_comparisons {places : Places} {leaf : Nat × Predicate} {row : Row} {c : Clash}
    (h : c ∈ comparisons places leaf row) : (c.position, c.predicate) = leaf := by
  unfold comparisons at h
  split at h
  · cases h
  · obtain ⟨v, _, rfl⟩ := List.mem_map.1 h
    rfl

/-- Tests one predicate on a row, and records all comparisons. -/
def recordLeaf (e : Evaluator) (row : Row) (leaf : Nat × Predicate) : Noticing Bool :=
  fun made => (answer e.places leaf.2 row, made ++ comparisons e.places leaf row)

variable {leaf : Nat × Predicate} {cell : Value}

/-- A test for equality notices its comparison. -/
theorem run_equals (hcell : cell.isNull = false) (v : Value) (seen : List Clash) :
    (equals leaf cell v).run.run seen =
      (.ok (leaf.2.equals cell v), noticeAll seen [comparison leaf cell v]) := by
  refine Prod.ext (answers_equals leaf cell v seen) ?_
  have hunordered := Predicate.order?_eq_none_iff (p := leaf.2) (v := v) hcell
  unfold equals
  cases horder : leaf.2.order? cell v with
  | some o =>
    have hreal : ¬ (comparison leaf cell v).IsReal := by
      intro hclash
      rw [hunordered.2 (.inr hclash)] at horder
      cases horder
    rw [noticeAll, List.foldl_cons, if_neg hreal]
    rfl
  | none =>
    cases hv : v.isNull with
    | true =>
      have hreal : ¬ (comparison leaf cell v).IsReal := by
        intro hclash
        have hsome : v.isNull = false := hclash.2.1
        rw [hv] at hsome
        cases hsome
      rw [noticeAll, List.foldl_cons, if_neg hreal]
      rfl
    | false =>
      have hreal : (comparison leaf cell v).IsReal :=
        (hunordered.1 horder).resolve_left (by rw [hv]; decide)
      rw [noticeAll, List.foldl_cons, if_pos hreal]
      rfl

/-- The search of a list notices the comparisons up to the first match. -/
theorem run_search (hcell : cell.isNull = false) (vs : List Value) (seen : List Clash) :
    (vs.anyM (equals leaf cell)).run.run seen = (.ok (vs.any (leaf.2.equals cell)),
      noticeAll seen ((leaf.2.itemsTried cell vs).map (comparison leaf cell))) := by
  induction vs generalizing seen with
  | nil => rfl
  | cons v vs ih =>
    rw [List.anyM_cons, Stateful.run_bind_ok (run_equals hcell v seen), List.any_cons, Predicate.itemsTried]
    cases hequals : leaf.2.equals cell v with
    | true => rfl
    | false =>
      rw [if_neg Bool.false_ne_true, if_neg Bool.false_ne_true, ih, List.map_cons, ← List.singleton_append,
        noticeAll_append]
      rfl

/-- An operator notices the comparisons that it makes. -/
theorem run_apply (leaf : Nat × Predicate) (cell : Value) (seen : List Clash) :
    (apply leaf leaf.2.positive cell).run.run seen = (leaf.2.apply leaf.2.positive cell,
      noticeAll seen ((leaf.2.tried cell).map (comparison leaf cell))) := by
  refine Prod.ext (answers_apply leaf _ cell seen) ?_
  unfold apply Predicate.tried
  split
  · rfl
  · rename_i hcell
    have hnull : cell.isNull = false := eq_false_of_ne_true hcell
    have hsingle : ∀ v, leaf.2.itemsTried cell [v] = [v] := by
      intro v
      rw [Predicate.itemsTried]
      split <;> rfl
    split
    · rename_i v hop hoperand
      have hliterals : leaf.2.literals = [v] := by rw [Predicate.literals, hop, hoperand]
      rw [run_equals hnull, hliterals, hsingle]
      rfl
    · rename_i v hop hoperand
      have hliterals : leaf.2.literals = [v] := by rw [Predicate.literals, hop, hoperand]
      rw [run_equals hnull, hliterals, hsingle]
      rfl
    · rename_i vs hop hoperand
      have hliterals : leaf.2.literals = vs := by rw [Predicate.literals, hop, hoperand]
      rw [run_search hnull, hliterals]
    · rename_i vs hop hoperand
      have hliterals : leaf.2.literals = vs := by rw [Predicate.literals, hop, hoperand]
      rw [run_search hnull, hliterals]
    · have hliterals : leaf.2.literals = [] := by simp [Predicate.literals, *]
      rw [hliterals]
      rfl

/-- A test of a predicate notices the comparisons that it makes. -/
theorem run_testLeaf (e : Evaluator) (row : Row) (leaf : Nat × Predicate) (seen : List Clash) :
    (e.testLeaf row leaf).run.run seen =
      (answer e.places leaf.2 row, noticeAll seen (comparisons e.places leaf row)) := by
  refine Prod.ext (e.testLeaf_result row leaf seen) ?_
  rw [testLeaf, Stateful.run_bind, Stateful.run_ofExcept, comparisons]
  cases cellOf e.places leaf.2.column row with
  | error err => rfl
  | ok cell =>
    simp only
    split
    · rw [Stateful.run_map, run_apply]
    · rw [run_apply]

theorem follows_testLeaf (e : Evaluator) (row : Row) (leaf : Nat × Predicate) :
    (e.testLeaf row leaf).Follows (e.recordLeaf row leaf) := by
  intro seen made
  rw [run_testLeaf, ← noticeAll_append]
  rfl

/-! ## Questions -/

/-- What an evaluator can be asked: whether the whole filter holds for a row, or one of its predicates. -/
inductive Question (e : Evaluator)
  | whole (row : Row)
  | single (leaf : Nat × Predicate) (own : leaf ∈ e.leaves) (row : Row)

variable {e : Evaluator}

/-- The evaluator looks for the answer. -/
def ask (e : Evaluator) : e.Question → Noticing Bool
  | .whole row => e.holds row
  | .single leaf _ row => e.testLeaf row leaf

/-- The same with all comparisons recorded. -/
def record (e : Evaluator) : e.Question → Noticing Bool
  | .whole row => e.root.evalM (e.recordLeaf row)
  | .single leaf _ row => e.recordLeaf row leaf

/-- The comparisons that a question leads to, in their order. -/
def compared (e : Evaluator) (q : e.Question) : List Clash := ((e.record q).run.run []).2

theorem follows_ask (q : e.Question) : (e.ask q).Follows (e.record q) := by
  cases q with
  | whole row =>
    exact Formula.evalM_related Noticing.follows_pure (fun _ _ _ _ => Noticing.follows_bind) e.root
      fun leaf _ => e.follows_testLeaf row leaf
  | single leaf own row => exact e.follows_testLeaf row leaf

/-- A test for equality or membership is answered by its comparisons: one of them is a match, or for a negated
operator none of them is. -/
theorem answer_single {leaf : Nat × Predicate} (own : leaf ∈ e.leaves) {row : Row} {cell : Value}
    (hcell : cellOf e.places leaf.2.column row = .ok cell) (h : leaf.2.literals ≠ []) :
    ((e.ask (.single leaf own row)).run.run []).1 = .ok (leaf.2.operator.negates?.isSome ^^
      (e.compared (.single leaf own row)).any fun d => d.predicate.equals d.cell d.literal) := by
  have hcompared : e.compared (.single leaf own row) = (leaf.2.tried cell).map (comparison leaf cell) := by
    show [] ++ comparisons e.places leaf row = _
    rw [comparisons, hcell, List.nil_append]
  have hany : (e.compared (.single leaf own row)).any (fun d => d.predicate.equals d.cell d.literal) =
      (leaf.2.tried cell).any (leaf.2.equals cell) := by
    rw [hcompared, List.any_map]
    rfl
  rw [hany]
  show ((e.testLeaf row leaf).run.run []).1 = _
  rw [testLeaf_result, answer, hcell, ok_bind, Predicate.answer, Predicate.apply_eq_any_tried h]
  cases leaf.2.operator.negates?.isSome with
  | true => rw [Bool.true_xor]; rfl
  | false => rw [Bool.false_xor]; rfl

/-- All comparisons are made by leaves of the filter. -/
theorem mem_leaves_of_mem_compared {q : e.Question} {c : Clash} (h : c ∈ e.compared q) :
    (c.position, c.predicate) ∈ e.leaves := by
  have hleaf : ∀ row, ∀ leaf ∈ e.leaves,
      (e.recordLeaf row leaf).Records fun c => (c.position, c.predicate) ∈ e.leaves := by
    intro row leaf hleaf made c hc
    refine (List.mem_append.1 hc).imp_right fun hc => ?_
    show (c.position, c.predicate) ∈ e.leaves
    rw [mem_comparisons hc]
    exact hleaf
  have hrecords : (e.record q).Records fun c => (c.position, c.predicate) ∈ e.leaves := by
    cases q with
    | whole row =>
      exact Formula.evalM_closed (Noticing.records_pure _) (fun _ _ => Noticing.records_bind) e.root
        (hleaf row)
    | single leaf own row => exact hleaf row leaf own
  exact (hrecords [] c h).resolve_left List.not_mem_nil

/-- What an evaluator has noticed does not count for an answer, and behind it the comparisons on the way
to it have been noticed. -/
theorem run_ask (q : e.Question) (seen : List Clash) :
    (e.ask q).run.run seen = (((e.ask q).run.run []).1, noticeAll seen (e.compared q)) := by
  have hfresh : (e.ask q).run.run [] = _ := follows_ask q [] []
  rw [hfresh]
  exact follows_ask q seen []

/-- What comes back for a question: the answer, and the clashes that were noticed on the way to it. -/
structure Reply where
  answer : Except FilterError Bool
  noticed : List Clash

/-- The reply to a question when this has been noticed before. -/
def reply (e : Evaluator) (seen : List Clash) (q : e.Question) : Reply :=
  let result := (e.ask q).run.run seen
  ⟨result.1, result.2.drop seen.length⟩

/-- The replies to questions that are asked one after the other. -/
def replies (e : Evaluator) (seen : List Clash) : List e.Question → List Reply
  | [] => []
  | q :: qs => e.reply seen q :: e.replies ((e.ask q).run.run seen).2 qs

/-- The comparisons that some questions lead to, in their order. -/
def comparedBy (e : Evaluator) (qs : List e.Question) : List Clash := qs.flatMap e.compared

theorem comparedBy_cons (q : e.Question) (qs : List e.Question) :
    e.comparedBy (q :: qs) = e.compared q ++ e.comparedBy qs := List.flatMap_cons

theorem answer_reply (seen : List Clash) (q : e.Question) :
    (e.reply seen q).answer = ((e.ask q).run.run []).1 := by
  rw [reply, run_ask]

/-- Nothing that is noticed is lost. -/
theorem append_noticed (seen : List Clash) (q : e.Question) :
    seen ++ (e.reply seen q).noticed = noticeAll seen (e.compared q) := by
  obtain ⟨noticed, happend, _⟩ := exists_noticed seen (e.compared q)
  rw [reply, run_ask, happend]
  simp only
  rw [List.drop_left]

theorem replies_cons (seen : List Clash) (q : e.Question) (qs : List e.Question) :
    e.replies seen (q :: qs) =
      e.reply seen q :: e.replies (noticeAll seen (e.compared q)) qs := by
  rw [replies, run_ask]

theorem length_replies (seen : List Clash) (qs : List e.Question) :
    (e.replies seen qs).length = qs.length := by
  induction qs generalizing seen with
  | nil => rfl
  | cons q qs ih => rw [replies, List.length_cons, List.length_cons, ih]

/-- A reply depends on the questions before it only through what has been noticed then. -/
theorem getElem?_replies (seen : List Clash) (qs : List e.Question) (i : Nat) :
    (e.replies seen qs)[i]? =
      qs[i]?.map (e.reply (noticeAll seen (e.comparedBy (qs.take i)))) := by
  induction qs generalizing seen i with
  | nil => rfl
  | cons q qs ih =>
    rw [replies_cons]
    cases i with
    | zero => rfl
    | succ i =>
      rw [List.getElem?_cons_succ, List.getElem?_cons_succ, ih, List.take_succ_cons,
        comparedBy_cons, noticeAll_append]

theorem append_flatMap_noticed (seen : List Clash) (qs : List e.Question) :
    seen ++ (e.replies seen qs).flatMap Reply.noticed = noticeAll seen (e.comparedBy qs) := by
  induction qs generalizing seen with
  | nil => exact List.append_nil seen
  | cons q qs ih =>
    rw [replies_cons, List.flatMap_cons, ← List.append_assoc, append_noticed, ih, comparedBy_cons,
      noticeAll_append]

/-- A question leads to a clash being noticed just if it is the first one of its predicate there, and there
was none before. -/
theorem mem_noticed_iff {seen : List Clash} {q : e.Question} {c : Clash} :
    c ∈ (e.reply seen q).noticed ↔
      IsFirst c.Repeats (e.compared q) c ∧ c.position ∉ seen.map Clash.position := by
  obtain ⟨noticed, happend, _, hmem⟩ := exists_noticed seen (e.compared q)
  rw [← append_noticed] at happend
  rw [List.append_cancel_left happend]
  exact hmem c

/-- What is noticed is noticed in the order of the comparisons. -/
theorem noticed_sublist (seen : List Clash) (q : e.Question) :
    (e.reply seen q).noticed.Sublist (e.compared q) := by
  obtain ⟨noticed, happend, hsub, _⟩ := exists_noticed seen (e.compared q)
  rw [← append_noticed] at happend
  rw [List.append_cancel_left happend]
  exact hsub

end Evaluator

/-- **A clash is warned of once, and never counts.** However an evaluator is asked, for the whole filter or
for single predicates of it, every question has an answer that is the one of an evaluator that was not asked
anything before. All comparisons that it makes are made by predicates of the filter, which have their places
in the filter for positions, and a test for equality or membership is answered by them: it holds just if one
of them is a match, or for a negated operator if none is. No position has two warnings, and a question leads
to a warning just if the predicate at the position makes its first comparison there of a cell and a literal
that are both not missing and have no order, in a column that does not compare as text. -/
theorem clash_warned_once {places : Places} {c : Compiled} {e : Evaluator}
    (h : Evaluator.new places c = .ok e) (qs : List e.Question) :
    e.leaves = c.predicates.zipIdx.map Prod.swap ∧
    (∀ q : e.Question, ∀ d ∈ e.compared q, (d.position, d.predicate) ∈ e.leaves) ∧
    (∀ leaf (own : leaf ∈ e.leaves) row cell, cellOf places leaf.2.column row = .ok cell →
      leaf.2.literals ≠ [] → ((e.ask (.single leaf own row)).run.run []).1 =
        .ok (leaf.2.operator.negates?.isSome ^^
          (e.compared (.single leaf own row)).any fun d => d.predicate.equals d.cell d.literal)) ∧
    (e.replies [] qs).length = qs.length ∧
    (((e.replies [] qs).flatMap Evaluator.Reply.noticed).map Clash.position).Nodup ∧
    ∀ i q, qs[i]? = some q → ∃ reply, (e.replies [] qs)[i]? = some reply ∧
      reply.answer = ((e.ask q).run.run []).1 ∧
      reply.noticed.Sublist (e.compared q) ∧
      ∀ clash, clash ∈ reply.noticed ↔
        IsFirst (fun d => d.predicate.Clashes d.cell d.literal ∧ d.position = clash.position)
          (e.compared q) clash ∧
        ∀ q' ∈ qs.take i, ∀ d ∈ e.compared q',
          ¬ (d.predicate.Clashes d.cell d.literal ∧ d.position = clash.position) := by
  obtain ⟨he, _⟩ := Evaluator.new_eq_ok h
  refine ⟨?_, fun q d hd => Evaluator.mem_leaves_of_mem_compared hd, fun leaf own row cell hcell => ?_,
    Evaluator.length_replies [] qs, ?_, fun i q hq => ?_⟩
  · rw [he]
    exact Formula.leaves_numberFrom c.root 0
  · have hplaces : e.places = places := by rw [he]
    exact Evaluator.answer_single own (hplaces ▸ hcell)
  · have hall : [] ++ (e.replies [] qs).flatMap Evaluator.Reply.noticed =
        Evaluator.noticeAll [] (e.comparedBy qs) := Evaluator.append_flatMap_noticed [] qs
    rw [List.nil_append] at hall
    rw [hall]
    exact Evaluator.nodup_positions_noticeAll List.nodup_nil
  · -- what was noticed before are the clashes of the questions before this one
    refine ⟨e.reply (Evaluator.noticeAll [] (e.comparedBy (qs.take i))) q, ?_, Evaluator.answer_reply _ q,
      Evaluator.noticed_sublist _ q, fun clash => ?_⟩
    · rw [Evaluator.getElem?_replies, hq]
      rfl
    · rw [Evaluator.mem_noticed_iff, Evaluator.mem_positions_noticeAll]
      refine and_congr_right fun _ => ?_
      constructor
      · intro hbefore q' hq' d hd hrepeats
        exact hbefore (.inr ⟨d, List.mem_flatMap.2 ⟨q', hq', hd⟩, hrepeats⟩)
      · rintro hbefore (hnone | ⟨d, hd, hrepeats⟩)
        · cases hnone
        · obtain ⟨q', hq', hd⟩ := List.mem_flatMap.1 hd
          exact hbefore q' hq' d hd hrepeats

/-- The same predicate twice. The second one is tested alone and clashes at the second item of its list;
the whole filter then brings the clash of the first one, and nothing when it is applied to another row. -/
theorem clash_warned_once_twins :
    let p : Predicate :=
      ⟨"n", .integer, .inSet, .set [.int 2, .text "x", .text "y"], some "[2, x, y]", 0⟩
    let c : Compiled := ⟨"", .any [.leaf p, .group (.leaf p)]⟩
    let places := Table.placesOf ["n"]
    let e : Evaluator := ⟨places, c.root.number⟩
    let qs : List e.Question :=
      [.single (1, p) (List.mem_cons_of_mem _ List.mem_cons_self) [.int 1], .whole [.int 1], .whole [.int 3]]
    Evaluator.new places c = .ok e ∧
      (e.replies [] qs).map Evaluator.Reply.noticed =
        [[⟨1, p, .int 1, .text "x"⟩], [⟨0, p, .int 1, .text "x"⟩], []] ∧
      (((e.replies [] qs).flatMap Evaluator.Reply.noticed).map Clash.position).Nodup ∧
      ∃ reply, (e.replies [] qs)[2]? = some reply ∧
        reply.answer = ((e.ask (.whole [.int 3])).run.run []).1 ∧
        ∀ clash, clash ∉ reply.noticed := by
  intro p c places e qs
  have hnew : Evaluator.new places c = .ok e := rfl
  obtain ⟨_, _, _, _, hnodup, hreplies⟩ := clash_warned_once hnew qs
  obtain ⟨reply, hreply, hanswer, _, _⟩ := hreplies 2 (.whole [.int 3]) rfl
  have hnoticed : (e.replies [] qs).map Evaluator.Reply.noticed =
      [[⟨1, p, .int 1, .text "x"⟩], [⟨0, p, .int 1, .text "x"⟩], []] := by decide +kernel
  have hnone : reply.noticed = [] := by
    have hthird := congrArg (fun noticed => noticed[2]?) hnoticed
    simp only [List.getElem?_map, hreply] at hthird
    exact Option.some.inj hthird
  refine ⟨hnew, hnoticed, hnodup, reply, hreply, hanswer, fun clash => ?_⟩
  rw [hnone]
  exact List.not_mem_nil

end RowFilter
