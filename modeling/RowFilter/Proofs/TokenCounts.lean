import RowFilter.Proofs.Acceptance
import RowFilter.Proofs.Balance

/-!
# RowFilter — the count check and the reader

Before a query is read, its tokens are counted: as many operators as columns, and a literal for every
operator that takes one. The count pairs the lists without looking at the order of the tokens, and takes
an unknown operator for one that wants a literal. The reader knows none of this. Still the count refuses
nothing that the reader would have read: what the reader accepts is a spelling, a spelling records the
clauses of its formula, and putting the lists in order moves no token from one list to another.

Main results:

* `TokenStream.OwnKinds.ofKind_merged` — the tokens of one kind are those of its list.
* `readTokens_counts` — what the reader accepts passes the count check.
* `parse_eq_ok_iff_uncounted` — the count check decides nothing but the error of a query.
-/

namespace RowFilter.Query

/-! ## Streams with tokens of the right kinds -/

/-- Every list of a stream holds tokens of its own kind only. -/
structure TokenStream.OwnKinds (s : TokenStream) : Prop where
  columns : ∀ t ∈ s.columns, t.kind = .column
  operators : ∀ t ∈ s.operators, t.kind = .operator
  values : ∀ t ∈ s.values, t.kind = .value
  conjunctions : ∀ t ∈ s.conjunctions, t.kind = .conjunction

instance (s : TokenStream) : Decidable s.OwnKinds :=
  decidable_of_iff ((∀ t ∈ s.columns, t.kind = .column) ∧ (∀ t ∈ s.operators, t.kind = .operator) ∧
    (∀ t ∈ s.values, t.kind = .value) ∧ ∀ t ∈ s.conjunctions, t.kind = .conjunction)
    ⟨fun h => ⟨h.1, h.2.1, h.2.2.1, h.2.2.2⟩,
      fun h => ⟨h.columns, h.operators, h.values, h.conjunctions⟩⟩

/-- The list of one kind. -/
def TokenStream.list (s : TokenStream) : TokenKind → List Token
  | .column => s.columns
  | .operator => s.operators
  | .value => s.values
  | .conjunction => s.conjunctions

namespace TokenStream.OwnKinds

variable {s : TokenStream}

theorem kind_of_mem_list (h : s.OwnKinds) : ∀ (k : TokenKind), ∀ t ∈ s.list k, t.kind = k
  | .column => h.columns
  | .operator => h.operators
  | .value => h.values
  | .conjunction => h.conjunctions

/-- The tokens of one kind are those of its list, whatever order the starts put them in. -/
theorem ofKind_merged (h : s.OwnKinds) (k : TokenKind) : (ofKind k s.merged).Perm (s.list k) := by
  have hperm : (ofKind k s.merged).Perm (ofKind k (s.list .column ++ s.list .operator ++
      s.list .value ++ s.list .conjunction)) := s.merged_perm.filter _
  have hself : ofKind k (s.list k) = s.list k := ofKind_eq_self (h.kind_of_mem_list k)
  have hnil : ∀ l, k ≠ l → ofKind k (s.list l) = [] := fun l =>
    ofKind_eq_nil_of_kind (h.kind_of_mem_list l)
  -- of the four lists in a row only that of the kind remains
  rw [ofKind_append, ofKind_append, ofKind_append] at hperm
  cases k with
  | column =>
    rwa [hself, hnil .operator (by decide), hnil .value (by decide), hnil .conjunction (by decide),
      List.append_nil, List.append_nil, List.append_nil] at hperm
  | operator =>
    rwa [hself, hnil .column (by decide), hnil .value (by decide), hnil .conjunction (by decide),
      List.append_nil, List.append_nil, List.nil_append] at hperm
  | value =>
    rwa [hself, hnil .column (by decide), hnil .operator (by decide), hnil .conjunction (by decide),
      List.append_nil, List.nil_append, List.nil_append] at hperm
  | conjunction =>
    rwa [hself, hnil .column (by decide), hnil .operator (by decide), hnil .value (by decide),
      List.nil_append, List.nil_append, List.nil_append] at hperm

end TokenStream.OwnKinds

theorem ownKinds_ofTokens (ts : List Token) : (TokenStream.ofTokens ts).OwnKinds := by
  have hkind : ∀ (k : TokenKind), ∀ t ∈ ofKind k ts, t.kind = k := by
    intro k t ht
    simpa using (List.mem_filter.1 ht).2
  exact ⟨hkind _, hkind _, hkind _, hkind _⟩

/-- The scans put every token into the list of its kind. -/
theorem ownKinds_of_scanTokens {query : String} {stream : TokenStream}
    (h : scanTokens query = .ok stream) : stream.OwnKinds := by
  obtain ⟨columns, _, hvalues⟩ := bind_eq_ok h
  obtain ⟨values, hscan, _⟩ := bind_eq_ok hvalues
  obtain ⟨ps, hps, hw⟩ := exists_layout hscan
  rw [scanTokens_written hps hw.symm] at h
  obtain ⟨ts, _, rfl⟩ := map_eq_ok h
  exact ownKinds_ofTokens ts

/-! ## Counts of what is read -/

/-- Does the text of a token spell an operator that takes a literal? -/
def takesLiteral (o : Token) : Bool :=
  (Operator.ofKeyword? o.text.toList).any fun op => op.arity = 1

/-- The counts of a stream are those of clauses: one column and one operator for each of them, and the
literals that its operators take. -/
structure TokenStream.Counts (s : TokenStream) (cs : List Clause) : Prop where
  columns : s.columns.length = cs.length
  operators : s.operators.length = cs.length
  values : s.values.length = (s.operators.filter takesLiteral).length
  checked : s.checkCounts = .ok ()

theorem Records.counts {s : TokenStream} {cs : List Clause} (hs : s.OwnKinds)
    (h : Records s.merged cs) (hcs : ∀ c ∈ cs, c.WellFormed) : s.Counts cs := by
  have hlength (k : TokenKind) : (ofKind k s.merged).length = (s.list k).length :=
    (hs.ofKind_merged k).length_eq
  have hcolumns : s.columns.length = cs.length := by
    have hlen := congrArg List.length h.columns
    rw [List.length_map, List.length_map, hlength .column] at hlen
    exact hlen
  have hoperators : s.operators.length = cs.length := by
    have hlen := congrArg List.length h.operators
    rw [List.length_map, List.length_map, hlength .operator] at hlen
    exact hlen
  have hvalues : s.values.length =
      (s.operators.filter fun o => TokenStream.wantedBy o = 1).length := by
    have hwanted := ((hs.ofKind_merged .operator).filter fun o =>
      TokenStream.wantedBy o = 1).length_eq
    have hlen := (h.balanced hcs).values
    rw [hlength .value, hwanted] at hlen
    exact hlen
  -- every operator is a known one, so none wants a literal for being unknown
  have hknown : ∀ o ∈ s.operators, takesLiteral o = decide (TokenStream.wantedBy o = 1) := by
    intro o ho
    have hmem : o ∈ ofKind .operator s.merged := (hs.ofKind_merged .operator).mem_iff.2 ho
    have hop : Operator.ofKeyword? o.text.toList ∈ cs.map fun c => some c.operator := by
      rw [← h.operators]
      exact List.mem_map_of_mem hmem
    obtain ⟨c, _, hc⟩ := List.mem_map.1 hop
    rw [takesLiteral, TokenStream.wantedBy, ← hc]
    rfl
  refine ⟨hcolumns, hoperators, ?_, ?_⟩
  · rw [hvalues, List.filter_congr hknown]
  · exact TokenStream.checkCounts_eq_ok (hcolumns.trans hoperators.symm) hvalues

theorem readTokens_counts {s : TokenStream} (hs : s.OwnKinds) {stop : Nat} {f : Formula Clause}
    (h : readTokens s stop = .ok f) : s.Counts f.leaves := by
  obtain ⟨hf, hspell⟩ := readTokens_sound h
  exact hspell.records.counts hs (FitsIn.leaves_wellFormed hf)

/-- A check that passes whenever a result follows takes no result away. -/
theorem check_bind_eq_ok_iff {ε α : Type} {check : Except ε Unit} {x : Except ε α} {a : α}
    (h : x = .ok a → check = .ok ()) : (check >>= fun _ => x) = .ok a ↔ x = .ok a := by
  constructor
  · intro hx
    obtain ⟨_, _, hx⟩ := bind_eq_ok hx
    exact hx
  · intro hx
    rw [h hx, ok_bind, hx]

theorem parse_eq_ok_iff_uncounted (query : String) (f : Formula Clause) :
    parse query = .ok f ↔
      (scanTokens query >>= fun s => readTokens s query.utf8ByteSize) = .ok f := by
  rw [parse, tokenize_eq_scanTokens, bind_assoc]
  cases hscan : scanTokens query with
  | error e => rfl
  | ok s =>
    rw [ok_bind, ok_bind, bind_assoc]
    exact check_bind_eq_ok_iff fun h => (readTokens_counts (ownKinds_of_scanTokens hscan) h).checked

/-- **The count check.** A stream whose lists hold tokens of their own kinds, at any offsets, has
the counts of the clauses that are read from it, and so passes the check. Counting first therefore
leaves every result of the reader as it is, and a query is accepted just if it is without the count. -/
theorem count_check_refuses_nothing_readable :
    (∀ s : TokenStream, s.OwnKinds → ∀ stop f, readTokens s stop = .ok f → s.Counts f.leaves) ∧
    (∀ s : TokenStream, s.OwnKinds → ∀ stop f,
      (s.checkCounts >>= fun _ => readTokens s stop) = .ok f ↔ readTokens s stop = .ok f) ∧
    (∀ query f, parse query = .ok f ↔
      (scanTokens query >>= fun s => readTokens s query.utf8ByteSize) = .ok f) := by
  refine ⟨fun s hs stop f => readTokens_counts hs, fun s hs stop f => ?_, parse_eq_ok_iff_uncounted⟩
  exact check_bind_eq_ok_iff fun h => (readTokens_counts hs h).checked

/-- The tokens of `(#{a} null) OR #{b} = {1}`, with offsets that no query gives them, and with the
columns the other way round. -/
theorem count_check_refuses_nothing_readable_shuffled :
    let s : TokenStream := ⟨[⟨.column, "b", 60, 60⟩, ⟨.column, " a ", 20, 90⟩],
      [⟨.operator, "NULL", 30, 1⟩, ⟨.operator, "=", 70, 71⟩], [⟨.value, "1", 80, 80⟩],
      [⟨.conjunction, "OR", 50, 0⟩, ⟨.conjunction, "(", 10, 0⟩, ⟨.conjunction, ")", 40, 0⟩]⟩
    let f : Formula Clause := .any [.group (.leaf ⟨"a", 20, .null, none⟩),
      .leaf ⟨"b", 60, .eq, some "1"⟩]
    s.OwnKinds ∧ readTokens s 5 = .ok f ∧ s.Counts f.leaves ∧
      (s.checkCounts >>= fun _ => readTokens s 5) = .ok f := by
  intro s f
  have hs : s.OwnKinds := by decide
  have hmerged : s.merged = [⟨.conjunction, "(", 10, 0⟩, ⟨.column, " a ", 20, 90⟩,
      ⟨.operator, "NULL", 30, 1⟩, ⟨.conjunction, ")", 40, 0⟩, ⟨.conjunction, "OR", 50, 0⟩,
      ⟨.column, "b", 60, 60⟩, ⟨.operator, "=", 70, 71⟩, ⟨.value, "1", 80, 80⟩] :=
    merged_eq_of_perm (by decide +kernel) (by decide +kernel)
  have hread : readTokens s 5 = .ok f := by
    rw [readTokens, hmerged]
    rfl
  have hcheck := count_check_refuses_nothing_readable.2.1 s hs 5 f
  exact ⟨hs, hread, count_check_refuses_nothing_readable.1 s hs 5 f hread, hcheck.2 hread⟩

end RowFilter.Query
