import RowFilter.Proofs.Acceptance
import RowFilter.Proofs.Balance
import RowFilter.Proofs.Rendering

/-!
# RowFilter — rendered queries are read back

The tokens of a rendered formula are its lexemes, and the lexemes spell the formula, with every clause
at the byte where its column stands. Spellings are read, so reading the rendered text gives the formula
back; only the places of its clauses are new.

Main results:

* `exists_readAs_of_parse`, `ReadAs.parse_eq_ok` — a text is read as what its tokens spell.
* `FitsIn.spells_placedAt` — the lexemes of a formula spell it.
* `parse_render` — a rendered formula is read back.
-/

namespace RowFilter.Query

open Text (width)

/-! ## How a query is read -/

/-- A query is read as a formula: it has a layout, and the tokens of the layout spell the formula. -/
structure ReadAs (query : String) (f : Formula Clause) (ps : List Piece) (ts : List Token) :
    Prop where
  layout : IsLayout ps
  toList_eq : query.toList = written ps
  tokens : tokensAt 0 ps = .ok ts
  wellFormed : WellFormed f
  spells : Spells f ts

theorem exists_readAs_of_parse {query : String} {f : Formula Clause} (h : parse query = .ok f) :
    ∃ ps ts, ReadAs query f ps ts := by
  obtain ⟨stream, htok, hread⟩ := bind_eq_ok h
  obtain ⟨ps, hps, hwritten, htokens⟩ := tokenize_eq_ok htok
  obtain ⟨hf, hspell⟩ := readTokens_sound hread
  exact ⟨ps, _, hps, hwritten, htokens, hf, hspell⟩

namespace ReadAs

variable {query : String} {f : Formula Clause} {ps : List Piece} {ts : List Token}

theorem tokenize_eq (h : ReadAs query f ps ts) : tokenize query = .ok (.ofTokens ts) := by
  -- a spelling is balanced, so the count check lets the tokens pass
  have hcounts := checkCounts_of_balanced (FitsIn.balanced h.wellFormed h.spells)
  rw [tokenize_written h.layout h.toList_eq, h.tokens, ok_bind, hcounts, ok_bind]
  rfl

theorem parse_eq_ok (h : ReadAs query f ps ts) : parse query = .ok f := by
  rw [parse, h.tokenize_eq]
  refine readTokens_complete h.wellFormed ?_ _
  rw [merged_ofTokens (tokensAt_ordered h.tokens).2]
  exact h.spells

theorem run (h : ReadAs query f ps ts) : ∃ r, Reading.start.run ts = .ok r := by
  obtain ⟨c, hrun, _⟩ := h.wellFormed.run h.spells
  exact ⟨_, hrun⟩

end ReadAs

/-! ## Formulas without places -/

/-- A formula without the places of its clauses. -/
def unplaced (f : Formula Clause) : Formula Clause := f.map fun c => { c with offset := 0 }

mutual
theorem fits_unplaced : ∀ (f : Formula Clause) (n : Nat), fits (unplaced f) n = fits f n
  | .leaf c, _ => by
    refine decide_eq_decide.2 ⟨fun h => ?_, fun h => ?_⟩
    · exact ⟨h.column_ne, h.column_trim, h.value_iff⟩
    · exact ⟨h.column_ne, h.column_trim, h.value_iff⟩
  | .all fs, n => by
    rw [unplaced, Formula.map, fits, fits, fitsAll_unplaced fs n, Formula.mapOf_eq_map, List.length_map,
      List.all_map, Function.comp_def]
    simp only [Formula.isPrimary_map]
  | .any fs, n => by
    rw [unplaced, Formula.map, fits, fits, fitsAll_unplaced fs n, Formula.mapOf_eq_map, List.length_map,
      List.all_map, Function.comp_def]
    simp only [Formula.isDisjunct_map]
  | .group _, 0 => rfl
  | .group f, n + 1 => fits_unplaced f n

theorem fitsAll_unplaced : ∀ (fs : List (Formula Clause)) (n : Nat),
    fitsAll (Formula.mapOf (fun c => { c with offset := 0 }) fs) n = fitsAll fs n
  | [], _ => rfl
  | f :: fs, n => by
    rw [Formula.mapOf, fitsAll, fitsAll, fitsAll_unplaced fs n, ← fits_unplaced f n]
    rfl
end

/-- Places do not matter to the form. -/
theorem FitsIn.of_unplaced {n : Nat} {f g : Formula Clause} (h : FitsIn n f)
    (hg : unplaced g = unplaced f) : FitsIn n g := by
  rw [← fits_iff, ← fits_unplaced, hg, fits_unplaced, fits_iff]
  exact h

/-! ## Places of lexemes -/

/-- The bytes that lexemes take with the space behind each of them. -/
def span (ps : List Piece) : Nat := width (ps.flatMap fun p => p.text ++ [' '])

theorem span_cons (p : Piece) (ps : List Piece) : span (p :: ps) = width p.text + 1 + span ps := by
  rw [span, List.flatMap_cons, Text.width_append, Text.width_append]
  rfl

theorem span_append (a b : List Piece) : span (a ++ b) = span a + span b := by
  rw [span, List.flatMap_append, Text.width_append]
  rfl

theorem lexemeTokens_cons (pos : Nat) (p : Piece) (ps : List Piece) :
    lexemeTokens pos (p :: ps) = p.tokenAt pos :: lexemeTokens (pos + span [p]) ps := by
  rw [lexemeTokens, span_cons]
  rfl

theorem lexemeTokens_append (pos : Nat) (a b : List Piece) :
    lexemeTokens pos (a ++ b) = lexemeTokens pos a ++ lexemeTokens (pos + span a) b := by
  induction a generalizing pos with
  | nil => rfl
  | cons p a ih =>
    rw [List.cons_append, lexemeTokens, ih, lexemeTokens, List.cons_append, span_cons, Nat.add_assoc,
      Nat.add_assoc, Nat.add_assoc]

mutual
/-- The formula whose first lexeme starts at a byte, with every clause in its place. -/
def placedAt (pos : Nat) : Formula Clause → Formula Clause
  | .leaf c => .leaf { c with offset := pos }
  | .all fs => .all (placedOf ['a', 'n', 'd'] pos fs)
  | .any fs => .any (placedOf ['o', 'r'] pos fs)
  | .group f => .group (placedAt (pos + span [.run ['(']]) f)

/-- Operands with a word between any two, with every clause in its place. -/
def placedOf (word : List Char) (pos : Nat) : List (Formula Clause) → List (Formula Clause)
  | [] => []
  | f :: fs => placedAt pos f :: placedOf word (pos + span (lexemes f) + span [.run word]) fs
end

mutual
theorem unplaced_placedAt : ∀ (f : Formula Clause) (pos : Nat),
    unplaced (placedAt pos f) = unplaced f
  | .leaf _, _ => rfl
  | .all fs, pos => congrArg Formula.all (unplaced_placedOf _ fs pos)
  | .any fs, pos => congrArg Formula.any (unplaced_placedOf _ fs pos)
  | .group f, _ => congrArg Formula.group (unplaced_placedAt f _)

theorem unplaced_placedOf (word : List Char) : ∀ (fs : List (Formula Clause)) (pos : Nat),
    Formula.mapOf (fun c => { c with offset := 0 }) (placedOf word pos fs) =
      Formula.mapOf (fun c : Clause => { c with offset := 0 }) fs
  | [], _ => rfl
  | f :: fs, pos => by
    have hf := unplaced_placedAt f pos
    have hfs := unplaced_placedOf word fs (pos + span (lexemes f) + span [.run word])
    rw [unplaced, unplaced] at hf
    rw [placedOf, Formula.mapOf, Formula.mapOf, hf, hfs]
end

theorem FitsIn.placedAt {n : Nat} {f : Formula Clause} (h : FitsIn n f) (pos : Nat) :
    FitsIn n (placedAt pos f) :=
  h.of_unplaced (unplaced_placedAt f pos)

/-! ## Lexemes spell the formula -/

theorem conjunction?_tokenAt {word : List Char} {k : Conjunction}
    (h : Conjunction.ofKeyword? word = some k) (pos : Nat) :
    ((Piece.run word).tokenAt pos).conjunction? = some k := by
  simp [Piece.tokenAt, Token.conjunction?, h]

theorem kind_tokenAt_name (op : Operator) (pos : Nat) :
    ((Piece.run op.name.toList).tokenAt pos).kind = .operator := by
  have h : (Conjunction.ofKeyword? op.name.toList).isSome = false := by
    cases op <;> decide +kernel
  simp [Piece.tokenAt, h]

theorem spellsClause_lexemes {c : Clause} (hc : c.WellFormed) (pos : Nat) :
    SpellsClause { c with offset := pos } (lexemeTokens pos (lexemes (.leaf c))) := by
  refine ⟨_, _, _, rfl, rfl, ?_, rfl, kind_tokenAt_name _ _, ?_, ?_⟩
  · show Text.trim (String.ofList c.column.toList).toList = c.column.toList
    rw [String.ofList_toList, hc.column_trim]
  · show Operator.ofKeyword? (String.ofList c.operator.name.toList).toList = some c.operator
    rw [String.ofList_toList, Operator.ofKeyword?_name]
  · show SpellsValue c.value _
    cases c.value with
    | none => rfl
    | some v => exact ⟨_, rfl, rfl, String.ofList_toList⟩

theorem spellsChain_placedOf {word : List Char} {k : Conjunction}
    (hword : Conjunction.ofKeyword? word = some k) {fs : List (Formula Clause)} (hne : fs ≠ [])
    (hfs : ∀ f ∈ fs, ∀ pos, Spells (placedAt pos f) (lexemeTokens pos (lexemes f))) (pos : Nat) :
    SpellsChain k (placedOf word pos fs) (lexemeTokens pos (lexemesOf word fs)) := by
  induction fs generalizing pos with
  | nil => exact absurd rfl hne
  | cons f fs ih =>
    have hf := hfs f List.mem_cons_self pos
    cases fs with
    | nil => exact hf
    | cons g fs =>
      -- behind the first operand stand its conjunction and the rest of the chain
      have htail := ih (by simp) (fun f' hf' => hfs f' (List.mem_cons_of_mem _ hf'))
        (pos + span (lexemes f) + span [.run word])
      refine ⟨_, (Piece.run word).tokenAt (pos + span (lexemes f)), _, ?_, hf,
        conjunction?_tokenAt hword _, htail⟩
      show lexemeTokens pos (lexemes f ++ .run word :: lexemesOf word (g :: fs)) = _
      rw [lexemeTokens_append, lexemeTokens_cons]

/-- The lexemes of a well-formed formula spell it, with every clause in its place. -/
theorem FitsIn.spells_placedAt {n : Nat} {f : Formula Clause} (h : FitsIn n f) (pos : Nat) :
    Spells (Query.placedAt pos f) (lexemeTokens pos (lexemes f)) := by
  induction h generalizing pos with
  | leaf hc => exact spellsClause_lexemes hc pos
  | all hlen _ _ ih =>
    exact spellsChain_placedOf (by decide +kernel) (List.ne_nil_of_length_pos (by omega)) ih pos
  | any hlen _ _ ih =>
    exact spellsChain_placedOf (by decide +kernel) (List.ne_nil_of_length_pos (by omega)) ih pos
  | @group _ f _ ih =>
    refine ⟨(Piece.run ['(']).tokenAt pos, _,
      (Piece.run [')']).tokenAt (pos + span [.run ['(']] + span (lexemes f)), ?_,
      conjunction?_tokenAt (by decide +kernel) _, ih _, conjunction?_tokenAt (by decide +kernel) _⟩
    show lexemeTokens pos (.run ['('] :: (lexemes f ++ [.run [')']])) = _
    rw [lexemeTokens_cons, lexemeTokens_append]
    rfl

/-! ## Reading the rendered text -/

/-- A clause whose column and literal end where they should when they are put in braces. -/
structure Clause.IsRenderable (c : Clause) : Prop where
  column : closeBrace ∉ c.column.toList
  /-- The literal is cut at the brace behind it, not inside and not by the first brace alone. -/
  delimited : ∀ v ∈ c.value, cutBalanced .start (v.toList ++ [closeBrace]) = some (v.toList, [])
  hashless : ∀ v ∈ c.value, Text.occursIn ['#', openBrace] v.toList = false

instance (c : Clause) : Decidable c.IsRenderable :=
  decidable_of_iff (closeBrace ∉ c.column.toList ∧
    (∀ v ∈ c.value, cutBalanced .start (v.toList ++ [closeBrace]) = some (v.toList, [])) ∧
    ∀ v ∈ c.value, Text.occursIn ['#', openBrace] v.toList = false)
    ⟨fun h => ⟨h.1, h.2.1, h.2.2⟩, fun h => ⟨h.column, h.delimited, h.hashless⟩⟩

mutual
theorem isLexeme_lexemes : ∀ {f : Formula Clause}, (∀ c ∈ f.leaves, c.IsRenderable) →
    ∀ p ∈ lexemes f, p.IsLexeme
  | .leaf c, h => by
    -- a column, a canonical name, and a literal if there is one
    have hc := h c (List.mem_singleton_self c)
    refine List.forall_mem_cons.2 ⟨hc.column, List.forall_mem_cons.2 ⟨keyword_name _, ?_⟩⟩
    intro p hp
    obtain ⟨v, hv, rfl⟩ := Option.map_eq_some_iff.1 (Option.mem_toList.1 hp)
    exact ⟨hc.delimited v hv, hc.hashless v hv⟩
  | .all fs, h => isLexeme_lexemesOf keyword_and h
  | .any fs, h => isLexeme_lexemesOf keyword_or h
  | .group f, h => by
    refine List.forall_mem_cons.2 ⟨keyword_opening, List.forall_mem_append.2
      ⟨isLexeme_lexemes h, fun p hp => ?_⟩⟩
    rw [List.mem_singleton.1 hp]
    exact keyword_closing

theorem isLexeme_lexemesOf {word : List Char} (hword : Keyword word) :
    ∀ {fs : List (Formula Clause)}, (∀ c ∈ Formula.leavesOf fs, c.IsRenderable) →
    ∀ p ∈ lexemesOf word fs, p.IsLexeme
  | [], _ => fun p hp => (nomatch hp)
  | [f], h => isLexeme_lexemes fun c hc => h c (List.mem_append_left _ hc)
  | f :: g :: fs, h => by
    refine List.forall_mem_append.2 ⟨isLexeme_lexemes fun c hc => h c (List.mem_append_left _ hc), ?_⟩
    exact List.forall_mem_cons.2 ⟨hword, isLexeme_lexemesOf hword fun c hc =>
      h c (List.mem_append_right _ hc)⟩
end

/-! ## Places of clauses -/

/-- The column of a clause is one of the lexemes, and the clause is where it starts. -/
def StandsIn (pos : Nat) (ps : List Piece) (c : Clause) : Prop :=
  ∃ before after, ps = before ++ .column c.column.toList :: after ∧ c.offset = pos + span before

namespace StandsIn

variable {pos : Nat} {ps qs : List Piece} {c : Clause}

theorem append_left (h : StandsIn pos ps c) (qs : List Piece) : StandsIn pos (ps ++ qs) c := by
  obtain ⟨before, after, rfl, ho⟩ := h
  exact ⟨before, after ++ qs, by simp, ho⟩

theorem append_right (h : StandsIn (pos + span ps) qs c) : StandsIn pos (ps ++ qs) c := by
  obtain ⟨before, after, rfl, ho⟩ := h
  exact ⟨ps ++ before, after, by simp, by rw [ho, span_append, Nat.add_assoc]⟩

theorem within (h : StandsIn pos ps c) : pos ≤ c.offset ∧ c.offset < pos + span ps := by
  obtain ⟨before, after, rfl, ho⟩ := h
  rw [ho, span_append, span_cons]
  omega

end StandsIn

theorem lexemesOf_cons_cons (word : List Char) (f g : Formula Clause) (fs : List (Formula Clause)) :
    lexemesOf word (f :: g :: fs) = (lexemes f ++ [.run word]) ++ lexemesOf word (g :: fs) := by
  rw [List.append_assoc]
  rfl

mutual
theorem standsIn_placedAt : ∀ (f : Formula Clause) (pos : Nat),
    ∀ c ∈ (placedAt pos f).leaves, StandsIn pos (lexemes f) c
  | .leaf _, _ => fun d hd => by
    rw [List.mem_singleton.1 hd]
    exact ⟨[], _, rfl, rfl⟩
  | .all fs, pos => standsIn_placedOf _ fs pos
  | .any fs, pos => standsIn_placedOf _ fs pos
  | .group f, pos => fun c hc => by
    have hinner := (standsIn_placedAt f (pos + span [.run ['(']]) c hc).append_left [.run [')']]
    exact hinner.append_right

theorem standsIn_placedOf (word : List Char) : ∀ (fs : List (Formula Clause)) (pos : Nat),
    ∀ c ∈ Formula.leavesOf (placedOf word pos fs), StandsIn pos (lexemesOf word fs) c
  | [], _ => fun c hc => (nomatch hc)
  | [f], pos => fun c hc => by
    rw [placedOf, placedOf, Formula.leavesOf, Formula.leavesOf, List.append_nil] at hc
    exact standsIn_placedAt f pos c hc
  | f :: g :: fs, pos => fun c hc => by
    rw [lexemesOf_cons_cons]
    rcases List.mem_append.1 hc with hc | hc
    · -- a clause of the first operand
      exact ((standsIn_placedAt f pos c hc).append_left _).append_left _
    · -- a clause behind the first operand and its conjunction
      refine .append_right ?_
      rw [span_append, ← Nat.add_assoc]
      exact standsIn_placedOf word (g :: fs) _ c hc
end

mutual
theorem ordered_placedAt : ∀ (f : Formula Clause) (pos : Nat),
    (placedAt pos f).leaves.Pairwise fun a b => a.offset < b.offset
  | .leaf _, _ => List.pairwise_singleton _ _
  | .all fs, pos => ordered_placedOf _ fs pos
  | .any fs, pos => ordered_placedOf _ fs pos
  | .group f, _ => ordered_placedAt f _

theorem ordered_placedOf (word : List Char) : ∀ (fs : List (Formula Clause)) (pos : Nat),
    (Formula.leavesOf (placedOf word pos fs)).Pairwise fun a b => a.offset < b.offset
  | [], _ => .nil
  | f :: fs, pos => by
    refine List.pairwise_append.2 ⟨ordered_placedAt f pos, ordered_placedOf word fs _, ?_⟩
    intro a ha b hb
    -- the clauses of the first operand stand before its end, all others behind it
    have := (standsIn_placedAt f pos a ha).within
    have := (standsIn_placedOf word fs _ b hb).within
    omega
end

theorem separated_append_cons (before : List Piece) (p : Piece) (after : List Piece) :
    separated (before ++ p :: after) =
      before.flatMap (fun q => q.text ++ [' ']) ++ separated (p :: after) := by
  induction before with
  | nil => rfl
  | cons q before ih =>
    rw [List.flatMap_cons, List.append_assoc, ← ih]
    cases before <;> simp [separated]

/-- A formula is another one with every clause where its column stands in the rendered text. -/
structure IsPlaced (f g : Formula Clause) : Prop where
  same : unplaced g = unplaced f
  ordered : g.leaves.Pairwise fun a b => a.offset < b.offset
  /-- The offset of a clause is that of the hash mark and the brace which open its column. -/
  marked : ∀ c ∈ g.leaves, ∃ before after,
    lexemes f = before ++ .column c.column.toList :: after ∧
    ∃ front rest, front = before.flatMap (fun p => p.text ++ [' ']) ∧
      (render f).toList = front ++ '#' :: openBrace :: rest ∧ c.offset = width front

theorem isPlaced_placedAt (f : Formula Clause) : IsPlaced f (placedAt 0 f) where
  same := unplaced_placedAt f 0
  ordered := ordered_placedAt f 0
  marked c hc := by
    obtain ⟨before, after, hlex, ho⟩ := standsIn_placedAt f 0 c hc
    -- the text of the column starts behind the lexemes before it and their spaces
    have hrender : (render f).toList = before.flatMap (fun p => p.text ++ [' ']) ++
        ((Piece.column c.column.toList).text ++ after.flatMap fun q => ' ' :: q.text) := by
      rw [render, String.toList_ofList, hlex, separated_append_cons, separated_cons]
    exact ⟨before, after, hlex, _, _, rfl, hrender, by rw [ho, Nat.zero_add, span]⟩

theorem readAs_render {f : Formula Clause} (hf : WellFormed f)
    (hc : ∀ c ∈ f.leaves, c.IsRenderable) :
    ReadAs (render f) (placedAt 0 f) (spaced (lexemes f)) (lexemeTokens 0 (lexemes f)) where
  layout := isLayout_spaced (isLexeme_lexemes hc)
  toList_eq := by rw [render, String.toList_ofList, written_spaced]
  tokens := tokensAt_spaced (isLexeme_lexemes hc) 0
  wellFormed := hf.placedAt 0
  spells := hf.spells_placedAt 0

theorem parse_render_eq {f : Formula Clause} (hf : WellFormed f)
    (hc : ∀ c ∈ f.leaves, c.IsRenderable) : parse (render f) = .ok (placedAt 0 f) :=
  (readAs_render hf hc).parse_eq_ok

/-- **Round trip.** A well-formed formula whose clauses can be rendered is read back from its text,
with every clause where its column stands there. -/
theorem parse_render {f : Formula Clause} (hf : WellFormed f)
    (hc : ∀ c ∈ f.leaves, c.IsRenderable) : ∃ g, parse (render f) = .ok g ∧ IsPlaced f g :=
  ⟨placedAt 0 f, parse_render_eq hf hc, isPlaced_placedAt f⟩

/-- A column with words and braces in its name, a brace in quotes and an operator of two words. -/
theorem parse_render_braces :
    let f : Formula Clause := .all [.leaf ⟨"a #\x7bb and (", 7, .eq, some "'\x7d' or #"⟩,
      .group (.any [.leaf ⟨"b", 0, .notInSet, some "[1, 2]"⟩, .leaf ⟨"c", 0, .notNull, none⟩])]
    WellFormed f ∧ (∀ c ∈ f.leaves, c.IsRenderable) ∧
      ∃ g, parse (render f) = .ok g ∧ IsPlaced f g := by
  intro f
  have hf : WellFormed f := by decide +kernel
  have hc : ∀ c ∈ f.leaves, c.IsRenderable := by decide +kernel
  exact ⟨hf, hc, parse_render hf hc⟩

end RowFilter.Query
