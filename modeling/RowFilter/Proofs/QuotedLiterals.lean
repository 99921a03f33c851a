import RowFilter.Proofs.Complement
import RowFilter.Proofs.RoundTrip

/-!
# RowFilter — quoted literals

Whatever stands in quotes belongs to the literal: the scan for literals goes over it without a look. The
scan for columns knows nothing of quotes, though. A column reference that opens inside a quoted literal is
found as a column of its own, and then there are more columns than operators. So a quoted literal stands
for its text just if no column reference opens in it.

Main results:

* `Query.cutLiteral_quotedBy` — a quoted literal ends behind its quotes.
* `Query.tokenize_comparison` — the tokens of a comparison, with the columns inside the literal.
* `Query.exists_first_columnsIn` — the first column inside a text is where a reference first opens.
* `quoted_literal_one_token` — a comparison with a quoted literal, and when it is refused.
-/

namespace RowFilter

namespace Query

open Text (width occursIn)

/-! ## Quotes -/

/-- A text in quotes. -/
def quotedBy (q : Char) (s : List Char) : List Char := q :: (s ++ [q])

/-- The two quotation marks. -/
def IsQuote (q : Char) : Prop := q = '\'' ∨ q = '"'

section Quotes

variable {q : Char} {s : List Char}

/-- Inside a quote everything is read over, up to the quote that closes it. -/
theorem cutBalanced_quote (hs : q ∉ s) (fresh : Bool) (after : List Char) :
    cutBalanced ⟨some q, fresh⟩ (s ++ q :: after) =
      (cutBalanced ⟨none, fresh⟩ after).map fun p => (s ++ q :: p.1, p.2) := by
  induction s with
  | nil =>
    rw [List.nil_append, cutBalanced, if_neg (by simp)]
    simp [ElementState.step]
  | cons c s ih =>
    obtain ⟨hc, hs⟩ := not_or.1 (mt List.mem_cons.2 hs)
    rw [List.cons_append, cutBalanced, if_neg (by simp)]
    -- no other character changes the state, not even a closing brace
    have hstep : ElementState.step ⟨some q, fresh⟩ c = ⟨some q, fresh⟩ := by
      simp [ElementState.step, Ne.symm hc]
    rw [hstep, ih hs, Option.map_map]
    rfl

/-- A quoted literal is cut behind its quotes. -/
theorem cutBalanced_quotedBy (hq : IsQuote q) (hs : q ∉ s) (after : List Char) :
    cutBalanced .start (quotedBy q s ++ closeBrace :: after) = some (quotedBy q s, after) := by
  have hopen : q ≠ closeBrace := by rcases hq with rfl | rfl <;> decide
  have hstep : ElementState.start.step q = ⟨some q, true⟩ := by rcases hq with rfl | rfl <;> rfl
  rw [quotedBy, List.cons_append, List.append_assoc, cutBalanced, if_neg (by simp [hopen]), hstep,
    List.singleton_append, cutBalanced_quote hs, cutBalanced, if_pos (by simp)]
  rfl

theorem cutLiteral_quotedBy (hq : IsQuote q) (hs : q ∉ s) (after : List Char) :
    cutLiteral (quotedBy q s ++ closeBrace :: after) = some (quotedBy q s, after) := by
  rw [cutLiteral, cutBalanced_quotedBy hq hs]
  rfl

/-- Quotes open no column reference. -/
theorem occursIn_quotedBy (hq : IsQuote q) (s : List Char) :
    occursIn ['#', openBrace] (quotedBy q s) = occursIn ['#', openBrace] s := by
  have hhash : '#' ≠ q := by rcases hq with rfl | rfl <;> decide
  have hbrace : openBrace ≠ q := by rcases hq with rfl | rfl <;> decide
  have hlast : occursIn ['#', openBrace] (s ++ [q]) = occursIn ['#', openBrace] s := by
    induction s with
    | nil => simp [occursIn, List.isPrefixOf]
    | cons c s ih =>
      rw [List.cons_append, occursIn, occursIn, ih]
      cases s with
      | nil => simp [List.isPrefixOf, hbrace]
      | cons d s => simp [List.isPrefixOf]
  rw [quotedBy, occursIn, hlast]
  simp [List.isPrefixOf, hhash]

end Quotes

/-! ## The first column inside a text -/

theorem columnsIn_plain {c : Char} {s : List Char} (hc : c = '#' → s.head? ≠ some openBrace)
    (pos : Nat) : columnsIn pos (c :: s) = columnsIn (pos + c.utf8Size) s :=
  ((foundBefore_columnsIn (pos + c.utf8Size) s).plain hc).eq_columnsIn

/-- A column reference that opens in a text is found there, closed or not. -/
theorem exists_columnsIn_of_open (pos : Nat) (s : List Char) :
    ∃ t ts, columnsIn pos ('#' :: openBrace :: s) = t :: ts ∧ t.start = pos := by
  by_cases hclosed : closeBrace ∈ s
  · obtain ⟨name, s, rfl, hname⟩ := List.eq_append_cons_of_mem hclosed
    exact ⟨_, _, ((foundBefore_columnsIn _ s).closed hname).eq_columnsIn, rfl⟩
  · exact ⟨_, _, (FoundBefore.unclosed hclosed pos).eq_columnsIn, rfl⟩

/-- The scan finds its first column where the first reference opens. -/
theorem exists_first_columnsIn {before : List Char} (h : occursIn ['#', openBrace] before = false)
    (pos : Nat) (s : List Char) :
    ∃ t ts, columnsIn pos (before ++ '#' :: openBrace :: s) = t :: ts ∧
      t.start = pos + width before := by
  -- on the text in front, which the scan passes character by character
  induction before generalizing pos with
  | nil => exact exists_columnsIn_of_open pos s
  | cons c before ih =>
    rw [occursIn, Bool.or_eq_false_iff] at h
    have hc : c = '#' → (before ++ '#' :: openBrace :: s).head? ≠ some openBrace := by
      rintro rfl
      cases before with
      | nil => simp [openBrace]
      | cons d before =>
        intro hd
        obtain rfl := Option.some.inj hd
        exact absurd h.1 (by simp [List.isPrefixOf])
    obtain ⟨t, ts, hfound, hstart⟩ := ih h.2 (pos + c.utf8Size)
    refine ⟨t, ts, (columnsIn_plain hc pos).trans hfound, ?_⟩
    rw [hstart, Text.width_cons, Nat.add_assoc]

/-- Where a reference opens, one opens first. -/
theorem exists_first_open {s : List Char} (h : occursIn ['#', openBrace] s = true) :
    ∃ before rest, s = before ++ '#' :: openBrace :: rest ∧
      occursIn ['#', openBrace] before = false := by
  induction s with
  | nil => cases h
  | cons c s ih =>
    cases hhere : ['#', openBrace].isPrefixOf (c :: s) with
    | true =>
      obtain ⟨rest, hrest⟩ := List.isPrefixOf_iff_prefix.1 hhere
      exact ⟨[], rest, hrest.symm, rfl⟩
    | false =>
      rw [occursIn, hhere, Bool.false_or] at h
      obtain ⟨before, rest, rfl, hbefore⟩ := ih h
      refine ⟨c :: before, rest, rfl, ?_⟩
      rw [occursIn, hbefore, Bool.or_false]
      cases before with
      | nil => simp [List.isPrefixOf]
      | cons d before => simpa [List.isPrefixOf] using hhere

/-! ## Comparisons -/

/-- The text that compares a column with a literal. -/
def comparison (column literal : String) : String :=
  "#\x7b" ++ column ++ "\x7d = \x7b" ++ literal ++ "\x7d"

/-- The pieces of a comparison. -/
def comparisonLayout (column literal : List Char) : List Piece :=
  [.column column, .run [' ', '=', ' '], .value literal]

theorem toList_comparison (column literal : String) :
    (comparison column literal).toList = written (comparisonLayout column.toList literal.toList) := by
  simp [comparison, comparisonLayout, Piece.text, openBrace, closeBrace]

theorem isLayout_comparison {column literal : List Char} (hcolumn : closeBrace ∉ column)
    (hliteral : cutLiteral (literal ++ [closeBrace]) = some (literal, [])) :
    IsLayout (comparisonLayout column literal) :=
  ⟨hcolumn, by simp, by simp [openBrace], by simp, by simp, hliteral, trivial⟩

/-- The one word between the column and the literal. -/
theorem wordTokens_equals (pos : Nat) : wordTokens (wordsFrom pos [] [' ', '=', ' ']) =
    .ok [⟨.operator, "=", pos + 1, pos + 2⟩] := by
  have hspace : wordsFrom (pos + 2) [] [' '] = [] := by
    rw [wordsFrom, if_pos (by decide), wordsFrom]
  have htoken := (keyword_name .eq).token (pos + 1) [' '] (by simp)
  rw [wordsFrom, if_pos (by decide), wordTokens_wordsFrom_gap _ _ []]
  refine htoken.trans ?_
  rw [show pos + 1 + width Operator.eq.name.toList = pos + 2 from rfl, hspace]
  rfl

/-- The tokens that a comparison shows: a column, an operator and a literal. -/
def comparisonTokens (column literal : String) : List Token :=
  let w := width column.toList
  [⟨.column, column, 0, w + 3⟩, ⟨.operator, "=", w + 4, w + 5⟩,
    ⟨.value, literal, w + 6, w + 6 + width literal.toList + 2⟩]

/-- A comparison has the tokens that it shows, and the columns inside its literal. -/
theorem tokensAt_comparison (column literal : String) :
    tokensAt 0 (comparisonLayout column.toList literal.toList) =
      .ok (comparisonTokens column literal ++ columnsIn (width column.toList + 7) literal.toList) := by
  have hvalue (pos : Nat) : tokensAt pos [.value literal.toList] =
      .ok (⟨.value, literal, pos, pos + width literal.toList + 2⟩ ::
        columnsIn (pos + 1) literal.toList) := by
    rw [tokensAt, tokensAt, String.ofList_toList]
    show Except.ok (_ :: (columnsIn (pos + 1) literal.toList ++ [])) = _
    rw [List.append_nil]
  rw [comparisonLayout, tokensAt, Nat.zero_add, String.ofList_toList,
    tokensAt_run (wordTokens_equals _) (hvalue _), comparisonTokens]
  rfl

theorem tokenize_comparison {column literal : String} {found : List Token}
    (hcolumn : closeBrace ∉ column.toList)
    (hliteral : cutLiteral (literal.toList ++ [closeBrace]) = some (literal.toList, []))
    (hfound : columnsIn (width column.toList + 7) literal.toList = found) :
    tokenize (comparison column literal) =
      (TokenStream.ofTokens (comparisonTokens column literal ++ found)).checkCounts.map
        fun _ => .ofTokens (comparisonTokens column literal ++ found) := by
  rw [tokenize_written (isLayout_comparison hcolumn hliteral) (toList_comparison column literal),
    tokensAt_comparison, hfound, ok_bind]
  cases (TokenStream.ofTokens _).checkCounts <;> rfl

/-- Without a column in its literal a comparison has just the tokens that it shows. -/
theorem checkCounts_comparison (column literal : String) :
    (TokenStream.ofTokens (comparisonTokens column literal)).checkCounts = .ok () := by
  have hwanted (start stop : Nat) : TokenStream.wantedBy ⟨.operator, "=", start, stop⟩ = 1 := by
    rw [TokenStream.wantedBy, show "=".toList = Operator.eq.name.toList from rfl,
      Operator.ofKeyword?_name]
    rfl
  show TokenStream.checkValues [_] [_] = _
  rw [TokenStream.checkValues, if_pos (hwanted _ _)]
  rfl

/-- A column in the literal of a comparison is one too many. -/
theorem checkCounts_comparison_append (column literal : String) {t : Token} {ts : List Token}
    (h : ∀ t' ∈ t :: ts, t'.kind = .column) :
    (TokenStream.ofTokens (comparisonTokens column literal ++ t :: ts)).checkCounts =
      .error (.querySyntax t.start (.countMismatch (ts.length + 2) 1)) := by
  have hcolumns : ofKind .column (t :: ts) = t :: ts := ofKind_eq_self h
  have hoperators : ofKind .operator (t :: ts) = [] := ofKind_eq_nil_of_kind h (by decide)
  rw [TokenStream.checkCounts, TokenStream.ofTokens, ofKind_append, ofKind_append, hcolumns,
    hoperators]
  rfl

/-- Without a column reference in its quotes a comparison has the tokens that it shows. -/
theorem tokenize_quoted {column : String} {s : List Char} {q : Char}
    (hcolumn : closeBrace ∉ column.toList) (hq : IsQuote q) (hs : q ∉ s)
    (hhash : occursIn ['#', openBrace] s = false) :
    tokenize (comparison column (String.ofList (quotedBy q s))) =
      .ok (.ofTokens (comparisonTokens column (String.ofList (quotedBy q s)))) := by
  have hcut := cutLiteral_quotedBy hq hs []
  have hfound : columnsIn (width column.toList + 7) (quotedBy q s) = [] :=
    columnsIn_eq_nil (by rw [occursIn_quotedBy hq, hhash]) _
  rw [← String.toList_ofList (l := quotedBy q s)] at hcut hfound
  rw [tokenize_comparison hcolumn hcut hfound, List.append_nil, checkCounts_comparison]
  rfl

/-- With one, it has a column too many. -/
theorem tokenize_quoted_open {column : String} {before rest : List Char} {q : Char}
    (hcolumn : closeBrace ∉ column.toList) (hq : IsQuote q)
    (hs : q ∉ before ++ '#' :: openBrace :: rest)
    (hbefore : occursIn ['#', openBrace] before = false) :
    ∃ n, 2 ≤ n ∧ tokenize
      (comparison column (String.ofList (quotedBy q (before ++ '#' :: openBrace :: rest)))) =
        .error (.querySyntax (width column.toList + 8 + width before) (.countMismatch n 1)) := by
  have hcut := cutLiteral_quotedBy hq hs []
  have hopen : q ≠ '#' ∧ q.utf8Size = 1 := by rcases hq with rfl | rfl <;> decide
  obtain ⟨t, ts, hfound, hstart⟩ :=
    exists_first_columnsIn hbefore (width column.toList + 8) (rest ++ [q])
  -- the quote in front is no part of a reference
  have hquoted : columnsIn (width column.toList + 7)
      (quotedBy q (before ++ '#' :: openBrace :: rest)) = t :: ts := by
    rw [quotedBy, columnsIn_plain (fun h => absurd h hopen.1), hopen.2, List.append_assoc]
    exact hfound
  have hkind := (foundBefore_columnsIn (width column.toList + 7)
    (quotedBy q (before ++ '#' :: openBrace :: rest))).column
  rw [hquoted] at hkind
  rw [← String.toList_ofList (l := quotedBy q _)] at hcut hquoted
  refine ⟨ts.length + 2, by omega, ?_⟩
  rw [tokenize_comparison hcolumn hcut hquoted, checkCounts_comparison_append column _ hkind, hstart]
  rfl

/-- A comparison is read as it stands if its literal ends where it should and no column opens in it. -/
theorem readAs_comparison {column literal : String} (hne : column.toList ≠ [])
    (htrim : Text.trim column.toList = column.toList) (hcolumn : closeBrace ∉ column.toList)
    (hliteral : cutLiteral (literal.toList ++ [closeBrace]) = some (literal.toList, []))
    (hhash : occursIn ['#', openBrace] literal.toList = false) :
    ReadAs (comparison column literal) (.leaf ⟨column, 0, .eq, some literal⟩)
      (comparisonLayout column.toList literal.toList) (comparisonTokens column literal) where
  layout := isLayout_comparison hcolumn hliteral
  toList_eq := toList_comparison column literal
  tokens := by rw [tokensAt_comparison, columnsIn_eq_nil hhash, List.append_nil]
  wellFormed := .leaf ⟨hne, htrim, by simp [Operator.arity]⟩
  spells := ⟨_, _, _, rfl, rfl, htrim, rfl, rfl, Operator.ofKeyword?_name .eq, _, rfl, rfl, rfl⟩

/-- Without a column reference in its quotes a comparison is read as it stands. -/
theorem parse_quoted {column : String} {s : List Char} {q : Char} (hne : column.toList ≠ [])
    (htrim : Text.trim column.toList = column.toList) (hcolumn : closeBrace ∉ column.toList)
    (hq : IsQuote q) (hs : q ∉ s) (hhash : occursIn ['#', openBrace] s = false) :
    parse (comparison column (String.ofList (quotedBy q s))) =
      .ok (.leaf ⟨column, 0, .eq, some (String.ofList (quotedBy q s))⟩) := by
  refine (readAs_comparison hne htrim hcolumn ?_ ?_).parse_eq_ok
  · rw [String.toList_ofList]
    exact cutLiteral_quotedBy hq hs []
  · rw [String.toList_ofList, occursIn_quotedBy hq, hhash]

end Query

/-! ## The value of a quoted literal -/

namespace Literal

open Query (IsQuote quotedBy)

theorem dropPair_framed (opening closing : Char) (s : List Char) :
    dropPair opening closing (opening :: (s ++ [closing])) = some s := by
  cases s with
  | nil => simp [dropPair]
  | cons c s =>
    show (if opening = opening ∧ ((c :: s) ++ [closing]).getLast? = some closing then
      some ((c :: s) ++ [closing]).dropLast else none) = _
    rw [List.getLast?_concat, List.dropLast_concat, if_pos ⟨rfl, rfl⟩]

/-- Quotes are dropped like brackets. -/
theorem dropQuotes_eq_dropPair (q : Char) (s : List Char) : dropQuotes q s = dropPair q q s := by
  rcases s with _ | ⟨c, _ | ⟨d, s⟩⟩ <;> rfl

theorem dropQuotes_quotedBy (q : Char) (s : List Char) : dropQuotes q (quotedBy q s) = some s := by
  rw [dropQuotes_eq_dropPair]
  exact dropPair_framed q q s

theorem unquote_quotedBy {q : Char} (hq : IsQuote q) (s : List Char) :
    unquote (quotedBy q s) = s := by
  have hblank : Text.isBlank q = false := by rcases hq with rfl | rfl <;> decide
  have htrim : Text.trim (quotedBy q s) = quotedBy q s := by
    rw [Text.trim, quotedBy, Text.trimStart_eq_self hblank, Text.trimEnd]
    simp [hblank]
  rw [unquote, htrim]
  rcases hq with rfl | rfl
  · rw [dropQuotes_quotedBy]
    rfl
  · -- the other quote does not open the literal
    have hother : dropQuotes '\'' (quotedBy '"' s) = none := by cases s <;> rfl
    rw [hother, dropQuotes_quotedBy]
    rfl

end Literal

namespace Compile

/-- An equation on a text column is compiled to a test against its literal without the quotes. -/
theorem outcome_formula_quoted {schema : Schema} {column : String} {q : Char}
    (hschema : schema.find? column = some .string) (hq : Query.IsQuote q) (s : List Char)
    (lists : Literal.NamedLists) (user source : String) :
    let literal := String.ofList (Query.quotedBy q s)
    (formula schema lists user source (.leaf ⟨column, 0, .eq, some literal⟩)).outcome =
      .ok ⟨source,
        .leaf ⟨column, .string, .eq, .scalar (.text (String.ofList s)), some literal, 0⟩⟩ := by
  intro literal
  have hcast : Literal.cast (rawOf ⟨column, 0, .eq, some literal⟩) .string =
      .text (String.ofList s) := by
    rw [Literal.cast_of_isTextual _ rfl, rawOf, Option.getD_some, String.toList_ofList,
      Literal.unquote_quotedBy hq]
  have hcheck : checkClause schema ⟨column, 0, .eq, some literal⟩ =
      .ok (⟨column, 0, .eq, some literal⟩, .string) := by
    rw [checkClause, hschema]
    rfl
  rw [outcome_formula_leaf, hcheck]
  show Except.ok (⟨source, .leaf ⟨column, .string, .eq, .scalar (Literal.cast
    (rawOf ⟨column, 0, .eq, some literal⟩) .string), some literal, 0⟩⟩ : Compiled) = _
  rw [hcast]

end Compile

open Query
open Text (width occursIn)

/-- **Quoted literals.** Compare a column with a text in quotes that does not contain the quote itself. As
long as no column reference opens in the text, the comparison has one column, one operator and the quoted
text as its one literal, and on a text column it compiles to one test against the text. If one opens, the
comparison is refused where the first one does, since the columns in the text count as columns. -/
theorem quoted_literal_one_token {column s : String} {q : Char} (hne : column.toList ≠ [])
    (htrim : Text.trim column.toList = column.toList) (hcolumn : closeBrace ∉ column.toList)
    (hq : q = '\'' ∨ q = '"') (hs : q ∉ s.toList) :
    let literal := String.ofList (q :: (s.toList ++ [q]))
    let source := comparison column literal
    let w := width column.toList
    (occursIn ['#', openBrace] s.toList = false →
      tokenize source = .ok ⟨[⟨.column, column, 0, w + 3⟩], [⟨.operator, "=", w + 4, w + 5⟩],
        [⟨.value, literal, w + 6, w + 6 + width literal.toList + 2⟩], []⟩ ∧
      ∀ schema lists user, schema.find? column = some .string →
        (Compile.text schema lists user source).outcome =
          .ok ⟨source, .leaf ⟨column, .string, .eq, .scalar (.text s), some literal, 0⟩⟩) ∧
    (occursIn ['#', openBrace] s.toList = true →
      ∃ before rest n, s.toList = before ++ '#' :: openBrace :: rest ∧
        occursIn ['#', openBrace] before = false ∧ 2 ≤ n ∧
        tokenize source = .error (.querySyntax (w + 8 + width before) (.countMismatch n 1)) ∧
        ∀ schema lists user, (Compile.text schema lists user source).outcome =
          .error (.querySyntax (w + 8 + width before) (.countMismatch n 1))) := by
  intro literal source w
  constructor
  · intro hhash
    refine ⟨tokenize_quoted hcolumn hq hs hhash, ?_⟩
    intro schema lists user hschema
    have hparse := parse_quoted hne htrim hcolumn hq hs hhash
    have hformula := Compile.outcome_formula_quoted hschema hq s.toList lists user source
    rw [String.ofList_toList] at hformula
    rw [Compile.text, Traced.outcome_bind, Traced.outcome_ofExcept]
    show Query.parse (comparison column (String.ofList (quotedBy q s.toList))) >>= _ = _
    rw [hparse]
    exact hformula
  · intro hhash
    obtain ⟨before, rest, hsplit, hbefore⟩ := exists_first_open hhash
    rw [hsplit] at hs
    obtain ⟨n, hn, htokens⟩ := tokenize_quoted_open hcolumn hq hs hbefore
    rw [← hsplit] at htokens
    refine ⟨before, rest, n, hsplit, hbefore, hn, htokens, ?_⟩
    intro schema lists user
    -- nothing is compiled of a query that has no tokens
    have hparse : Query.parse source =
        .error (.querySyntax (w + 8 + width before) (.countMismatch n 1)) := by
      rw [Query.parse, show tokenize source = _ from htokens]
      rfl
    rw [Compile.text, Traced.outcome_bind, Traced.outcome_ofExcept, hparse]
    rfl

/-- A brace, a word, a parenthesis and the other quote are part of the literal. -/
theorem quoted_literal_one_token_braces :
    let column := "a b"
    let s := "\x7d or (it's \x7b"
    let source := comparison column "\"\x7d or (it's \x7b\""
    column.toList ≠ [] ∧ Text.trim column.toList = column.toList ∧ closeBrace ∉ column.toList ∧
      '"' ∉ s.toList ∧ occursIn ['#', openBrace] s.toList = false ∧
      tokenize source = .ok ⟨[⟨.column, column, 0, 6⟩], [⟨.operator, "=", 7, 8⟩],
        [⟨.value, "\"\x7d or (it's \x7b\"", 9, 25⟩], []⟩ ∧
      (Compile.text ⟨[(column, .string)]⟩ .empty "u" source).outcome =
        .ok ⟨source, .leaf ⟨column, .string, .eq, .scalar (.text s),
          some "\"\x7d or (it's \x7b\"", 0⟩⟩ := by
  intro column s source
  have hne : column.toList ≠ [] := by decide +kernel
  have htrim : Text.trim column.toList = column.toList := by decide +kernel
  have hcolumn : closeBrace ∉ column.toList := by decide +kernel
  have hs : '"' ∉ s.toList := by decide +kernel
  have hhash : occursIn ['#', openBrace] s.toList = false := by decide +kernel
  obtain ⟨hplain, _⟩ := quoted_literal_one_token hne htrim hcolumn (.inr rfl) hs
  have hliteral : String.ofList ('"' :: (s.toList ++ ['"'])) = "\"\x7d or (it's \x7b\"" := by
    decide +kernel
  have hcolumnWidth : width column.toList = 3 := by decide +kernel
  have hliteralWidth : width "\"\x7d or (it's \x7b\"".toList = 14 := by decide +kernel
  rw [hliteral, hcolumnWidth, hliteralWidth] at hplain
  obtain ⟨htokens, hcompile⟩ := hplain hhash
  have hschema : (⟨[(column, .string)]⟩ : Schema).find? column = some .string := rfl
  exact ⟨hne, htrim, hcolumn, hs, hhash, htokens, hcompile _ .empty "u" hschema⟩

/-- A column reference in quotes is a second column, for which there is no operator. -/
theorem quoted_literal_not_one_token :
    let column := "a"
    let s := "#\x7bb\x7d"
    column.toList ≠ [] ∧ Text.trim column.toList = column.toList ∧ closeBrace ∉ column.toList ∧
      '\'' ∉ s.toList ∧
      tokenize (comparison column "'#\x7bb\x7d'") = .error (.querySyntax 9 (.countMismatch 2 1)) := by
  intro column s
  have hcolumn : closeBrace ∉ column.toList := by decide +kernel
  have hcut : cutLiteral ("'#\x7bb\x7d'".toList ++ [closeBrace]) = some ("'#\x7bb\x7d'".toList, []) := by
    decide +kernel
  have hfound : columnsIn (width column.toList + 7) "'#\x7bb\x7d'".toList = [⟨.column, "b", 9, 13⟩] := by
    decide +kernel
  refine ⟨by decide +kernel, by decide +kernel, hcolumn, by decide +kernel, ?_⟩
  rw [tokenize_comparison hcolumn hcut hfound, checkCounts_comparison_append _ _ (by decide)]
  rfl

end RowFilter
