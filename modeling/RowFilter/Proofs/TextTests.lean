import RowFilter.Proofs.QueryAnswers

/-!
# RowFilter — text tests and the lower case of a part

A text test compares the lower case of a cell with the lower case of its literal. Lower case goes character
by character, except for the capital sigma: it becomes the final form where it ends a word, and whether it
does depends on what stands around it. So the lower case of a part need not be a part of the lower case. It
is one wherever the part stands, if no capital sigma of the part looks past its ends.

Main results:

* `Text.lowercase_append_append` — the lower case of a text part by part.
* `Text.lowercaseIn_eq_lowercase_iff` — a part has its own lower case just if its sigmas keep their forms.
* `Text.exists_not_infix_of_openEnd`, `Text.exists_not_infix_of_openStart` — a sigma that looks past an end of
  a part can be made to miss it.
* `exact_part_matches` — which literals are found wherever they stand.
-/

namespace RowFilter

namespace Text

/-! ## Lower case in a context -/

/-- Lower case of one character between `before`, which is reversed, and `after`. -/
def lowerAt (before : List Char) (c : Char) (after : List Char) : List Char :=
  if c = 'Σ' then (if endsWord before after then ['ς'] else ['σ']) else lowerChar c

/-- Lower case of a text that stands between `before`, which is reversed, and `after`. -/
def lowercaseIn (before after : List Char) : List Char → List Char
  | [] => []
  | c :: rest => lowerAt before c (rest ++ after) ++ lowercaseIn (c :: before) after rest

theorem lowercaseFrom_append (before s t : List Char) :
    lowercaseFrom before (s ++ t) =
      lowercaseIn before t s ++ lowercaseFrom (s.reverse ++ before) t := by
  induction s generalizing before with
  | nil => rfl
  | cons c s ih =>
    rw [List.cons_append, lowercaseFrom, ih, lowercaseIn, List.reverse_cons, List.append_assoc,
      List.append_assoc]
    rfl

theorem lowercaseIn_nil_after (before s : List Char) : lowercaseIn before [] s = lowercaseFrom before s := by
  rw [← List.append_nil (lowercaseIn before [] s), ← List.append_nil s]
  simpa [lowercaseFrom] using (lowercaseFrom_append before s []).symm

/-- The lower case of a text is that of its parts, each in its place. -/
theorem lowercase_append_append (before s after : List Char) :
    lowercase (before ++ s ++ after) =
      lowercaseIn [] (s ++ after) before ++ lowercaseIn before.reverse after s ++
        lowercaseFrom (s.reverse ++ before.reverse) after := by
  rw [lowercase, List.append_assoc, lowercaseFrom_append, lowercaseFrom_append, List.append_nil,
    List.append_assoc]

theorem length_lowerAt (before after before' after' : List Char) (c : Char) :
    (lowerAt before c after).length = (lowerAt before' c after').length := by
  unfold lowerAt
  split
  · split <;> split <;> rfl
  · rfl

/-- The context of a text changes the form of its sigmas, and so never its length. -/
theorem length_lowercaseIn (before after before' after' s : List Char) :
    (lowercaseIn before after s).length = (lowercaseIn before' after' s).length := by
  induction s generalizing before before' with
  | nil => rfl
  | cons c s ih =>
    rw [lowercaseIn, lowercaseIn, List.length_append, List.length_append,
      length_lowerAt before (s ++ after) before' (s ++ after'), ih (c :: before) (c :: before')]

theorem lowerAt_eq_iff {before after before' after' : List Char} :
    lowerAt before 'Σ' after = lowerAt before' 'Σ' after' ↔
      endsWord before after = endsWord before' after' := by
  rw [lowerAt, lowerAt, if_pos rfl, if_pos rfl]
  cases endsWord before after <;> cases endsWord before' after' <;> decide

/-- A text has the same lower case in two contexts just if its capital sigmas have the same forms in them. -/
theorem lowercaseIn_eq_iff {before after before' after' s : List Char} :
    lowercaseIn before after s = lowercaseIn before' after' s ↔
      ∀ pre post, s = pre ++ 'Σ' :: post →
        endsWord (pre.reverse ++ before) (post ++ after) =
          endsWord (pre.reverse ++ before') (post ++ after') := by
  induction s generalizing before before' with
  | nil => simp [lowercaseIn]
  | cons c s ih =>
    rw [lowercaseIn, lowercaseIn]
    constructor
    · intro h pre post hsplit
      -- both lower cases give the first character equally many places
      obtain ⟨hfirst, hrest⟩ := List.append_inj h (length_lowerAt _ _ _ _ c)
      cases pre with
      | nil =>
        obtain ⟨rfl, rfl⟩ := List.cons.inj hsplit
        exact lowerAt_eq_iff.1 hfirst
      | cons d pre =>
        obtain ⟨rfl, rfl⟩ := List.cons.inj hsplit
        have hinner := ih.1 hrest pre post rfl
        simpa using hinner
    · intro h
      have hfirst : lowerAt before c (s ++ after) = lowerAt before' c (s ++ after') := by
        by_cases hc : c = 'Σ'
        · subst hc
          exact lowerAt_eq_iff.2 (h [] s rfl)
        · rw [lowerAt, lowerAt, if_neg hc, if_neg hc]
      have hrest : lowercaseIn (c :: before) after s = lowercaseIn (c :: before') after' s := by
        refine ih.2 fun pre post hsplit => ?_
        have houter := h (c :: pre) post (by rw [hsplit]; rfl)
        simpa using houter
      rw [hfirst, hrest]

/-! ## Sigmas that look past the ends -/

/-- Characters that the look for a cased letter goes over. -/
def allIgnorable (s : List Char) : Bool := s.all caseIgnorables.contains

theorem meetsCased_append (s t : List Char) :
    meetsCased (s ++ t) = if allIgnorable s then meetsCased t else meetsCased s := by
  induction s with
  | nil => rfl
  | cons c s ih =>
    by_cases hc : caseIgnorables.contains c = true
    · have hskip (u : List Char) : meetsCased (c :: u) = meetsCased u := by
        rw [meetsCased, meetsCased, List.dropWhile_cons_of_pos hc]
      rw [List.cons_append, hskip, hskip, ih]
      simp [allIgnorable, hc]
    · have hstop (u : List Char) : meetsCased (c :: u) = casedLetters.contains c := by
        rw [meetsCased, List.dropWhile_cons_of_neg hc]
      rw [List.cons_append, hstop, hstop]
      simp [allIgnorable, hc]

theorem meetsCased_of_allIgnorable {s : List Char} (h : allIgnorable s = true) : meetsCased s = false := by
  have happend := meetsCased_append s []
  rw [List.append_nil, if_pos h] at happend
  exact happend

/-- What stands around a word counts only for a sigma that looks past its ends. -/
theorem endsWord_append {pre post before after : List Char}
    (hbefore : before = [] ∨ allIgnorable pre = false ∨ meetsCased post = true)
    (hafter : after = [] ∨ meetsCased pre = false ∨ allIgnorable post = false) :
    endsWord (pre ++ before) (post ++ after) = endsWord pre post := by
  have hnil : meetsCased [] = false := rfl
  have hpre : allIgnorable pre = true → meetsCased pre = false := meetsCased_of_allIgnorable
  have hpost : allIgnorable post = true → meetsCased post = false := meetsCased_of_allIgnorable
  -- the context is asked only where the part itself has no answer, and then the other side settles it
  rw [endsWord, endsWord, meetsCased_append, meetsCased_append]
  grind

/-- The capital sigmas of a text that stands behind `before`: what is in front of each, reversed, and what is
behind it. -/
def sigmas (before : List Char) : List Char → List (List Char × List Char)
  | [] => []
  | c :: rest => (if c = 'Σ' then [(before, rest)] else []) ++ sigmas (c :: before) rest

theorem mem_sigmas {before s : List Char} {p : List Char × List Char} :
    p ∈ sigmas before s ↔ ∃ pre, s = pre ++ 'Σ' :: p.2 ∧ p.1 = pre.reverse ++ before := by
  induction s generalizing before with
  | nil => simp [sigmas]
  | cons c s ih =>
    rw [sigmas, List.mem_append, ih]
    constructor
    · rintro (hhere | ⟨pre, rfl, hp⟩)
      · split at hhere
        · rename_i hc
          obtain rfl := List.mem_singleton.1 hhere
          exact ⟨[], by rw [hc]; rfl, rfl⟩
        · cases hhere
      · exact ⟨c :: pre, rfl, by simpa using hp⟩
    · rintro ⟨pre, hsplit, hp⟩
      cases pre with
      | nil =>
        obtain ⟨rfl, rfl⟩ := List.cons.inj hsplit
        left
        rw [if_pos rfl, List.mem_singleton, Prod.ext_iff]
        exact ⟨hp, rfl⟩
      | cons d pre =>
        obtain ⟨rfl, rfl⟩ := List.cons.inj hsplit
        exact .inr ⟨pre, rfl, by simpa using hp⟩

/-- A capital sigma ends a word at the end of a text: a cased letter stands in front of it, and what stands
behind it is ignored. With a cased letter behind the text it would not end the word. -/
def hasOpenEnd (s : List Char) : Bool :=
  (sigmas [] s).any fun p => meetsCased p.1 && allIgnorable p.2

/-- What stands in front of a capital sigma at the start of a text is ignored, and no cased letter stands
behind it. With a cased letter in front of the text it would end a word. -/
def hasOpenStart (s : List Char) : Bool :=
  (sigmas [] s).any fun p => allIgnorable p.1 && !meetsCased p.2

section Parts

variable {s t before after : List Char}

/-- A part has its own lower case in a context just if its sigmas keep their forms in it. -/
theorem lowercaseIn_eq_lowercase_iff : lowercaseIn before after s = lowercase s ↔
    ∀ p ∈ sigmas [] s, endsWord (p.1 ++ before) (p.2 ++ after) = endsWord p.1 p.2 := by
  rw [lowercase, ← lowercaseIn_nil_after, lowercaseIn_eq_iff]
  simp only [mem_sigmas, List.append_nil]
  constructor
  · rintro h ⟨_, post⟩ ⟨pre, hsplit, rfl⟩
    exact h pre post hsplit
  · intro h pre post hsplit
    exact h (pre.reverse, post) ⟨pre, hsplit, rfl⟩

/-- A part whose sigmas do not look past its ends has its own lower case wherever it stands. -/
theorem lowercaseIn_eq_lowercase (hstart : before = [] ∨ hasOpenStart s = false)
    (hend : after = [] ∨ hasOpenEnd s = false) : lowercaseIn before after s = lowercase s := by
  refine lowercaseIn_eq_lowercase_iff.2 fun p hp => endsWord_append ?_ ?_
  · refine hstart.imp_right fun hopen => ?_
    have hp := List.any_eq_false.1 hopen p hp
    cases hpre : allIgnorable p.1 <;> cases hpost : meetsCased p.2 <;> simp_all
  · refine hend.imp_right fun hopen => ?_
    have hp := List.any_eq_false.1 hopen p hp
    cases hpre : meetsCased p.1 <;> cases hpost : allIgnorable p.2 <;> simp_all

theorem lowercase_append (s t : List Char) :
    lowercase (s ++ t) = lowercaseIn [] t s ++ lowercaseIn s.reverse [] t := by
  rw [lowercase, lowercaseFrom_append, List.append_nil, lowercaseIn_nil_after]

theorem prefix_lowercase (h : hasOpenEnd s = false) (hpart : s <+: t) : lowercase s <+: lowercase t := by
  obtain ⟨after, rfl⟩ := hpart
  rw [lowercase_append, lowercaseIn_eq_lowercase (.inl rfl) (.inr h)]
  exact List.prefix_append _ _

theorem suffix_lowercase (h : hasOpenStart s = false) (hpart : s <:+ t) : lowercase s <:+ lowercase t := by
  obtain ⟨before, rfl⟩ := hpart
  rw [lowercase_append, lowercaseIn_eq_lowercase (.inr h) (.inl rfl)]
  exact List.suffix_append _ _

theorem infix_lowercase (hstart : hasOpenStart s = false) (hend : hasOpenEnd s = false)
    (hpart : s <:+: t) : lowercase s <:+: lowercase t := by
  obtain ⟨before, after, rfl⟩ := hpart
  rw [lowercase_append_append, lowercaseIn_eq_lowercase (.inr hstart) (.inr hend)]
  exact List.infix_append _ _ _

/-! ## Parts that are missed -/

/-- A letter that is not the one given. -/
def letterBut (d : Option Char) : Char := if d = some 'a' then 'b' else 'a'

theorem letterBut_cases (d : Option Char) : letterBut d = 'a' ∨ letterBut d = 'b' := by
  unfold letterBut
  split
  · exact .inr rfl
  · exact .inl rfl

theorem ne_letterBut (d : Option Char) : d ≠ some (letterBut d) := by
  unfold letterBut
  split
  · rename_i h
    rw [h]
    decide
  · rename_i h
    exact h

theorem lowercaseIn_letterBut (before after : List Char) (d : Option Char) :
    lowercaseIn before after [letterBut d] = [letterBut d] := by
  rcases letterBut_cases d with h | h
  all_goals
    rw [h, lowercaseIn, lowercaseIn, lowerAt, if_neg (by decide)]
    decide +kernel

theorem meetsCased_letterBut (d : Option Char) : meetsCased [letterBut d] = true := by
  rcases letterBut_cases d with h | h
  all_goals
    rw [h]
    decide +kernel

/-- Among the neighbours of a list that are one element longer, a list is found only at an end. -/
theorem not_infix_concat {u : List Char} {c : Char} (hlength : u.length = t.length) (hne : u ≠ t)
    (hlast : t.getLast? ≠ some c) : ¬ t <:+: u ++ [c] := by
  intro h
  rcases List.infix_concat_iff.1 h with hend | hinside
  · rcases List.suffix_concat_iff.1 hend with rfl | ⟨t, rfl, _⟩
    · exact hne (List.length_eq_zero_iff.1 hlength)
    · exact hlast List.getLast?_concat
  · exact hne (hinside.eq_of_length hlength.symm).symm

theorem not_infix_cons {u : List Char} {c : Char} (hlength : u.length = t.length) (hne : u ≠ t)
    (hhead : t.head? ≠ some c) : ¬ t <:+: c :: u := by
  intro h
  rcases List.infix_cons_iff.1 h with hstart | hinside
  · rcases List.prefix_cons_iff.1 hstart with rfl | ⟨t, rfl, _⟩
    · exact hne (List.length_eq_zero_iff.1 hlength)
    · exact hhead rfl
  · exact hne (hinside.eq_of_length hlength.symm).symm

theorem length_lowercaseIn_eq (before after s : List Char) :
    (lowercaseIn before after s).length = (lowercase s).length := by
  rw [lowercase, ← lowercaseIn_nil_after]
  exact length_lowercaseIn _ _ _ _ _

/-- With a cased letter behind it, a text with an open end is missed. -/
theorem exists_not_infix_of_openEnd (h : hasOpenEnd s = true) :
    ∃ after, ¬ lowercase s <:+: lowercase (s ++ after) := by
  obtain ⟨p, hp, hopen⟩ := List.any_eq_true.1 h
  obtain ⟨hcased, hignored⟩ := Bool.and_eq_true_iff.1 hopen
  -- the letter differs from the last one of the lower case, so it cannot stand in for that one
  let c := letterBut (lowercase s).getLast?
  have hchanged : lowercaseIn [] [c] s ≠ lowercase s := by
    intro hsame
    have hforms := lowercaseIn_eq_lowercase_iff.1 hsame p hp
    rw [List.append_nil, endsWord, endsWord, meetsCased_append, if_pos hignored, hcased,
      meetsCased_letterBut, meetsCased_of_allIgnorable hignored] at hforms
    cases hforms
  refine ⟨[c], ?_⟩
  rw [lowercase_append, lowercaseIn_letterBut]
  exact not_infix_concat (length_lowercaseIn_eq _ _ _) hchanged (ne_letterBut _)

/-- With a cased letter in front of it, a text with an open start is missed. -/
theorem exists_not_infix_of_openStart (h : hasOpenStart s = true) :
    ∃ before, ¬ lowercase s <:+: lowercase (before ++ s) := by
  obtain ⟨p, hp, hopen⟩ := List.any_eq_true.1 h
  obtain ⟨hignored, huncased⟩ := Bool.and_eq_true_iff.1 hopen
  rw [Bool.not_eq_true'] at huncased
  let c := letterBut (lowercase s).head?
  have hchanged : lowercaseIn [c] [] s ≠ lowercase s := by
    intro hsame
    have hforms := lowercaseIn_eq_lowercase_iff.1 hsame p hp
    rw [List.append_nil, endsWord, endsWord, meetsCased_append, if_pos hignored, huncased,
      meetsCased_letterBut, meetsCased_of_allIgnorable hignored] at hforms
    cases hforms
  refine ⟨[c], ?_⟩
  rw [lowercase_append, lowercaseIn_letterBut]
  exact not_infix_cons (length_lowercaseIn_eq _ _ _) hchanged (ne_letterBut _)

end Parts

end Text

/-! ## Tests of parts -/

namespace Operator

open Text (lowercase hasOpenStart hasOpenEnd)

/-- The operators that look for a part of a text. -/
def partTests : List Operator := [.contains, .beginsWith, .endsWith]

/-- Where an operator looks for a part. -/
def FindsPart (op : Operator) (part s : List Char) : Prop :=
  match op with
  | .beginsWith => part <+: s
  | .endsWith => part <:+ s
  | _ => part <:+: s

/-- No capital sigma of a part looks past an end where the text may go on. -/
def Settles (op : Operator) (part : List Char) : Prop :=
  match op with
  | .beginsWith => hasOpenEnd part = false
  | .endsWith => hasOpenStart part = false
  | _ => hasOpenStart part = false ∧ hasOpenEnd part = false

variable {op : Operator} {part s : List Char}

theorem FindsPart.lowercase (hop : op ∈ partTests) (hsettles : op.Settles part)
    (h : op.FindsPart part s) : op.FindsPart (Text.lowercase part) (Text.lowercase s) := by
  simp only [partTests, List.mem_cons, List.not_mem_nil, or_false] at hop
  rcases hop with rfl | rfl | rfl
  · exact Text.infix_lowercase hsettles.1 hsettles.2 h
  · exact Text.prefix_lowercase hsettles h
  · exact Text.suffix_lowercase hsettles h

/-- A part that is not settled is missed in some text. -/
theorem exists_missed (hop : op ∈ partTests) (h : ¬ op.Settles part) :
    ∃ s, op.FindsPart part s ∧ ¬ op.FindsPart (Text.lowercase part) (Text.lowercase s) := by
  have hbefore (hstart : hasOpenStart part = true) :
      ∃ s, part <:+ s ∧ ¬ Text.lowercase part <:+: Text.lowercase s := by
    obtain ⟨before, hmissed⟩ := Text.exists_not_infix_of_openStart hstart
    exact ⟨before ++ part, List.suffix_append _ _, hmissed⟩
  have hbehind (hend : hasOpenEnd part = true) :
      ∃ s, part <+: s ∧ ¬ Text.lowercase part <:+: Text.lowercase s := by
    obtain ⟨after, hmissed⟩ := Text.exists_not_infix_of_openEnd hend
    exact ⟨part ++ after, List.prefix_append _ _, hmissed⟩
  simp only [partTests, List.mem_cons, List.not_mem_nil, or_false] at hop
  rcases hop with rfl | rfl | rfl
  · cases hstart : hasOpenStart part with
    | true =>
      obtain ⟨s, hs, hmissed⟩ := hbefore hstart
      exact ⟨s, hs.isInfix, hmissed⟩
    | false =>
      obtain ⟨s, hs, hmissed⟩ := hbehind (Bool.not_eq_false _ ▸ fun hend => h ⟨hstart, hend⟩)
      exact ⟨s, hs.isInfix, hmissed⟩
  · obtain ⟨s, hs, hmissed⟩ := hbehind (Bool.not_eq_false _ ▸ h)
    exact ⟨s, hs, fun hfound => hmissed hfound.isInfix⟩
  · obtain ⟨s, hs, hmissed⟩ := hbefore (Bool.not_eq_false _ ▸ h)
    exact ⟨s, hs, fun hfound => hmissed hfound.isInfix⟩

end Operator

/-- A test for a part compares in lower case. -/
theorem Predicate.apply_part {p : Predicate} {op : Operator} {cell v : Value} (hop : op ∈ Operator.partTests)
    (hp : p.operand = .scalar v) (hc : cell.isNull = false) : ∃ b, p.apply op cell = .ok b ∧
      (b = true ↔ op.FindsPart (Text.lowercase v.toText.toList) (Text.lowercase cell.toText.toList)) := by
  simp only [Operator.partTests, List.mem_cons, List.not_mem_nil, or_false] at hop
  rcases hop with rfl | rfl | rfl
  · refine ⟨testText Text.occursIn cell v, by simp [apply, hc, hp], ?_⟩
    rw [testText, Text.occursIn_iff]
    exact exists_congr fun _ => exists_congr fun _ => eq_comm
  · exact ⟨testText List.isPrefixOf cell v, by simp [apply, hc, hp], List.isPrefixOf_iff_prefix⟩
  · exact ⟨testText List.isSuffixOf cell v, by simp [apply, hc, hp], List.isSuffixOf_iff_suffix⟩

open Query (Clause)
open Literal (NamedLists)
open Compile

section Clauses

variable {schema : Schema} {lists : NamedLists} {user column raw : String} {type : LogicalType}
  {places : Places} {row : Row} {cell : Value} {op : Operator}

/-- A clause that compares a text column with one literal is a test against the unquoted text of it. -/
theorem gives_literal (hshape : op.shape = .scalar) (his : op ≠ .is)
    (hschema : schema.find? column = some type) (htype : type.isTextual = true)
    (hcell : cellOf places column row = .ok cell) (offset : Nat) :
    Gives schema lists user places (.leaf ⟨column, offset, op, some raw⟩) row
      (Predicate.answer ⟨column, type, op, .scalar (.text (String.ofList (Literal.unquote raw.toList))),
        some raw, offset⟩ cell) := by
  have hrange : takesRange op = false := by cases op <;> first | rfl | cases hshape
  have hlist : takesList op = false := by cases op <;> first | rfl | cases hshape
  have hcheck : checkClause schema ⟨column, offset, op, some raw⟩ =
      .ok (⟨column, offset, op, some raw⟩, type) := by
    rw [checkClause, hschema]
    simp [Operator.supports, htype, hrange]
  have hplain := @plainPredicate_scalar user ⟨column, offset, op, some raw⟩ type [] hshape his
  rw [Literal.cast_of_isTextual _ htype] at hplain
  exact gives_leaf hcheck hlist hplain hcell

/-- A clause that tests for a part of a text compares the cell with its literal in lower case. The negated
clause has the opposite answer. -/
theorem gives_part (hop : op ∈ Operator.partTests)
    (hschema : schema.find? column = some type) (htype : type.isTextual = true)
    (hcell : cellOf places column row = .ok cell) (hc : cell.isNull = false)
    (lists : NamedLists) (user raw : String) (offset : Nat) :
    ∃ b, Gives schema lists user places (.leaf ⟨column, offset, op, some raw⟩) row (.ok b) ∧
      (∀ neg : Operator, neg.negates? = some op →
        Gives schema lists user places (.leaf ⟨column, offset, neg, some raw⟩) row (.ok !b)) ∧
      (b = true ↔ op.FindsPart (Text.lowercase (Literal.unquote raw.toList))
        (Text.lowercase cell.toText.toList)) := by
  let own (op : Operator) : Predicate :=
    ⟨column, type, op, .scalar (.text (String.ofList (Literal.unquote raw.toList))), some raw, offset⟩
  have hshape : op.shape = .scalar ∧ op ≠ .is ∧ op.negates? = none := by
    simp only [Operator.partTests, List.mem_cons, List.not_mem_nil, or_false] at hop
    rcases hop with rfl | rfl | rfl <;> decide
  obtain ⟨b, hb, hfinds⟩ := Predicate.apply_part (p := own op) hop rfl hc
  refine ⟨b, ?_, ?_, ?_⟩
  -- the three tests are positive, so the answer of the clause is the test itself
  · rw [← hb, ← Predicate.answer_of_positive (p := own op) hshape.2.2]
    exact gives_literal hshape.1 hshape.2.1 hschema htype hcell offset
  · intro neg hneg
    have hpair : neg.Negates op := Operator.negates_of_eq hneg
    -- the negated clause makes the same test
    obtain ⟨b', hb', hfinds'⟩ := Predicate.apply_part (p := own neg) hop rfl hc
    obtain rfl : b' = b := Bool.eq_iff_iff.2 (hfinds'.trans hfinds.symm)
    have hanswer : (own neg).answer cell = .ok !b' := by
      rw [Predicate.answer_of_negates hneg, hb']
      rfl
    rw [← hanswer]
    exact gives_literal (hpair.shape.trans hshape.1) hpair.ne_is.1 hschema htype hcell offset
  · rw [hfinds]
    show op.FindsPart (Text.lowercase (String.ofList _).toList) _ ↔ _
    rw [String.toList_ofList]

end Clauses

/-- **Text tests and exact parts.** Take a column of text, a literal, and the operator that looks for it inside
a cell, at its front or at its back. If no capital sigma of the literal looks past an end where the text may go
on, the test holds of every cell whose text has the literal there, character for character, and the negated
test does not. If one does, there is a text with the literal there for which the test does not hold. -/
theorem exact_part_matches {places : Places} {column : String} {schema : Schema} {type : LogicalType}
    (hschema : schema.find? column = some type)
    (htype : type.isTextual = true) (lists : NamedLists) (user raw : String) (offset : Nat) {op : Operator}
    (hop : op ∈ [.contains, .beginsWith, .endsWith]) :
    let clause (op : Operator) : Formula Clause := .leaf ⟨column, offset, op, some raw⟩
    let literal := Literal.unquote raw.toList
    (op.Settles literal → ∀ (row : Row) (cell : Value), cellOf places column row = .ok cell →
      cell.isNull = false → op.FindsPart literal cell.toText.toList →
        Gives schema lists user places (clause op) row (.ok true) ∧
        ∀ neg : Operator, neg.negates? = some op →
          Gives schema lists user places (clause neg) row (.ok false)) ∧
    (¬ op.Settles literal → ∃ s : String, op.FindsPart literal s.toList ∧
      ∀ row : Row, cellOf places column row = .ok (.text s) →
        Gives schema lists user places (clause op) row (.ok false) ∧
        ∀ neg : Operator, neg.negates? = some op →
          Gives schema lists user places (clause neg) row (.ok true)) := by
  intro clause literal
  constructor
  · intro hsettles row cell hcell hc hpart
    obtain ⟨b, hgives, hneg, hfinds⟩ := gives_part hop hschema htype hcell hc
      lists user raw offset
    obtain rfl := hfinds.2 (hpart.lowercase hop hsettles)
    exact ⟨hgives, hneg⟩
  · intro hopen
    obtain ⟨s, hpart, hmissed⟩ := Operator.exists_missed hop hopen
    refine ⟨String.ofList s, by rwa [String.toList_ofList], fun row hcell => ?_⟩
    obtain ⟨b, hgives, hneg, hfinds⟩ := gives_part hop hschema htype hcell rfl
      lists user raw offset
    have hs : (Value.text (String.ofList s)).toText.toList = s := String.toList_ofList
    rw [hs] at hfinds
    obtain rfl := Bool.eq_false_iff.2 fun hb => hmissed (hfinds.1 hb)
    exact ⟨hgives, hneg⟩

/-- The capital sigma of the literal stands between letters, so it does not matter that the cell goes on. -/
theorem exact_part_matches_inner :
    let places := Table.placesOf ["street"]
    let schema : Schema := ⟨[("street", .string)]⟩
    let clause (op : Operator) : Formula Clause := .leaf ⟨"street", 0, op, some "'ΟΣΑ'"⟩
    let row : Row := [.text "ΟΔΟΣΑΣ"]
    schema.find? "street" = some .string ∧ LogicalType.string.isTextual = true ∧
      Operator.contains ∈ [Operator.contains, .beginsWith, .endsWith] ∧
      Operator.contains.Settles (Literal.unquote "'ΟΣΑ'".toList) ∧
      Gives schema .empty "u" places (clause .contains) row (.ok true) ∧
      Gives schema .empty "u" places (clause .doesNotContain) row (.ok false) := by
  intro places schema clause row
  have hschema : schema.find? "street" = some .string := rfl
  have hop : Operator.contains ∈ [Operator.contains, .beginsWith, .endsWith] := by decide
  have hliteral : Literal.unquote "'ΟΣΑ'".toList = ['Ο', 'Σ', 'Α'] := by decide +kernel
  have hsettles : Operator.contains.Settles (Literal.unquote "'ΟΣΑ'".toList) := by
    rw [hliteral]
    exact ⟨by decide +kernel, by decide +kernel⟩
  have hcell : cellOf places "street" row = .ok (.text "ΟΔΟΣΑΣ") := rfl
  have hpart : Operator.contains.FindsPart (Literal.unquote "'ΟΣΑ'".toList)
      (Value.text "ΟΔΟΣΑΣ").toText.toList := by
    rw [hliteral]
    exact ⟨['Ο', 'Δ'], ['Σ'], by decide +kernel⟩
  obtain ⟨hgives, hneg⟩ :=
    (exact_part_matches hschema rfl .empty "u" "'ΟΣΑ'" 0 hop).1 hsettles row _ hcell rfl hpart
  exact ⟨hschema, rfl, hop, hsettles, hgives, hneg .doesNotContain rfl⟩

/-- The sigma ends the literal, and in the cell a letter follows it. -/
theorem exact_part_missed :
    let places := Table.placesOf ["c"]
    let schema : Schema := ⟨[("c", .string)]⟩
    let clause (op : Operator) : Formula Clause := .leaf ⟨"c", 0, op, some "ΑΣ"⟩
    let row : Row := [.text "ΑΣΑ"]
    "ΑΣ".toList <+: "ΑΣΑ".toList ∧
      Gives schema .empty "u" places (clause .contains) row (.ok false) ∧
      Gives schema .empty "u" places (clause .doesNotContain) row (.ok true) ∧
      Gives schema .empty "u" places (clause .beginsWith) row (.ok false) := by
  intro places schema clause row
  have hschema : schema.find? "c" = some .string := rfl
  have hcell : cellOf places "c" row = .ok (.text "ΑΣΑ") := rfl
  have hliteral : Text.lowercase (Literal.unquote "ΑΣ".toList) = ['α', 'ς'] := by decide +kernel
  have htext : Text.lowercase (Value.text "ΑΣΑ").toText.toList = ['α', 'σ', 'α'] := by decide +kernel
  have hmissed : ¬ ['α', 'ς'] <:+: ['α', 'σ', 'α'] := by decide
  have hfalse {op : Operator} (hop : op ∈ Operator.partTests) (hpart : ∀ part s : List Char,
      op.FindsPart part s → part <:+: s) :
      Gives schema .empty "u" places (clause op) row (.ok false) ∧ ∀ neg : Operator,
        neg.negates? = some op → Gives schema .empty "u" places (clause neg) row (.ok true) := by
    obtain ⟨b, hgives, hneg, hfinds⟩ := gives_part hop hschema rfl hcell rfl .empty "u" "ΑΣ" 0
    rw [hliteral, htext] at hfinds
    obtain rfl := Bool.eq_false_iff.2 fun hb => hmissed (hpart _ _ (hfinds.1 hb))
    exact ⟨hgives, hneg⟩
  obtain ⟨hinside, hneg⟩ := @hfalse .contains (by decide) fun _ _ h => h
  obtain ⟨hfront, _⟩ := @hfalse .beginsWith (by decide) fun _ _ h => List.IsPrefix.isInfix h
  exact ⟨⟨['Α'], by decide +kernel⟩, hinside, hneg .doesNotContain rfl, hfront⟩

end RowFilter
