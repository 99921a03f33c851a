import RowFilter.Proofs.CompileOutcome
import RowFilter.Proofs.QuotedLiterals

/-!
# RowFilter — writing a list as a literal

A list of texts becomes a literal when each text is put in a quote that it does not contain and commas are put
between the quoted texts, in brackets, in parentheses or bare. Reading such a literal gives the texts back,
whatever is in them: the splitting goes over everything in quotes, the quotes keep the blanks of a text from
being trimmed and an empty text from counting as blank, and what encloses the list is dropped just once.

Main results:

* `trim_surrounded` — trimming goes just up to what is not blank.
* `splitFrom_quotedBy` — no comma separates inside quotes.
* `unquote_elements_of_writes` — the elements of a written list are its texts.
* `quoted_list_reads_back` — a written list is read back, as a set and as a range.
-/

namespace RowFilter.Literal

open Query (IsQuote quotedBy)
open Text (isBlank trim trimStart trimEnd)

/-! ## Blanks and brackets around a text -/

theorem isBlank_of_isQuote {q : Char} (hq : IsQuote q) : isBlank q = false := by
  rcases hq with rfl | rfl <;> decide

/-- Only the blanks around a text are trimmed. -/
theorem trim_surrounded {lead tail s : List Char} {c d : Char} (hlead : lead.all isBlank = true)
    (htail : tail.all isBlank = true) (hc : isBlank c = false) (hd : isBlank d = false) :
    trim (lead ++ (c :: (s ++ [d])) ++ tail) = c :: (s ++ [d]) := by
  have hstart : trimStart (lead ++ (c :: (s ++ [d])) ++ tail) = c :: (s ++ [d]) ++ tail := by
    rw [List.append_assoc, trimStart, List.dropWhile_append_of_pos (List.all_eq_true.1 hlead)]
    exact Text.trimStart_eq_self hc
  have hback : ∀ b ∈ tail.reverse, isBlank b = true := fun b hb =>
    List.all_eq_true.1 htail b (List.mem_reverse.1 hb)
  rw [trim, hstart, trimEnd, List.reverse_append, List.dropWhile_append_of_pos hback]
  simp [hd]

theorem trim_framed {s : List Char} {c d : Char} (hc : isBlank c = false) (hd : isBlank d = false) :
    trim (c :: (s ++ [d])) = c :: (s ++ [d]) := by
  have h : trim ([] ++ (c :: (s ++ [d])) ++ []) = c :: (s ++ [d]) := trim_surrounded rfl rfl hc hd
  rwa [List.append_nil] at h

theorem dropPair_of_ne {opening closing c : Char} (h : c ≠ opening) (s : List Char) :
    dropPair opening closing (c :: s) = none := by
  cases s with
  | nil => rfl
  | cons d s => rw [dropPair, if_neg fun h' => h h'.1]

theorem dropBrackets_brackets (s : List Char) : dropBrackets ('[' :: (s ++ [']'])) = s := by
  rw [dropBrackets, trim_framed (by decide) (by decide), dropPair_framed]
  rfl

theorem dropBrackets_parentheses (s : List Char) : dropBrackets ('(' :: (s ++ [')'])) = s := by
  rw [dropBrackets, trim_framed (by decide) (by decide), dropPair_of_ne (by decide), dropPair_framed]
  rfl

/-- Nothing is dropped of a text between quotes, whatever brackets are in it. -/
theorem dropBrackets_of_isQuote {q q' : Char} (hq : IsQuote q) (hq' : IsQuote q') (s : List Char) :
    dropBrackets (q :: (s ++ [q'])) = q :: (s ++ [q']) := by
  have hbracket : q ≠ '[' ∧ q ≠ '(' := by rcases hq with rfl | rfl <;> decide
  rw [dropBrackets, trim_framed (isBlank_of_isQuote hq) (isBlank_of_isQuote hq'),
    dropPair_of_ne hbracket.1, dropPair_of_ne hbracket.2]
  rfl

/-! ## Splitting -/

section Splitting

variable {q : Char} {s : List Char} {piece rest : List Char}

/-- Up to the quote that closes it, a quoted text is in one piece. -/
theorem splitFrom_inside (hs : q ∉ s) :
    splitFrom (some q) piece (s ++ q :: rest) = splitFrom none (q :: (s.reverse ++ piece)) rest := by
  induction s generalizing piece with
  | nil => simp [splitFrom]
  | cons c s ih =>
    obtain ⟨hc, hs⟩ := not_or.1 (mt List.mem_cons.2 hs)
    rw [List.cons_append, splitFrom, if_neg (Ne.symm hc), ih hs, List.reverse_cons, List.append_assoc]
    rfl

theorem splitFrom_quotedBy (hq : IsQuote q) (hs : q ∉ s) :
    splitFrom none piece (quotedBy q s ++ rest) =
      splitFrom none ((quotedBy q s).reverse ++ piece) rest := by
  have hopen : (q = '\'' || q = '"') = true := by rcases hq with rfl | rfl <;> rfl
  rw [quotedBy, List.cons_append, List.append_assoc, splitFrom, if_pos hopen, List.singleton_append,
    splitFrom_inside hs]
  simp

/-- A blank is neither a quote nor a comma. -/
theorem splitFrom_blanks (h : s.all isBlank = true) :
    splitFrom none piece (s ++ rest) = splitFrom none (s.reverse ++ piece) rest := by
  induction s generalizing piece with
  | nil => rfl
  | cons c s ih =>
    obtain ⟨hc, hs⟩ := Bool.and_eq_true_iff.1 h
    have hplain (d : Char) (hd : isBlank d = false) : c ≠ d := by
      rintro rfl
      rw [hd] at hc
      cases hc
    have hquote : ¬ (c = '\'' || c = '"') = true := by
      simp [hplain '\'' (by decide), hplain '"' (by decide)]
    rw [List.cons_append, splitFrom, if_neg hquote, if_neg (hplain ',' (by decide)), ih hs]
    simp

theorem splitFrom_comma : splitFrom none piece (',' :: rest) = piece.reverse :: splitFrom none [] rest :=
  rfl

end Splitting

/-! ## Quoted lists -/

/-- A text in a list: the quote that it stands in, and the blanks around the comma behind it. -/
structure QuotedElement where
  text : String
  quote : Char
  /-- The blanks in front of the comma. -/
  before : List Char
  /-- The blanks behind the comma. -/
  behind : List Char
  isQuote : IsQuote quote
  notMem : quote ∉ text.toList
  before_blank : before.all isBlank = true
  behind_blank : behind.all isBlank = true

namespace QuotedElement

/-- The text in its quotes. -/
def literal (e : QuotedElement) : List Char := quotedBy e.quote e.text.toList

/-- The quoted texts with commas between them. -/
def joined : List QuotedElement → List Char
  | [] => []
  | [e] => e.literal
  | e :: f :: es => e.literal ++ (e.before ++ ',' :: (e.behind ++ joined (f :: es)))

/-- Texts in quotes are a list in brackets or in parentheses, and also bare if there is one at least. -/
inductive Writes (es : List QuotedElement) : List Char → Prop
  | brackets : Writes es ('[' :: (joined es ++ [']']))
  | parentheses : Writes es ('(' :: (joined es ++ [')']))
  | bare (h : es ≠ []) : Writes es (joined es)

/-- Behind a quoted text and in front of it, blanks make no difference. -/
theorem unquote_literal (e : QuotedElement) {lead tail : List Char} (hlead : lead.all isBlank = true)
    (htail : tail.all isBlank = true) : unquote (lead ++ e.literal ++ tail) = e.text.toList := by
  have hblank := isBlank_of_isQuote e.isQuote
  have htrim : trim (lead ++ e.literal ++ tail) = trim e.literal :=
    (trim_surrounded hlead htail hblank hblank).trans (trim_framed hblank hblank).symm
  rw [unquote, htrim]
  exact unquote_quotedBy e.isQuote e.text.toList

/-- A quoted text is not blank, not even if it is empty. -/
theorem not_blank_literal (e : QuotedElement) (lead tail : List Char) :
    (lead ++ e.literal ++ tail).all isBlank = false := by
  rw [List.all_append, List.all_append, literal, quotedBy, List.all_cons, isBlank_of_isQuote e.isQuote]
  simp

/-- A list that is not empty starts and ends with a quote. -/
theorem exists_joined_eq {es : List QuotedElement} (h : es ≠ []) :
    ∃ q s q', IsQuote q ∧ IsQuote q' ∧ joined es = q :: (s ++ [q']) := by
  fun_induction joined es with
  | case1 => exact absurd rfl h
  | case2 e => exact ⟨e.quote, e.text.toList, e.quote, e.isQuote, e.isQuote, rfl⟩
  | case3 e f es ih =>
    obtain ⟨q, s, q', _, hq', hjoined⟩ := ih (List.cons_ne_nil f es)
    refine ⟨e.quote, e.text.toList ++ [e.quote] ++ (e.before ++ ',' :: (e.behind ++ q :: s)), q',
      e.isQuote, hq', ?_⟩
    rw [hjoined, literal, quotedBy]
    simp

/-- What encloses a list is dropped, and nothing else. -/
theorem dropBrackets_of_writes {es : List QuotedElement} {raw : List Char} (h : Writes es raw) :
    dropBrackets raw = joined es := by
  cases h with
  | brackets => exact dropBrackets_brackets _
  | parentheses => exact dropBrackets_parentheses _
  | bare h =>
    obtain ⟨q, s, q', hq, hq', hjoined⟩ := exists_joined_eq h
    rw [hjoined, dropBrackets_of_isQuote hq hq']

/-- The last text of a list is the last piece, with the blanks in front of it. -/
theorem splitFrom_literal (e : QuotedElement) (lead : List Char) :
    splitFrom none lead.reverse e.literal = [lead ++ e.literal ++ []] := by
  have hquoted : splitFrom none lead.reverse (quotedBy e.quote e.text.toList ++ []) = _ :=
    splitFrom_quotedBy e.isQuote e.notMem
  rw [List.append_nil] at hquoted
  rw [literal, hquoted, splitFrom, List.reverse_append, List.reverse_reverse, List.reverse_reverse,
    List.append_nil]

/-- A text with a comma behind it is a piece, with the blanks around it. -/
theorem splitFrom_literal_comma (e : QuotedElement) (lead rest : List Char) :
    splitFrom none lead.reverse (e.literal ++ (e.before ++ ',' :: (e.behind ++ rest))) =
      (lead ++ e.literal ++ e.before) :: splitFrom none e.behind.reverse rest := by
  rw [literal, splitFrom_quotedBy e.isQuote e.notMem, splitFrom_blanks e.before_blank, splitFrom_comma,
    splitFrom_blanks e.behind_blank, List.append_nil]
  simp

/-- The pieces of a list, of which none is blank, are its texts. -/
theorem unquote_splitFrom_joined {es : List QuotedElement} (h : es ≠ []) {lead : List Char}
    (hlead : lead.all isBlank = true) :
    ((splitFrom none lead.reverse (joined es)).filter fun e => !e.all isBlank).map unquote =
      es.map fun e => e.text.toList := by
  -- on the texts, with the blanks that stand in front of the first one
  fun_induction joined es generalizing lead with
  | case1 => exact absurd rfl h
  | case2 e =>
    rw [splitFrom_literal, List.filter_cons_of_pos (by rw [not_blank_literal]; rfl), List.map_cons,
      unquote_literal e hlead rfl]
    rfl
  | case3 e f es ih =>
    rw [splitFrom_literal_comma, List.filter_cons_of_pos (by rw [not_blank_literal]; rfl), List.map_cons,
      unquote_literal e hlead e.before_blank, ih (List.cons_ne_nil f es) e.behind_blank]
    rfl

/-- The elements of a list that is written out are its texts, up to blanks and quotes. -/
theorem unquote_elements_of_writes {es : List QuotedElement} {raw : List Char} (h : Writes es raw) :
    (elements raw).map unquote = es.map fun e => e.text.toList := by
  rw [elements, dropBrackets_of_writes h]
  by_cases hne : es = []
  · -- the one piece of an empty list is blank
    subst hne
    rfl
  · have hlead : ([] : List Char).all isBlank = true := rfl
    exact unquote_splitFrom_joined hne hlead

end QuotedElement

open QuotedElement (Writes)

/-- On a column of a textual type, the values of literals are their texts without the quotes. -/
theorem map_cast_of_isTextual {type : LogicalType} (htype : type.isTextual = true)
    (raws : List (List Char)) :
    raws.map (fun raw => cast raw type) = (raws.map unquote).map fun s => .text (String.ofList s) := by
  rw [List.map_map]
  exact List.map_congr_left fun raw _ => cast_of_isTextual raw htype

/-- **A written list is read back.** Put each of some texts in a quote that it does not contain, with commas
and any blanks between them, and the whole in brackets, in parentheses or, if there is a text at all, in
neither. On a column of a textual type the values of that literal are the texts, in their order. As a range it
has the two texts for its bounds if there are two, and else it is refused with their number. -/
theorem quoted_list_reads_back {es : List QuotedElement} {raw : List Char} (h : Writes es raw)
    {type : LogicalType} (htype : type.isTextual = true) :
    (castAllTraced (elements raw) type).outcome = .ok (es.map fun e => .text e.text) ∧
    (∀ low high, es = [low, high] →
      (rangeTraced raw type).outcome = .ok (.text low.text, .text high.text)) ∧
    (es.length ≠ 2 →
      (rangeTraced raw type).outcome = .error (.betweenCount (String.ofList raw) es.length)) := by
  have htexts := QuotedElement.unquote_elements_of_writes h
  have hvalues : (elements raw).map (fun raw => cast raw type) = es.map fun e => .text e.text := by
    rw [map_cast_of_isTextual htype, htexts, List.map_map]
    exact List.map_congr_left fun e _ => congrArg Value.text String.ofList_toList
  have hlength : (elements raw).length = es.length := by
    rw [← List.length_map unquote, htexts, List.length_map]
  refine ⟨?_, ?_, ?_⟩
  · rw [outcome_castAllTraced, hvalues]
  · intro low high hes
    rw [hes] at hvalues
    -- two values come from two elements, and these are the bounds
    obtain ⟨first, rest, helements, hlow, hrest⟩ := List.map_eq_cons_iff.1 hvalues
    obtain ⟨second, rest, rfl, hhigh, hrest⟩ := List.map_eq_cons_iff.1 hrest
    obtain rfl := List.map_eq_nil_iff.1 hrest
    rw [outcome_rangeTraced, bounds, helements]
    show Except.ok (cast first type, cast second type) = _
    rw [hlow, hhigh]
  · intro hcount
    have hbounds : bounds raw = .error (.betweenCount (String.ofList raw) es.length) := by
      rw [Compile.bounds_eq_error_iff, hlength]
      exact ⟨hcount, rfl⟩
    rw [outcome_rangeTraced, hbounds]
    rfl

/-- One text is empty, and the other has a comma, a bracket and the other quote in it. The list is bare, and
so nothing is dropped of the bracket that the second text ends in. -/
theorem quoted_list_reads_back_bare :
    let low : QuotedElement := ⟨"", '\'', [' '], ['\t'], .inl rfl, by decide, by decide, by decide⟩
    let high : QuotedElement := ⟨" [it's, ]", '"', [], [], .inr rfl, by decide +kernel, rfl, rfl⟩
    let raw := "'' ,\t\" [it's, ]\"".toList
    Writes [low, high] raw ∧ LogicalType.date.isTextual = true ∧
      (castAllTraced (elements raw) .date).outcome = .ok [.text "", .text " [it's, ]"] ∧
      (rangeTraced raw .date).outcome = .ok (.text "", .text " [it's, ]") ∧
      Writes [low] "''".toList ∧ [low].length ≠ 2 ∧
      (rangeTraced "''".toList .date).outcome = .error (.betweenCount "''" 1) := by
  intro low high raw
  have hwrites : Writes [low, high] raw := by
    have hraw : raw = QuotedElement.joined [low, high] := by decide +kernel
    rw [hraw]
    exact .bare (List.cons_ne_nil _ _)
  have hone : Writes [low] "''".toList := .bare (List.cons_ne_nil _ _)
  have htype : LogicalType.date.isTextual = true := rfl
  obtain ⟨hset, hrange, _⟩ := quoted_list_reads_back hwrites htype
  obtain ⟨_, _, hcount⟩ := quoted_list_reads_back hone htype
  rw [String.ofList_toList] at hcount
  exact ⟨hwrites, htype, hset, hrange low high rfl, hone, by decide, hcount (by decide)⟩

end RowFilter.Literal
