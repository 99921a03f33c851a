import RowFilter.Proofs.ElementQuotes
import RowFilter.Proofs.QueryAnswers
import RowFilter.Proofs.QuotedLiterals

/-!
# RowFilter — named lists by name and by value

A clause on a named list gives the name of the list in its literal. The items of the list are taken for
literals as well: blanks at the ends of their texts are dropped, and then a pair of quotes. So a text that
has blanks at its ends or stands in quotes is not what it is taken for, neither as a name nor as an item.
All other texts are bare, and so are the texts of numbers and of truth values.

Quotes around a name are dropped twice, so they do not protect it: the literal of a list whose name is not
bare asks for another list.

Main results:

* `Literal.unquote_eq_self_iff` — from bare texts nothing is dropped, and from all others something is.
* `Value.isBare_toText` — numbers and truth values have bare texts.
* `Compile.outcome_formula_list` — what a clause on a named list is compiled to.
* `quoted_name_finds_list` — which list a quoted name finds.
* `named_list_members` — which cells are in a named list.
-/

namespace RowFilter

/-! ## Bare texts -/

namespace Literal

open Query (IsQuote quotedBy)
open Text (isBlank trim trimStart trimEnd)

/-- A text from which nothing is dropped: it has no blanks at its ends and does not stand in quotes. -/
structure IsBare (s : List Char) : Prop where
  trimmed : trim s = s
  unquoted : ∀ q inner, IsQuote q → s ≠ quotedBy q inner

variable {s : List Char}

theorem eq_of_dropQuotes {q : Char} {inner : List Char} (h : dropQuotes q s = some inner) :
    s = quotedBy q inner := by
  rw [dropQuotes_eq_dropPair] at h
  exact eq_of_dropPair h

/-- Behind the blanks a pair of quotes is dropped, or nothing. -/
theorem trim_eq_unquote (s : List Char) : (∃ q, IsQuote q ∧ trim s = quotedBy q (unquote s)) ∨
    (trim s = unquote s ∧ ∀ q inner, IsQuote q → trim s ≠ quotedBy q inner) := by
  rw [unquote]
  cases hsingle : dropQuotes '\'' (trim s) with
  | some inner => exact .inl ⟨'\'', .inl rfl, eq_of_dropQuotes hsingle⟩
  | none =>
    cases hdouble : dropQuotes '"' (trim s) with
    | some inner => exact .inl ⟨'"', .inr rfl, eq_of_dropQuotes hdouble⟩
    | none =>
      refine .inr ⟨rfl, ?_⟩
      rintro q inner (rfl | rfl) hs
      · rw [hs, dropQuotes_quotedBy] at hsingle
        cases hsingle
      · rw [hs, dropQuotes_quotedBy] at hdouble
        cases hdouble

theorem length_trim_le (s : List Char) : (trim s).length ≤ s.length := by
  obtain ⟨lead, tail, hs, _, _⟩ := exists_eq_trim s
  have hlength := congrArg List.length hs
  simp only [List.length_append] at hlength
  omega

/-- Nothing is dropped from bare texts, and something from all others. -/
theorem unquote_eq_self_iff : unquote s = s ↔ IsBare s := by
  constructor
  · intro h
    rcases trim_eq_unquote s with ⟨q, _, hquoted⟩ | ⟨hplain, hunquoted⟩
    · -- a text in quotes is longer than what stands in them
      have hlength := length_trim_le s
      rw [hquoted, h, quotedBy, List.length_cons, List.length_append] at hlength
      omega
    · rw [h] at hplain
      exact ⟨hplain, hplain ▸ hunquoted⟩
  · intro h
    rcases trim_eq_unquote s with ⟨q, hq, hquoted⟩ | ⟨hplain, _⟩
    · rw [h.trimmed] at hquoted
      exact absurd hquoted (h.unquoted _ _ hq)
    · exact hplain.symm.trans h.trimmed

instance (s : List Char) : Decidable (IsBare s) := decidable_of_iff _ unquote_eq_self_iff

/-- The characters from the hyphen to the last letter. None of them is a blank or a quote. -/
def isPlain (c : Char) : Bool := '-'.toNat ≤ c.toNat && c.toNat ≤ 'z'.toNat

theorem isBlank_of_isPlain {c : Char} (h : isPlain c = true) : isBlank c = false := by
  simp only [isPlain, Bool.and_eq_true, decide_eq_true_eq] at h
  have hlow : 0x2d ≤ c.toNat := h.1
  have hhigh : c.toNat ≤ 0x7a := h.2
  simp only [isBlank, Text.CharSet.contains, Text.blanks, Text.CharSet.inside]
  grind

theorem trimStart_eq_self_of_isPlain (h : s.all isPlain = true) : trimStart s = s := by
  cases s with
  | nil => rfl
  | cons c s =>
    rw [List.all_cons, Bool.and_eq_true] at h
    exact Text.trimStart_eq_self (isBlank_of_isPlain h.1)

theorem isBare_of_isPlain (h : s.all isPlain = true) : IsBare s where
  trimmed := by
    have hback : trimStart s.reverse = s.reverse :=
      trimStart_eq_self_of_isPlain (List.all_reverse.trans h)
    rw [trim, trimStart_eq_self_of_isPlain h, trimEnd]
    show (trimStart s.reverse).reverse = s
    rw [hback, List.reverse_reverse]
  unquoted := by
    rintro q inner hq rfl
    have hplain := List.all_eq_true.1 h q List.mem_cons_self
    rcases hq with rfl | rfl <;> exact absurd hplain (by decide)

end Literal

/-! ### Texts of numbers -/

namespace Decimal

open Literal (isPlain)

theorem all_isPlain_toDigits (n : Nat) : (Nat.toDigits 10 n).all isPlain = true := by
  refine List.all_eq_true.2 fun c hc => ?_
  have hdigit := Nat.isDigit_of_mem_toDigits (by decide) (by decide) hc
  simp only [Char.isDigit, Bool.and_eq_true, decide_eq_true_eq] at hdigit
  have hlow : 0x30 ≤ c.toNat := hdigit.1
  have hhigh : c.toNat ≤ 0x39 := hdigit.2
  simp only [isPlain, Bool.and_eq_true, decide_eq_true_eq]
  exact ⟨Nat.le_trans (by decide) hlow, Nat.le_trans hhigh (by decide)⟩

theorem all_isPlain_natRepr (n : Nat) : n.repr.toList.all isPlain = true := by
  rw [Nat.repr, String.toList_ofList]
  exact all_isPlain_toDigits n

/-- An integer is written with digits, behind a hyphen if it is negative. -/
theorem all_isPlain_intRepr (i : Int) : (toString i).toList.all isPlain = true := by
  cases i with
  | ofNat n => exact all_isPlain_natRepr n
  | negSucc n =>
    show ("-" ++ (n + 1).repr).toList.all isPlain = true
    rw [String.toList_append, List.all_append, all_isPlain_natRepr]
    rfl

theorem all_isPlain_shortest (tie : Tie) (word : Nat) :
    (shortest tie word).digits.all isPlain = true := by
  rw [shortest]
  cases htried : (List.range 17).findSome? _ with
  | none => rfl
  | some digits =>
    obtain ⟨n, _, hn⟩ := List.exists_of_findSome?_eq_some htried
    obtain ⟨d, _, rfl⟩ := Option.map_eq_some_iff.1 hn
    -- zeros are dropped from the digits of a multiple
    have hdigits : (Nat.toDigits 10 d).reverse.all isPlain = true :=
      List.all_reverse.trans (all_isPlain_toDigits d)
    refine List.all_reverse.trans (List.all_eq_true.2 fun c hc => ?_)
    exact List.all_eq_true.1 hdigits c ((List.dropWhile_sublist _).subset hc)

theorem all_isPlain_zeros (n : Nat) : (zeros n).all isPlain = true := by
  refine List.all_eq_true.2 fun c hc => ?_
  rw [List.eq_of_mem_replicate hc]
  rfl

/-- Written positionally, a number has its digits, zeros and a point. -/
theorem all_isPlain_positionalText {x : Scientific} (h : x.digits.all isPlain = true) :
    (positionalText plainLayout x).toList.all isPlain = true := by
  simp only [positionalText]
  split
  · rw [String.toList_ofList, List.all_cons, List.all_cons, List.all_append, all_isPlain_zeros, h]
    rfl
  · split
    · have hdigits := h
      rw [← List.take_append_drop (x.exponent.toNat + 1) x.digits, List.all_append,
        Bool.and_eq_true] at hdigits
      rw [String.toList_ofList, List.all_append, List.all_cons, hdigits.1, hdigits.2]
      rfl
    · rw [String.toList_append, String.toList_ofList, List.all_append, List.all_append,
        all_isPlain_zeros, h]
      rfl

theorem all_isPlain_render (x : Binary64) : (plainLayout.render x).toList.all isPlain = true := by
  simp only [Layout.render]
  split
  · rfl
  · have hsign : (if x.isNegative then "-" else "").toList.all isPlain = true := by
      cases x.isNegative <;> rfl
    generalize (if x.isNegative then "-" else "") = sign at hsign
    split
    · split
      · rw [String.toList_append, String.toList_append, List.all_append, List.all_append, hsign]
        rfl
      · rw [String.toList_append, List.all_append, hsign]
        exact all_isPlain_positionalText (all_isPlain_shortest _ _)
    · rw [String.toList_append, List.all_append, hsign]
      rfl

end Decimal

/-- Nothing is dropped from the text of a value, unless the value is a text that is not bare. -/
theorem Value.isBare_toText {v : Value} (h : ∀ s, v = .text s → Literal.IsBare s.toList) :
    Literal.IsBare v.toText.toList := by
  cases v with
  | null => exact Literal.isBare_of_isPlain rfl
  | bool b => cases b <;> exact Literal.isBare_of_isPlain rfl
  | int i => exact Literal.isBare_of_isPlain (Decimal.all_isPlain_intRepr _)
  | float x => exact Literal.isBare_of_isPlain (Decimal.all_isPlain_render x)
  | text s => exact h s rfl

/-! ## Clauses on named lists -/

open Query (Clause)
open Literal (NamedLists IsBare unquote)

namespace Compile

variable {schema : Schema} {lists : NamedLists} {user source : String} {c : Clause} {type : LogicalType}

/-- Named lists go with columns of all types. -/
theorem checkClause_list (hschema : schema.find? c.column = some type)
    (hlist : takesList c.operator = true) : checkClause schema c = .ok (c, type) := by
  -- they are no text operators and take no range
  rw [checkClause, hschema]
  rcases takesList_iff.1 hlist with hop | hop <;> rw [hop] <;> rfl

/-- A clause on a named list is compiled to a test against the items of the list, or refused if the user has
no such list. -/
theorem outcome_formula_list (hschema : schema.find? c.column = some type)
    (hlist : takesList c.operator = true) :
    (formula schema lists user source (.leaf c)).outcome =
      match lists.find? (user, listName c) with
      | some items => .ok ⟨source, .leaf ⟨c.column, type, c.operator,
          .set (items.map (Literal.castItem type)), c.value, c.offset⟩⟩
      | none => .error (.listNotFound user (listName c)) := by
  rw [outcome_formula_leaf, checkClause_list hschema hlist, ok_bind, outcome_resolveClause,
    if_pos ⟨hlist, rfl⟩]
  cases lists.find? (user, listName c) with
  | none => rfl
  | some items =>
    rw [ok_bind, plainPredicate_of_takesList hlist, lookup_append_single, if_pos rfl]
    rfl

end Compile

/-! ## Lists by name -/

namespace Query

/-- The text that looks for a column in the list of a name, with the name in quotes. -/
def listQuery (column name : String) : String :=
  "#\x7b" ++ column ++ "\x7d inUserList \x7b'" ++ name ++ "'\x7d"

/-- The clause that the text is read as. -/
def listClause (column name : String) : Clause := ⟨column, 0, .inUserList, some ("'" ++ name ++ "'")⟩

variable {column name : String}

theorem toList_quoted (name : String) : ("'" ++ name ++ "'").toList = quotedBy '\'' name.toList := by
  rw [String.toList_append, String.toList_append, List.append_assoc]
  rfl

theorem render_listClause (column name : String) :
    render (.leaf (listClause column name)) = listQuery column name := by
  refine String.toList_injective ?_
  simp [render, lexemes, separated, listClause, listQuery, Piece.text, Operator.name, openBrace, closeBrace,
    List.intercalate]

theorem parse_listQuery (hne : column.toList ≠ []) (htrim : Text.trim column.toList = column.toList)
    (hcolumn : closeBrace ∉ column.toList) (hname : '\'' ∉ name.toList)
    (hhash : Text.occursIn ['#', openBrace] name.toList = false) :
    parse (listQuery column name) = .ok (.leaf (listClause column name)) := by
  have hwell : WellFormed (.leaf (listClause column name)) :=
    .leaf ⟨hne, htrim, by simp [listClause, Operator.arity]⟩
  have hrender : (listClause column name).IsRenderable := by
    refine ⟨hcolumn, ?_, ?_⟩
    · intro v hv
      cases hv
      rw [toList_quoted]
      exact cutBalanced_quotedBy (.inl rfl) hname []
    · intro v hv
      cases hv
      rw [toList_quoted, occursIn_quotedBy (.inl rfl), hhash]
  rw [← render_listClause]
  exact parse_render_eq hwell (List.forall_mem_singleton.2 hrender)

/-- The quotes protect the name once, and it is unquoted twice. -/
theorem listName_listClause (column name : String) :
    Compile.listName (listClause column name) = String.ofList (unquote name.toList) := by
  rw [Compile.listName, Compile.rawOf, listClause, Option.getD_some, toList_quoted,
    Literal.unquote_quotedBy (.inl rfl)]

end Query

open Query

/-- What the text is compiled to depends on one list, the one that is stored under the unquoted name. -/
theorem Compile.outcome_text_listQuery {column name : String} (hne : column.toList ≠ [])
    (htrim : Text.trim column.toList = column.toList) (hcolumn : closeBrace ∉ column.toList)
    (hname : '\'' ∉ name.toList) (hhash : Text.occursIn ['#', openBrace] name.toList = false)
    {schema : Schema} {type : LogicalType} (hschema : schema.find? column = some type) (lists : NamedLists)
    (user : String) :
    let source := listQuery column name
    let asked := String.ofList (unquote name.toList)
    (text schema lists user source).outcome =
      match lists.find? (user, asked) with
      | some items => .ok ⟨source, .leaf ⟨column, type, .inUserList,
          .set (items.map (Literal.castItem type)), some ("'" ++ name ++ "'"), 0⟩⟩
      | none => .error (.listNotFound user asked) := by
  intro source asked
  have hparse := parse_listQuery hne htrim hcolumn hname hhash
  have hformula := @outcome_formula_list schema lists user source (listClause column name) type hschema rfl
  rw [listName_listClause] at hformula
  rw [text, Traced.outcome_bind, Traced.outcome_ofExcept, hparse]
  exact hformula

open Compile

/-- **Quoted names of lists.** Look a column up in a list whose name stands in quotes, does not contain the
quote and opens no column reference. Just the list that is stored under the unquoted name counts: if the user
has it, its items in their order are the operand, and if not, it is reported as missing under that name. The
unquoted name is the name itself just if the name is bare. A list whose name is not bare is never found by its
quoted name: where it is the only list of the user, the query is refused. -/
theorem quoted_name_finds_list {column name : String} (hne : column.toList ≠ [])
    (htrim : Text.trim column.toList = column.toList) (hcolumn : closeBrace ∉ column.toList)
    (hname : '\'' ∉ name.toList) (hhash : Text.occursIn ['#', openBrace] name.toList = false)
    {schema : Schema} {type : LogicalType} (hschema : schema.find? column = some type) (user : String) :
    let source := listQuery column name
    let asked := String.ofList (unquote name.toList)
    (∀ lists : NamedLists,
      (∀ items, lists.find? (user, asked) = some items →
        (Compile.text schema lists user source).outcome = .ok ⟨source, .leaf ⟨column, type, .inUserList,
          .set (items.map (Literal.castItem type)), some ("'" ++ name ++ "'"), 0⟩⟩) ∧
      (lists.find? (user, asked) = none →
        (Compile.text schema lists user source).outcome = .error (.listNotFound user asked))) ∧
    (asked = name ↔ IsBare name.toList) ∧
    (¬ IsBare name.toList → ∀ items,
      (Compile.text schema ⟨[((user, name), items)]⟩ user source).outcome =
        .error (.listNotFound user asked)) := by
  intro source asked
  have hlookup := outcome_text_listQuery hne htrim hcolumn hname hhash hschema
  have hasked : asked = name ↔ IsBare name.toList := by
    rw [← Literal.unquote_eq_self_iff, ← String.toList_inj, String.toList_ofList]
  refine ⟨fun lists => ⟨?_, ?_⟩, hasked, ?_⟩
  · intro items hitems
    rw [hlookup, hitems]
  · intro hmissing
    rw [hlookup, hmissing]
  · intro hbare items
    -- the name that is asked for is another one, so the only list there is does not have it
    have hother : (user, name) ≠ (user, asked) := fun h => hbare (hasked.1 (Prod.ext_iff.1 h).2.symm)
    have hmissing : (⟨[((user, name), items)]⟩ : NamedLists).find? (user, asked) = none := by
      simp [Store.find?, hother]
    rw [hlookup, hmissing]

/-- Quotes and blanks inside a name stay, and a list of a similar name is left alone. -/
theorem quoted_name_finds_list_inner :
    let column := "city"
    let name := "my \"vip\" list"
    let source := "#\x7bcity\x7d inUserList \x7b'my \"vip\" list'\x7d"
    let schema : Schema := ⟨[(column, .string)]⟩
    let lists : NamedLists := ⟨[(("u", "my vip list"), []), (("u", name), [.text "Rome", .null, .int 7])]⟩
    column.toList ≠ [] ∧ Text.trim column.toList = column.toList ∧ closeBrace ∉ column.toList ∧
      '\'' ∉ name.toList ∧ Text.occursIn ['#', openBrace] name.toList = false ∧
      schema.find? column = some .string ∧ IsBare name.toList ∧
      (Compile.text schema lists "u" source).outcome = .ok ⟨source, .leaf ⟨column, .string, .inUserList,
        .set [.text "Rome", .null, .text "7"], some "'my \"vip\" list'", 0⟩⟩ := by
  intro column name source schema lists
  have hne : column.toList ≠ [] := by decide +kernel
  have htrim : Text.trim column.toList = column.toList := by decide +kernel
  have hcolumn : closeBrace ∉ column.toList := by decide +kernel
  have hname : '\'' ∉ name.toList := by decide +kernel
  have hhash : Text.occursIn ['#', openBrace] name.toList = false := by decide +kernel
  have hschema : schema.find? column = some .string := rfl
  have hbare : IsBare name.toList := by decide +kernel
  obtain ⟨hlists, hasked, _⟩ := quoted_name_finds_list hne htrim hcolumn hname hhash hschema "u"
  have hitems : lists.find? ("u", name) = some [.text "Rome", .null, .int 7] := by decide +kernel
  rw [hasked.2 hbare] at hlists
  have hcompile := (hlists lists).1 _ hitems
  have hcast : [Value.text "Rome", .null, .int 7].map (Literal.castItem .string) =
      [.text "Rome", .null, .text "7"] := by decide +kernel
  have hsource : listQuery column name = source := by decide +kernel
  have hliteral : "'" ++ name ++ "'" = "'my \"vip\" list'" := by decide +kernel
  rw [hcast, hsource, hliteral] at hcompile
  exact ⟨hne, htrim, hcolumn, hname, hhash, hschema, hbare, hcompile⟩

/-- A name with blanks at its ends finds the list of the name without them, or no list at all. -/
theorem quoted_name_finds_other_list :
    let source := "#\x7bc\x7d inUserList \x7b' x '\x7d"
    let schema : Schema := ⟨[("c", .string)]⟩
    let one : NamedLists := ⟨[(("u1", " x "), [.text "one"])]⟩
    let both : NamedLists := ⟨[(("u1", " x "), [.text "one"]), (("u1", "x"), [.text "two"])]⟩
    one.find? ("u1", " x ") = some [.text "one"] ∧ both.find? ("u1", " x ") = some [.text "one"] ∧
      (Compile.text schema one "u1" source).outcome = .error (.listNotFound "u1" "x") ∧
      (Compile.text schema both "u1" source).outcome = .ok ⟨source, .leaf ⟨"c", .string, .inUserList,
        .set [.text "two"], some "' x '", 0⟩⟩ := by
  intro source schema one both
  have hsource : listQuery "c" " x " = source := by decide +kernel
  have hliteral : "'" ++ " x " ++ "'" = "' x '" := by decide +kernel
  have hasked : String.ofList (unquote " x ".toList) = "x" := by decide +kernel
  have hschema : schema.find? "c" = some .string := rfl
  have hlookup := @outcome_text_listQuery "c" " x " (by decide +kernel) (by decide +kernel)
    (by decide +kernel) (by decide +kernel) (by decide +kernel) schema .string hschema
  rw [hsource, hliteral, hasked] at hlookup
  have hone : one.find? ("u1", "x") = none := by decide +kernel
  have hboth : both.find? ("u1", "x") = some [.text "two"] := by decide +kernel
  have hcast : [Value.text "two"].map (Literal.castItem .string) = [.text "two"] := by decide +kernel
  refine ⟨by decide +kernel, by decide +kernel, ?_, ?_⟩
  · rw [hlookup, hone]
  · rw [hlookup, hboth]
    simp only [hcast]

/-! ## Lists by value -/

/-- On a text column a cell equals a literal that is not missing and has the same text. -/
theorem Predicate.equals_iff_of_isTextual {p : Predicate} (h : p.type.isTextual = true) (cell v : Value) :
    p.equals cell v = true ↔ v.isNull = false ∧ cell.toText = v.toText := by
  rw [equals, order?]
  cases hv : v.isNull with
  | true => simp
  | false => simp [h]

/-- On a text column an item counts for its unquoted text; a missing one stays missing. -/
theorem Literal.castItem_of_isTextual {type : LogicalType} (h : type.isTextual = true) (item : Value) :
    castItem type item =
      if item.isNull then .null else .text (String.ofList (unquote item.toText.toList)) := by
  rw [castItem, cast_of_isTextual _ h]

/-- The text of the cell is the unquoted text of an item. -/
def IsMember (items : List Value) (cell : Value) : Prop :=
  ∃ item ∈ items, item.isNull = false ∧ unquote item.toText.toList = cell.toText.toList

/-- A test against the items of a list looks for the text of the cell among their unquoted texts. -/
theorem Predicate.any_equals_castItem {p : Predicate} (h : p.type.isTextual = true) (items : List Value)
    (cell : Value) :
    (items.map (Literal.castItem p.type)).any (p.equals cell) = true ↔ IsMember items cell := by
  rw [List.any_map, List.any_eq_true]
  refine exists_congr fun item => and_congr_right fun _ => ?_
  rw [Function.comp_apply, Literal.castItem_of_isTextual h, equals_iff_of_isTextual h]
  cases item.isNull with
  | true => simp [Value.isNull]
  | false => simp [Value.isNull, Value.toText, ← String.toList_inj, eq_comm]

/-- Bare items count for their texts. -/
theorem isMember_iff_of_isBare {items : List Value} (h : ∀ s, .text s ∈ items → IsBare s.toList)
    (cell : Value) :
    IsMember items cell ↔ ∃ item ∈ items, item.isNull = false ∧ item.toText = cell.toText := by
  refine exists_congr fun item => and_congr_right fun hitem => and_congr_right fun _ => ?_
  have hbare : IsBare item.toText.toList := Value.isBare_toText fun s hs => h s (hs ▸ hitem)
  rw [Literal.unquote_eq_self_iff.2 hbare, String.toList_inj]

/-- In a list of nothing but copies of a text, the text is no member if something is dropped from it. -/
theorem not_isMember_of_copies {items : List Value} {s : String} (hbare : ¬ IsBare s.toList)
    (hcopies : ∀ item ∈ items, item = .text s) : ¬ IsMember items (.text s) := by
  rintro ⟨item, hitem, _, htext⟩
  rw [hcopies item hitem] at htext
  exact hbare (Literal.unquote_eq_self_iff.1 htext)

/-- A clause on a list that the user has is true for the cells of a text column that are members of it. A
missing cell is in no list. -/
theorem Compile.gives_list {schema : Schema} {lists : NamedLists} {user : String} {places : Places}
    {c : Clause} {type : LogicalType} {row : Row} {cell : Value} {items : List Value}
    (hop : c.operator = .inUserList)
    (hschema : schema.find? c.column = some type) (htype : type.isTextual = true)
    (hitems : lists.find? (user, listName c) = some items)
    (hcell : cellOf places c.column row = .ok cell) :
    ∃ b, Gives schema lists user places (.leaf c) row (.ok b) ∧
      (b = true ↔ cell.isNull = false ∧ IsMember items cell) := by
  let own : Predicate := ⟨c.column, type, c.operator, .set (items.map (Literal.castItem type)), c.value,
    c.offset⟩
  have hformula (source : String) : (formula schema lists user source (.leaf c)).outcome =
      .ok ⟨source, .leaf own⟩ := by
    -- the list is there, so the clause is not refused
    rw [outcome_formula_list hschema (by rw [hop]; rfl), hitems]
  have hgives : Gives schema lists user places (.leaf c) row (own.answer cell) :=
    gives_predicate hformula hcell
  have hpositive : own.operator.negates? = none := by
    rw [show own.operator = _ from hop]
    rfl
  rw [Predicate.answer_of_positive hpositive, show own.operator = _ from hop,
    Predicate.apply_membership rfl (.inr rfl)] at hgives
  refine ⟨_, hgives, ?_⟩
  rw [Bool.and_eq_true, Bool.not_eq_true']
  exact and_congr_right fun _ => @Predicate.any_equals_castItem own htype items cell

/-- **Membership in named lists.** On a text column a clause on a list that the user has is true or false of
every row. It is true just if the cell is not missing and its text is the unquoted text of an item that is not
missing. So if all texts among the items are bare, it is true just if the text of the cell is the text of such
an item. A value that was copied from the column into the list is found again if it is bare; a list of nothing
but copies of a text that is not bare does not have the text as its member. -/
theorem named_list_members {places : Places} {column : String} {schema : Schema} {type : LogicalType}
    (hschema : schema.find? column = some type) (htype : type.isTextual = true) {lists : NamedLists}
    {user raw : String} {offset : Nat} {items : List Value}
    (hitems : lists.find? (user, listName ⟨column, offset, .inUserList, some raw⟩) = some items) {row : Row}
    {cell : Value} (hcell : cellOf places column row = .ok cell) :
    let answers (b : Bool) : Prop :=
      Gives schema lists user places (.leaf ⟨column, offset, .inUserList, some raw⟩) row (.ok b)
    (answers true ∨ answers false) ∧
    (answers true ↔ cell.isNull = false ∧ IsMember items cell) ∧
    ((∀ s, .text s ∈ items → IsBare s.toList) → (answers true ↔
      cell.isNull = false ∧ ∃ item ∈ items, item.isNull = false ∧ item.toText = cell.toText)) ∧
    (cell ∈ items → cell.isNull = false → (∀ s, cell = .text s → IsBare s.toList) → answers true) ∧
    ∀ s, cell = .text s → ¬ IsBare s.toList → (∀ item ∈ items, item = cell) → answers false := by
  intro answers
  obtain ⟨b, hgives, hb⟩ := gives_list rfl hschema htype hitems hcell
  have hmember : answers true ↔ cell.isNull = false ∧ IsMember items cell := hgives.ok_iff.trans hb
  refine ⟨?_, hmember, ?_, ?_, ?_⟩
  · cases b with
    | true => exact .inl hgives
    | false => exact .inr hgives
  · intro hbare
    rw [hmember, isMember_iff_of_isBare hbare]
  · intro hcopied hc hbare
    have htext := Literal.unquote_eq_self_iff.2 (Value.isBare_toText hbare)
    exact hmember.2 ⟨hc, cell, hcopied, hc, htext⟩
  · rintro s rfl hbare hcopies
    refine hgives.ok_iff.2 (Bool.eq_false_iff.2 fun htrue => ?_)
    exact not_isMember_of_copies hbare hcopies (hb.1 htrue).2

/-- A list of a text, a number, a truth value and a missing item, and cells of other kinds. -/
theorem named_list_members_mixed :
    let places := Table.placesOf ["c"]
    let schema : Schema := ⟨[("c", .string)]⟩
    let items : List Value := [.text "it's", .int 7, .bool true, .null]
    let lists : NamedLists := ⟨[(("u", "l"), items)]⟩
    let clause : Formula Clause := .leaf ⟨"c", 0, .inUserList, some "l"⟩
    schema.find? "c" = some .string ∧ LogicalType.string.isTextual = true ∧
      lists.find? ("u", listName ⟨"c", 0, .inUserList, some "l"⟩) = some items ∧
      (∀ s, .text s ∈ items → IsBare s.toList) ∧
      Gives schema lists "u" places clause [.text "it's"] (.ok true) ∧
      Gives schema lists "u" places clause [.text "7"] (.ok true) ∧
      Gives schema lists "u" places clause [.bool true] (.ok true) ∧
      ¬ Gives schema lists "u" places clause [.null] (.ok true) ∧
      ¬ Gives schema lists "u" places clause [.text "'7'"] (.ok true) := by
  intro places schema items lists clause
  have hschema : schema.find? "c" = some .string := rfl
  have hitems : lists.find? ("u", listName ⟨"c", 0, .inUserList, some "l"⟩) = some items := by
    decide +kernel
  have hbare : ∀ s, .text s ∈ items → IsBare s.toList := by
    intro s hs
    obtain rfl : s = "it's" := by simpa [items] using hs
    decide +kernel
  have hmember (cell : Value) : Gives schema lists "u" places clause [cell] (.ok true) ↔
      cell.isNull = false ∧ ∃ item ∈ items, item.isNull = false ∧ item.toText = cell.toText :=
    (@named_list_members places "c" schema .string hschema rfl lists "u" "l" 0 items hitems [cell] cell
      rfl).2.2.1 hbare
  simp only [hmember]
  exact ⟨hschema, rfl, hitems, hbare, by decide +kernel, by decide +kernel, by decide +kernel,
    by decide +kernel, by decide +kernel⟩

/-- The value was copied into the list with the blanks at its ends, and is not found again. -/
theorem named_list_misses_copy :
    let places := Table.placesOf ["c"]
    let schema : Schema := ⟨[("c", .string)]⟩
    let cell : Value := .text " x "
    let lists : NamedLists := ⟨[(("u", "l"), [cell])]⟩
    let clause : Formula Clause := .leaf ⟨"c", 0, .inUserList, some "l"⟩
    cellOf places "c" [cell] = .ok cell ∧ cell.isNull = false ∧
      lists.find? ("u", "l") = some [cell] ∧
      (∃ item ∈ [cell], item.isNull = false ∧ item.toText = cell.toText) ∧
      Gives schema lists "u" places clause [cell] (.ok false) ∧
      ¬ Gives schema lists "u" places clause [cell] (.ok true) := by
  intro places schema cell lists clause
  have hcell : cellOf places "c" [cell] = .ok cell := rfl
  have hname : listName ⟨"c", 0, .inUserList, some "l"⟩ = "l" := by decide +kernel
  have hitems : lists.find? ("u", "l") = some [cell] := by decide +kernel
  obtain ⟨b, hgives, hb⟩ := @gives_list schema lists "u" places ⟨"c", 0, .inUserList, some "l"⟩ .string [cell]
    cell [cell] rfl rfl rfl (hname ▸ hitems) hcell
  have hbare : ¬ IsBare " x ".toList := by decide +kernel
  have hlost : ¬ IsMember [cell] cell := not_isMember_of_copies hbare fun _ => List.mem_singleton.1
  obtain rfl : b = false := Bool.eq_false_iff.2 fun htrue => hlost (hb.1 htrue).2
  exact ⟨hcell, rfl, hitems, ⟨cell, List.mem_singleton.2 rfl, rfl, rfl⟩, hgives,
    fun htrue => Bool.false_ne_true (hgives.ok_iff.1 htrue)⟩

end RowFilter
