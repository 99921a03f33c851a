import RowFilter.Calendar.Readers
import RowFilter.Inference

/-!
# RowFilter — the type of a column and the kinds of its cells

The scan of a column joins the kinds of its cells one after the other and gives up at the first two that
do not mix. Yet neither the order of the cells nor their number counts. A type takes in another one when
joining the two changes nothing; two kinds mix just if some type takes in both, and their join is then the
least such type. So what the scan finds is the least type that takes in every kind that occurs, and it
gives up just if there is none.

Main results:

* `Inference.takesIn_iff_join` — the join of some kinds is the least type that takes in all of them.
* `Inference.columnType_eq_iff` — the type of a column by the sorts of cells in it.
* `Inference.columnType_congr` — columns in which the same kinds occur have the same type.
* `column_type_by_kinds` — the two together, and what may be done to a column without changing its type.
-/

namespace RowFilter

theorem LogicalType.mem_all (type : LogicalType) : type ∈ all := by
  cases type <;> decide

namespace Inference

open Calendar (Parsers)

/-! ## Types that take in others -/

/-- Joining the second type with the first one changes nothing. -/
def Below (a b : LogicalType) : Prop := join a b = some b

instance (a b : LogicalType) : Decidable (Below a b) := inferInstanceAs (Decidable (_ = _))

theorem Below.antisymm {a b : LogicalType} (h : Below a b) (h' : Below b a) : a = b := by
  rw [Below, join_comm] at h
  exact Option.some.inj (h'.symm.trans h)

/-- A type takes in two kinds just if it takes in their join, and kinds that do not mix have no such
type. -/
theorem below_and_below_iff (a b u : LogicalType) :
    Below a u ∧ Below b u ↔ ∃ both, join a b = some both ∧ Below both u := by
  -- there are eight types, so this is a table
  have htable : ∀ a ∈ LogicalType.all, ∀ b ∈ LogicalType.all, ∀ u ∈ LogicalType.all,
      decide (Below a u ∧ Below b u) = (join a b).any fun both => decide (Below both u) := by
    decide +kernel
  have h := htable a a.mem_all b b.mem_all u u.mem_all
  constructor
  · intro hbelow
    rw [decide_eq_true hbelow, eq_comm, Option.any_eq_true] at h
    obtain ⟨both, hjoin, hu⟩ := h
    exact ⟨both, hjoin, of_decide_eq_true hu⟩
  · rintro ⟨both, hjoin, hu⟩
    rw [hjoin, Option.any_some, decide_eq_true hu] at h
    exact of_decide_eq_true h

theorem Below.trans {a b c : LogicalType} (h : Below a b) (h' : Below b c) : Below a c :=
  ((below_and_below_iff a b c).2 ⟨b, h, h'⟩).1

/-- The type takes in all of these kinds. -/
def TakesIn (type : LogicalType) (ks : List LogicalType) : Prop := ∀ k ∈ ks, Below k type

/-- The join of some kinds is the least type that takes in all of them, and there is no join just if no
type does. -/
theorem takesIn_iff_join (u k : LogicalType) (ks : List LogicalType) :
    TakesIn u (k :: ks) ↔ ∃ type, ks.foldlM join k = some type ∧ Below type u := by
  -- induction on the kinds that are still to come, for every join so far
  induction ks generalizing k with
  | nil => simp [TakesIn]
  | cons next ks ih =>
    have hboth : TakesIn u (k :: next :: ks) ↔
        ∃ both, join k next = some both ∧ TakesIn u (both :: ks) := by
      simp only [TakesIn, List.forall_mem_cons, ← and_assoc, below_and_below_iff]
      exact exists_and_right.symm
    rw [hboth, List.foldlM_cons]
    cases hjoin : join k next with
    | none => simp
    | some both => simpa using ih both

/-! ## The scan of a column -/

section Scan

variable [Parsers]

/-- The kinds of the cells that are not missing. -/
def kinds (vs : List Value) : List LogicalType := vs.filterMap kind

theorem mem_kinds {vs : List Value} {k : LogicalType} : k ∈ kinds vs ↔ ∃ v ∈ vs, kind v = some k :=
  List.mem_filterMap

theorem columnTypeFrom_eq (seen : LogicalType) (vs : List Value) :
    columnTypeFrom seen vs = ((kinds vs).foldlM join seen).getD .unknown := by
  induction vs generalizing seen with
  | nil => rfl
  | cons v vs ih =>
    rw [columnTypeFrom, kinds, List.filterMap_cons]
    cases kind v with
    | none => exact ih seen
    | some k =>
      simp only
      rw [List.foldlM_cons]
      cases join seen k with
      | none => rfl
      | some both => exact ih both

theorem columnType_eq (vs : List Value) :
    columnType vs =
      match kinds vs with
      | [] => .unknown
      | k :: ks => (ks.foldlM join k).getD .unknown := by
  induction vs with
  | nil => rfl
  | cons v vs ih =>
    rw [columnType, kinds, List.filterMap_cons]
    cases kind v with
    | none => exact ih
    | some k => exact columnTypeFrom_eq k vs

/-- The type of a column without cells, of one whose kinds mix, and of one whose kinds do not. -/
theorem columnType_cases (vs : List Value) :
    (kinds vs = [] ∧ columnType vs = .unknown) ∨
    (kinds vs ≠ [] ∧ ∀ u, TakesIn u (kinds vs) ↔ Below (columnType vs) u) ∨
    (kinds vs ≠ [] ∧ columnType vs = .unknown ∧ ∀ u, ¬ TakesIn u (kinds vs)) := by
  rw [columnType_eq]
  cases hkinds : kinds vs with
  | nil => exact .inl ⟨rfl, rfl⟩
  | cons k ks =>
    simp only [takesIn_iff_join]
    cases ks.foldlM join k with
    | none => exact .inr (.inr ⟨List.cons_ne_nil _ _, rfl, by simp⟩)
    | some type => exact .inr (.inl ⟨List.cons_ne_nil _ _, by simp⟩)

/-- The least type that takes in the kinds of a column is the type of the column. -/
theorem columnType_of_least {vs : List Value} {type : LogicalType} (hsome : kinds vs ≠ [])
    (h : ∀ u, TakesIn u (kinds vs) ↔ Below type u) : columnType vs = type := by
  have hself : TakesIn type (kinds vs) := (h type).2 (join_self type)
  rcases columnType_cases vs with ⟨hnone, _⟩ | ⟨_, hleast⟩ | ⟨_, _, hmixed⟩
  · exact absurd hnone hsome
  · -- each of the two takes in the kinds, so it takes in the other one
    have hle : Below (columnType vs) type := (hleast type).1 hself
    have hge : Below type (columnType vs) := (h _).1 ((hleast _).2 (join_self _))
    exact hle.antisymm hge
  · exact absurd hself (hmixed type)

/-- A column whose kinds no type takes in has no type. -/
theorem columnType_of_mixed {vs : List Value} (h : ∀ u, ¬ TakesIn u (kinds vs)) :
    columnType vs = .unknown := by
  rcases columnType_cases vs with ⟨_, htype⟩ | ⟨_, hleast⟩ | ⟨_, htype, _⟩
  · exact htype
  · exact absurd ((hleast _).2 (join_self _)) (h _)
  · exact htype

/-- Columns in which the same kinds occur have the same type. -/
theorem columnType_congr {vs ws : List Value} (h : ∀ k, k ∈ kinds vs ↔ k ∈ kinds ws) :
    columnType vs = columnType ws := by
  have htakes : ∀ u, TakesIn u (kinds vs) ↔ TakesIn u (kinds ws) := by
    intro u
    simp only [TakesIn, h]
  rcases columnType_cases ws with ⟨hnone, htype⟩ | ⟨hsome, hleast⟩ | ⟨_, htype, hmixed⟩
  · have hnone' : kinds vs = [] := List.eq_nil_iff_forall_not_mem.2 fun k hk => by
      rw [h, hnone] at hk
      cases hk
    rw [htype, columnType_eq, hnone']
  · refine columnType_of_least ?_ fun u => (htakes u).trans (hleast u)
    obtain ⟨k, hk⟩ := List.exists_mem_of_ne_nil _ hsome
    exact List.ne_nil_of_mem ((h k).2 hk)
  · rw [htype]
    exact columnType_of_mixed fun u hu => hmixed u ((htakes u).1 hu)

end Scan

/-! ## Sorts of cells -/

/-- All cells that are not missing are of one sort. -/
def Only (sort : Value → Prop) (vs : List Value) : Prop := ∀ v ∈ vs, v ≠ .null → sort v

theorem Only.imp {p q : Value → Prop} {vs : List Value} (h : Only p vs) (himp : ∀ v, p v → q v) :
    Only q vs :=
  fun v hv hne => himp v (h v hv hne)

/-- Whole numbers. -/
def IsWhole (v : Value) : Prop := ∃ i, v = .int i

/-- Whole numbers and decimal ones. -/
def IsNumeric (v : Value) : Prop := IsWhole v ∨ ∃ x, v = .float x

/-- Truth values. -/
def IsTruth (v : Value) : Prop := ∃ b, v = .bool b

/-- Texts. -/
def IsText (v : Value) : Prop := ∃ s, v = .text s

/-- Texts of one type. -/
def IsTextOf [Parsers] (type : LogicalType) (v : Value) : Prop := ∃ s, v = .text s ∧ textType s = type

/-- The type that a column should have by the sorts of the cells in it. -/
inductive Typed [Parsers] (vs : List Value) : LogicalType → Prop
  | missing (none : ∀ v ∈ vs, v = .null) : Typed vs .unknown
  | integer (some : ∃ v ∈ vs, v ≠ .null) (only : Only IsWhole vs) : Typed vs .integer
  | float (some : ∃ x, .float x ∈ vs) (only : Only IsNumeric vs) : Typed vs .float
  | boolean (some : ∃ v ∈ vs, v ≠ .null) (only : Only IsTruth vs) : Typed vs .boolean
  /-- All texts have the same type. -/
  | common {type : LogicalType} (some : ∃ v ∈ vs, v ≠ .null) (only : Only (IsTextOf type) vs) :
    Typed vs type
  /-- Two texts have different types. -/
  | string {s s' : String} (first : .text s ∈ vs) (second : .text s' ∈ vs)
    (differ : textType s ≠ textType s') (only : Only IsText vs) : Typed vs .string
  | mixed (numbers : ¬ Only IsNumeric vs) (truths : ¬ Only IsTruth vs) (texts : ¬ Only IsText vs) :
    Typed vs .unknown

theorem below_float {k : LogicalType} : Below k .float ↔ k = .integer ∨ k = .float := by
  cases k <;> decide +kernel

theorem below_boolean {k : LogicalType} : Below k .boolean ↔ k = .boolean := by
  cases k <;> decide +kernel

theorem below_string {k : LogicalType} : Below k .string ↔ k.isTextual = true := by
  cases k <;> decide +kernel

/-- Only textual types are taken in by one. -/
theorem Below.isTextual {k u : LogicalType} (h : Below k u) (hu : u.isTextual = true) :
    k.isTextual = true :=
  below_string.1 (h.trans (below_string.2 hu))

/-- Textual types that differ make a `string`. -/
theorem join_of_isTextual {a b : LogicalType} (ha : a.isTextual = true) (hb : b.isTextual = true)
    (hne : a ≠ b) : join a b = some .string := by
  have hnumeric : ¬ ((a = .integer ∧ b = .float) ∨ (a = .float ∧ b = .integer)) := by
    rintro (⟨rfl, _⟩ | ⟨rfl, _⟩) <;> cases ha
  rw [join, if_neg hne, if_neg hnumeric, ha, hb]
  rfl

variable [Parsers] {vs : List Value}

theorem exists_kind {v : Value} (h : v ≠ .null) : ∃ k, kind v = some k := by
  refine Option.ne_none_iff_exists'.1 fun hnone => ?_
  exact h ((kind_null v).1 hnone)

/-- The kind of a cell tells its sort. -/
theorem sort_of_kind {v : Value} {k : LogicalType} (h : kind v = some k) :
    (k = .integer → IsWhole v) ∧ (k = .float → ∃ x, v = .float x) ∧ (k = .boolean → IsTruth v) ∧
      (k.isTextual = true → IsTextOf k v) := by
  cases v with
  | null => cases h
  | bool b =>
    cases h
    exact ⟨nofun, nofun, fun _ => ⟨b, rfl⟩, nofun⟩
  | int i =>
    cases h
    exact ⟨fun _ => ⟨i, rfl⟩, nofun, nofun, nofun⟩
  | float x =>
    cases h
    exact ⟨nofun, fun _ => ⟨x, rfl⟩, nofun, nofun⟩
  | text s =>
    -- no text has a type that compares by value
    have hk : textType s = k := Option.some.inj h
    have htextual := isTextual_textType s
    rw [hk] at htextual
    refine ⟨?_, ?_, ?_, fun _ => ⟨s, rfl, hk⟩⟩
    all_goals
      rintro rfl
      cases htextual

theorem kinds_ne_nil (h : ∃ v ∈ vs, v ≠ .null) : kinds vs ≠ [] := by
  obtain ⟨v, hv, hne⟩ := h
  obtain ⟨k, hk⟩ := exists_kind hne
  exact List.ne_nil_of_mem (mem_kinds.2 ⟨v, hv, hk⟩)

theorem kinds_eq_nil (h : ∀ v ∈ vs, v = .null) : kinds vs = [] := by
  refine List.eq_nil_iff_forall_not_mem.2 fun k hk => ?_
  obtain ⟨v, hv, hkind⟩ := mem_kinds.1 hk
  rw [h v hv] at hkind
  cases hkind

/-- A type takes in the kinds of a column just if it takes in the kind of every cell. -/
theorem takesIn_kinds_iff {u : LogicalType} :
    TakesIn u (kinds vs) ↔ Only (fun v => ∃ k, kind v = some k ∧ Below k u) vs := by
  constructor
  · intro h v hv hne
    obtain ⟨k, hk⟩ := exists_kind hne
    exact ⟨k, hk, h k (mem_kinds.2 ⟨v, hv, hk⟩)⟩
  · intro h k hk
    obtain ⟨v, hv, hkind⟩ := mem_kinds.1 hk
    have hne : v ≠ .null := fun hnull => by
      rw [(kind_null v).2 hnull] at hkind
      cases hkind
    obtain ⟨k', hk', hbelow⟩ := h v hv hne
    rw [hkind] at hk'
    exact Option.some.inj hk' ▸ hbelow

/-- A type takes in nothing but numbers, nothing but truth values, or nothing but texts. -/
theorem only_of_takesIn {u : LogicalType} (h : TakesIn u (kinds vs)) :
    Only IsNumeric vs ∨ Only IsTruth vs ∨ Only IsText vs := by
  have honly := takesIn_kinds_iff.1 h
  by_cases hu : u.isTextual = true
  · refine .inr (.inr (honly.imp ?_))
    rintro v ⟨k, hk, hbelow⟩
    obtain ⟨s, rfl, _⟩ := (sort_of_kind hk).2.2.2 (hbelow.isTextual hu)
    exact ⟨s, rfl⟩
  · by_cases hbool : u = .boolean
    · refine .inr (.inl (honly.imp ?_))
      rintro v ⟨k, hk, hbelow⟩
      rw [hbool, below_boolean] at hbelow
      exact (sort_of_kind hk).2.2.1 hbelow
    · -- what is left is `integer` and `float`, and the second takes in all that the first does
      have hfloat : Below u .float := by
        revert hu hbool
        cases u <;> decide +kernel
      refine .inl (honly.imp ?_)
      rintro v ⟨k, hk, hbelow⟩
      rcases below_float.1 (hbelow.trans hfloat) with rfl | rfl
      · exact .inl ((sort_of_kind hk).1 rfl)
      · exact .inr ((sort_of_kind hk).2.1 rfl)

/-- A column whose cells are all of one kind has that type. -/
theorem columnType_of_uniform {type : LogicalType} (hsome : ∃ v ∈ vs, v ≠ .null)
    (h : Only (fun v => kind v = some type) vs) : columnType vs = type := by
  refine columnType_of_least (kinds_ne_nil hsome) fun u => ?_
  rw [takesIn_kinds_iff]
  constructor
  · intro honly
    obtain ⟨v, hv, hne⟩ := hsome
    obtain ⟨k, hk, hbelow⟩ := honly v hv hne
    rw [h v hv hne] at hk
    exact Option.some.inj hk ▸ hbelow
  · intro hbelow
    exact h.imp fun v hv => ⟨type, hv, hbelow⟩

/-- The sorts of the cells decide the type of a column. -/
theorem Typed.columnType_eq {type : LogicalType} (h : Typed vs type) : columnType vs = type := by
  rcases h with hnone | ⟨hsome, honly⟩ | ⟨hsome, honly⟩ | ⟨hsome, honly⟩ | ⟨hsome, honly⟩ |
    ⟨hfirst, hsecond, hdiffer, honly⟩ | ⟨hnumbers, htruths, htexts⟩
  · rw [Inference.columnType_eq, kinds_eq_nil hnone]
  · refine columnType_of_uniform hsome (honly.imp ?_)
    rintro v ⟨i, rfl⟩
    rfl
  · obtain ⟨x, hx⟩ := hsome
    refine columnType_of_least (kinds_ne_nil ⟨_, hx, nofun⟩) fun u => ?_
    rw [takesIn_kinds_iff]
    constructor
    · intro h
      obtain ⟨k, hk, hbelow⟩ := h _ hx nofun
      exact Option.some.inj hk ▸ hbelow
    · intro hbelow
      refine honly.imp ?_
      rintro v (⟨i, rfl⟩ | ⟨y, rfl⟩)
      · exact ⟨.integer, rfl, (below_float.2 (.inl rfl)).trans hbelow⟩
      · exact ⟨.float, rfl, hbelow⟩
  · refine columnType_of_uniform hsome (honly.imp ?_)
    rintro v ⟨b, rfl⟩
    rfl
  · refine columnType_of_uniform hsome (honly.imp ?_)
    rintro v ⟨s, rfl, rfl⟩
    rfl
  · refine columnType_of_least (kinds_ne_nil ⟨_, hfirst, nofun⟩) fun u => ?_
    rw [takesIn_kinds_iff]
    constructor
    · intro h
      obtain ⟨k, hk, hbelow⟩ := h _ hfirst nofun
      obtain ⟨k', hk', hbelow'⟩ := h _ hsecond nofun
      rw [← Option.some.inj hk] at hbelow
      rw [← Option.some.inj hk'] at hbelow'
      obtain ⟨both, hjoin, hboth⟩ := (below_and_below_iff _ _ u).1 ⟨hbelow, hbelow'⟩
      rw [join_of_isTextual (isTextual_textType _) (isTextual_textType _) hdiffer] at hjoin
      exact Option.some.inj hjoin ▸ hboth
    · intro hbelow
      refine honly.imp ?_
      rintro v ⟨s, rfl⟩
      exact ⟨_, rfl, (below_string.2 (isTextual_textType s)).trans hbelow⟩
  · refine columnType_of_mixed fun u hu => ?_
    rcases only_of_takesIn hu with h | h | h
    · exact hnumbers h
    · exact htruths h
    · exact htexts h

/-- Every column has a type by the sorts of its cells. -/
theorem exists_typed (vs : List Value) : ∃ type, Typed vs type := by
  by_cases hnull : ∀ v ∈ vs, v = .null
  · exact ⟨_, .missing hnull⟩
  have hsome : ∃ v ∈ vs, v ≠ .null := by
    simpa using hnull
  by_cases hnumbers : Only IsNumeric vs
  · by_cases hfloat : ∃ x, .float x ∈ vs
    · exact ⟨_, .float hfloat hnumbers⟩
    · -- numbers none of which is a decimal one are whole
      refine ⟨_, .integer hsome fun v hv hne => (hnumbers v hv hne).resolve_right ?_⟩
      rintro ⟨x, rfl⟩
      exact hfloat ⟨x, hv⟩
  by_cases htruths : Only IsTruth vs
  · exact ⟨_, .boolean hsome htruths⟩
  by_cases htexts : Only IsText vs
  · obtain ⟨v, hv, hne⟩ := hsome
    obtain ⟨s, rfl⟩ := htexts v hv hne
    by_cases hdiffer : ∃ s', .text s' ∈ vs ∧ textType s ≠ textType s'
    · obtain ⟨s', hs', hdiffer⟩ := hdiffer
      exact ⟨_, .string hv hs' hdiffer htexts⟩
    · -- all texts have the type of this one
      refine ⟨textType s, .common ⟨_, hv, hne⟩ fun w hw hwne => ?_⟩
      obtain ⟨s', rfl⟩ := htexts w hw hwne
      refine ⟨s', rfl, Decidable.of_not_not fun h => ?_⟩
      exact hdiffer ⟨s', hw, Ne.symm h⟩
  · exact ⟨_, .mixed hnumbers htruths htexts⟩

/-- The type of a column is the one that the sorts of its cells ask for. -/
theorem columnType_eq_iff {type : LogicalType} : columnType vs = type ↔ Typed vs type := by
  constructor
  · rintro rfl
    obtain ⟨type, h⟩ := exists_typed vs
    rw [h.columnType_eq]
    exact h
  · exact Typed.columnType_eq

/-- A column may be put in another order, and cells that are missing or that it has already may be added. -/
theorem columnType_of_perm {ws more : List Value} (hmore : ∀ v ∈ more, v = .null ∨ v ∈ vs)
    (hperm : ws.Perm (vs ++ more)) : columnType ws = columnType vs := by
  refine columnType_congr fun k => ?_
  rw [mem_kinds, mem_kinds]
  constructor
  · rintro ⟨v, hv, hk⟩
    rcases List.mem_append.1 (hperm.mem_iff.1 hv) with hv | hv
    · exact ⟨v, hv, hk⟩
    · rcases hmore v hv with rfl | hv
      · cases hk
      · exact ⟨v, hv, hk⟩
  · rintro ⟨v, hv, hk⟩
    exact ⟨v, hperm.mem_iff.2 (List.mem_append_left _ hv), hk⟩

end Inference

/-- **The type of a column depends only on which kinds of cells occur.** It is the one that the sorts of
the cells ask for: `integer` for whole numbers, `float` for numbers with a decimal one among them,
`boolean` for truth values, for texts their common type or else `string`, and `unknown` for a column without
cells and for every other mix. Two columns in which the same kinds occur have the same type. So the cells
may come in another order, and missing cells and copies of cells may be added anywhere. -/
theorem column_type_by_kinds [Calendar.Parsers] :
    (∀ vs type, Inference.columnType vs = type ↔ Inference.Typed vs type) ∧
    (∀ vs ws, (∀ k, (∃ v ∈ vs, Inference.kind v = some k) ↔ ∃ w ∈ ws, Inference.kind w = some k) →
      Inference.columnType vs = Inference.columnType ws) ∧
    ∀ vs more ws : List Value, (∀ v ∈ more, v = .null ∨ v ∈ vs) → ws.Perm (vs ++ more) →
      Inference.columnType ws = Inference.columnType vs := by
  refine ⟨fun _ _ => Inference.columnType_eq_iff, ?_, ?_⟩
  · intro vs ws h
    refine Inference.columnType_congr fun k => ?_
    rw [Inference.mem_kinds, Inference.mem_kinds]
    exact h k
  · intro vs more ws hmore hperm
    exact Inference.columnType_of_perm hmore hperm

/-- A day and another text in any order, with a missing cell and a copy; and whole numbers among decimal
ones, wherever the first decimal one stands. -/
theorem column_type_by_kinds_mixed :
    let vs : List Value := [.text "2024-01-05", .text "soon"]
    let more : List Value := [.null, .text "soon"]
    let ws : List Value := [.text "soon", .null, .text "soon", .text "2024-01-05"]
    let x : Binary64 := Binary64.ofInt 2
    (∀ v ∈ more, v = .null ∨ v ∈ vs) ∧ ws.Perm (vs ++ more) ∧
      Inference.columnType ws = Inference.columnType vs ∧ Inference.columnType vs = .string ∧
      (∀ k, (∃ v ∈ [Value.int 1, .int 2, .float x], Inference.kind v = some k) ↔
        ∃ w ∈ [Value.float x, .int 3], Inference.kind w = some k) ∧
      Inference.columnType [.int 1, .int 2, .float x] = Inference.columnType [.float x, .int 3] := by
  intro vs more ws x
  obtain ⟨htyped, hkinds, hperms⟩ := column_type_by_kinds
  have hmore : ∀ v ∈ more, v = .null ∨ v ∈ vs := by decide +kernel
  have hperm : ws.Perm (vs ++ more) := by decide +kernel
  have hstring : Inference.Typed vs .string := by
    refine @Inference.Typed.string _ _ "2024-01-05" "soon" (by decide +kernel) (by decide +kernel)
      (by decide +kernel) ?_
    intro v hv _
    rcases List.mem_cons.1 hv with rfl | hv
    · exact ⟨_, rfl⟩
    · exact ⟨_, List.mem_singleton.1 hv⟩
  have hsame : ∀ k, (∃ v ∈ [Value.int 1, .int 2, .float x], Inference.kind v = some k) ↔
      ∃ w ∈ [Value.float x, .int 3], Inference.kind w = some k := by
    intro k
    rw [← Inference.mem_kinds, ← Inference.mem_kinds]
    show k ∈ [LogicalType.integer, .integer, .float] ↔ k ∈ [LogicalType.float, .integer]
    cases k <;> decide
  exact ⟨hmore, hperm, hperms vs more ws hmore hperm, (htyped vs _).2 hstring, hsame,
    hkinds _ _ hsame⟩

end RowFilter
