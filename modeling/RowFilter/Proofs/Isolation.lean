import RowFilter.Calendar.Readers
import RowFilter.Proofs.ErrorKinds
import RowFilter.Proofs.Requests
import RowFilter.Proofs.RoundTrip
import RowFilter.Session.Step

/-!
# RowFilter — isolation of users and datasets

What a user gets to see of a dataset depends on little of a session: on its limits, on what the catalogs
hold under the name of the dataset, and on the lists of that user. Two sessions that agree on this are
alike to the user and give the same answers. Each of these places holds what the last step that wrote to
it has left there, so two runs that agree in their last writes end in sessions that are alike, however
many steps of other users and on other datasets come in between.

Main results:

* `SameLists.formula` — compilation sees no lists but those of its user.
* `Session.Alike.answer` — sessions that are alike give the same answers.
* `Session.find?_catalog_after`, `Session.find?_lists_after` — what a step leaves.
* `Session.find?_catalog_run`, `Session.find?_lists_run` — what a run leaves is what its last write left.
* `Session.answers_isolated` — answers depend on the last writes to the dataset and to the user's lists.
-/

namespace RowFilter

open Literal (NamedLists)

/-! ## The lists of one user -/

/-- Two stores that hold the same lists of one user. -/
def SameLists (user : String) (lists lists' : NamedLists) : Prop :=
  ∀ name, lists.find? (user, name) = lists'.find? (user, name)

section SameLists

variable {user : String} {lists lists' : NamedLists}

theorem SameLists.namedList (h : SameLists user lists lists') (name : String) :
    Literal.namedList lists user name = Literal.namedList lists' user name := by
  rw [Literal.namedList, Literal.namedList, h name]

theorem SameLists.resolveTraced (h : SameLists user lists lists') (name : List Char)
    (type : LogicalType) :
    Literal.resolveTraced lists user name type = Literal.resolveTraced lists' user name type := by
  rw [Literal.resolveTraced, Literal.resolveTraced, h.namedList]

theorem SameLists.resolveList (h : SameLists user lists lists') :
    Compile.resolveList lists user = Compile.resolveList lists' user := by
  funext found c
  simp only [Compile.resolveList, h.resolveTraced]

/-- Of a store of lists, compilation sees the lists of its user. -/
theorem SameLists.formula (h : SameLists user lists lists') (schema : Schema) (source : String)
    (query : Formula Query.Clause) :
    Compile.formula schema lists user source query =
      Compile.formula schema lists' user source query := by
  simp only [Compile.formula, Compile.resolveLists, h.resolveList]

end SameLists

namespace Session

/-! ## Sessions that are alike -/

/-- Do tables have a catalog of their own? -/
def apart (s : Session) : Bool := s.separate.isSome

/-- Sessions that differ at most in other datasets and in the lists of other users. -/
structure Alike (user dataset : String) (s s' : Session) : Prop where
  limits : s.limits = s'.limits
  apart : s.apart = s'.apart
  datasets : ∀ place, (s.catalog place).find? dataset = (s'.catalog place).find? dataset
  lists : SameLists user s.lists s'.lists

/-- Is the step one of the user's, or one on the dataset? A request has to be both. -/
def Step.concerns (user dataset : String) : Step → Bool
  | .register _ name _ | .remove _ name | .schema _ name | .load _ name => name = dataset
  | .insertList owner _ _ | .removeList owner _ | .list owner _ => owner = user
  | .compile owner name _ | .count owner name _ => owner = user ∧ name = dataset
  | .filter r => r.user = user ∧ r.dataset = dataset

namespace Alike

variable {user dataset : String} {s s' : Session}

theorem schema [Calendar.Parsers] (h : s.Alike user dataset s') (place : Place) :
    (s.catalog place).schema dataset = (s'.catalog place).schema dataset := by
  rw [Catalog.schema, Catalog.schema, h.datasets place]

theorem load (h : s.Alike user dataset s') (place : Place) :
    (s.catalog place).load dataset = (s'.catalog place).load dataset := by
  rw [Catalog.load, Catalog.load, h.datasets place]

theorem compile [Calendar.Parsers] (h : s.Alike user dataset s') (source : String) :
    s.compile user dataset source = s'.compile user dataset source := by
  -- the schema is the one thing that is asked for besides the lists
  have hschema : s.schemas.schema dataset = s'.schemas.schema dataset := h.schema .schemas
  simp only [Session.compile, hschema, h.lists.formula]

theorem count [Calendar.Parsers] (h : s.Alike user dataset s') (source : String) :
    s.count user dataset source = s'.count user dataset source := by
  have hload : s.datasets.load dataset = s'.datasets.load dataset := h.load .datasets
  simp only [Session.count, hload, h.compile]

theorem filter [Calendar.Parsers] (h : s.Alike user dataset s') {r : Request} (huser : r.user = user)
    (hdataset : r.dataset = dataset) : s.filter r = s'.filter r := by
  subst huser hdataset
  have hload : s.datasets.load r.dataset = s'.datasets.load r.dataset := h.load .datasets
  simp only [Session.filter, hload, h.compile, h.limits]

/-- Sessions that are alike give the same answers, with the same events on the way to them. -/
theorem answer [Calendar.Parsers] (h : s.Alike user dataset s') {step : Step}
    (hstep : step.concerns user dataset = true) : s.answer step = s'.answer step := by
  -- an answer to a write tells at most whether something was there
  cases step with
  | register place name d => rfl
  | insertList owner name items => rfl
  | remove place name =>
    obtain rfl := of_decide_eq_true hstep
    simp only [Session.answer, Store.contains, h.datasets place]
  | removeList owner name =>
    obtain rfl := of_decide_eq_true hstep
    simp only [Session.answer, Store.contains, h.lists name]
  | schema place name =>
    obtain rfl := of_decide_eq_true hstep
    simp only [Session.answer, h.schema]
  | load place name =>
    obtain rfl := of_decide_eq_true hstep
    simp only [Session.answer, h.load]
  | list owner name =>
    obtain rfl := of_decide_eq_true hstep
    simp only [Session.answer, h.lists.namedList]
  | compile owner name source =>
    obtain ⟨rfl, rfl⟩ := of_decide_eq_true hstep
    simp only [Session.answer, h.compile]
  | count owner name source =>
    obtain ⟨rfl, rfl⟩ := of_decide_eq_true hstep
    simp only [Session.answer, h.count]
  | filter r =>
    obtain ⟨huser, hdataset⟩ := of_decide_eq_true hstep
    simp only [Session.answer, h.filter huser hdataset]

end Alike

/-! ## What a step writes -/

/-- What a step leaves of a dataset in the catalog at a place, if it writes there. Unless tables have a
catalog of their own, a step at either place writes to the one catalog. -/
def Step.datasetWrite (apart : Bool) (place : Place) (dataset : String) :
    Step → Option (Option Dataset)
  | .register target name d =>
    if name = dataset ∧ (target = place ∨ apart = false) then some (some d) else none
  | .remove target name =>
    if name = dataset ∧ (target = place ∨ apart = false) then some none else none
  | _ => none

/-- What a step leaves of a list of a user, if it writes to it. -/
def Step.listWrite (user list : String) : Step → Option (Option (List Value))
  | .insertList owner name items => if (owner, name) = (user, list) then some (some items) else none
  | .removeList owner name => if (owner, name) = (user, list) then some none else none
  | _ => none

/-- An update of a catalog changes neither the lists nor the limits nor the number of catalogs. -/
theorem update_frame (s : Session) (target : Place) (f : Catalog → Catalog) :
    (s.update target f).lists = s.lists ∧ (s.update target f).limits = s.limits ∧
      (s.update target f).apart = s.apart := by
  rcases s with ⟨schemas, separate, lists, limits⟩
  cases separate <;> cases target <;> exact ⟨rfl, rfl, rfl⟩

/-- No step changes the limits or the number of catalogs. -/
theorem after_frame (s : Session) (step : Step) :
    (s.after step).limits = s.limits ∧ (s.after step).apart = s.apart := by
  cases step with
  | register target name d => exact (s.update_frame target _).2
  | remove target name => exact (s.update_frame target _).2
  | _ => exact ⟨rfl, rfl⟩

/-- An update reaches the catalog at the other place as well if there is only one. -/
theorem catalog_update (s : Session) (target place : Place) (f : Catalog → Catalog) :
    (s.update target f).catalog place =
      if target = place ∨ s.apart = false then f (s.catalog place) else s.catalog place := by
  rcases s with ⟨schemas, separate, lists, limits⟩
  cases separate <;> cases target <;> cases place <;> rfl

/-- An update that leaves something under one name, and all else alone, is a write to that name. -/
theorem find?_catalog_update (s : Session) (target place : Place) {f : Catalog → Catalog}
    {name dataset : String} {left : Option Dataset}
    (hf : ∀ c, (f c).find? dataset = if name = dataset then left else c.find? dataset) :
    ((s.update target f).catalog place).find? dataset =
      (if name = dataset ∧ (target = place ∨ s.apart = false) then some left else none).getD
        ((s.catalog place).find? dataset) := by
  rw [catalog_update]
  -- the update has to reach the place and to be about the dataset
  by_cases hreach : target = place ∨ s.apart = false
  · rw [if_pos hreach, hf]
    by_cases hname : name = dataset
    · rw [if_pos hname, if_pos ⟨hname, hreach⟩]
      rfl
    · rw [if_neg hname, if_neg fun h => hname h.1]
      rfl
  · rw [if_neg hreach, if_neg fun h => hreach h.2]
    rfl

/-- After a step a dataset is what the step has written, or what it was. -/
theorem find?_catalog_after (s : Session) (step : Step) (place : Place) (dataset : String) :
    ((s.after step).catalog place).find? dataset =
      (step.datasetWrite s.apart place dataset).getD ((s.catalog place).find? dataset) := by
  cases step with
  | register target name d =>
    exact s.find?_catalog_update target place fun c => c.find?_insert name dataset d
  | remove target name =>
    exact s.find?_catalog_update target place fun c => c.find?_erase name dataset
  | _ => rfl

/-- After a step a list is what the step has written, or what it was. -/
theorem find?_lists_after (s : Session) (step : Step) (user list : String) :
    (s.after step).lists.find? (user, list) =
      (step.listWrite user list).getD (s.lists.find? (user, list)) := by
  cases step with
  | register target name d =>
    rw [after, (s.update_frame target _).1]
    rfl
  | remove target name =>
    rw [after, (s.update_frame target _).1]
    rfl
  | insertList owner name items =>
    rw [after, Step.listWrite, Store.find?_insert]
    split <;> rfl
  | removeList owner name =>
    rw [after, Step.listWrite, Store.find?_erase]
    split <;> rfl
  | _ => rfl

/-! ## What a run leaves -/

/-- The last of the things that some of the steps write. -/
def lastWrite {α : Type} (write : Step → Option α) (xs : List Step) : Option α :=
  (xs.filterMap write).getLast?

/-- No run changes the limits or the number of catalogs. -/
theorem run_frame [Calendar.Parsers] (s : Session) (xs : List Step) :
    (s.run xs).2.limits = s.limits ∧ (s.run xs).2.apart = s.apart := by
  induction xs generalizing s with
  | nil => exact ⟨rfl, rfl⟩
  | cons x xs ih =>
    obtain ⟨hlimits, hapart⟩ := ih (s.after x)
    exact ⟨hlimits.trans (s.after_frame x).1, hapart.trans (s.after_frame x).2⟩

/-- If every step leaves what it writes, a run leaves what it wrote last. What a step writes may depend on
whether tables have a catalog of their own, which no step changes. -/
theorem observe_run [Calendar.Parsers] {α : Type} (see : Session → α) (write : Step → Option α) {s : Session}
    (hstep : ∀ t step, t.apart = s.apart → see (t.after step) = (write step).getD (see t))
    (xs : List Step) : see (s.run xs).2 = (lastWrite write xs).getD (see s) := by
  induction xs generalizing s with
  | nil => rfl
  | cons x xs ih =>
    have hrest : see (s.run (x :: xs)).2 = (lastWrite write xs).getD (see (s.after x)) :=
      ih fun t step ht => hstep t step (ht.trans (s.after_frame x).2)
    rw [hrest, hstep s x rfl, lastWrite, lastWrite, List.filterMap_cons]
    cases write x with
    | none => rfl
    | some a =>
      -- a later write has the last word, and without one this step has
      rw [List.getLast?_cons]
      cases (xs.filterMap write).getLast? <;> rfl

theorem find?_catalog_run [Calendar.Parsers] (s : Session) (xs : List Step) (place : Place) (dataset : String) :
    ((s.run xs).2.catalog place).find? dataset =
      (lastWrite (Step.datasetWrite s.apart place dataset) xs).getD
        ((s.catalog place).find? dataset) := by
  refine observe_run (fun t => (t.catalog place).find? dataset) _ ?_ xs
  intro t step ht
  -- whether a step at the other place counts is the same all through the run
  rw [← ht]
  exact t.find?_catalog_after step place dataset

theorem find?_lists_run [Calendar.Parsers] (s : Session) (xs : List Step) (user list : String) :
    (s.run xs).2.lists.find? (user, list) =
      (lastWrite (Step.listWrite user list) xs).getD (s.lists.find? (user, list)) :=
  observe_run (fun t => t.lists.find? (user, list)) _
    (fun t step _ => t.find?_lists_after step user list) xs

/-- Runs that agree in their last write to a dataset at each place, and to each list of a user. -/
structure SameLastWrites (apart : Bool) (user dataset : String) (xs ys : List Step) : Prop where
  datasets : ∀ place, lastWrite (Step.datasetWrite apart place dataset) xs =
    lastWrite (Step.datasetWrite apart place dataset) ys
  lists : ∀ list, lastWrite (Step.listWrite user list) xs = lastWrite (Step.listWrite user list) ys

/-- Sessions that are alike stay so in runs with the same last writes. -/
theorem Alike.run [Calendar.Parsers] {user dataset : String} {s s' : Session} (h : s.Alike user dataset s')
    {xs ys : List Step} (hwrites : SameLastWrites s.apart user dataset xs ys) :
    (s.run xs).2.Alike user dataset (s'.run ys).2 where
  limits := by rw [(s.run_frame xs).1, (s'.run_frame ys).1, h.limits]
  apart := by rw [(s.run_frame xs).2, (s'.run_frame ys).2, h.apart]
  datasets place := by
    rw [find?_catalog_run, find?_catalog_run, hwrites.datasets place, h.datasets place, h.apart]
  lists list := by
    rw [find?_lists_run, find?_lists_run, hwrites.lists list, h.lists list]

/-- Does the step write to the dataset or to a list of the user? -/
def Step.writes (user dataset : String) (step : Step) : Bool :=
  step.concerns user dataset && !step.asks

theorem lastWrite_filter {α : Type} {write : Step → Option α} {p : Step → Bool}
    (h : ∀ step, p step = false → write step = none) (xs : List Step) :
    lastWrite write (xs.filter p) = lastWrite write xs := by
  rw [lastWrite, lastWrite, List.filterMap_filter]
  congr 2
  funext step
  cases hp : p step with
  | false => exact (h step hp).symm
  | true => rfl

theorem Step.datasetWrite_of_not_writes {user dataset : String} {step : Step}
    (h : step.writes user dataset = false) (apart : Bool) (place : Place) :
    step.datasetWrite apart place dataset = none := by
  cases step with
  | register target name d =>
    have hname : name ≠ dataset := by simpa [writes, concerns, asks] using h
    exact if_neg fun hwrite => hname hwrite.1
  | remove target name =>
    have hname : name ≠ dataset := by simpa [writes, concerns, asks] using h
    exact if_neg fun hwrite => hname hwrite.1
  | _ => rfl

theorem Step.listWrite_of_not_writes {user dataset : String} {step : Step}
    (h : step.writes user dataset = false) (list : String) : step.listWrite user list = none := by
  cases step with
  | insertList owner name items =>
    have howner : owner ≠ user := by simpa [writes, concerns, asks] using h
    exact if_neg fun hwrite => howner (congrArg Prod.fst hwrite)
  | removeList owner name =>
    have howner : owner ≠ user := by simpa [writes, concerns, asks] using h
    exact if_neg fun hwrite => howner (congrArg Prod.fst hwrite)
  | _ => rfl

/-- Runs with the same writes, in one order, have the same last ones. -/
theorem SameLastWrites.of_filter_eq {user dataset : String} {xs ys : List Step}
    (h : xs.filter (Step.writes user dataset) = ys.filter (Step.writes user dataset))
    (apart : Bool) : SameLastWrites apart user dataset xs ys where
  datasets place := by
    have hfilter := lastWrite_filter (p := Step.writes user dataset)
      fun step hstep => step.datasetWrite_of_not_writes hstep apart place
    rw [← hfilter xs, ← hfilter ys, h]
  lists list := by
    have hfilter := lastWrite_filter (p := Step.writes user dataset)
      fun step hstep => step.listWrite_of_not_writes hstep list
    rw [← hfilter xs, ← hfilter ys, h]

/-! ## Steps that only ask -/

/-- A run ends where its writes alone would have led. -/
theorem run_filter_asks [Calendar.Parsers] (s : Session) (xs : List Step) :
    (s.run (xs.filter fun step => !step.asks)).2 = (s.run xs).2 := by
  induction xs generalizing s with
  | nil => rfl
  | cons x xs ih =>
    cases hasks : x.asks with
    | false =>
      rw [List.filter_cons_of_pos (by rw [hasks]; rfl)]
      exact ih (s.after x)
    | true =>
      rw [List.filter_cons_of_neg (by rw [hasks]; decide), ih]
      -- the session that answers the rest is the one before the question
      have hsame : s.after x = s := s.perform_of_asks hasks
      exact congrArg (fun t => (run t xs).2) hsame.symm

/-! ## Answers -/

theorem length_run [Calendar.Parsers] (s : Session) (xs : List Step) : (s.run xs).1.length = xs.length := by
  induction xs generalizing s with
  | nil => rfl
  | cons x xs ih => exact congrArg (· + 1) (ih (s.after x))

/-- The answer to a step of a run depends on the steps before it. -/
theorem getElem?_run [Calendar.Parsers] (s : Session) (xs rest : List Step) (step : Step) :
    (s.run (xs ++ step :: rest)).1[xs.length]? = some ((s.run xs).2.answer step) := by
  have hlength : (s.run xs).1.length = xs.length := s.length_run xs
  rw [run_append, List.getElem?_append_right (by omega), hlength, Nat.sub_self]
  rfl

/-- Two runs give one step the same answer, whatever comes after it. -/
def SameAnswer [Calendar.Parsers] (s s' : Session) (xs ys : List Step) (step : Step) : Prop :=
  ∀ rest rest', ∃ a, (s.run (xs ++ step :: rest)).1[xs.length]? = some a ∧
    (s'.run (ys ++ step :: rest')).1[ys.length]? = some a

/-- **Isolation.** Take two sessions, for example twice the same one, that hold the same lists of a user and
the same dataset under a name. After any two runs a step of the user on the dataset gets the same answer if
the runs agree in their last writes to the dataset and to each list of the user, so in particular if they
write there the same in the same order, whatever they do with other datasets and with the lists of other
users. Steps that only ask change nothing, whether they fail or not. -/
theorem answers_isolated [Calendar.Parsers] {user dataset : String} {s s' : Session} (h : s.Alike user dataset s') :
    (∀ xs ys, SameLastWrites s.apart user dataset xs ys →
      ∀ step : Step, step.concerns user dataset = true → SameAnswer s s' xs ys step) ∧
    (∀ xs ys : List Step,
      xs.filter (Step.writes user dataset) = ys.filter (Step.writes user dataset) →
      ∀ step : Step, step.concerns user dataset = true → SameAnswer s s' xs ys step) ∧
    (∀ step : Step, step.asks = true → ∀ t, (perform t step).2 = t) ∧
    ∀ t xs, (run t (xs.filter fun step => !step.asks)).2 = (run t xs).2 := by
  have hlast : ∀ xs ys, SameLastWrites s.apart user dataset xs ys →
      ∀ step : Step, step.concerns user dataset = true → SameAnswer s s' xs ys step := by
    intro xs ys hwrites step hstep rest rest'
    have hanswer : (s.run xs).2.answer step = (s'.run ys).2.answer step :=
      (h.run hwrites).answer hstep
    refine ⟨(s.run xs).2.answer step, s.getElem?_run xs rest step, ?_⟩
    rw [hanswer]
    exact s'.getElem?_run ys rest' step
  refine ⟨hlast, ?_, fun step hasks t => t.perform_of_asks hasks, run_filter_asks⟩
  intro xs ys hfilter
  exact hlast xs ys (.of_filter_eq hfilter s.apart)

/-- Ann gets the same count in a session where Bob has a list of the same name, whatever he does to it and
to another dataset in between, and although her list was another one before. -/
theorem answers_isolated_ann :
    let s := ofCatalog .empty .empty .usual
    let s' := ofCatalog ⟨[("pets", ⟨.of ["city"] [], none⟩)]⟩
      (.insert .empty ("bob", "vip") [.text "Rome"]) .usual
    let people : Dataset := ⟨.of ["city"] [[.text "Rome"], [.text "Oslo"]],
      some ⟨[("city", .string)]⟩⟩
    let source := "#\x7bcity\x7d inUserList \x7bvip\x7d"
    let xs := [.register .schemas "people" people, .insertList "ann" "vip" [.text "Oslo"]]
    let ys := [.insertList "ann" "vip" [], .register .datasets "people" people,
      .filter ⟨"bob", "pets", source, 0, none⟩, .insertList "ann" "vip" [.text "Oslo"],
      .remove .datasets "pets", .removeList "bob" "vip"]
    s.Alike "ann" "people" s' ∧ SameLastWrites s.apart "ann" "people" xs ys ∧
      ∃ a, (s.run (xs ++ [.count "ann" "people" source])).1[2]? = some a ∧
        (s'.run (ys ++ [.count "ann" "people" source])).1[6]? = some a ∧
        a.outcome = .ok (.count 1) := by
  intro s s' people source xs ys
  have hstart : s.Alike "ann" "people" s' := by
    refine ⟨rfl, rfl, fun place => by cases place <;> rfl, ?_⟩
    intro name
    have hbob : ("ann", name) ≠ ("bob", "vip") := by simp
    exact (Store.find?_insert_of_ne _ _ hbob).symm
  have hwrites : SameLastWrites s.apart "ann" "people" xs ys := by
    refine ⟨fun place => by cases place <;> rfl, ?_⟩
    intro name
    by_cases hname : name = "vip"
    · subst hname
      rfl
    · simp [lastWrite, xs, ys, Step.listWrite, List.findSome?_cons, Ne.symm hname]
  obtain ⟨hlast, _⟩ := answers_isolated hstart
  obtain ⟨a, ha, ha'⟩ := hlast xs ys hwrites (.count "ann" "people" source) rfl [] []
  refine ⟨hstart, hwrites, a, ha, ha', ?_⟩
  have hparse : Query.parse source = .ok (.leaf ⟨"city", 0, .inUserList, some "vip"⟩) := by
    have hsource : source = Query.render (.leaf ⟨"city", 0, .inUserList, some "vip"⟩) := by
      decide +kernel
    rw [hsource, Query.parse_render_eq (by decide +kernel) (by decide +kernel)]
    rfl
  have hcount : ((s.run xs).2.count "ann" "people" source).outcome = .ok 1 := by
    have hcompile : ((s.run xs).2.compile "ann" "people" source).outcome = .ok ⟨source,
        .leaf ⟨"city", .string, .inUserList, .set [.text "Oslo"], some "vip", 0⟩⟩ := by
      rw [outcome_compile, hparse]
      rfl
    rw [outcome_count_of_compile hcompile (t := people.table) rfl]
    rfl
  obtain rfl : (s.run xs).2.answer (.count "ann" "people" source) = a :=
    Option.some.inj ((s.getElem?_run xs [] _).symm.trans ha)
  show (_ >>= _ : Traced Answer).outcome = _
  rw [Traced.outcome_bind, hcount]
  rfl

end Session

end RowFilter
