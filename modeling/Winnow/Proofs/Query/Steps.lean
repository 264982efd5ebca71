import Winnow.Proofs.Query.Checks
import Winnow.Query.Streaming

/-!
# Steps by kind

A query is built by steps of three kinds. What a step adds, and what it is checked against, has
nothing to do with the steps of other kinds: constraints and filters are merged each on their own,
and the last selection counts. So steps may be reordered as long as those of one kind stay in order,
and the steps of one kind may be taken together (`applyAll_by_kind`), also where they fail: a name
that is unknown in several steps is the first unknown one of their merged mappings.
-/

namespace Winnow.Query

/-- A step of building a query. -/
inductive Step
  | scan (constraints : Assoc String Value)
  | filter (constraints : Assoc String Value)
  | select (arguments : List Value)

/-- Takes a step. -/
def apply (q : Query) : Step → Except Error Query
  | .scan constraints => q.scan constraints
  | .filter constraints => q.filter constraints
  | .select arguments => q.select arguments

/-- Takes steps one after the other, up to the first one that fails. -/
def applyAll (q : Query) (steps : List Step) : Except Error Query := steps.foldlM apply q

/-- Mappings as one mapping, in which the last value of a name counts. -/
def mergeAll (maps : List (Assoc String Value)) : Assoc String Value := maps.foldl Assoc.merge []

/-- Mappings as at most one mapping: no mappings stay none. -/
def merged (maps : List (Assoc String Value)) : List (Assoc String Value) :=
  if maps = [] then [] else [mergeAll maps]

namespace Step

def scan? : Step → Option (Assoc String Value)
  | .scan constraints => some constraints
  | _ => none

def filter? : Step → Option (Assoc String Value)
  | .filter constraints => some constraints
  | _ => none

def select? : Step → Option (List Value)
  | .select arguments => some arguments
  | _ => none

/-- The steps of a list kind by kind. -/
def scans (steps : List Step) : List (Assoc String Value) := steps.filterMap scan?

def filters (steps : List Step) : List (Assoc String Value) := steps.filterMap filter?

def selects (steps : List Step) : List (List Value) := steps.filterMap select?

/-- Steps in the order of their kinds. -/
def ofKinds (scans filters : List (Assoc String Value)) (selects : List (List Value)) : List Step :=
  scans.map .scan ++ filters.map .filter ++ selects.map .select

/-- At most one step of each kind: the merged constraints, the merged filters and the last
selection. -/
def condensed (steps : List Step) : List Step :=
  ofKinds (merged (scans steps)) (merged (filters steps)) (selects steps).getLast?.toList

/-- Two lists of steps differ at most in how steps of different kinds are mixed. -/
structure SameKinds (steps steps' : List Step) : Prop where
  scans : scans steps' = scans steps
  filters : filters steps' = filters steps
  selects : selects steps' = selects steps

section Kinds

variable {steps : List Step} (maps maps' : List (Assoc String Value)) (args : List (List Value))

/-- What the steps of a kind hold. -/
theorem mem_filterMap_kind {α : Type} {kind? : Step → Option α} {kind : α → Step}
    (h : ∀ step a, kind? step = some a ↔ step = kind a) {a : α} :
    a ∈ steps.filterMap kind? ↔ kind a ∈ steps := by
  simp [List.mem_filterMap, h]

theorem mem_scans {m : Assoc String Value} : m ∈ scans steps ↔ .scan m ∈ steps :=
  mem_filterMap_kind fun step _ => by cases step <;> simp [scan?]

theorem mem_filters {m : Assoc String Value} : m ∈ filters steps ↔ .filter m ∈ steps :=
  mem_filterMap_kind fun step _ => by cases step <;> simp [filter?]

theorem mem_selects {arguments : List Value} :
    arguments ∈ selects steps ↔ .select arguments ∈ steps :=
  mem_filterMap_kind fun step _ => by cases step <;> simp [select?]

@[simp] theorem scans_ofKinds : scans (ofKinds maps maps' args) = maps := by
  simp [scans, ofKinds, scan?, Function.comp_def, List.filterMap_map]

@[simp] theorem filters_ofKinds : filters (ofKinds maps maps' args) = maps' := by
  simp [filters, ofKinds, filter?, Function.comp_def, List.filterMap_map]

@[simp] theorem selects_ofKinds : selects (ofKinds maps maps' args) = args := by
  simp [selects, ofKinds, select?, Function.comp_def, List.filterMap_map]

end Kinds

end Step

open Step

/-! ## Single steps -/

/-- The check of a step. -/
def check (q : Query) : Step → Except Error Unit
  | .scan constraints => checkNames "params" q.search.names constraints.keys
  | .filter constraints =>
    match q.facts with
    | none => .error (.setup .noMetaResolver)
    | some facet =>
      match facet.fields with
      | none => .ok ()
      | some declared => checkNames "meta" declared constraints.keys
  | .select arguments => Selection.ofArguments arguments >>= q.checkSelection

/-- What a step that was checked makes of a query. -/
def after (q : Query) : Step → Query
  | .scan constraints => { q with scanned := q.scanned.merge constraints }
  | .filter constraints => { q with filtered := q.filtered.merge constraints }
  | .select arguments => { q with selected := (Selection.ofArguments arguments).toOption }

theorem apply_eq (q : Query) (step : Step) :
    q.apply step = (q.check step >>= fun _ => .ok (q.after step)) := by
  cases step with
  | scan => rfl
  | filter constraints =>
      rw [apply, filter, check, after]
      cases q.facts with
      | none => rfl
      | some facet => cases hfields : facet.fields <;> simp only [hfields] <;> rfl
  | select arguments =>
      rw [apply, select, check, after]
      cases Selection.ofArguments arguments <;> rfl

/-- A step is checked against the resolvers, which no step changes. -/
theorem check_after (q : Query) (step : Step) : (q.after step).check = q.check := by
  funext other
  cases step <;> cases other <;> rfl

/-! ## All steps -/

theorem applyAll_eq (q : Query) (steps : List Step) :
    q.applyAll steps = (steps.forM q.check >>= fun _ => .ok (steps.foldl after q)) := by
  induction steps generalizing q with
  | nil => rfl
  | cons step steps ih =>
      show (q.apply step >>= fun q' => q'.applyAll steps) =
        (q.check step >>= fun _ => steps.forM q.check) >>= fun _ => _
      rw [apply_eq, List.foldl_cons]
      cases q.check step with
      | error e => rfl
      | ok u =>
          show (q.after step).applyAll steps = _
          rw [ih, check_after]
          rfl

/-- Steps add up kind by kind. -/
theorem foldl_after (q : Query) (steps : List Step) :
    steps.foldl after q =
      { q with
        scanned := (scans steps).foldl Assoc.merge q.scanned
        filtered := (filters steps).foldl Assoc.merge q.filtered
        selected := (selects steps).foldl
          (fun _ arguments => (Selection.ofArguments arguments).toOption) q.selected } := by
  induction steps generalizing q with
  | nil => rfl
  | cons step steps ih =>
      rw [List.foldl_cons, ih]
      cases step <;> rfl

theorem applyAll_eq_ok_iff {q r : Query} {steps : List Step} :
    q.applyAll steps = .ok r ↔
      (∀ step ∈ steps, q.check step = .ok ()) ∧ r = steps.foldl after q := by
  rw [applyAll_eq, then_eq_ok, forM_eq_ok_iff, Except.ok.injEq, eq_comm (a := r)]

theorem forall_kinds {P : Step → Prop} {steps : List Step} :
    (∀ step ∈ steps, P step) ↔ (∀ m ∈ scans steps, P (.scan m)) ∧
      (∀ m ∈ filters steps, P (.filter m)) ∧ ∀ arguments ∈ selects steps, P (.select arguments) := by
  constructor
  · intro h
    exact ⟨fun m hm => h _ (mem_scans.1 hm), fun m hm => h _ (mem_filters.1 hm),
      fun arguments ha => h _ (mem_selects.1 ha)⟩
  · rintro ⟨hscans, hfilters, hselects⟩ step hstep
    cases step with
    | scan m => exact hscans m (mem_scans.2 hstep)
    | filter m => exact hfilters m (mem_filters.2 hstep)
    | select arguments => exact hselects arguments (mem_selects.2 hstep)

theorem applyAll_of_sameKinds {q r : Query} {steps steps' : List Step}
    (h : SameKinds steps steps') : q.applyAll steps' = .ok r ↔ q.applyAll steps = .ok r := by
  rw [applyAll_eq_ok_iff, applyAll_eq_ok_iff, forall_kinds, forall_kinds, foldl_after, foldl_after,
    h.scans, h.filters, h.selects]

/-! ## Steps of one kind -/

/-- Merging mappings one by one is merging them together. -/
theorem foldl_merge (m : Assoc String Value) {n : Assoc String Value} (hn : n.keys.Nodup)
    (maps : List (Assoc String Value)) :
    maps.foldl Assoc.merge (m.merge n) = m.merge (maps.foldl Assoc.merge n) := by
  induction maps generalizing n with
  | nil => rfl
  | cons l maps ih =>
      rw [List.foldl_cons, List.foldl_cons, ← Assoc.merge_merge m hn,
        ih (Assoc.nodup_keys_merge hn l)]

theorem merge_mergeAll (m : Assoc String Value) (maps : List (Assoc String Value)) :
    m.merge (mergeAll maps) = maps.foldl Assoc.merge m :=
  (foldl_merge m (n := []) .nil maps).symm

theorem foldl_merged (m : Assoc String Value) (maps : List (Assoc String Value)) :
    (merged maps).foldl Assoc.merge m = maps.foldl Assoc.merge m := by
  rw [merged]
  split
  next hnil => rw [hnil]
  next => exact merge_mergeAll m maps

theorem foldl_getLast? {α β : Type} (f : α → β) (b : β) (xs : List α) :
    xs.getLast?.toList.foldl (fun _ a => f a) b = xs.foldl (fun _ a => f a) b := by
  induction xs using List.reverseRecOn with
  | nil => rfl
  | append_singleton xs a _ => simp

theorem checkNames_append (space : String) (known names more : List String) :
    checkNames space known (names ++ more) =
      (checkNames space known names >>= fun _ => checkNames space known more) := by
  induction names with
  | nil => rfl
  | cons name names ih =>
      rw [List.cons_append, checkNames, checkNames, ih]
      split <;> rfl

theorem checkNames_of_mem {space : String} {known names : List String} {name : String}
    (h : checkNames space known names = .ok ()) (hname : name ∈ names) :
    checkNames space known [name] = .ok () := by
  rw [checkNames, if_pos (by simpa using mem_of_checkNames h name hname)]
  rfl

/-- The first unknown name of a merged mapping is that of the mapping before, or else that of the
one that is added to it. -/
theorem checkNames_merge (space : String) (known : List String) (m n : Assoc String Value) :
    checkNames space known (m.merge n).keys =
      (checkNames space known m.keys >>= fun _ => checkNames space known n.keys) := by
  induction n generalizing m with
  | nil =>
      show checkNames space known m.keys = _
      cases checkNames space known m.keys <;> rfl
  | cons e n ih =>
      obtain ⟨k, v⟩ := e
      have hinsert : checkNames space known (m.insert k v).keys =
          (checkNames space known m.keys >>= fun _ => checkNames space known [k]) := by
        by_cases hk : k ∈ m.keys
        · -- A name that was there is found to be known once more.
          rw [Assoc.keys_insert_of_mem v hk]
          cases hm : checkNames space known m.keys with
          | error e => rfl
          | ok u => exact (checkNames_of_mem hm hk).symm
        · rw [Assoc.keys_insert_of_not_mem v hk, checkNames_append]
      have hkeys : Assoc.keys ((k, v) :: n) = [k] ++ Assoc.keys n := rfl
      show checkNames space known ((m.insert k v).merge n).keys = _
      rw [ih, hinsert, hkeys, checkNames_append, bind_assoc]

/-- A kind of steps whose mappings are merged: the merged mapping is checked like the two mappings
one after the other. -/
structure Merges (q : Query) (kind : Assoc String Value → Step) : Prop where
  merge : ∀ m n, q.check (kind (m.merge n)) = (q.check (kind m) >>= fun _ => q.check (kind n))
  nil : ∀ m, (q.check (kind []) >>= fun _ => q.check (kind m)) = q.check (kind m)

theorem merges_scan (q : Query) : q.Merges .scan :=
  ⟨checkNames_merge "params" q.search.names, fun _ => rfl⟩

theorem merges_filter (q : Query) : q.Merges .filter := by
  constructor
  · intro m n
    simp only [check]
    cases q.facts with
    | none => rfl
    | some facet =>
        cases hfields : facet.fields with
        | none => simp only [hfields]; rfl
        | some declared => simp only [hfields, checkNames_merge]
  · intro m
    simp only [check]
    cases q.facts with
    | none => rfl
    | some facet => cases hfields : facet.fields <;> simp only [hfields] <;> rfl

section Merging

variable {q : Query} {kind : Assoc String Value → Step} (h : q.Merges kind)

include h in
theorem check_foldl_merge (m : Assoc String Value) (maps : List (Assoc String Value)) :
    q.check (kind (maps.foldl Assoc.merge m)) =
      (q.check (kind m) >>= fun _ => (maps.map kind).forM q.check) := by
  induction maps generalizing m with
  | nil =>
      show q.check (kind m) = _
      cases q.check (kind m) <;> rfl
  | cons n maps ih =>
      rw [List.foldl_cons, ih, h.merge, bind_assoc]
      rfl

include h in
/-- Mappings are checked one by one as they are checked together. -/
theorem check_mergeAll {maps : List (Assoc String Value)} (hne : maps ≠ []) :
    q.check (kind (mergeAll maps)) = (maps.map kind).forM q.check := by
  cases maps with
  | nil => exact absurd rfl hne
  | cons m maps =>
      rw [mergeAll, check_foldl_merge h]
      show (q.check (kind []) >>= fun _ => q.check (kind m) >>= fun _ => _) = _
      rw [← bind_assoc, h.nil]
      rfl

include h in
/-- Steps of one kind are one step with the merged mapping, also where they fail. -/
theorem applyAll_map {maps : List (Assoc String Value)} (hne : maps ≠ [])
    (hafter : (maps.map kind).foldl after q = q.after (kind (mergeAll maps))) :
    q.applyAll (maps.map kind) = q.apply (kind (mergeAll maps)) := by
  rw [applyAll_eq, apply_eq, check_mergeAll h hne, hafter]

include h in
theorem checks_merged (maps : List (Assoc String Value)) :
    (∀ m ∈ merged maps, q.check (kind m) = .ok ()) ↔ ∀ m ∈ maps, q.check (kind m) = .ok () := by
  rw [merged]
  split
  next hnil => rw [hnil]
  next hne => rw [List.forall_mem_singleton, check_mergeAll h hne, forM_eq_ok_iff, List.forall_mem_map]

end Merging

/-! ## All kinds -/

/-- Where each selection is valid, all steps are as the condensed ones. -/
theorem applyAll_condensed {q r : Query} {steps : List Step}
    (hselects : ∀ arguments ∈ selects steps, q.check (.select arguments) = .ok ()) :
    q.applyAll (condensed steps) = .ok r ↔ q.applyAll steps = .ok r := by
  have hlast : ∀ arguments ∈ (selects steps).getLast?.toList,
      q.check (.select arguments) = .ok () := by
    intro arguments ha
    exact hselects arguments (List.mem_of_getLast? (Option.mem_toList.1 ha))
  rw [applyAll_eq_ok_iff, applyAll_eq_ok_iff, forall_kinds, forall_kinds, foldl_after, foldl_after,
    condensed, scans_ofKinds, filters_ofKinds, selects_ofKinds, checks_merged (merges_scan q),
    checks_merged (merges_filter q), foldl_merged, foldl_merged, foldl_getLast?]
  rw [iff_true_intro hselects, iff_true_intro hlast]

theorem select_eq_ok_iff {q : Query} {arguments : List Value} :
    (∃ r, q.select arguments = .ok r) ↔ q.check (.select arguments) = .ok () := by
  have happly : q.select arguments = q.apply (.select arguments) := rfl
  simp [happly, apply_eq, then_eq_ok]

/-- **Steps of one kind merge, and steps of different kinds commute.** What steps build, one step of
each kind builds: the merged constraints, the merged filters, and the last selection. Where every
selection is valid, these fail exactly if the steps do. Constraints alone, or filters alone, even
fail with the same error. Steps that are reordered across kinds fail as before, or build the same
query, which is then run with the same outcome. -/
theorem applyAll_by_kind (q : Query) (steps : List Step) :
    (∀ r, q.applyAll steps = .ok r → q.applyAll (condensed steps) = .ok r) ∧
    ((∀ arguments ∈ selects steps, ∃ r, q.select arguments = .ok r) →
      ∀ r, q.applyAll (condensed steps) = .ok r ↔ q.applyAll steps = .ok r) ∧
    (∀ maps ≠ [], q.applyAll (maps.map .scan) = q.scan (mergeAll maps) ∧
      q.applyAll (maps.map .filter) = q.filter (mergeAll maps)) ∧
    ∀ steps', SameKinds steps steps' →
      (∀ r, q.applyAll steps' = .ok r ↔ q.applyAll steps = .ok r) ∧
      ∀ r r', q.applyAll steps = .ok r → q.applyAll steps' = .ok r' →
        r'.exec = r.exec ∧ (∀ limit wanted, r'.stream limit wanted = r.stream limit wanted) ∧
          r'.single = r.single ∧ r'.strictSingle = r.strictSingle := by
  refine ⟨?_, ?_, ?_, ?_⟩
  · intro r h
    have hchecked := (applyAll_eq_ok_iff.1 h).1
    exact (applyAll_condensed fun arguments ha => hchecked _ (mem_selects.1 ha)).2 h
  · intro hselects r
    exact applyAll_condensed fun arguments ha => select_eq_ok_iff.1 (hselects arguments ha)
  · intro maps hne
    have hscans : maps.map Step.scan = ofKinds maps [] [] := by simp [ofKinds]
    have hfilters : maps.map Step.filter = ofKinds [] maps [] := by simp [ofKinds]
    constructor
    · refine applyAll_map (merges_scan q) hne ?_
      rw [hscans, foldl_after, scans_ofKinds, filters_ofKinds, selects_ofKinds, after,
        merge_mergeAll]
      rfl
    · refine applyAll_map (merges_filter q) hne ?_
      rw [hfilters, foldl_after, scans_ofKinds, filters_ofKinds, selects_ofKinds, after,
        merge_mergeAll]
      rfl
  · intro steps' h
    refine ⟨fun r => applyAll_of_sameKinds h, ?_⟩
    intro r r' hr hr'
    cases ((applyAll_of_sameKinds h).2 hr).symm.trans hr'
    exact ⟨rfl, fun _ _ => rfl, rfl, rfl⟩

/-- A query for notes of 2023 and then of 2024, with the selection in between. -/
theorem applyAll_by_kind_years :
    let search : Search := ⟨["year"], fun _ => ⟨["2024.md"], none⟩, fun _ => .ok [("year", "2024")]⟩
    let facet : Facet := ⟨some ["kind"], fun _ _ => .ok [(.text "kind", .text "note")]⟩
    let q : Query := ⟨search, some facet, none, 8, [], [], none⟩
    let steps : List Step := [.scan [("year", .text "2023")], .select [.text "params.year"],
      .filter [("kind", .text "note")], .scan [("year", .text "2024")]]
    let steps' : List Step := [.filter [("kind", .text "note")], .scan [("year", .text "2023")],
      .scan [("year", .text "2024")], .select [.text "params.year"]]
    let r : Query := ⟨search, some facet, none, 8, [("year", .text "2024")],
      [("kind", .text "note")], some (.paths ["params.year"])⟩
    let maps : List (Assoc String Value) := [[("year", .text "2023")], [("year", .text "2024")]]
    ((∀ arguments ∈ selects steps, ∃ r, q.select arguments = .ok r) ∧ SameKinds steps steps') ∧
      q.applyAll steps = .ok r ∧ q.applyAll (condensed steps) = .ok r ∧ q.applyAll steps' = .ok r ∧
      maps ≠ [] ∧ q.applyAll (maps.map .scan) = q.scan [("year", .text "2024")] := by
  intro search facet q steps steps' r maps
  have hselect : q.check (.select [.text "params.year"]) = .ok () :=
    eq_ok_of_toOption (by decide +kernel)
  have hselects : ∀ arguments ∈ selects steps, ∃ r, q.select arguments = .ok r := by
    intro arguments ha
    cases List.mem_singleton.1 (ha : arguments ∈ [[Value.text "params.year"]])
    exact select_eq_ok_iff.2 hselect
  have hkinds : SameKinds steps steps' := ⟨rfl, rfl, rfl⟩
  have hr : q.applyAll steps = .ok r := by
    refine applyAll_eq_ok_iff.2 ⟨?_, rfl⟩
    intro step hstep
    simp only [steps, List.mem_cons, List.not_mem_nil, or_false] at hstep
    rcases hstep with rfl | rfl | rfl | rfl
    · rfl
    · exact hselect
    · rfl
    · rfl
  obtain ⟨-, hcondensed, hone, hreordered⟩ := applyAll_by_kind q steps
  have hmaps : maps ≠ [] := by decide
  exact ⟨⟨hselects, hkinds⟩, hr, (hcondensed hselects r).2 hr,
    ((hreordered steps' hkinds).1 r).2 hr, hmaps, (hone maps hmaps).1⟩

end Winnow.Query
