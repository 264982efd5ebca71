import Winnow.Proofs.Query.Requests
import Winnow.Query.Execution

/-!
# Narrow requests lose nothing

A query asks resolvers only for what its selection and its filters look at, reads metadata once for
both, and leaves it out of a row in which it is not selected. None of this can be seen from outside:
the rows are those of a query that reads every item completely (`exec_eq_naive`).
-/

namespace Winnow

/-! ## Outcomes of logged computations -/

namespace Logged

variable {α β : Type}

@[simp] theorem outcome_bind (x : Logged α) (f : α → Logged β) :
    (x >>= f).outcome = x.outcome >>= fun a => (f a).outcome := by
  obtain ⟨calls, outcome⟩ := x
  cases outcome <;> rfl

@[simp] theorem outcome_silent (r : Except Error α) : (silent r).outcome = r := rfl

@[simp] theorem outcome_call (c : Call) (r : Except Error α) : (call c r).outcome = r := rfl

theorem outcome_each (f : α → Logged β) (xs : List α) :
    (each f xs).outcome = xs.mapM fun a => (f a).outcome := by
  induction xs with
  | nil => rfl
  | cons x xs ih =>
      rw [each, outcome_bind, List.mapM_cons]
      simp only [outcome_bind, ih]
      rfl

/-- Computations that all come through, one per element. -/
theorem outcome_each_ok {f : α → Logged β} {g : α → β} {xs : List α}
    (h : ∀ x ∈ xs, (f x).outcome = .ok (g x)) : (each f xs).outcome = .ok (xs.map g) := by
  rw [outcome_each, mapM_eq_ok_map h]

end Logged

namespace Query

/-- Whether complete metadata has every filtered field with a strictly equal value. -/
def keeps (q : Query) (facts : Record) : Bool :=
  q.filtered.all fun e => (facts.field? e.1).any (strictEq e.2)

/-- The complete row of namespaces of an item, as far as a selection mentions them. -/
def completeRow (s : Selection) (params : Assoc String String) (facts body : Record) : ResultRow where
  params := if s.spaces.contains "params" then some (params.map fun e => (.text e.1, .text e.2))
    else none
  facts := if s.spaces.contains "meta" then some facts else none
  body := if s.spaces.contains "body" then some body else none

/-- Resolving a facet for a plan: what comes back cannot be told from the complete record, neither
by the keys of a filter nor by a path of the selection. Without a resolver nothing looks at the
facet. -/
theorem exists_resolved (space : FacetName) {facet : Option Facet} {keys : List String}
    {s : Selection} {request : Request} {ids : List String} {complete : String → Record}
    (hsuits : Suits s.allPaths keys space.text request)
    (hkeys : keys ≠ [] → facet.isSome = true)
    (hused : ∀ path ∈ s.allPaths, Path.space path = space.text → facet.isSome = true)
    (hserves : ∀ f, facet = some f → f.Serves ids complete)
    (hdeclared : ∀ f declared, facet = some f → f.fields = some declared → keys ⊆ declared ∧
      ∀ path ∈ s.allPaths, ∀ field, Path.Names path space.text (some field) → field ∈ declared)
    (hnames : ∀ path ∈ s.allPaths, ∃ field?, Path.Names path (Path.space path) field?) :
    ∃ known : String → Record, ∀ id ∈ ids,
      (resolve space facet id request).outcome = .ok (known id) ∧
      (∀ k ∈ keys, (known id).field? k = (complete id).field? k) ∧
      ∀ path ∈ s.allPaths, Path.space path = space.text →
        Sees space.text (known id) (complete id) path := by
  cases facet with
  | none =>
      -- No key and no path can have asked for the facet, since both are refused without a resolver.
      refine ⟨fun _ => [], fun id _ => ⟨rfl, fun k hk => ?_, fun path hpath hspace => ?_⟩⟩
      · have := hkeys (List.ne_nil_of_mem hk)
        cases this
      · have := hused path hpath hspace
        cases this
  | some f =>
      have hnarrowed := fun id (hid : id ∈ ids) => exists_narrowed (hserves f rfl) hsuits
        (fun declared hf => (hdeclared f declared rfl hf).1)
        (fun declared hf => (hdeclared f declared rfl hf).2)
        (fun path hpath hspace => hspace ▸ hnames path hpath) hid
      choose! known hknown using hnarrowed
      exact ⟨known, hknown⟩

section Resolved

variable {q : Query} {s : Selection} {filters : Assoc String Value} {plan : Plan}
  {ids : List String}

theorem exists_facts {facts : String → Record} (hq : q.Sound) (hs : q.selected = some s)
    (hplan : Planned s q.filtered plan) (hserves : ∀ f, q.facts = some f → f.Serves ids facts) :
    ∃ known : String → Record, ∀ id ∈ ids, (q.resolveFacts plan id).outcome = .ok (known id) ∧
      (∀ k ∈ q.filtered.keys, (known id).field? k = (facts id).field? k) ∧
      ∀ path ∈ s.allPaths, Path.space path = "meta" → Sees "meta" (known id) (facts id) path := by
  apply exists_resolved .facts hplan.metaRequest
  · intro hkeys
    apply hq.resolver
    intro hnone
    rw [hnone] at hkeys
    exact hkeys rfl
  · intro path hpath hspace
    have hresolver := hq.hasResolver_eq hs hpath
    rwa [hspace] at hresolver
  · exact hserves
  · intro f declared hf hfields
    refine ⟨hq.declared f declared hf hfields, fun path hpath field hnames => ?_⟩
    apply hq.field_mem hs hpath hnames
    show q.facts.bind Facet.fields = some declared
    rw [hf]
    exact hfields
  · exact hq.exists_names hs

theorem exists_body {body : String → Record} (hq : q.Sound) (hs : q.selected = some s)
    (hplan : Planned s filters plan) (hserves : ∀ f, q.body = some f → f.Serves ids body) :
    ∃ known : String → Record, ∀ id ∈ ids,
      (resolve .body q.body id plan.bodyRequest).outcome = .ok (known id) ∧
      ∀ path ∈ s.allPaths, Path.space path = "body" → Sees "body" (known id) (body id) path := by
  have hresolved : ∃ known : String → Record, ∀ id ∈ ids,
      (resolve .body q.body id plan.bodyRequest).outcome = .ok (known id) ∧
      (∀ k ∈ [], (known id).field? k = (body id).field? k) ∧
      ∀ path ∈ s.allPaths, Path.space path = "body" → Sees "body" (known id) (body id) path := by
    apply exists_resolved .body hplan.bodyRequest
    · intro hkeys
      exact absurd rfl hkeys
    · intro path hpath hspace
      have hresolver := hq.hasResolver_eq hs hpath
      rwa [hspace] at hresolver
    · exact hserves
    · intro f declared hf hfields
      refine ⟨List.nil_subset _, fun path hpath field hnames => ?_⟩
      apply hq.field_mem hs hpath hnames
      show q.body.bind Facet.fields = some declared
      rw [hf]
      exact hfields
    · exact hq.exists_names hs
  obtain ⟨known, hknown⟩ := hresolved
  exact ⟨known, fun id hid => ⟨(hknown id hid).1, (hknown id hid).2.2⟩⟩

end Resolved

/-! ## Rows -/

theorem accepts_eq_keeps {q : Query} {plan : Plan} {known complete : Record}
    (hplan : plan.filters = q.filtered)
    (h : ∀ k ∈ q.filtered.keys, known.field? k = complete.field? k) :
    plan.accepts known = q.keeps complete := by
  rw [Plan.accepts, keeps, hplan, Bool.eq_iff_iff, List.all_eq_true, List.all_eq_true]
  apply forall₂_congr
  rintro ⟨k, expected⟩ he
  dsimp only
  rw [h k (List.mem_map.2 ⟨_, he, rfl⟩)]
  cases complete.field? k <;> exact Iff.rfl

/-- The filter phase keeps what the filter accepts, and what it remembers of an item is what
resolving the item gives. -/
theorem outcome_survivors {q : Query} {plan : Plan} {ids : List String} {known : String → Record}
    (h : ∀ id ∈ ids, (q.resolveFacts plan id).outcome = .ok (known id)) :
    ∃ cache, (q.survivors plan ids).outcome =
        .ok (ids.filter fun id => plan.accepts (known id), cache) ∧
      ∀ id r, Assoc.get? id cache = some r → r = known id := by
  unfold survivors
  by_cases hfilter : plan.hasFilter = true
  · rw [if_pos hfilter]
    -- An item that is listed twice is resolved twice, with the same result.
    have hzip : ids.zip (ids.map known) = ids.map fun id => (id, known id) := by
      have hmap : (ids.map id).zip (ids.map known) = ids.map fun id => (id, known id) :=
        List.zip_map'
      rwa [List.map_id] at hmap
    refine ⟨Assoc.ofList ((ids.zip (ids.map known)).filter fun e => plan.accepts e.2), ?_, ?_⟩
    · rw [Logged.outcome_bind, Logged.outcome_each_ok h]
      show Except.ok (_, _) = _
      rw [hzip, List.filter_map, List.map_map]
      exact congrArg Except.ok (congrArg (·, _) (List.map_id _))
    · intro id r hr
      have hmem := List.mem_of_mem_filter (Assoc.mem_of_get?_ofList hr)
      rw [hzip] at hmem
      obtain ⟨id', -, hid⟩ := List.mem_map.1 hmem
      cases hid
      rfl
  · rw [if_neg hfilter]
    have hnone : plan.filters = [] := by
      rw [Plan.hasFilter, Bool.not_eq_true, Bool.not_eq_false', List.isEmpty_iff] at hfilter
      exact hfilter
    refine ⟨[], ?_, by rintro id r ⟨⟩⟩
    have hall : ∀ id ∈ ids, plan.accepts (known id) = true := by
      intro id _
      rw [Plan.accepts, hnone]
      rfl
    rw [List.filter_eq_self.2 hall]
    rfl

theorem outcome_onlyIf {needed : Bool} {x : Logged Record} {r : Record} (h : x.outcome = .ok r) :
    (onlyIf needed x).outcome = .ok (if needed then some r else none) := by
  cases needed with
  | false => rfl
  | true =>
      rw [onlyIf, if_pos rfl, Logged.outcome_bind, h]
      rfl

/-- The row of an item whose facets all come through. -/
theorem outcome_buildRow {q : Query} {s : Selection} {filters : Assoc String Value} {plan : Plan}
    {id : String} {remembered : Option Record} {params : Assoc String String} {facts body : Record}
    (hplan : Planned s filters plan) (hparams : q.search.extract id = .ok params)
    (hfacts : (q.resolveFacts plan id).outcome = .ok facts)
    (hremembered : ∀ r, remembered = some r → r = facts)
    (hbody : (resolve .body q.body id plan.bodyRequest).outcome = .ok body) :
    (q.buildRow plan id remembered).outcome = .ok (completeRow s params facts body) := by
  have hread : (q.resolveParams id).outcome =
      .ok (params.map fun e => (Value.text e.1, Value.text e.2)) := by
    rw [resolveParams, Logged.outcome_call, hparams]
    rfl
  rw [completeRow, ← hplan.params, ← hplan.facts, ← hplan.body]
  unfold buildRow
  cases remembered with
  | none =>
      simp only [Logged.outcome_bind, outcome_onlyIf hread, outcome_onlyIf hfacts,
        outcome_onlyIf hbody]
      rfl
  | some r =>
      have hknown : (Logged.pure r).outcome = .ok facts := by
        rw [hremembered r rfl]
        rfl
      simp only [Logged.outcome_bind, outcome_onlyIf hread, outcome_onlyIf hknown,
        outcome_onlyIf hbody]
      rfl

theorem agrees_of_sees {row row' fields fields' : Record} {path space : String}
    (h : row.field? space = some (.map fields)) (h' : row'.field? space = some (.map fields'))
    (hsees : Sees space fields fields' path) : Path.Agrees row row' path := by
  rw [Path.Agrees]
  rcases hsees with ⟨hnames, rfl⟩ | ⟨f, hnames, hfield⟩
  · cases hnames with
    | wildcard hpath hwild hdot hsegments =>
        rw [hwild]
        exact ⟨hdot, h.trans h'.symm⟩
  · cases hnames with
    | field hwild hsegments =>
        rw [hwild]
        exact Path.read_congr_field hsegments h h' hfield

theorem agrees_of_field?_eq {row row' : Record} {path space : String} {field? : Option String}
    (hnames : Path.Names path space field?) (h : row.field? space = row'.field? space) :
    Path.Agrees row row' path := by
  rw [Path.Agrees]
  cases hnames with
  | wildcard hpath hwild hdot hsegments =>
      rw [hwild]
      exact ⟨hdot, h⟩
  | field hwild hsegments =>
      rw [hwild]
      exact Path.read_congr hsegments h

/-- Facets that the paths of a selection cannot tell apart give the same flat row. -/
theorem flatten_completeRow {s : Selection} {params : Assoc String String}
    {facts facts' body body' : Record}
    (hnames : ∀ path ∈ s.allPaths, ∃ field?, Path.Names path (Path.space path) field?)
    (hspaces : ∀ path ∈ s.allPaths, Path.space path ∈ spaceNames)
    (hfacts : ∀ path ∈ s.allPaths, Path.space path = "meta" → Sees "meta" facts facts' path)
    (hbody : ∀ path ∈ s.allPaths, Path.space path = "body" → Sees "body" body body' path) :
    s.flatten (completeRow s params facts body).spaces =
      s.flatten (completeRow s params facts' body').spaces := by
  refine Selection.flatten_congr fun path hpath => ?_
  obtain ⟨field?, hpathnames⟩ := hnames path hpath
  have hused : s.spaces.contains (Path.space path) = true := by
    rw [List.contains_iff_mem, Selection.spaces, List.mem_eraseDups]
    exact List.mem_map.2 ⟨path, hpath, rfl⟩
  have hspace := hspaces path hpath
  simp only [spaceNames, List.mem_cons, List.not_mem_nil, or_false] at hspace
  rcases hspace with hspace | hspace | hspace <;> rw [hspace] at hused hpathnames
  · refine agrees_of_field?_eq hpathnames ?_
    rw [ResultRow.field?_params, ResultRow.field?_params]
    rfl
  · refine agrees_of_sees ?_ ?_ (hfacts path hpath hspace)
    all_goals
      rw [ResultRow.field?_meta, completeRow]
      simp only [hused, if_true]
      rfl
  · refine agrees_of_sees ?_ ?_ (hbody path hpath hspace)
    all_goals
      rw [ResultRow.field?_body, completeRow]
      simp only [hused, if_true]
      rfl

/-- **A query gives the rows of the query that reads everything.** The items are those whose
complete metadata passes the filter, in the order of the listing; the row of an item is the flat
form of its complete facets. -/
theorem exec_eq_naive {q : Query} (hq : q.Built) {s : Selection} (hs : q.selected = some s)
    {ids : List String} (hids : (q.search.listing q.scanned).all = .ok ids)
    {params : String → Assoc String String} {facts body : String → Record}
    (hparams : ∀ id ∈ ids, q.search.extract id = .ok (params id))
    (hfacts : ∀ f, q.facts = some f → f.Serves ids facts)
    (hbody : ∀ f, q.body = some f → f.Serves ids body) :
    q.exec.outcome = (ids.filter fun id => q.keeps (facts id)).mapM fun id =>
      s.flatten (completeRow s (params id) (facts id) (body id)).spaces := by
  have hsound := sound_of_built hq
  obtain ⟨plan, hplan, hplanned⟩ := exists_planned q.filtered (hsound.exists_names hs)
  -- Metadata and bodies that come back under the planned requests pass for the complete ones.
  obtain ⟨knownFacts, hknownFacts⟩ := exists_facts hsound hs hplanned hfacts
  obtain ⟨knownBody, hknownBody⟩ := exists_body hsound hs hplanned hbody
  obtain ⟨cache, hcache, hremembered⟩ :=
    outcome_survivors fun id hid => (hknownFacts id hid).1
  have hkept : (ids.filter fun id => plan.accepts (knownFacts id)) =
      ids.filter fun id => q.keeps (facts id) :=
    List.filter_congr fun id hid => accepts_eq_keeps hplanned.filtered (hknownFacts id hid).2.1
  have hrows : ∀ id ∈ ids.filter fun id => q.keeps (facts id),
      (q.buildRow plan id (Assoc.get? id cache)).outcome =
        .ok (completeRow s (params id) (knownFacts id) (knownBody id)) := by
    intro id hid
    have hid := List.mem_of_mem_filter hid
    exact outcome_buildRow hplanned (hparams id hid) (hknownFacts id hid).1
      (fun r hr => hremembered id r hr) (hknownBody id hid).1
  have hflat : ∀ id ∈ ids.filter fun id => q.keeps (facts id),
      s.flatten (completeRow s (params id) (knownFacts id) (knownBody id)).spaces =
        s.flatten (completeRow s (params id) (facts id) (body id)).spaces := by
    intro id hid
    have hid := List.mem_of_mem_filter hid
    exact flatten_completeRow (hsound.exists_names hs) (hsound.space_mem hs)
      (hknownFacts id hid).2.2 (hknownBody id hid).2
  have hstart : q.plan = .ok plan := by
    rw [Query.plan, hs]
    exact hplan
  calc q.exec.outcome
      = ((ids.filter fun id => q.keeps (facts id)).map fun id =>
          completeRow s (params id) (knownFacts id) (knownBody id)).mapM fun row =>
            s.flatten row.spaces := by
        unfold exec
        rw [Logged.outcome_bind, Logged.outcome_silent, hstart]
        show Logged.outcome _ = _
        rw [Logged.outcome_bind, Logged.outcome_silent, hids]
        show Logged.outcome _ = _
        rw [Logged.outcome_bind, hcache, hkept]
        show Logged.outcome _ = _
        rw [Logged.outcome_bind, Logged.outcome_each_ok hrows, hplanned.selection]
        rfl
    _ = _ := by
        rw [List.mapM_map]
        exact mapM_congr hflat

/-- Two notes out of three entries, of which one is listed twice; the kind that they are filtered by
is read with their titles and not put out. -/
theorem exec_eq_naive_notes :
    let search : Search := ⟨["x"], fun _ => ⟨["a", "b", "a"], none⟩, fun id => .ok [("x", id)]⟩
    let notes : Assoc String Record :=
      [("a", [(.text "kind", .text "note"), (.text "title", .text "One"), (.text "size", .int 3)]),
        ("b", [(.text "kind", .text "list"), (.text "title", .text "Two")])]
    let facet := memoryFacet notes (some ["kind", "title", "size"]) []
    ∃ q, (Query.new search (some facet) none .null >>= (·.filter [("kind", .text "note")]) >>=
        (·.select [.text "params.*", .text "meta.title"])) = .ok q ∧
      q.exec.outcome.toOption.map (·.map (·.map fun e => (e.1, e.2.plain))) =
        some [[("x", "a"), ("title", "One")], [("x", "a"), ("title", "One")]] := by
  intro search notes facet
  let q₁ : Query := ⟨search, some facet, none, 8, [], [], none⟩
  let q₂ : Query := { q₁ with filtered := [("kind", .text "note")] }
  let q₃ : Query := { q₂ with selected := some (.paths ["params.*", "meta.title"]) }
  have hnew : Query.new search (some facet) none .null = .ok q₁ := rfl
  have hfilter : q₁.filter [("kind", .text "note")] = .ok q₂ := rfl
  have hselect : q₂.select [.text "params.*", .text "meta.title"] = .ok q₃ := by
    have hcheck : q₂.checkSelection (.paths ["params.*", "meta.title"]) = .ok () :=
      eq_ok_of_toOption (by decide +kernel)
    exact bind_eq_ok.2 ⟨_, rfl, bind_eq_ok.2 ⟨(), hcheck, rfl⟩⟩
  have hbuilt : q₃.Built := .select (.filter (.new hnew) hfilter) hselect
  have hserves : ∀ f, q₃.facts = some f →
      f.Serves ["a", "b", "a"] fun id => ((notes.get? id).getD []).answer facet.fields none := by
    rintro f ⟨⟩
    exact memoryFacet_serves (by simp)
  have hbody : ∀ f, q₃.body = some f → f.Serves ["a", "b", "a"] fun _ => [] := by
    rintro f ⟨⟩
  have hparams : ∀ id ∈ ["a", "b", "a"], q₃.search.extract id = .ok [("x", id)] :=
    fun _ _ => rfl
  refine ⟨q₃, ?_, ?_⟩
  · rw [hnew]
    exact bind_eq_ok.2 ⟨q₂, hfilter, hselect⟩
  · rw [exec_eq_naive hbuilt rfl rfl hparams hserves hbody]
    decide +kernel

end Query

end Winnow
