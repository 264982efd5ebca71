import Winnow.Proofs.Query.Slots

/-!
# What a run costs

Items are narrowed down before anything dear is done with them: parameters and bodies are only read
of items whose metadata passes the filter, and nothing is read twice. A run as a whole works phase
by phase and remembers metadata from one phase to the next; a stream and a run for the first rows
work item by item. None of this can be seen in the rows, so it is stated of the calls that a run
makes (`Query.RunLog`), whatever the number of workers, the order in which items become ready, and
the point at which a run ends: all of them keep the same discipline (`Query.Disciplined`), and with
the same calls if they come through.
-/

namespace Winnow

/-! ## Calls of logged computations -/

namespace Logged

variable {α β : Type} {x : Logged α} {f : α → Logged β}

theorem calls_bind_of_ok {a : α} (h : x.outcome = .ok a) :
    (x >>= f).calls = x.calls ++ (f a).calls := by
  obtain ⟨calls, outcome⟩ := x
  cases h
  rfl

theorem calls_bind_of_error {e : Error} (h : x.outcome = .error e) : (x >>= f).calls = x.calls := by
  obtain ⟨calls, outcome⟩ := x
  cases h
  rfl

theorem calls_bind_silent (x : Logged α) (g : α → Except Error β) :
    (x >>= fun a => silent (g a)).calls = x.calls := by
  cases h : x.outcome with
  | error e => exact calls_bind_of_error h
  | ok a => exact (calls_bind_of_ok h).trans (List.append_nil _)

theorem calls_bind_pure (x : Logged α) (g : α → β) :
    (x >>= fun a => (Pure.pure (g a) : Logged β)).calls = x.calls :=
  calls_bind_silent x fun a => .ok (g a)

theorem silent_ok_bind (a : α) (f : α → Logged β) : (silent (.ok a) >>= f) = f a := rfl

theorem calls_bind_sublist {l l' : List Call} (hx : x.calls.Sublist l)
    (hf : ∀ a, x.outcome = .ok a → (f a).calls.Sublist l') : (x >>= f).calls.Sublist (l ++ l') := by
  cases h : x.outcome with
  | error e =>
      rw [calls_bind_of_error h]
      exact hx.trans (List.sublist_append_left l l')
  | ok a =>
      rw [calls_bind_of_ok h]
      exact hx.append (hf a h)

/-- The elements behind the first one whose computation fails. -/
def behind (f : α → Logged β) : List α → List α
  | [] => []
  | a :: rest =>
    match (f a).outcome with
    | .error _ => rest
    | .ok _ => behind f rest

/-- One after the other, computations are made up to the first failure. -/
theorem exists_tried (f : α → Logged β) (xs : List α) :
    ∃ tried, tried ++ behind f xs = xs ∧
      (each f xs).calls = tried.flatMap fun x => (f x).calls := by
  induction xs with
  | nil => exact ⟨[], rfl, rfl⟩
  | cons x xs ih =>
      rw [behind, each]
      cases h : (f x).outcome with
      | error e => exact ⟨[x], rfl, by rw [calls_bind_of_error h]; simp⟩
      | ok b =>
          obtain ⟨tried, hsplit, hcalls⟩ := ih
          refine ⟨x :: tried, congrArg (x :: ·) hsplit, ?_⟩
          rw [calls_bind_of_ok h, List.flatMap_cons, ← hcalls, calls_bind_pure]

theorem behind_eq_nil {bs : List β} {xs : List α} (h : (each f xs).outcome = .ok bs) :
    behind f xs = [] := by
  have hall : ∀ x ∈ xs, ∃ b, (f x).outcome = .ok b := by
    rw [outcome_each] at h
    exact exists_mapM_eq_ok_iff.1 ⟨bs, h⟩
  clear h
  induction xs with
  | nil => rfl
  | cons x xs ih =>
      obtain ⟨⟨b, hb⟩, hxs⟩ := List.forall_mem_cons.1 hall
      rw [behind, hb]
      exact ih hxs

/-- The calls of one computation per element, shared among workers. A single worker goes from one
element to the next. Several workers get through more: when a computation fails, some behind it may
have begun, and these are brought to their end. -/
inductive Pooled (f : α → Logged β) (workers : Nat) (xs : List α) : List Call → Prop
  | alone (h : workers = 1 ∨ xs.length ≤ 1) : Pooled f workers xs (each f xs).calls
  | shared {begun : List α} {log : List Call} (h : ¬ (workers = 1 ∨ xs.length ≤ 1))
      (hbegun : begun.Sublist (behind f xs))
      (hlog : log.Perm ((each f xs).calls ++ begun.flatMap fun x => (f x).calls)) :
      Pooled f workers xs log

/-- **No element is worked on twice**, and all are if every computation comes through. -/
theorem Pooled.exists_begun {workers : Nat} {xs : List α} {log : List Call}
    (h : Pooled f workers xs log) :
    ∃ begun, begun.Sublist xs ∧ log.Perm (begun.flatMap fun x => (f x).calls) ∧
      ∀ bs, (each f xs).outcome = .ok bs → begun = xs := by
  obtain ⟨tried, hsplit, hcalls⟩ := exists_tried f xs
  have hall : ∀ bs, (each f xs).outcome = .ok bs → tried = xs := by
    intro bs hbs
    rw [← hsplit, behind_eq_nil hbs, List.append_nil]
  cases h with
  | alone => exact ⟨tried, hsplit ▸ List.sublist_append_left _ _, hcalls ▸ .refl _, hall⟩
  | @shared begun _ _ hbegun hlog =>
      refine ⟨tried ++ begun, ?_, ?_, fun bs hbs => ?_⟩
      · exact hsplit ▸ (List.Sublist.refl tried).append hbegun
      · rwa [List.flatMap_append, ← hcalls]
      · rw [behind_eq_nil hbs] at hbegun
        rw [List.sublist_nil.1 hbegun, List.append_nil, hall bs hbs]

/-- To go from one element to the next is one way to share the work. -/
theorem pooled_each (f : α → Logged β) (workers : Nat) (xs : List α) :
    Pooled f workers xs (each f xs).calls := by
  by_cases h : workers = 1 ∨ xs.length ≤ 1
  · exact .alone h
  · exact .shared h (List.nil_sublist _) (by simp)

end Logged

namespace Query

variable {q : Query} {s : Selection} {plan : Plan} {request : Request} {id : String}

/-! ## The discipline -/

/-- The request for metadata that a selection and the filters make: all of it if all is selected,
and otherwise the fields that are filtered by or selected, in increasing order. -/
def Requests (q : Query) (s : Selection) (request : Request) : Prop :=
  if Path.wildcard "meta" ∈ s.allPaths then request = none
  else ∃ fields, request = some fields ∧ fields.Pairwise (· < ·) ∧
    ∀ f, f ∈ fields ↔ f ∈ q.filtered.keys ∨
      ∃ path ∈ s.allPaths, ∃ rest, Path.segments path = "meta" :: f :: rest

/-- The metadata of an item passes the filter, if there is one. -/
def Passes (q : Query) (request : Request) (id : String) : Prop :=
  q.filtered ≠ [] →
    ∃ f facts, q.facts = some f ∧ f.resolve id request = .ok facts ∧ q.keeps facts = true

/-- What a call is made for. -/
def Allowed (q : Query) (s : Selection) (request : Request) (c : Call) : Prop :=
  match c.facet with
  | .facts => (q.filtered ≠ [] ∨ "meta" ∈ s.spaces) ∧ c.request = request
  | .params => "params" ∈ s.spaces ∧ q.Passes request c.id
  | .body => "body" ∈ s.spaces ∧ q.Passes request c.id

/-- Each call is made for something, and as often as an item is listed, each of its facets is
resolved at most once. -/
structure Disciplined (q : Query) (s : Selection) (request : Request) (enumerated : List String)
    (log : List Call) : Prop where
  allowed : ∀ c ∈ log, q.Allowed s request c
  once : ∀ facet id,
    log.countP (fun c => c.facet = facet ∧ c.id = id) ≤ enumerated.count id

/-! ## The calls of an item -/

/-- Calls for one item, each of a different facet. -/
def OnceFor (id : String) (log : List Call) : Prop :=
  (log.map Call.facet).Nodup ∧ ∀ c ∈ log, c.id = id

theorem OnceFor.sublist {log log' : List Call} (h : OnceFor id log') (hsub : log.Sublist log') :
    OnceFor id log :=
  ⟨h.1.sublist (hsub.map _), fun c hc => h.2 c (hsub.subset hc)⟩

theorem OnceFor.countP_le {log : List Call} (h : OnceFor id log) (facet : FacetName)
    (other : String) :
    log.countP (fun c => c.facet = facet ∧ c.id = other) ≤ if id = other then 1 else 0 := by
  split
  next hid =>
      refine Nat.le_trans ?_ (List.nodup_iff_count_le_one.1 h.1 facet)
      rw [List.count, List.countP_map]
      refine List.countP_mono_left fun c _ hc => ?_
      simp only [decide_eq_true_eq] at hc
      simpa using hc.1
  next hid =>
      refine Nat.le_of_eq (List.countP_eq_zero.2 fun c hc hcall => ?_)
      simp only [decide_eq_true_eq] at hcall
      exact hid ((h.2 c hc).symm.trans hcall.2)

/-- Items that cost one call of a facet at most. -/
theorem countP_flatMap_le {calls : String → List Call} {ids : List String}
    (h : ∀ id ∈ ids, OnceFor id (calls id)) (facet : FacetName) (id : String) :
    (ids.flatMap calls).countP (fun c => c.facet = facet ∧ c.id = id) ≤ ids.count id := by
  induction ids with
  | nil => simp
  | cons other ids ih =>
      obtain ⟨hother, hids⟩ := List.forall_mem_cons.1 h
      rw [List.flatMap_cons, List.countP_append, List.count_cons]
      have hfirst := hother.countP_le facet id
      have hrest := ih hids
      simp only [beq_iff_eq]
      omega

/-- The calls of a row, of which metadata that is known already costs none. -/
def rowCosts (plan : Plan) (id : String) (known : Bool) : List Call :=
  (if plan.needsParams then [⟨.params, id, none⟩] else []) ++
    ((if plan.needsMeta && !known then [⟨.facts, id, plan.metaRequest⟩] else []) ++
      if plan.needsBody then [⟨.body, id, plan.bodyRequest⟩] else [])

theorem onceFor_rowCosts (plan : Plan) (id : String) (known : Bool) :
    OnceFor id (rowCosts plan id known) := by
  rw [rowCosts]
  constructor
  · cases plan.needsParams <;> cases plan.needsMeta && !known <;> cases plan.needsBody <;> simp
  · intro c hc
    simp only [List.mem_append, List.mem_ite_nil_right, List.mem_singleton] at hc
    rcases hc with ⟨-, rfl⟩ | ⟨-, rfl⟩ | ⟨-, rfl⟩ <;> rfl

theorem calls_resolve_sublist (name : FacetName) (facet : Option Facet) (id : String)
    (request : Request) : (resolve name facet id request).calls.Sublist [⟨name, id, request⟩] := by
  cases facet with
  | none => exact List.nil_sublist _
  | some f => exact .refl _

theorem calls_onlyIf_sublist {needed : Bool} {x : Logged Record} {l : List Call}
    (h : needed = true → x.calls.Sublist l) :
    (onlyIf needed x).calls.Sublist (if needed then l else []) := by
  cases needed with
  | false => exact List.nil_sublist _
  | true =>
      rw [onlyIf, if_pos rfl, if_pos rfl, ← List.append_nil l]
      exact Logged.calls_bind_sublist (h rfl) fun _ _ => .refl _

theorem calls_buildRow_sublist (q : Query) (plan : Plan) (id : String) (known : Option Record) :
    (q.buildRow plan id known).calls.Sublist (rowCosts plan id known.isSome) := by
  unfold buildRow
  rw [rowCosts]
  refine Logged.calls_bind_sublist (calls_onlyIf_sublist fun _ => .refl _) fun _ _ => ?_
  refine Logged.calls_bind_sublist ?_ fun _ _ => ?_
  · cases known with
    | none =>
        rw [Option.isSome_none, Bool.not_false, Bool.and_true]
        exact calls_onlyIf_sublist fun _ => calls_resolve_sublist ..
    | some facts => cases plan.needsMeta <;> exact .refl _
  · rw [← List.append_nil (if plan.needsBody then _ else _)]
    exact Logged.calls_bind_sublist (calls_onlyIf_sublist fun _ => calls_resolve_sublist ..)
      fun _ _ => .refl _

section Alone

variable {facts : Record}

/-- Flattening a row costs nothing. -/
theorem calls_flattened (q : Query) (plan : Plan) (id : String) (known : Option Record) :
    (do
      let row ← q.buildRow plan id known
      return some (← Logged.silent (plan.selection.flatten row.spaces)) : Logged _).calls =
        (q.buildRow plan id known).calls := by
  cases h : (q.buildRow plan id known).outcome with
  | error e => exact Logged.calls_bind_of_error h
  | ok row =>
      rw [Logged.calls_bind_of_ok h, Logged.calls_bind_pure]
      exact List.append_nil _

theorem calls_resolveOne_of_error {e : Error} (hfilter : plan.hasFilter = true)
    (hfacts : (q.resolveFacts plan id).outcome = .error e) :
    (q.resolveOne plan id).calls = (q.resolveFacts plan id).calls := by
  unfold resolveOne
  rw [if_pos hfilter, Logged.calls_bind_of_error hfacts]

theorem calls_resolveOne_of_ok (hfilter : plan.hasFilter = true)
    (hfacts : (q.resolveFacts plan id).outcome = .ok facts) :
    (q.resolveOne plan id).calls = (q.resolveFacts plan id).calls ++
      if plan.accepts facts then (q.buildRow plan id (some facts)).calls else [] := by
  unfold resolveOne
  rw [if_pos hfilter, Logged.calls_bind_of_ok hfacts]
  refine congrArg _ ?_
  split
  · exact calls_flattened q plan id (some facts)
  · rfl

theorem calls_resolveOne_unfiltered (hfilter : ¬ plan.hasFilter = true) :
    (q.resolveOne plan id).calls = (q.buildRow plan id none).calls := by
  unfold resolveOne
  rw [if_neg hfilter, calls_flattened]

end Alone

/-- Metadata that is known already is not read again. -/
theorem facet_ne_facts {c : Call} (hc : c ∈ rowCosts plan id true) : c.facet ≠ .facts := by
  simp only [rowCosts, Bool.not_true, Bool.and_false, List.mem_append, List.mem_ite_nil_right,
    List.mem_singleton, Bool.false_eq_true, false_and, false_or] at hc
  rcases hc with ⟨-, rfl⟩ | ⟨-, rfl⟩ <;> simp

theorem onceFor_filtered (plan : Plan) (id : String) :
    OnceFor id (⟨.facts, id, plan.metaRequest⟩ :: rowCosts plan id true) := by
  obtain ⟨hnodup, hid⟩ := onceFor_rowCosts plan id true
  refine ⟨?_, List.forall_mem_cons.2 ⟨rfl, hid⟩⟩
  rw [List.map_cons, List.nodup_cons]
  refine ⟨fun hmem => ?_, hnodup⟩
  obtain ⟨c, hc, hfacet⟩ := List.mem_map.1 hmem
  exact facet_ne_facts hc hfacet

section Items

variable (hplan : Planned s q.filtered plan)
include hplan

theorem hasFilter_iff : plan.hasFilter = true ↔ q.filtered ≠ [] := by
  rw [Plan.hasFilter, hplan.filtered]
  simp

theorem passes_of_accepts (hq : q.Sound) {facts : Record}
    (hfacts : (q.resolveFacts plan id).outcome = .ok facts) (haccepts : plan.accepts facts = true) :
    q.Passes plan.metaRequest id := by
  intro hfilter
  obtain ⟨f, hf⟩ := Option.isSome_iff_exists.1 (hq.resolver hfilter)
  rw [resolveFacts, hf] at hfacts
  refine ⟨f, facts, hf, hfacts, ?_⟩
  rwa [accepts_eq_keeps hplan.filtered fun _ _ => rfl] at haccepts

theorem allowed_rowCosts (hpasses : q.Passes plan.metaRequest id) (known : Bool) :
    ∀ c ∈ rowCosts plan id known, q.Allowed s plan.metaRequest c := by
  intro c hc
  simp only [rowCosts, hplan.params, hplan.facts, hplan.body, List.mem_append,
    List.mem_ite_nil_right, List.mem_singleton, Bool.and_eq_true, List.contains_iff_mem] at hc
  rcases hc with ⟨hneeded, rfl⟩ | ⟨⟨hneeded, -⟩, rfl⟩ | ⟨hneeded, rfl⟩
  · exact ⟨hneeded, hpasses⟩
  · exact ⟨.inr hneeded, rfl⟩
  · exact ⟨hneeded, hpasses⟩

theorem allowed_facts (hfilter : plan.hasFilter = true) :
    q.Allowed s plan.metaRequest ⟨.facts, id, plan.metaRequest⟩ :=
  ⟨.inl ((hasFilter_iff hplan).1 hfilter), rfl⟩

/-- **The calls of an item that is worked on by itself.** -/
theorem calls_resolveOne (hq : q.Sound) (id : String) :
    OnceFor id (q.resolveOne plan id).calls ∧
      ∀ c ∈ (q.resolveOne plan id).calls, q.Allowed s plan.metaRequest c := by
  have hbuild := calls_buildRow_sublist q plan id
  by_cases hfilter : plan.hasFilter = true
  · have hread := calls_resolve_sublist .facts q.facts id plan.metaRequest
    have hsub : ∀ row : List Call, row.Sublist (rowCosts plan id true) →
        (∀ c ∈ row, q.Allowed s plan.metaRequest c) →
        OnceFor id ((q.resolveFacts plan id).calls ++ row) ∧
          ∀ c ∈ (q.resolveFacts plan id).calls ++ row, q.Allowed s plan.metaRequest c := by
      intro row hrow hallowed
      refine ⟨(onceFor_filtered plan id).sublist (hread.append hrow), fun c hc => ?_⟩
      rcases List.mem_append.1 hc with hc | hc
      · rw [List.mem_singleton.1 (hread.subset hc)]
        exact allowed_facts hplan hfilter
      · exact hallowed c hc
    cases hfacts : (q.resolveFacts plan id).outcome with
    | error e =>
        rw [calls_resolveOne_of_error hfilter hfacts, ← List.append_nil (resolveFacts _ _ _).calls]
        exact hsub [] (List.nil_sublist _) (by simp)
    | ok facts =>
        rw [calls_resolveOne_of_ok hfilter hfacts]
        split
        next haccepts =>
            have hpasses := passes_of_accepts hplan hq hfacts haccepts
            exact hsub _ (hbuild (some facts)) fun c hc =>
              allowed_rowCosts hplan hpasses true c ((hbuild (some facts)).subset hc)
        next => exact hsub [] (List.nil_sublist _) (by simp)
  · have hpasses : q.Passes plan.metaRequest id :=
      fun h => absurd ((hasFilter_iff hplan).2 h) hfilter
    rw [calls_resolveOne_unfiltered hfilter]
    exact ⟨(onceFor_rowCosts plan id false).sublist (hbuild none),
      fun c hc => allowed_rowCosts hplan hpasses false c ((hbuild none).subset hc)⟩

/-- Items that are worked on by themselves keep the discipline. -/
theorem disciplined_of_subperm (hq : q.Sound) {begun enumerated : List String} {log : List Call}
    (hbegun : begun.Sublist enumerated)
    (hlog : log.Subperm (begun.flatMap fun id => (q.resolveOne plan id).calls)) :
    q.Disciplined s plan.metaRequest enumerated log := by
  constructor
  · intro c hc
    obtain ⟨id, -, hc⟩ := List.mem_flatMap.1 (hlog.subset hc)
    exact (calls_resolveOne hplan hq id).2 c hc
  · intro facet id
    calc log.countP (fun c => c.facet = facet ∧ c.id = id)
        ≤ (begun.flatMap fun id => (q.resolveOne plan id).calls).countP
            (fun c => c.facet = facet ∧ c.id = id) := hlog.countP_le _
      _ ≤ begun.count id :=
          countP_flatMap_le (fun id _ => (calls_resolveOne hplan hq id).1) facet id
      _ ≤ enumerated.count id := hbegun.count_le id

end Items

/-! ## Runs as a whole -/

/-- The calls of the filter. -/
def FilterLog (q : Query) (plan : Plan) (ids : List String) (log : List Call) : Prop :=
  if plan.hasFilter then Logged.Pooled (q.resolveFacts plan) q.workers ids log else log = []

/-- The calls of a run as a whole, and the identifiers that it enumerated: first those of the
filter, and if this comes through, those of the rows of what is left. -/
inductive ExecLog (q : Query) : List String → List Call → Prop
  | refused {e : Error} (hplan : q.plan = .error e) : ExecLog q [] []
  | cut {plan : Plan} {e : Error} (hplan : q.plan = .ok plan)
      (hcut : (q.search.listing q.scanned).fault = some e) :
      ExecLog q (q.search.listing q.scanned).ids []
  | filtered {plan : Plan} {ids : List String} {log : List Call} {e : Error}
      (hplan : q.plan = .ok plan) (hids : (q.search.listing q.scanned).all = .ok ids)
      (hfilter : FilterLog q plan ids log) (hfails : (q.survivors plan ids).outcome = .error e) :
      ExecLog q ids log
  | built {plan : Plan} {ids kept : List String} {cache : Assoc String Record}
      {log log' : List Call} (hplan : q.plan = .ok plan)
      (hids : (q.search.listing q.scanned).all = .ok ids) (hfilter : FilterLog q plan ids log)
      (hkept : (q.survivors plan ids).outcome = .ok (kept, cache))
      (hrows : Logged.Pooled (fun id => q.buildRow plan id (cache.get? id)) q.workers kept log') :
      ExecLog q ids (log ++ log')

theorem calls_survivors (q : Query) (plan : Plan) (ids : List String) :
    (q.survivors plan ids).calls =
      if plan.hasFilter then (Logged.each (q.resolveFacts plan) ids).calls else [] := by
  unfold survivors
  split
  · exact Logged.calls_bind_pure _ _
  · rfl

theorem calls_exec {ids : List String} (hplan : q.plan = .ok plan)
    (hids : (q.search.listing q.scanned).all = .ok ids) : q.exec.calls =
      (q.survivors plan ids >>= fun kept =>
        Logged.each (fun id => q.buildRow plan id (kept.2.get? id)) kept.1).calls := by
  unfold exec
  rw [hplan, Logged.silent_ok_bind, hids, Logged.silent_ok_bind]
  cases hkept : (q.survivors plan ids).outcome with
  | error e => rw [Logged.calls_bind_of_error hkept, Logged.calls_bind_of_error hkept]
  | ok kept =>
      rw [Logged.calls_bind_of_ok hkept, Logged.calls_bind_of_ok hkept]
      exact congrArg _ (Logged.calls_bind_silent ..)

/-- The calls of the program are those of a run as a whole. -/
theorem exists_execLog (q : Query) : ∃ ids, q.ExecLog ids q.exec.calls := by
  cases hplan : q.plan with
  | error e =>
      have hcalls : q.exec.calls = [] := by
        unfold exec
        rw [hplan]
        rfl
      exact ⟨[], hcalls ▸ ExecLog.refused hplan⟩
  | ok plan =>
      cases hids : (q.search.listing q.scanned).all with
      | error e =>
          have hcalls : q.exec.calls = [] := by
            unfold exec
            rw [hplan, Logged.silent_ok_bind, hids]
            rfl
          rw [Listing.all] at hids
          split at hids
          next => cases hids
          next e' hcut => exact ⟨_, hcalls ▸ ExecLog.cut hplan hcut⟩
      | ok ids =>
          rw [calls_exec hplan hids]
          have hfilter : q.FilterLog plan ids (q.survivors plan ids).calls := by
            rw [FilterLog, calls_survivors]
            split
            · exact Logged.pooled_each ..
            · rfl
          cases hkept : (q.survivors plan ids).outcome with
          | error e =>
              rw [Logged.calls_bind_of_error hkept]
              exact ⟨ids, .filtered hplan hids hfilter hkept⟩
          | ok kept =>
              rw [Logged.calls_bind_of_ok hkept]
              exact ⟨ids, .built hplan hids hfilter hkept (Logged.pooled_each ..)⟩

theorem eq_of_all {listing : Listing} {ids : List String} (h : listing.all = .ok ids) :
    listing.fault = none ∧ listing.ids = ids := by
  rw [Listing.all] at h
  split at h
  next hnone => exact ⟨hnone, Except.ok.inj h⟩
  next => cases h

theorem prefix_of_execLog {ids : List String} {log : List Call} (h : q.ExecLog ids log) :
    ids <+: (q.search.listing q.scanned).ids := by
  cases h with
  | refused => exact List.nil_prefix
  | cut => exact List.prefix_refl _
  | filtered _ hids => exact (eq_of_all hids).2 ▸ List.prefix_refl _
  | built _ hids => exact (eq_of_all hids).2 ▸ List.prefix_refl _

/-- What is left behind the filter passes it, and its metadata is remembered. -/
theorem remembered_of_survivors {ids kept : List String} {cache : Assoc String Record}
    (hfilter : plan.hasFilter = true) (h : (q.survivors plan ids).outcome = .ok (kept, cache)) :
    ∃ known : String → Record, (∀ id ∈ ids, (q.resolveFacts plan id).outcome = .ok (known id)) ∧
      kept = ids.filter (fun id => plan.accepts (known id)) ∧
      ∀ id ∈ kept, cache.get? id = some (known id) := by
  have hread := h
  rw [survivors, if_pos hfilter, Logged.outcome_bind, Logged.outcome_each] at hread
  obtain ⟨facts, hfacts, hread⟩ := bind_eq_ok.1 hread
  have hcached : ∀ id ∈ kept, cache.get? id ≠ none := by
    cases hread
    intro id hid hnone
    rw [Assoc.get?_eq_none_iff, Assoc.ofList, Assoc.mem_keys_merge] at hnone
    exact hnone (.inr hid)
  have hall : ∀ id ∈ ids, ∃ facts, (q.resolveFacts plan id).outcome = .ok facts :=
    exists_mapM_eq_ok_iff.1 ⟨facts, hfacts⟩
  choose! known hknown using hall
  obtain ⟨cache', hcache, hremembered⟩ := outcome_survivors hknown
  rw [hcache] at h
  cases h
  refine ⟨known, hknown, rfl, fun id hid => ?_⟩
  obtain ⟨r, hr⟩ := Option.ne_none_iff_exists'.1 (hcached id hid)
  rw [hr, hremembered id r hr]

/-- Without a filter nothing is dropped and nothing is remembered. -/
theorem kept_of_unfiltered {ids kept : List String} {cache : Assoc String Record}
    (hfilter : ¬ plan.hasFilter = true) (h : (q.survivors plan ids).outcome = .ok (kept, cache)) :
    kept = ids ∧ cache = [] := by
  rw [survivors, if_neg hfilter] at h
  cases h
  exact ⟨rfl, rfl⟩

theorem disciplined_nil (ids : List String) : q.Disciplined s request ids [] :=
  ⟨by simp, by simp⟩

/-- Calls of different facets do not get in each other's way. -/
theorem Disciplined.append {ids : List String} {log log' : List Call}
    (h : q.Disciplined s request ids log) (h' : q.Disciplined s request ids log')
    (hfacts : ∀ c ∈ log, c.facet = .facts) (hothers : log ≠ [] → ∀ c ∈ log', c.facet ≠ .facts) :
    q.Disciplined s request ids (log ++ log') := by
  refine ⟨fun c hc => (List.mem_append.1 hc).elim (h.allowed c) (h'.allowed c), fun facet id => ?_⟩
  rw [List.countP_append]
  by_cases hnil : log = []
  · rw [hnil, List.countP_nil, Nat.zero_add]
    exact h'.once facet id
  · by_cases hfacet : facet = .facts
    · have hnone : log'.countP (fun c => c.facet = facet ∧ c.id = id) = 0 := by
        refine List.countP_eq_zero.2 fun c hc hcall => ?_
        simp only [decide_eq_true_eq] at hcall
        exact hothers hnil c hc (hcall.1.trans hfacet)
      rw [hnone, Nat.add_zero]
      exact h.once facet id
    · have hnone : log.countP (fun c => c.facet = facet ∧ c.id = id) = 0 := by
        refine List.countP_eq_zero.2 fun c hc hcall => ?_
        simp only [decide_eq_true_eq] at hcall
        exact hfacet (hcall.1.symm.trans (hfacts c hc))
      rw [hnone, Nat.zero_add]
      exact h'.once facet id

section Phases

variable (hplan : Planned s q.filtered plan) {ids : List String} {log : List Call}
include hplan

/-- The filter reads metadata, once as often as an item is listed. -/
theorem disciplined_filter (h : q.FilterLog plan ids log) :
    q.Disciplined s plan.metaRequest ids log ∧ ∀ c ∈ log, c.facet = .facts := by
  rw [FilterLog] at h
  split at h
  next hfilter =>
      obtain ⟨begun, hbegun, hperm, -⟩ := h.exists_begun
      have hread := fun id => calls_resolve_sublist .facts q.facts id plan.metaRequest
      have hcall : ∀ c ∈ log, ∃ id, c = ⟨.facts, id, plan.metaRequest⟩ := by
        intro c hc
        obtain ⟨id, -, hc⟩ := List.mem_flatMap.1 (hperm.subset hc)
        exact ⟨id, List.mem_singleton.1 ((hread id).subset hc)⟩
      refine ⟨⟨fun c hc => ?_, fun facet id => ?_⟩, fun c hc => ?_⟩
      · obtain ⟨id, rfl⟩ := hcall c hc
        exact allowed_facts hplan hfilter
      · rw [hperm.countP_eq]
        refine (countP_flatMap_le (fun id _ => ?_) facet id).trans (hbegun.count_le id)
        exact (onceFor_filtered plan id).sublist ((hread id).trans (by simp))
      · obtain ⟨id, rfl⟩ := hcall c hc
        rfl
  next =>
      subst h
      exact ⟨disciplined_nil ids, by simp⟩

/-- Rows are built of what is left behind the filter, without reading metadata again. -/
theorem disciplined_rows (hq : q.Sound) {kept : List String} {cache : Assoc String Record}
    (hkept : (q.survivors plan ids).outcome = .ok (kept, cache))
    (h : Logged.Pooled (fun id => q.buildRow plan id (cache.get? id)) q.workers kept log) :
    q.Disciplined s plan.metaRequest ids log ∧
      (plan.hasFilter = true → ∀ c ∈ log, c.facet ≠ .facts) := by
  have hitems : kept.Sublist ids ∧ ∀ id ∈ kept, q.Passes plan.metaRequest id ∧
      (plan.hasFilter = true → (cache.get? id).isSome = true) := by
    by_cases hfilter : plan.hasFilter = true
    · obtain ⟨known, hknown, rfl, hremembered⟩ := remembered_of_survivors hfilter hkept
      refine ⟨List.filter_sublist, fun id hid => ⟨?_, fun _ => by rw [hremembered id hid]; rfl⟩⟩
      obtain ⟨hid, haccepts⟩ := List.mem_filter.1 hid
      exact passes_of_accepts hplan hq (hknown id hid) haccepts
    · obtain ⟨rfl, rfl⟩ := kept_of_unfiltered hfilter hkept
      refine ⟨.refl _, fun id _ => ⟨fun h => ?_, fun h => absurd h hfilter⟩⟩
      exact absurd ((hasFilter_iff hplan).2 h) hfilter
  obtain ⟨hsub, hitems⟩ := hitems
  obtain ⟨begun, hbegun, hperm, -⟩ := h.exists_begun
  have hcosts := fun id => calls_buildRow_sublist q plan id (cache.get? id)
  have hcall : ∀ c ∈ log, ∃ id ∈ kept, c ∈ rowCosts plan id (cache.get? id).isSome := by
    intro c hc
    obtain ⟨id, hid, hc⟩ := List.mem_flatMap.1 (hperm.subset hc)
    exact ⟨id, hbegun.subset hid, (hcosts id).subset hc⟩
  refine ⟨⟨fun c hc => ?_, fun facet id => ?_⟩, fun hfilter c hc => ?_⟩
  · obtain ⟨id, hid, hc⟩ := hcall c hc
    exact allowed_rowCosts hplan (hitems id hid).1 _ c hc
  · rw [hperm.countP_eq]
    refine (countP_flatMap_le (fun id _ => ?_) facet id).trans ((hbegun.trans hsub).count_le id)
    exact (onceFor_rowCosts plan id _).sublist (hcosts id)
  · obtain ⟨id, hid, hc⟩ := hcall c hc
    rw [(hitems id hid).2 hfilter] at hc
    exact facet_ne_facts hc

/-- **Phase by phase, the discipline is kept.** -/
theorem disciplined_exec (hq : q.Sound) (hstart : q.plan = .ok plan) (h : q.ExecLog ids log) :
    q.Disciplined s plan.metaRequest ids log := by
  cases h with
  | refused => exact disciplined_nil _
  | cut => exact disciplined_nil _
  | filtered hplan' hids hlog =>
      cases hstart.symm.trans hplan'
      exact (disciplined_filter hplan hlog).1
  | built hplan' hids hlog hkept hrows =>
      cases hstart.symm.trans hplan'
      obtain ⟨hread, hfacts⟩ := disciplined_filter hplan hlog
      obtain ⟨hbuilt, hothers⟩ := disciplined_rows hplan hq hkept hrows
      -- The filter called something, so there is one, and what it read is remembered.
      refine hread.append hbuilt hfacts fun hne => hothers ?_
      by_contra hfilter
      rw [FilterLog, if_neg hfilter] at hlog
      exact hne hlog

end Phases

/-! ## Runs item by item -/

/-- The items that a run for the first rows looks at. -/
def touched (q : Query) (plan : Plan) : Nat → List String → List String
  | 0, _ => []
  | _ + 1, [] => []
  | count + 1, id :: rest =>
    id :: match (q.resolveOne plan id).outcome with
      | .error _ => []
      | .ok none => touched q plan (count + 1) rest
      | .ok (some _) => touched q plan count rest

theorem isPrefix_touched (q : Query) (plan : Plan) (count : Nat) (ids : List String) :
    q.touched plan count ids <+: ids := by
  induction ids generalizing count with
  | nil => cases count <;> exact List.prefix_refl []
  | cons id ids ih =>
      cases count with
      | zero => exact List.nil_prefix
      | succ count =>
          rw [touched, List.cons_prefix_cons]
          refine ⟨rfl, ?_⟩
          split
          · exact List.nil_prefix
          · exact ih (count + 1)
          · exact ih count

theorem calls_firstRows (q : Query) (plan : Plan) (fault : Option Error) (count : Nat)
    (ids : List String) : (q.firstRows plan fault count ids).calls =
      (q.touched plan count ids).flatMap fun id => (q.resolveOne plan id).calls := by
  induction ids generalizing count with
  | nil =>
      cases count with
      | zero => rfl
      | succ count => cases fault <;> rfl
  | cons id ids ih =>
      cases count with
      | zero => rfl
      | succ count =>
          rw [firstRows, touched, List.flatMap_cons]
          cases h : (q.resolveOne plan id).outcome with
          | error e =>
              rw [Logged.calls_bind_of_error h]
              exact (List.append_nil _).symm
          | ok row? =>
              rw [Logged.calls_bind_of_ok h]
              cases row? with
              | none => exact congrArg _ (ih (count + 1))
              | some row => exact congrArg _ ((Logged.calls_bind_pure _ _).trans (ih count))

theorem calls_first (hplan : q.plan = .ok plan) (count : Nat) : (q.first count).calls =
    (q.touched plan count (q.search.listing q.scanned).ids).flatMap fun id =>
      (q.resolveOne plan id).calls := by
  unfold first
  rw [hplan, Logged.silent_ok_bind]
  exact calls_firstRows q plan _ count _

theorem calls_single (q : Query) : q.single.calls = (q.first 1).calls :=
  Logged.calls_bind_pure _ _

theorem calls_strictSingle (q : Query) : q.strictSingle.calls = (q.first 2).calls := by
  unfold strictSingle
  cases h : (q.first 2).outcome with
  | error e => exact Logged.calls_bind_of_error h
  | ok rows =>
      rw [Logged.calls_bind_of_ok h]
      refine (congrArg _ ?_).trans (List.append_nil _)
      match rows with
      | [] => rfl
      | [_] => rfl
      | _ :: _ :: _ => rfl

/-- What a stream has called is what the items that it pulled call. -/
theorem exists_pulled {work : String → Logged (Option Row)} {wanted : Option Nat}
    {listing : Listing} {limit : Nat} {st : Stream}
    (h : Stream.Steps work wanted (.start listing limit wanted) st) :
    ∃ pulled, pulled ++ st.remaining = listing.ids ∧
      st.calls = pulled.flatMap fun id => (work id).calls := by
  obtain ⟨w, hw, hshows⟩ := Window.exists_window_of_steps h
  exact ⟨w.pulled, hshows.remaining ▸ (Window.balanced_of_steps hw).listed, hshows.calls⟩

/-- The calls of a run of any kind, and the identifiers that it enumerated. A stream is looked at
in any state, and some of the work that it has begun may still be going on. -/
inductive RunLog (q : Query) : List String → List Call → Prop
  | refused {e : Error} (hplan : q.plan = .error e) : RunLog q [] []
  | unlimited {limit : Value} {e : Error} (hlimit : streamLimit limit = .error e) : RunLog q [] []
  | exec {enumerated : List String} {log : List Call} (h : q.ExecLog enumerated log) :
      RunLog q enumerated log
  | single {plan : Plan} (hplan : q.plan = .ok plan) :
      RunLog q (q.touched plan 1 (q.search.listing q.scanned).ids) q.single.calls
  | strictSingle {plan : Plan} (hplan : q.plan = .ok plan) :
      RunLog q (q.touched plan 2 (q.search.listing q.scanned).ids) q.strictSingle.calls
  | stream {plan : Plan} {limit : Nat} {wanted : Option Nat} {st : Stream} {pulled : List String}
      {log : List Call} (hplan : q.plan = .ok plan) (hlimit : 1 ≤ limit)
      (hst : Stream.Steps (q.resolveOne plan) wanted
        (.start (q.search.listing q.scanned) limit wanted) st)
      (hpulled : pulled ++ st.remaining = (q.search.listing q.scanned).ids)
      (hlog : log.Subperm st.calls) : RunLog q pulled log

/-- The runs of the program are among these. -/
theorem exists_runLog (q : Query) : (∃ ids, q.RunLog ids q.exec.calls) ∧
    (∃ ids, q.RunLog ids q.single.calls) ∧ (∃ ids, q.RunLog ids q.strictSingle.calls) ∧
    ∀ limit wanted, ∃ ids, q.RunLog ids (q.stream limit wanted).calls := by
  refine ⟨(exists_execLog q).imp fun _ h => .exec h, ?_⟩
  cases hplan : q.plan with
  | error e =>
      have hfirst : ∀ count, (q.first count).calls = [] := by
        intro count
        unfold first
        rw [hplan]
        rfl
      have hstream : ∀ limit wanted, (q.stream limit wanted).calls = [] := by
        intro limit wanted
        unfold stream
        rw [hplan]
        rfl
      rw [calls_single, calls_strictSingle, hfirst, hfirst]
      exact ⟨⟨[], .refused hplan⟩, ⟨[], .refused hplan⟩,
        fun limit wanted => ⟨[], hstream limit wanted ▸ RunLog.refused hplan⟩⟩
  | ok plan =>
      refine ⟨⟨_, .single hplan⟩, ⟨_, .strictSingle hplan⟩, fun limit wanted => ?_⟩
      have hlimit := yields_streamLimit limit
      unfold stream
      rw [hplan, Logged.silent_ok_bind]
      cases hn : streamLimit limit with
      | error e => exact ⟨[], .unlimited hn⟩
      | ok n =>
          rw [hn] at hlimit
          let start := Stream.start (q.search.listing q.scanned) n wanted
          have hst : Stream.Steps (q.resolveOne plan) wanted start
              (Stream.run (q.resolveOne plan) wanted start.weight start) := Stream.steps_run _ _
          obtain ⟨pulled, hpulled, -⟩ := exists_pulled hst
          exact ⟨pulled, .stream hplan hlimit hst hpulled (.refl _)⟩

/-- **Every run keeps the discipline.** -/
theorem disciplined_run (hplan : Planned s q.filtered plan) (hq : q.Sound)
    (hstart : q.plan = .ok plan) {enumerated : List String} {log : List Call}
    (h : q.RunLog enumerated log) :
    enumerated <+: (q.search.listing q.scanned).ids ∧
      q.Disciplined s plan.metaRequest enumerated log := by
  cases h with
  | refused => exact ⟨List.nil_prefix, disciplined_nil _⟩
  | unlimited => exact ⟨List.nil_prefix, disciplined_nil _⟩
  | exec h => exact ⟨prefix_of_execLog h, disciplined_exec hplan hq hstart h⟩
  | single hplan' =>
      cases hstart.symm.trans hplan'
      refine ⟨isPrefix_touched q plan 1 _, disciplined_of_subperm hplan hq (.refl _) ?_⟩
      rw [calls_single, calls_first hstart]
  | strictSingle hplan' =>
      cases hstart.symm.trans hplan'
      refine ⟨isPrefix_touched q plan 2 _, disciplined_of_subperm hplan hq (.refl _) ?_⟩
      rw [calls_strictSingle, calls_first hstart]
  | stream hplan' hlimit hst hpulled hlog =>
      cases hstart.symm.trans hplan'
      refine ⟨⟨_, hpulled⟩, disciplined_of_subperm hplan hq (.refl _) ?_⟩
      obtain ⟨pulled', hpulled', hcalls⟩ := exists_pulled hst
      obtain rfl := List.append_cancel_right (hpulled.trans hpulled'.symm)
      exact hcalls ▸ hlog

/-! ## The same calls -/

theorem flatMap_filter {α β : Type} (keep : α → Bool) (f : α → List β) (xs : List α) :
    (xs.filter keep).flatMap f = xs.flatMap fun x => if keep x then f x else [] := by
  induction xs with
  | nil => rfl
  | cons x xs ih => cases h : keep x <;> simp [h, ih]

/-- **A run as a whole that comes through makes the calls of its items.** -/
theorem execLog_perm (hstart : q.plan = .ok plan) {rows : List Row}
    (hexec : q.exec.outcome = .ok rows) {ids : List String} {log : List Call}
    (h : q.ExecLog ids log) :
    log.Perm ((q.search.listing q.scanned).ids.flatMap fun id => (q.resolveOne plan id).calls) := by
  rw [outcome_exec hstart] at hexec
  obtain ⟨listed, hids, hexec⟩ := bind_eq_ok.1 hexec
  obtain ⟨⟨kept, cache⟩, hkept, hexec⟩ := bind_eq_ok.1 hexec
  obtain ⟨built, hbuilt, -⟩ := bind_eq_ok.1 hexec
  rw [← Logged.outcome_each] at hbuilt
  rw [(eq_of_all hids).2]
  -- A run that comes through is not refused, and neither the listing nor the filter cuts it off.
  cases h with
  | refused hrefused =>
      rw [hstart] at hrefused
      cases hrefused
  | cut _ hcut =>
      rw [(eq_of_all hids).1] at hcut
      cases hcut
  | filtered hplan' hids' _ hfails =>
      cases hstart.symm.trans hplan'
      cases hids.symm.trans hids'
      rw [hkept] at hfails
      cases hfails
  | built hplan' hids' hfilterlog hkept' hrows =>
      cases hstart.symm.trans hplan'
      cases hids.symm.trans hids'
      cases hkept.symm.trans hkept'
      obtain ⟨begun, -, hbegun, hall⟩ := hrows.exists_begun
      rw [hall built hbuilt] at hbegun
      by_cases hfilter : plan.hasFilter = true
      · -- The reads of the filter and the calls of the rows, sorted by items.
        obtain ⟨known, hknown, hkeeps, hremembered⟩ := remembered_of_survivors hfilter hkept
        rw [FilterLog, if_pos hfilter] at hfilterlog
        obtain ⟨begun', -, hbegun', hall'⟩ := hfilterlog.exists_begun
        rw [hall' _ (Logged.outcome_each_ok hknown)] at hbegun'
        have hitem : ∀ id ∈ ids, (q.resolveOne plan id).calls = (q.resolveFacts plan id).calls ++
            if plan.accepts (known id) then (q.buildRow plan id (some (known id))).calls else [] :=
          fun id hid => calls_resolveOne_of_ok hfilter (hknown id hid)
        have hrest : (kept.flatMap fun id => (q.buildRow plan id (cache.get? id)).calls) =
            ids.flatMap fun id =>
              if plan.accepts (known id) then (q.buildRow plan id (some (known id))).calls
              else [] := by
          rw [List.flatMap_congr fun id hid => by rw [hremembered id hid], hkeeps, flatMap_filter]
        rw [List.flatMap_congr hitem]
        exact (hbegun'.append (hrest ▸ hbegun)).trans (List.flatMap_append_perm ids _ _)
      · obtain ⟨rfl, rfl⟩ := kept_of_unfiltered hfilter hkept
        rw [FilterLog, if_neg hfilter] at hfilterlog
        rw [hfilterlog, List.flatMap_congr fun id _ => calls_resolveOne_unfiltered hfilter]
        exact hbegun

/-! ## The request -/

theorem mem_of_fieldsFrom_eq_none {space : String} {seen paths : List String}
    (h : Selection.fieldsFrom space seen paths = .ok none) : Path.wildcard space ∈ paths := by
  induction paths generalizing seen with
  | nil => cases h
  | cons path paths ih =>
      rw [Selection.fieldsFrom] at h
      split at h
      next => exact List.mem_cons_of_mem _ (ih h)
      next =>
          split at h
          next hwild => exact hwild ▸ List.mem_cons_self
          next =>
              split at h
              · exact List.mem_cons_of_mem _ (ih h)
              · cases h

theorem pairwise_sortNames {names : List String} (h : names.Nodup) :
    (sortNames names).Pairwise (· < ·) := by
  have hsorted : (sortNames names).Pairwise (fun a b => decide (a ≤ b) = true) := by
    refine List.pairwise_mergeSort (fun a b c => ?_) (fun a b => ?_) names
    · simpa only [decide_eq_true_eq] using String.le_trans
    · simpa only [Bool.or_eq_true, decide_eq_true_eq] using String.le_total a b
  have hnodup : (sortNames names).Nodup := (List.mergeSort_perm names _).nodup_iff.2 h
  refine (hsorted.and hnodup).imp fun {a b} hab => ?_
  by_contra hlt
  exact hab.2 (String.le_antisymm (of_decide_eq_true hab.1) (String.not_lt.1 hlt))

/-- **The request in a plan is the one that the selection and the filters make.** -/
theorem requests_of_planned (hplan : Planned s q.filtered plan)
    (hmake : Plan.make s q.filtered = .ok plan)
    (hnames : ∀ path ∈ s.allPaths, ∃ field?, Path.Names path (Path.space path) field?) :
    q.Requests s plan.metaRequest := by
  have hwildcard : Path.wildcardSpace? (Path.wildcard "meta") = some "meta" := by decide +kernel
  have hspace : Path.space (Path.wildcard "meta") = "meta" := by decide +kernel
  rw [Requests]
  split
  next hall => exact hplan.metaRequest.eq_none hall hspace hwildcard
  next hnone =>
      obtain ⟨fields, hfields, -⟩ := exists_fields "meta" hnames
      obtain ⟨body, hbody, -⟩ := exists_fields "body" hnames
      rw [Plan.make_eq q.filtered hfields hbody] at hmake
      have hrequest := congrArg Plan.metaRequest (Except.ok.inj hmake).symm
      -- Only a wildcard asks for everything, and there is none here.
      cases fields with
      | none =>
          split at hfields
          · exact absurd (mem_of_fieldsFrom_eq_none hfields) hnone
          · cases hfields
      | some fs =>
          refine ⟨_, hrequest, pairwise_sortNames (nodup_eraseDups _), fun f => ?_⟩
          have hsuits := hplan.metaRequest
          rw [hrequest] at hsuits
          cases hsuits with
          | narrow hkeys hpaths honly =>
              constructor
              · intro hf
                rcases honly f hf with hf | ⟨path, hpath, hnames⟩
                · exact .inl hf
                · cases hnames with
                  | field _ hsegments => exact .inr ⟨path, hpath, _, hsegments⟩
              · rintro (hf | ⟨path, hpath, rest, hsegments⟩)
                · exact hkeys f hf
                · have hmeta : Path.space path = "meta" := by
                    rw [Path.space, hsegments]
                    rfl
                  obtain ⟨f', hf', hnames⟩ := hpaths path hpath hmeta
                  cases hnames with
                  | field _ hsegments' =>
                      rw [hsegments] at hsegments'
                      cases hsegments'
                      exact hf'

/-- **The discipline of costs.** A query without a selection calls nothing. With one, there is one
request for metadata, and every run of every kind, as far as it has come, keeps the discipline under
it; what it enumerated is a beginning of the listing. If the query comes through as a whole, it
makes the same calls as a stream that is drained. The runs of the program are among those that this
is about. -/
theorem calls_disciplined (hq : q.Built) :
    ((∃ ids, q.RunLog ids q.exec.calls) ∧ (∃ ids, q.RunLog ids q.single.calls) ∧
      (∃ ids, q.RunLog ids q.strictSingle.calls) ∧
      ∀ limit wanted, ∃ ids, q.RunLog ids (q.stream limit wanted).calls) ∧
    (q.selected = none → ∀ enumerated log, q.RunLog enumerated log → log = []) ∧
    ∀ s, q.selected = some s →
      ∃ plan, q.plan = .ok plan ∧ q.Requests s plan.metaRequest ∧
        (∀ enumerated log, q.RunLog enumerated log →
          enumerated <+: (q.search.listing q.scanned).ids ∧
            q.Disciplined s plan.metaRequest enumerated log) ∧
        ∀ rows, q.exec.outcome = .ok rows → ∀ enumerated log, q.ExecLog enumerated log →
          ∀ limit st, 1 ≤ limit → Stream.Steps (q.resolveOne plan) none
            (.start (q.search.listing q.scanned) limit none) st → st.status = .finished →
            log.Perm st.calls := by
  refine ⟨exists_runLog q, ?_, ?_⟩
  · intro hnone enumerated log h
    have hrefused : ∀ plan, q.plan ≠ .ok plan := by
      intro plan hplan
      rw [Query.plan, hnone] at hplan
      cases hplan
    cases h with
    | refused => rfl
    | unlimited => rfl
    | exec h =>
        cases h with
        | refused => rfl
        | cut => rfl
        | filtered hplan => exact absurd hplan (hrefused _)
        | built hplan => exact absurd hplan (hrefused _)
    | single hplan => exact absurd hplan (hrefused _)
    | strictSingle hplan => exact absurd hplan (hrefused _)
    | stream hplan => exact absurd hplan (hrefused _)
  · intro s hs
    have hsound := sound_of_built hq
    obtain ⟨plan, hmake, hplan⟩ := exists_planned q.filtered (hsound.exists_names hs)
    have hstart : q.plan = .ok plan := by
      rw [Query.plan, hs]
      exact hmake
    refine ⟨plan, hstart, requests_of_planned hplan hmake (hsound.exists_names hs),
      fun enumerated log h => disciplined_run hplan hsound hstart h, ?_⟩
    intro rows hexec enumerated log hlog limit st hlimit hst hfinished
    -- A finished stream has nothing left of the listing, so it pulled all of it.
    obtain ⟨consumed, haccounts⟩ := Stream.exists_accounts hlimit hst
    have hexplained := haccounts.explained
    rw [Stream.Explains, hfinished] at hexplained
    obtain ⟨pulled, hpulled, hcalls⟩ := exists_pulled hst
    rw [hexplained.2.2.1, List.append_nil] at hpulled
    rw [hcalls, hpulled]
    exact execLog_perm hstart hexec hlog

/-- Notes out of three entries, of which one is listed twice: the kind that they are filtered by and
the title are read at once, and no body is. -/
theorem calls_disciplined_notes :
    let search : Search := ⟨["x"], fun _ => ⟨["a", "b", "a"], none⟩, fun id => .ok [("x", id)]⟩
    let notes : Assoc String Record :=
      [("a", [(.text "kind", .text "note"), (.text "title", .text "One")]),
        ("b", [(.text "kind", .text "list"), (.text "title", .text "Two")])]
    let facet := memoryFacet notes none []
    ∃ q s, (Query.new search (some facet) (some facet) .null >>=
        (·.filter [("kind", .text "note")]) >>= (·.select [.text "params.*", .text "meta.title"])) =
          .ok q ∧ q.selected = some s ∧
      ∃ fields : List String, (∀ f, f ∈ fields ↔ f = "kind" ∨ f = "title") ∧
        ∀ enumerated log, q.RunLog enumerated log →
          q.Disciplined s (some fields) enumerated log := by
  intro search notes facet
  let q₁ : Query := ⟨search, some facet, some facet, 8, [], [], none⟩
  let q₂ : Query := { q₁ with filtered := [("kind", .text "note")] }
  let s : Selection := .paths ["params.*", "meta.title"]
  let q₃ : Query := { q₂ with selected := some s }
  have hnew : Query.new search (some facet) (some facet) .null = .ok q₁ := rfl
  have hfilter : q₁.filter [("kind", .text "note")] = .ok q₂ := rfl
  have hselect : q₂.select [.text "params.*", .text "meta.title"] = .ok q₃ := by
    have hcheck : q₂.checkSelection s = .ok () := eq_ok_of_toOption (by decide +kernel)
    exact bind_eq_ok.2 ⟨_, rfl, bind_eq_ok.2 ⟨(), hcheck, rfl⟩⟩
  have hbuilt : q₃.Built := .select (.filter (.new hnew) hfilter) hselect
  obtain ⟨plan, -, hrequest, hruns, -⟩ := (calls_disciplined hbuilt).2.2 s rfl
  rw [Requests, if_neg (by decide +kernel)] at hrequest
  obtain ⟨fields, hfields, -, hmem⟩ := hrequest
  have hparams : Path.segments "params.*" = ["params", "*"] := by decide +kernel
  have hmeta : Path.segments "meta.title" = ["meta", "title"] := by decide +kernel
  refine ⟨q₃, s, ?_, rfl, fields, fun f => ?_,
    fun enumerated log h => hfields ▸ (hruns enumerated log h).2⟩
  · rw [hnew]
    exact bind_eq_ok.2 ⟨q₂, hfilter, hselect⟩
  · rw [hmem f]
    simp [s, q₃, q₂, Assoc.keys, Selection.allPaths, hparams, hmeta, eq_comm]

end Query

end Winnow
