import Winnow.Files.Search
import Winnow.Proofs.Query.Collisions
import Winnow.Proofs.Query.Draining

/-!
# Clashes are found at once

A selection is refused where it is declared if two of its paths would go under one name. At that
time no item was read, so a row of nothing but the declared fields stands in for the rows to come.
That is enough: a flat row comes about exactly if no two paths clash (`exists_flat_iff`), and a row
that has only declared fields, however many, gives no path that the row of all of them does not give
(`entries_subset_shape`). What a query raises after that comes from its listing or its resolvers
(`Query.Raised`).
-/

namespace Winnow

/-! ## Names and paths -/

/-- The names in the flat row of a row of namespaces, and the paths that they come from. -/
def Selection.entries (s : Selection) (row : Record) : List (String × String) :=
  match s with
  | .paths ps => (Path.expand row ps).map fun p => (Path.leaf p, p)
  | .aliases es => (Assoc.ofList es).flatMap (aliasEntries row)

/-- **A flat row comes about exactly if no two paths go under one name.** -/
theorem Selection.exists_flat_iff {s : Selection} {row : Record} :
    (∃ flat, s.flatten row = .ok flat) ↔ Consistent (s.entries row) := by
  rw [← exists_flattenEntries_iff row]
  cases s with
  | paths ps =>
      rw [entries, ← namedPaths_leaf, ← flatten_eq_flattenEntries]
      rfl
  | aliases es =>
      show (∃ flat, flattenAliased row (Assoc.ofList es) = .ok flat) ↔ _
      rw [flattenAliased_eq_flattenEntries]
      rfl

/-! ## The row of all declared fields -/

/-- A record with no other fields than the declared ones, where these are declared. -/
def Within (declared : Option (List String)) (r : Record) : Prop :=
  ∀ known, declared = some known → ∀ e ∈ r, ∃ f ∈ known, e.1 = .text f

theorem Record.mem_of_field?_eq_some {name : String} {v : Value} {r : Record}
    (h : r.field? name = some v) : (.text name, v) ∈ r := by
  induction r with
  | nil => cases h
  | cons e r ih =>
      obtain ⟨k, v'⟩ := e
      rw [Record.field?, Assoc.get?] at h
      split at h
      next hk =>
          cases h
          rw [Value.text_beq_eq_true hk]
          exact List.mem_cons_self
      next => exact List.mem_cons_of_mem _ (ih h)

/-- A record of declared fields has them all. -/
theorem text_mem_blank {known : List String} {f : String} (h : f ∈ known) :
    (.text f, .null) ∈ (Assoc.ofList (known.map fun f => (Value.text f, Value.null)) : Record) := by
  apply Record.mem_of_field?_eq_some
  have hgathered := field?_gathered (fun _ => some .null) known f
  rw [if_pos h] at hgathered
  rw [← hgathered, ← List.filterMap_eq_map]
  rfl

/-! ## What resolvers give -/

/-- A search reads no other parameters than those that it names. -/
def Search.Answers (s : Search) : Prop :=
  ∀ id params, s.extract id = .ok params → ∀ e ∈ params, e.1 ∈ s.names

theorem Pattern.mem_names_of_collect {p : Pattern} {id : String} {place : Regex.Place}
    {qs : List Param} {params : Assoc String String}
    (h : p.collect id place qs = .ok (some params)) : ∀ e ∈ params, e.1 ∈ qs.map Param.name := by
  induction qs generalizing params with
  | nil =>
      cases h
      simp
  | cons q qs ih =>
      rw [collect] at h
      split at h
      next =>
          split at h
          · exact fun e he => List.mem_cons_of_mem _ (ih h e he)
          · cases h
      next value _ =>
          split at h
          · cases h
          · obtain ⟨values, hvalues, h⟩ := bind_eq_ok.1 h
            obtain ⟨rest, rfl, rfl⟩ := Option.map_eq_some_iff.1 (Except.ok.inj h)
            rintro e he
            rcases List.mem_cons.1 he with rfl | he
            · exact List.mem_cons_self
            · exact List.mem_cons_of_mem _ (ih hvalues e he)

/-- What is read off an identifier that has to match. -/
theorem Pattern.mem_names_of_match {p : Pattern} {id : String} {e : Error}
    {params : Assoc String String}
    (h : (p.extract id >>= fun params? => match params? with
      | some params => pure params
      | none => throw e) = .ok params) : ∀ e ∈ params, e.1 ∈ p.paramNames := by
  obtain ⟨params?, hextract, h⟩ := bind_eq_ok.1 h
  cases params? with
  | none => cases h
  | some params' =>
      cases h
      rw [extract] at hextract
      split at hextract
      · cases hextract
      · exact mem_names_of_collect hextract

theorem memorySearch_answers (p : Pattern) (ids : List String) : (memorySearch p ids).Answers :=
  fun _ _ h => Pattern.mem_names_of_match h

theorem Files.FileSearch.search_answers (s : FileSearch) : s.search.Answers := by
  intro id params h
  change s.extract id = .ok params at h
  rw [FileSearch.extract] at h
  split at h
  · cases h
  · exact Pattern.mem_names_of_match h

/-- A facet gives no other fields than those that it declares or is asked for, if it declares
any. -/
def Facet.Answers (f : Facet) : Prop :=
  ∀ id request r, f.resolve id request = .ok r → ∀ known, f.fields = some known → ∀ e ∈ r,
    ∃ name, e.1 = .text name ∧ (name ∈ known ∨ ∃ wanted, request = some wanted ∧ name ∈ wanted)

/-- A record that was gathered field by field. -/
theorem text_of_mem_gathered {get : String → Option Value} {wanted : List String}
    {e : Value × Value}
    (h : e ∈ (Assoc.ofList (wanted.filterMap fun f => (get f).map (Value.text f, ·)) : Record)) :
    ∃ name ∈ wanted, e.1 = .text name := by
  obtain ⟨d, hd, hkey⟩ := List.mem_map.1 (Assoc.fst_mem_of_mem_ofList h)
  obtain ⟨name, hname, hd⟩ := List.mem_filterMap.1 hd
  obtain ⟨v, -, rfl⟩ := Option.map_eq_some_iff.1 hd
  exact ⟨name, hname, hkey.symm⟩

theorem answers_of_answer {f : Facet} (h : ∀ id request r, f.resolve id request = .ok r →
    ∃ record : Record, r = record.answer f.fields request) : f.Answers := by
  intro id request r hr known hknown e he
  obtain ⟨record, rfl⟩ := h id request r hr
  rw [hknown] at he
  cases request with
  | none =>
      obtain ⟨name, hname, hkey⟩ := text_of_mem_gathered he
      exact ⟨name, hkey, .inl hname⟩
  | some wanted =>
      obtain ⟨name, hname, hkey⟩ := text_of_mem_gathered he
      exact ⟨name, hkey, .inr ⟨wanted, rfl, hname⟩⟩

theorem memoryFacet_answers (data : Assoc String Record) (fields : Option (List String))
    (broken : List String) : (memoryFacet data fields broken).Answers := by
  apply answers_of_answer
  intro id request r hr
  dsimp only [memoryFacet] at hr
  split at hr
  · cases hr
  · cases hr
    exact ⟨_, rfl⟩

theorem Files.MetadataSource.facet_answers (s : MetadataSource) : s.facet.Answers := by
  apply answers_of_answer
  intro id request r hr
  dsimp only [facet] at hr
  cases hread : s.read id with
  | error e =>
      rw [hread] at hr
      cases hr
  | ok record =>
      rw [hread] at hr
      cases hr
      exact ⟨record, rfl⟩

theorem Files.BodySource.facet_answers (s : BodySource) : s.facet.Answers := by
  rintro id request r hr known ⟨⟩ e he
  obtain ⟨content, -, hr⟩ := bind_eq_ok.1 hr
  obtain ⟨body, -, hr⟩ := bind_eq_ok.1 hr
  cases hr
  obtain ⟨name, hname, hkey⟩ := text_of_mem_gathered he
  cases request with
  | none => exact ⟨name, hkey, .inl hname⟩
  | some wanted => exact ⟨name, hkey, .inr ⟨wanted, rfl, hname⟩⟩

namespace Query

variable {q : Query} {s : Selection} {plan : Plan} {row : Record}

theorem field?_shape {space : String} {known : List String} (hspace : space ∈ s.spaces)
    (hknown : q.knownFields space = some known) :
    (q.shape s).field? space =
      some (.map (Assoc.ofList (known.map fun f => (.text f, .null)))) := by
  rw [shape]
  generalize s.spaces = spaces at hspace
  induction spaces with
  | nil => cases hspace
  | cons other others ih =>
      by_cases hother : space = other
      · subst hother
        rw [List.filterMap_cons_some (by rw [hknown]; rfl), Record.field?_cons, if_pos rfl]
      · have hrest := ih ((List.mem_cons.1 hspace).resolve_left hother)
        cases hfields : q.knownFields other with
        | none => rw [List.filterMap_cons_none (by rw [hfields]; rfl), hrest]
        | some fields =>
            rw [List.filterMap_cons_some (by rw [hfields]; rfl), Record.field?_cons,
              if_neg hother, hrest]

/-- The namespaces that wildcards range over have declared fields. -/
def Closed (q : Query) (s : Selection) : Prop :=
  ∀ path ∈ s.allPaths, ∀ space, Path.wildcardSpace? path = some space →
    ∃ known, q.knownFields space = some known

/-- In the namespaces that wildcards range over, a row has only declared fields. -/
def Confined (q : Query) (s : Selection) (row : Record) : Prop :=
  ∀ path ∈ s.allPaths, ∀ space, Path.wildcardSpace? path = some space →
    ∀ fields, row.field? space = some (.map fields) → Within (q.knownFields space) fields

theorem space_eq_of_wildcardSpace? {path space : String} {field? : Option String}
    (hnames : Path.Names path (Path.space path) field?)
    (hwild : Path.wildcardSpace? path = some space) : Path.space path = space := by
  cases hnames with
  | wildcard _ hwild' => exact Option.some.inj (hwild'.symm.trans hwild)
  | field hnone =>
      rw [hnone] at hwild
      cases hwild

/-- A path gives nothing in a row that it does not give in the row of all declared fields. -/
theorem expandOne_subset_shape (hclosed : q.Closed s) (hrow : q.Confined s row)
    (hnames : ∀ path ∈ s.allPaths, ∃ field?, Path.Names path (Path.space path) field?)
    {path : String} (hpath : path ∈ s.allPaths) :
    Path.expandOne row path ⊆ Path.expandOne (q.shape s) path := by
  rw [Path.expandOne, Path.expandOne]
  cases hwild : Path.wildcardSpace? path with
  | none => exact List.Subset.refl _
  | some space =>
      obtain ⟨known, hknown⟩ := hclosed path hpath space hwild
      obtain ⟨field?, hnamed⟩ := hnames path hpath
      have hspace : space ∈ s.spaces := by
        rw [Selection.spaces, List.mem_eraseDups]
        exact List.mem_map.2 ⟨path, hpath, space_eq_of_wildcardSpace? hnamed hwild⟩
      -- A row that misses the namespace, or has no mapping there, gives no paths at all.
      dsimp only
      rw [field?_shape hspace hknown]
      cases hfield : row.field? space with
      | none => exact List.nil_subset _
      | some v =>
          cases v with
          | map fields =>
              intro p hp
              obtain ⟨e, he, rfl⟩ := List.mem_map.1 hp
              obtain ⟨f, hf, hkey⟩ := hrow path hpath space hwild fields hfield known hknown e he
              exact List.mem_map.2 ⟨_, text_mem_blank hf, by rw [hkey]⟩
          | _ => exact List.nil_subset _

theorem entries_subset_shape (hclosed : q.Closed s) (hrow : q.Confined s row)
    (hnames : ∀ path ∈ s.allPaths, ∃ field?, Path.Names path (Path.space path) field?) :
    s.entries row ⊆ s.entries (q.shape s) := by
  cases s with
  | paths ps =>
      apply List.map_subset
      intro p hp
      obtain ⟨path, hpath, hp⟩ := List.mem_flatMap.1 hp
      exact List.mem_flatMap.2 ⟨path, hpath, expandOne_subset_shape hclosed hrow hnames hpath hp⟩
  | aliases es =>
      intro e he
      obtain ⟨⟨name, path⟩, hentry, he⟩ := List.mem_flatMap.1 he
      refine List.mem_flatMap.2 ⟨(name, path), hentry, ?_⟩
      have hpath : path ∈ (Selection.aliases es).allPaths := Assoc.snd_mem_of_mem_ofList hentry
      rw [aliasEntries] at he ⊢
      split at he
      next hwild =>
          rw [if_pos hwild]
          exact List.map_subset _ (expandOne_subset_shape hclosed hrow hnames hpath) he
      next hwild =>
          rw [if_neg hwild]
          exact he

/-- What was checked together when a selection was declared. The row of all declared fields does
not depend on what a query is constrained to. -/
theorem exists_flat_shape (hq : q.Built) (hs : q.selected = some s) :
    ∃ flat, s.flatten (q.shape s) = .ok flat := by
  induction hq with
  | new h =>
      obtain ⟨workers, -, h⟩ := bind_eq_ok.1 h
      cases h
      cases hs
  | scan _ h ih =>
      obtain ⟨_, _, h⟩ := bind_eq_ok.1 h
      cases h
      exact ih hs
  | filter _ h ih =>
      obtain ⟨facet, hfacts, rfl, -⟩ := exists_facet_of_filter h
      exact ih hs
  | select _ h ih =>
      obtain ⟨s', _, h⟩ := bind_eq_ok.1 h
      obtain ⟨_, hcheck, h⟩ := bind_eq_ok.1 h
      obtain ⟨_, _, hflat⟩ := bind_eq_ok.1 hcheck
      obtain ⟨flat, hflat, _⟩ := bind_eq_ok.1 hflat
      cases h
      cases hs
      exact ⟨flat, hflat⟩

/-- **A selection that was declared clashes in no row of declared fields.** -/
theorem exists_flat_of_confined (hq : q.Built) (hs : q.selected = some s) (hclosed : q.Closed s)
    (hrow : q.Confined s row) : ∃ flat, s.flatten row = .ok flat := by
  have hnames := (sound_of_built hq).exists_names hs
  have hshape := Selection.exists_flat_iff.1 (exists_flat_shape hq hs)
  exact Selection.exists_flat_iff.2 (hshape.mono (entries_subset_shape hclosed hrow hnames))

theorem exists_plan (hq : q.Built) (hs : q.selected = some s) :
    ∃ plan, q.plan = .ok plan ∧ Planned s q.filtered plan := by
  obtain ⟨plan, hplan, hplanned⟩ := exists_planned q.filtered ((sound_of_built hq).exists_names hs)
  refine ⟨plan, ?_, hplanned⟩
  rw [Query.plan, hs]
  exact hplan

/-! ## What a run yields -/

/-- The facets of a row are of certain kinds. -/
def OfKinds (paramsKind factsKind bodyKind : Record → Prop) (row : ResultRow) : Prop :=
  (∀ r, row.params = some r → paramsKind r) ∧ (∀ r, row.facts = some r → factsKind r) ∧
    ∀ r, row.body = some r → bodyKind r

/-- What the single steps of a run come to: facets of certain kinds, whose rows can be flattened, or
errors of a certain kind. -/
structure StepsYield (q : Query) (plan : Plan) (paramsKind factsKind bodyKind : Record → Prop)
    (error : Error → Prop) : Prop where
  listing : ∀ e, (q.search.listing q.scanned).fault = some e → error e
  params : ∀ id, Yields (q.resolveParams id).outcome paramsKind error
  facts : ∀ id, Yields (q.resolveFacts plan id).outcome factsKind error
  body : ∀ id, Yields (resolve .body q.body id plan.bodyRequest).outcome bodyKind error
  flat : ∀ row, OfKinds paramsKind factsKind bodyKind row →
    Yields (plan.selection.flatten row.spaces) (fun _ => True) error

theorem yields_onlyIf {needed : Bool} {x : Logged Record} {kind : Record → Prop}
    {error : Error → Prop} (h : Yields x.outcome kind error) :
    Yields (onlyIf needed x).outcome (fun r? => ∀ r, r? = some r → kind r) error := by
  cases needed with
  | false => rintro r ⟨⟩
  | true =>
      rw [onlyIf, if_pos rfl, Logged.outcome_bind]
      refine h.bind fun r hr => ?_
      rintro r' ⟨⟩
      exact hr

namespace StepsYield

variable {paramsKind factsKind bodyKind : Record → Prop} {error : Error → Prop}
  (h : q.StepsYield plan paramsKind factsKind bodyKind error)
include h

theorem all : Yields (q.search.listing q.scanned).all (fun _ => True) error := by
  rw [Listing.all]
  split
  next => trivial
  next e he => exact h.listing e he

theorem buildRow {id : String} {known : Option Record} (hknown : ∀ r, known = some r → factsKind r) :
    Yields (q.buildRow plan id known).outcome (OfKinds paramsKind factsKind bodyKind) error := by
  unfold Query.buildRow
  simp only [Logged.outcome_bind]
  refine (yields_onlyIf (h.params id)).bind fun params hparams => ?_
  refine (yields_onlyIf ?_).bind fun facts (hfacts : ∀ r, facts = some r → factsKind r) => ?_
  · cases known with
    | none => exact h.facts id
    | some r => exact hknown r rfl
  · exact (yields_onlyIf (h.body id)).bind fun body hbody => ⟨hparams, hfacts, hbody⟩

theorem resolveOne (id : String) :
    Yields (q.resolveOne plan id).outcome (fun _ => True) error := by
  have hrow : ∀ known, (∀ r, known = some r → factsKind r) →
      Yields (do
        let row ← q.buildRow plan id known
        return some (← Logged.silent (plan.selection.flatten row.spaces)) : Logged _).outcome
          (fun _ => True) error := by
    intro known hknown
    simp only [Logged.outcome_bind, Logged.outcome_silent]
    refine (h.buildRow hknown).bind fun row hrow => ?_
    exact (h.flat row hrow).bind fun _ _ => trivial
  unfold Query.resolveOne
  split
  · rw [Logged.outcome_bind]
    refine (h.facts id).bind fun facts hfacts => ?_
    split
    · refine hrow (some facts) ?_
      rintro r ⟨⟩
      exact hfacts
    · trivial
  · refine hrow none ?_
    rintro r ⟨⟩

theorem survivors (ids : List String) :
    Yields (q.survivors plan ids).outcome
      (fun kept => ∀ id r, kept.2.get? id = some r → factsKind r) error := by
  unfold Query.survivors
  split
  · rw [Logged.outcome_bind, Logged.outcome_each]
    refine (Yields.mapM fun id _ => h.facts id).bind fun facts hfacts => ?_
    -- What is remembered was read under the same request as what a row reads for itself.
    intro id r hr
    have hmem := List.mem_of_mem_filter (Assoc.mem_of_get?_ofList hr)
    exact hfacts r (List.of_mem_zip hmem).2
  · rintro id r ⟨⟩

theorem exec (hplan : q.plan = .ok plan) : Yields q.exec.outcome (fun _ => True) error := by
  rw [outcome_exec hplan]
  refine h.all.bind fun ids _ => ?_
  refine (h.survivors ids).bind fun kept hkept => ?_
  have hrows : Yields (kept.1.mapM fun id => (q.buildRow plan id (kept.2.get? id)).outcome)
      (fun rows => ∀ row ∈ rows, OfKinds paramsKind factsKind bodyKind row) error :=
    .mapM fun id _ => h.buildRow (hkept id)
  refine hrows.bind fun rows hrows => ?_
  have hflat : Yields (rows.mapM fun row => plan.selection.flatten row.spaces)
      (fun flat => ∀ row ∈ flat, True) error :=
    .mapM fun row hrow => h.flat row (hrows row hrow)
  exact hflat.mono fun _ _ => trivial

theorem firstRows {fault : Option Error} (hfault : ∀ e, fault = some e → error e) (count : Nat)
    (ids : List String) :
    Yields (q.firstRows plan fault count ids).outcome (fun _ => True) error := by
  induction count, ids using firstRows.induct fault with
  | case1 ids =>
      rw [Query.firstRows]
      trivial
  | case2 count hnone =>
      subst hnone
      trivial
  | case3 count e he =>
      subst he
      exact hfault e rfl
  | case4 count id rest ihdropped ihkept =>
      rw [Query.firstRows, Logged.outcome_bind]
      refine (h.resolveOne id).bind fun row? _ => ?_
      cases row? with
      | none => exact ihdropped
      | some row =>
          dsimp only
          rw [Logged.outcome_bind]
          exact ihkept.bind fun _ _ => trivial

theorem first (hplan : q.plan = .ok plan) (count : Nat) :
    Yields (q.first count).outcome (fun _ => True) error := by
  have hfirst : (q.first count).outcome =
      (q.firstRows plan (q.search.listing q.scanned).fault count
        (q.search.listing q.scanned).ids).outcome := by
    unfold Query.first
    rw [Logged.outcome_bind, Logged.outcome_silent, hplan]
    rfl
  rw [hfirst]
  exact h.firstRows h.listing count _

theorem single (hplan : q.plan = .ok plan) : Yields q.single.outcome (fun _ => True) error := by
  unfold Query.single
  rw [Logged.outcome_bind]
  exact (h.first hplan 1).bind fun _ _ => trivial

theorem strictSingle (hplan : q.plan = .ok plan) :
    Yields q.strictSingle.outcome (fun _ => True) fun e =>
      error e ∨ e = .emptyResult q.describe ∨ e = .multipleResult q.describe := by
  unfold Query.strictSingle
  rw [Logged.outcome_bind]
  refine ((h.first hplan 2).weaken fun e he => .inl he).bind fun rows _ => ?_
  match rows with
  | [] => exact .inr (.inl rfl)
  | [row] => trivial
  | _ :: _ :: _ => exact .inr (.inr rfl)

/-- On every course of a stream, what it fails with is an error of a step. -/
theorem error_of_failed {limit : Nat} (hlimit : 1 ≤ limit) {wanted : Option Nat} {st : Stream}
    (hst : Stream.Steps (q.resolveOne plan) wanted
      (.start (q.search.listing q.scanned) limit wanted) st) {e : Error}
    (hfailed : st.status = .failed e) : error e := by
  obtain ⟨consumed, haccounts⟩ := Stream.exists_accounts hlimit hst
  have hexplained := haccounts.explained
  rw [Stream.Explains, hfailed] at hexplained
  rcases hexplained with hcut | ⟨id, -, hfails⟩
  · exact h.listing e hcut
  · have hyields := h.resolveOne id
    rwa [hfails] at hyields

theorem outcome {limit : Nat} (hlimit : 1 ≤ limit) {wanted : Option Nat} {st : Stream}
    (hst : Stream.Steps (q.resolveOne plan) wanted
      (.start (q.search.listing q.scanned) limit wanted) st) :
    Yields st.outcome.outcome (fun _ => True) error := by
  rw [Stream.outcome]
  split
  next e hfailed => exact h.error_of_failed hlimit hst hfailed
  next => trivial

theorem stream (hplan : q.plan = .ok plan) (limit : Value) (wanted : Option Nat) :
    Yields (q.stream limit wanted).outcome (fun _ => True) fun e =>
      error e ∨ streamLimit limit = .error e := by
  unfold Query.stream
  rw [Logged.outcome_bind, Logged.outcome_silent, hplan]
  show Yields (Logged.outcome _) _ _
  rw [Logged.outcome_bind, Logged.outcome_silent]
  cases hlimit : streamLimit limit with
  | error e => exact .inr rfl
  | ok n =>
      have hn := yields_streamLimit limit
      rw [hlimit] at hn
      exact (h.outcome hn (Stream.steps_run _ _)).weaken fun e he => .inl he

end StepsYield

/-! ## Where errors come from -/

/-- Errors from outside: that of the listing, and those of the resolvers. -/
inductive Raised (q : Query) : Error → Prop
  | listing {e : Error} (h : (q.search.listing q.scanned).fault = some e) : Raised q e
  | params {id : String} {e : Error} (h : q.search.extract id = .error e) : Raised q e
  | facts {f : Facet} {id : String} {request : Request} {e : Error} (hf : q.facts = some f)
      (h : f.resolve id request = .error e) : Raised q e
  | body {f : Facet} {id : String} {request : Request} {e : Error} (hf : q.body = some f)
      (h : f.resolve id request = .error e) : Raised q e

/-- The resolvers keep to the fields that they declare or are asked for. -/
structure Bounded (q : Query) : Prop where
  params : q.search.Answers
  facts : ∀ f, q.facts = some f → f.Answers
  body : ∀ f, q.body = some f → f.Answers

/-- Where everything is asked for, a record keeps to the declared fields. -/
def Kept (declared : Option (List String)) (request : Request) (r : Record) : Prop :=
  request = none → Within declared r

theorem yields_resolve (name : FacetName) {facet : Option Facet} (request : Request) (id : String)
    (hanswers : ∀ f, facet = some f → f.Answers)
    (hraised : ∀ f, facet = some f → ∀ e, f.resolve id request = .error e → q.Raised e) :
    Yields (resolve name facet id request).outcome (Kept (facet.bind Facet.fields) request)
      q.Raised := by
  cases facet with
  | none =>
      rintro - known hknown
      cases hknown
  | some f =>
      show Yields (f.resolve id request) _ _
      cases hresolve : f.resolve id request with
      | error e => exact hraised f rfl e hresolve
      | ok r =>
          rintro rfl known hknown e he
          obtain ⟨name, hname, hmem | ⟨wanted, ⟨⟩, -⟩⟩ :=
            hanswers f rfl id none r hresolve known hknown e he
          exact ⟨name, hmem, hname⟩

section Resolving

variable (hbounded : q.Bounded) (id : String)
include hbounded

theorem yields_resolveFacts : Yields (q.resolveFacts plan id).outcome
    (Kept (q.knownFields "meta") plan.metaRequest) q.Raised :=
  yields_resolve .facts _ id hbounded.facts fun _ hf _ h => .facts hf h

theorem yields_resolveBody : Yields (resolve .body q.body id plan.bodyRequest).outcome
    (Kept (q.knownFields "body") plan.bodyRequest) q.Raised :=
  yields_resolve .body _ id hbounded.body fun _ hf _ h => .body hf h

theorem yields_resolveParams : Yields (q.resolveParams id).outcome
    (Within (q.knownFields "params")) q.Raised := by
  rw [resolveParams, Logged.outcome_call]
  cases hextract : q.search.extract id with
  | error e => exact .params hextract
  | ok params =>
      rintro known ⟨⟩ e he
      obtain ⟨d, hd, rfl⟩ := List.mem_map.1 he
      exact ⟨d.1, hbounded.params id params hextract d hd, rfl⟩

end Resolving

theorem confined_spaces {r : ResultRow} (hq : q.Sound) (hs : q.selected = some s)
    (hplan : Planned s q.filtered plan)
    (hparams : ∀ params, r.params = some params → Within (q.knownFields "params") params)
    (hfacts : ∀ facts, r.facts = some facts →
      Kept (q.knownFields "meta") plan.metaRequest facts)
    (hbody : ∀ body, r.body = some body → Kept (q.knownFields "body") plan.bodyRequest body) :
    q.Confined s r.spaces := by
  intro path hpath space hwild fields hfields
  obtain ⟨field?, hnames⟩ := hq.exists_names hs path hpath
  have hspace := space_eq_of_wildcardSpace? hnames hwild
  have hmem := hq.space_mem hs path hpath
  rw [hspace] at hmem
  simp only [spaceNames, List.mem_cons, List.not_mem_nil, or_false] at hmem
  rcases hmem with rfl | rfl | rfl
  · rw [ResultRow.field?_params, Option.map_eq_some_iff] at hfields
    obtain ⟨params, hr, ⟨⟩⟩ := hfields
    exact hparams fields hr
  · rw [ResultRow.field?_meta, Option.map_eq_some_iff] at hfields
    obtain ⟨facts, hr, ⟨⟩⟩ := hfields
    exact hfacts fields hr (hplan.metaRequest.eq_none hpath hspace hwild)
  · rw [ResultRow.field?_body, Option.map_eq_some_iff] at hfields
    obtain ⟨body, hr, ⟨⟩⟩ := hfields
    exact hbody fields hr (hplan.bodyRequest.eq_none hpath hspace hwild)

/-- What the steps after a declaration rely on. -/
structure Settled (q : Query) (s : Selection) (plan : Plan) : Prop where
  built : q.Built
  selected : q.selected = some s
  closed : q.Closed s
  bounded : q.Bounded
  planned : Planned s q.filtered plan

/-- After a declaration nothing but the listing and the resolvers is to blame. -/
theorem Settled.stepsYield (h : Settled q s plan) :
    q.StepsYield plan (Within (q.knownFields "params")) (Kept (q.knownFields "meta") plan.metaRequest)
      (Kept (q.knownFields "body") plan.bodyRequest) q.Raised where
  listing _ he := .listing he
  params := yields_resolveParams h.bounded
  facts := yields_resolveFacts h.bounded
  body := yields_resolveBody h.bounded
  flat := by
    rintro row ⟨hparams, hfacts, hbody⟩
    have hrow := confined_spaces (sound_of_built h.built) h.selected h.planned hparams hfacts hbody
    obtain ⟨flat, hflat⟩ := exists_flat_of_confined h.built h.selected h.closed hrow
    rw [h.planned.selection, hflat]
    trivial

/-- Errors of a selection: a clash, a wrong use, or a path without a second part. -/
def ofSelection : Error → Bool
  | .collision .. => true
  | .type .noSecondPart => true
  | e => e.isSetup

/-- **A selection that was declared gives no cause for errors later.** If the namespaces that it
takes as a whole have declared fields, there is a plan, and every row of declared fields has a flat
row. Over resolvers that keep to the fields that they declare or are asked for, no run raises an
error of a selection, on any course of a stream, unless a resolver raises it itself. -/
theorem settled_by_select (hq : q.Built) (hs : q.selected = some s) (hclosed : q.Closed s) :
    (∀ row, q.Confined s row → ∃ flat, s.flatten row = .ok flat) ∧
    ∃ plan, q.plan = .ok plan ∧ plan.selection = s ∧
      (q.Bounded → ∀ e, ofSelection e = true → ¬ q.Raised e →
        q.exec.outcome ≠ .error e ∧ q.single.outcome ≠ .error e ∧
        q.strictSingle.outcome ≠ .error e ∧
        (∀ limit wanted, (q.stream limit wanted).outcome ≠ .error e) ∧
        ∀ limit, 1 ≤ limit → ∀ wanted st,
          Stream.Steps (q.resolveOne plan) wanted
            (.start (q.search.listing q.scanned) limit wanted) st → st.status ≠ .failed e) := by
  obtain ⟨plan, hplan, hplanned⟩ := exists_plan hq hs
  refine ⟨fun row => exists_flat_of_confined hq hs hclosed, plan, hplan, hplanned.selection, ?_⟩
  intro hbounded e hkind houtside
  have h := (Settled.mk hq hs hclosed hbounded hplanned).stepsYield
  refine ⟨?_, ?_, ?_, fun limit wanted => ?_, fun limit hlimit wanted st hst hfailed => ?_⟩
  · exact (h.exec hplan).ne_error houtside
  · exact (h.single hplan).ne_error houtside
  · refine (h.strictSingle hplan).ne_error ?_
    rintro (houtside' | rfl | rfl)
    · exact houtside houtside'
    · cases hkind
    · cases hkind
  · refine (h.stream hplan limit wanted).ne_error ?_
    rintro (houtside' | hlimit)
    · exact houtside houtside'
    · have hrefused := yields_streamLimit limit
      rw [hlimit] at hrefused
      obtain ⟨fault, rfl⟩ := hrefused
      cases hkind
  · exact houtside (h.error_of_failed hlimit hst hfailed)

/-- Titles and kinds that are taken as a whole, under an alias that goes by the names of the fields;
an entry without a kind has a shorter row. -/
theorem settled_by_select_notes :
    let search : Search := ⟨["x"], fun _ => ⟨["a", "b"], none⟩, fun id => .ok [("x", id)]⟩
    let notes : Assoc String Record :=
      [("a", [(.text "kind", .text "note"), (.text "title", .text "One")]),
        ("b", [(.text "title", .text "Two")])]
    let facet := memoryFacet notes (some ["kind", "title"]) []
    let s : Selection := .aliases [("name", "params.x"), ("rest", "meta.*")]
    ∃ q, (Query.new search (some facet) none .null >>=
        (·.select [.map [(.text "name", .text "params.x"), (.text "rest", .text "meta.*")]])) =
          .ok q ∧
      (∃ flat, s.flatten [(.text "meta", .map [(.text "title", .text "Two")])] = .ok flat) ∧
      q.exec.outcome ≠ .error (.collision "name" ["params.x", "meta.name"]) := by
  intro search notes facet s
  let q₁ : Query := ⟨search, some facet, none, 8, [], [], none⟩
  let q₂ : Query := { q₁ with selected := some s }
  let arguments : List Value :=
    [.map [(.text "name", .text "params.x"), (.text "rest", .text "meta.*")]]
  have hnew : Query.new search (some facet) none .null = .ok q₁ := rfl
  have hselect : q₁.select arguments = .ok q₂ := by
    have hcheck : q₁.checkSelection s = .ok () := eq_ok_of_toOption (by decide +kernel)
    exact bind_eq_ok.2 ⟨s, rfl, bind_eq_ok.2 ⟨(), hcheck, rfl⟩⟩
  have hbuilt : q₂.Built := .select (.new hnew) hselect
  have hname : Path.wildcardSpace? "params.x" = none := by decide +kernel
  have hrest : Path.wildcardSpace? "meta.*" = some "meta" := by decide +kernel
  have hclosed : q₂.Closed s := by
    intro path hpath space hwild
    rcases List.mem_pair.1 hpath with rfl | rfl
    · rw [hname] at hwild
      cases hwild
    · rw [hrest] at hwild
      cases hwild
      exact ⟨["kind", "title"], rfl⟩
  have hbounded : q₂.Bounded := by
    refine ⟨?_, ?_, ?_⟩
    · rintro id params ⟨⟩ e he
      rw [List.mem_singleton.1 he]
      exact List.mem_singleton_self _
    · rintro f ⟨⟩
      exact memoryFacet_answers _ _ _
    · rintro f ⟨⟩
  have houtside : ∀ e, ¬ q₂.Raised e := by
    rintro e (⟨⟨⟩⟩ | ⟨⟨⟩⟩ | ⟨⟨⟩, h⟩ | ⟨⟨⟩, h⟩)
    cases h
  have hrow : q₂.Confined s [(.text "meta", .map [(.text "title", .text "Two")])] := by
    intro path hpath space hwild fields hfields known hknown e he
    rcases List.mem_pair.1 hpath with rfl | rfl
    · rw [hname] at hwild
      cases hwild
    · rw [hrest] at hwild
      cases hwild
      rw [Record.field?_cons, if_pos rfl] at hfields
      cases hfields
      cases hknown
      rw [List.mem_singleton.1 he]
      exact ⟨"title", by simp, rfl⟩
  obtain ⟨hflat, plan, -, -, hquiet⟩ := settled_by_select hbuilt rfl hclosed
  refine ⟨q₂, ?_, hflat _ hrow, (hquiet hbounded _ rfl (houtside _)).1⟩
  rw [hnew]
  exact hselect

end Query

end Winnow
