import Winnow.Files.Facets
import Winnow.Proofs.Query.Checks
import Winnow.Proofs.Query.Rows

/-!
# What is asked for

A query asks resolvers only for the fields that its selection and its filters look at. The planned
request for a namespace holds every such field (`Suits`, `exists_planned`), so that a record under
this request cannot be told from the complete one by the paths of the selection (`Sees`) or by the
filters (`exists_narrowed`). This is for resolvers that restrict the complete record to what is
asked for (`Facet.Serves`): those in memory do, and those of files.
-/

namespace Winnow

/-! ## Requests -/

/-- The fields that are collected for a namespace: those of its paths behind those seen before. -/
structure Collected (space : String) (seen paths fs : List String) : Prop where
  keeps : ∀ f ∈ seen, f ∈ fs
  names : ∀ path ∈ paths, Path.space path = space → ∃ f ∈ fs, Path.Names path space (some f)
  only : ∀ f ∈ fs, f ∈ seen ∨ ∃ path ∈ paths, Path.Names path space (some f)

namespace Collected

variable {space path : String} {seen paths fs : List String}

/-- A path of another namespace adds nothing. -/
theorem skip (h : Collected space seen paths fs) (hspace : Path.space path ≠ space) :
    Collected space seen (path :: paths) fs := by
  refine ⟨h.keeps, ?_, ?_⟩
  · intro path' hpath' hspace'
    rcases List.mem_cons.1 hpath' with rfl | hpath'
    · exact absurd hspace' hspace
    · exact h.names path' hpath' hspace'
  · intro f hf
    rcases h.only f hf with hf | ⟨path', hpath', hnames⟩
    · exact .inl hf
    · exact .inr ⟨path', List.mem_cons_of_mem _ hpath', hnames⟩

/-- A path of the namespace adds its field, unless it was seen before. -/
theorem name {field : String}
    (h : Collected space (if seen.contains field then seen else seen ++ [field]) paths fs)
    (hnames : Path.Names path space (some field)) : Collected space seen (path :: paths) fs := by
  have hgrown : ∀ f, (f ∈ if seen.contains field then seen else seen ++ [field]) ↔
      f ∈ seen ∨ f = field := by
    intro f
    split
    next hin =>
        have hin : field ∈ seen := by simpa using hin
        exact ⟨.inl, fun hf => hf.elim id (· ▸ hin)⟩
    next => simp
  refine ⟨fun f hf => h.keeps f ((hgrown f).2 (.inl hf)), ?_, ?_⟩
  · intro path' hpath' hspace'
    rcases List.mem_cons.1 hpath' with rfl | hpath'
    · exact ⟨field, h.keeps field ((hgrown field).2 (.inr rfl)), hnames⟩
    · exact h.names path' hpath' hspace'
  · intro f hf
    rcases h.only f hf with hf | ⟨path', hpath', hnames'⟩
    · rcases (hgrown f).1 hf with hf | rfl
      · exact .inl hf
      · exact .inr ⟨path, List.mem_cons_self, hnames⟩
    · exact .inr ⟨path', List.mem_cons_of_mem _ hpath', hnames'⟩

end Collected

/-- Where the fields of a namespace are not listed, all of them are asked for. -/
theorem fieldsFrom_eq {space : String} (seen : List String) {paths : List String}
    (h : ∀ path ∈ paths, Path.space path = space → ∃ field?, Path.Names path space field?) :
    Selection.fieldsFrom space seen paths = .ok none ∨
      ∃ fs, Selection.fieldsFrom space seen paths = .ok (some fs) ∧
        Collected space seen paths fs := by
  induction paths generalizing seen with
  | nil => exact .inr ⟨seen, rfl, fun f hf => hf, by simp, fun f hf => .inl hf⟩
  | cons path paths ih =>
      have ih := fun seen => ih seen fun path' hpath' => h path' (List.mem_cons_of_mem _ hpath')
      rw [Selection.fieldsFrom]
      by_cases hspace : Path.space path = space
      · rw [if_neg (not_not.2 hspace)]
        by_cases hwild : path = Path.wildcard space
        · exact .inl (if_pos hwild)
        · rw [if_neg hwild]
          obtain ⟨field?, hnames⟩ := h path List.mem_cons_self hspace
          cases hnames with
          | wildcard hpath => exact absurd hpath hwild
          | field hnone hsegments =>
              rw [hsegments]
              rcases ih _ with hall | ⟨fs, hfs, hcollected⟩
              · exact .inl hall
              · exact .inr ⟨fs, hfs, hcollected.name (.field hnone hsegments)⟩
      · rw [if_pos hspace]
        rcases ih seen with hall | ⟨fs, hfs, hcollected⟩
        · exact .inl hall
        · exact .inr ⟨fs, hfs, hcollected.skip hspace⟩

/-- A request for a namespace with every field that is looked at, those in `keys` and those that
paths name, and with no other. -/
inductive Suits (paths keys : List String) (space : String) : Request → Prop
  | all : Suits paths keys space none
  | narrow {wanted : List String} (hkeys : ∀ k ∈ keys, k ∈ wanted)
      (hpaths : ∀ path ∈ paths, Path.space path = space →
        ∃ f ∈ wanted, Path.Names path space (some f))
      (honly : ∀ f ∈ wanted, f ∈ keys ∨ ∃ path ∈ paths, Path.Names path space (some f)) :
      Suits paths keys space (some wanted)

/-- A namespace with a wildcard is asked for as a whole. -/
theorem Suits.eq_none {paths keys : List String} {space path : String} {request : Request}
    (h : Suits paths keys space request) (hpath : path ∈ paths)
    (hspace : Path.space path = space) (hwild : Path.wildcardSpace? path = some space) :
    request = none := by
  cases h with
  | all => rfl
  | narrow _ hpaths =>
      obtain ⟨f, -, hnames⟩ := hpaths path hpath hspace
      cases hnames with
      | field hnone =>
          rw [hwild] at hnone
          cases hnone

theorem mem_sortNames {name : String} {names : List String} :
    name ∈ sortNames names ↔ name ∈ names :=
  List.mem_mergeSort

/-- The fields that are collected for a namespace, together with some keys, make a request that
suits; without any path in the namespace no fields are collected. -/
theorem exists_fields {s : Selection} (space : String)
    (h : ∀ path ∈ s.allPaths, ∃ field?, Path.Names path (Path.space path) field?) :
    ∃ fields, (if s.spaces.contains space then s.fields space else .ok (some [])) = .ok fields ∧
      ∀ (keys : List String) (g : List String → List String),
        (∀ fs f, f ∈ g fs ↔ f ∈ fs ∨ f ∈ keys) → Suits s.allPaths keys space (fields.map g) := by
  have hnames : ∀ path ∈ s.allPaths, Path.space path = space →
      ∃ field?, Path.Names path space field? := by
    intro path hpath hspace
    exact hspace ▸ h path hpath
  by_cases hused : s.spaces.contains space = true
  · rw [if_pos hused]
    rcases fieldsFrom_eq [] hnames with hall | ⟨fs, hfs, -, hpaths, honly⟩
    · exact ⟨none, hall, fun keys g hg => .all⟩
    · refine ⟨some fs, hfs, fun keys g hg => ?_⟩
      refine .narrow (fun k hk => (hg fs k).2 (.inr hk)) ?_ ?_
      · intro path hpath hspace
        obtain ⟨f, hf, hpathf⟩ := hpaths path hpath hspace
        exact ⟨f, (hg fs f).2 (.inl hf), hpathf⟩
      · intro f hf
        rcases (hg fs f).1 hf with hf | hf
        · rcases honly f hf with hf | hpath
          · cases hf
          · exact .inr hpath
        · exact .inl hf
  · rw [if_neg hused]
    refine ⟨some [], rfl, fun keys g hg => ?_⟩
    refine .narrow (fun k hk => (hg [] k).2 (.inr hk)) ?_ ?_
    · intro path hpath hspace
      refine absurd ?_ hused
      rw [List.contains_iff_mem, Selection.spaces, List.mem_eraseDups]
      exact List.mem_map.2 ⟨path, hpath, hspace⟩
    · intro f hf
      rcases (hg [] f).1 hf with hf | hf
      · cases hf
      · exact .inl hf

/-- What the plan of a query settles. -/
structure Planned (s : Selection) (filters : Assoc String Value) (plan : Plan) : Prop where
  selection : plan.selection = s
  filtered : plan.filters = filters
  params : plan.needsParams = s.spaces.contains "params"
  facts : plan.needsMeta = s.spaces.contains "meta"
  body : plan.needsBody = s.spaces.contains "body"
  metaRequest : Suits s.allPaths filters.keys "meta" plan.metaRequest
  bodyRequest : Suits s.allPaths [] "body" plan.bodyRequest

/-- The plan that is made of the fields to ask for. -/
theorem Plan.make_eq {s : Selection} (filters : Assoc String Value)
    {facts body : Option (List String)}
    (hfacts : (if s.spaces.contains "meta" then s.fields "meta" else .ok (some [])) = .ok facts)
    (hbody : (if s.spaces.contains "body" then s.fields "body" else .ok (some [])) = .ok body) :
    Plan.make s filters = .ok {
      selection := s
      filters := filters
      needsParams := s.spaces.contains "params"
      needsMeta := s.spaces.contains "meta"
      needsBody := s.spaces.contains "body"
      metaRequest := (facts.map fun fs => (fs ++ filters.keys).eraseDups).map sortNames
      bodyRequest := body.map sortNames } := by
  rw [Plan.make]
  cases hm : s.spaces.contains "meta" with
  | false =>
      rw [hm] at hfacts
      cases hfacts
      cases hb : s.spaces.contains "body" with
      | false =>
          rw [hb] at hbody
          cases hbody
          rfl
      | true =>
          rw [hb, if_pos rfl] at hbody
          simp only [hbody]
          rfl
  | true =>
      rw [hm, if_pos rfl] at hfacts
      cases hb : s.spaces.contains "body" with
      | false =>
          rw [hb] at hbody
          cases hbody
          simp only [hfacts]
          rfl
      | true =>
          rw [hb, if_pos rfl] at hbody
          simp only [hfacts, hbody]
          rfl

/-- There is a plan for every selection of paths that were checked. -/
theorem exists_planned {s : Selection} (filters : Assoc String Value)
    (h : ∀ path ∈ s.allPaths, ∃ field?, Path.Names path (Path.space path) field?) :
    ∃ plan, Plan.make s filters = .ok plan ∧ Planned s filters plan := by
  obtain ⟨facts, hfacts, hmeta⟩ := exists_fields "meta" h
  obtain ⟨body, hbody, hbodies⟩ := exists_fields "body" h
  refine ⟨_, Plan.make_eq filters hfacts hbody, ?_⟩
  refine ⟨rfl, rfl, rfl, rfl, rfl, ?_, ?_⟩
  · rw [Option.map_map]
    refine hmeta _ _ fun fs f => ?_
    rw [Function.comp_apply, mem_sortNames, List.mem_eraseDups, List.mem_append]
  · refine hbodies [] _ fun fs f => ?_
    rw [mem_sortNames]
    simp

/-! ## Narrowed records -/

/-- A facet that gives the complete record of every item when all is asked for, and the fields that
are asked for when these are declared. -/
structure Facet.Serves (f : Facet) (ids : List String) (complete : String → Record) : Prop where
  whole : ∀ id ∈ ids, f.resolve id none = .ok (complete id)
  narrow : ∀ id ∈ ids, ∀ wanted, (∀ declared, f.fields = some declared → wanted ⊆ declared) →
    ∃ r, f.resolve id (some wanted) = .ok r ∧
      ∀ name, r.field? name = if name ∈ wanted then (complete id).field? name else none

/-- A path of a namespace shows the same in both records of it. -/
def Sees (space : String) (r r' : Record) (path : String) : Prop :=
  Path.Names path space none ∧ r = r' ∨
    ∃ f, Path.Names path space (some f) ∧ r.field? f = r'.field? f

/-- What is asked for under a request that suits cannot be told from the complete record. -/
theorem exists_narrowed {f : Facet} {ids paths keys : List String} {complete : String → Record}
    {space : String} {request : Request} (hf : f.Serves ids complete)
    (hsuits : Suits paths keys space request)
    (hkeys : ∀ declared, f.fields = some declared → keys ⊆ declared)
    (hpaths : ∀ declared, f.fields = some declared →
      ∀ path ∈ paths, ∀ field, Path.Names path space (some field) → field ∈ declared)
    (hnames : ∀ path ∈ paths, Path.space path = space → ∃ field?, Path.Names path space field?)
    {id : String} (hid : id ∈ ids) :
    ∃ r, f.resolve id request = .ok r ∧ (∀ k ∈ keys, r.field? k = (complete id).field? k) ∧
      ∀ path ∈ paths, Path.space path = space → Sees space r (complete id) path := by
  cases hsuits with
  | all =>
      refine ⟨complete id, hf.whole id hid, fun _ _ => rfl, fun path hpath hspace => ?_⟩
      obtain ⟨field?, hpathnames⟩ := hnames path hpath hspace
      cases field? with
      | none => exact .inl ⟨hpathnames, rfl⟩
      | some f => exact .inr ⟨f, hpathnames, rfl⟩
  | @narrow wanted hhas hlooked honly =>
      have hdeclared : ∀ declared, f.fields = some declared → wanted ⊆ declared := by
        intro declared hfields name hname
        rcases honly name hname with hk | ⟨path, hpath, hpathnames⟩
        · exact hkeys declared hfields hk
        · exact hpaths declared hfields path hpath name hpathnames
      obtain ⟨r, hr, hfield⟩ := hf.narrow id hid wanted hdeclared
      have hsame : ∀ name ∈ wanted, r.field? name = (complete id).field? name := by
        intro name hname
        rw [hfield, if_pos hname]
      refine ⟨r, hr, fun k hk => hsame k (hhas k hk), fun path hpath hspace => ?_⟩
      obtain ⟨name, hname, hpathnames⟩ := hlooked path hpath hspace
      exact .inr ⟨name, hpathnames, hsame name hname⟩

/-- Reading a record that was gathered field by field. -/
theorem field?_gathered (get : String → Option Value) (wanted : List String) (name : String) :
    Record.field? name (Assoc.ofList (wanted.filterMap fun f => (get f).map (Value.text f, ·))) =
      if name ∈ wanted then get name else none := by
  -- Going through the wanted names, `done` holds those that were written already.
  have hmerge : ∀ (wanted : List String) (done : Record),
      Record.field? name (Assoc.merge done
        (wanted.filterMap fun f => (get f).map (Value.text f, ·))) =
      if name ∈ wanted ∧ (get name).isSome then get name else done.field? name := by
    intro wanted
    induction wanted with
    | nil => intro done; rfl
    | cons f wanted ih =>
        intro done
        cases hf : get f with
        | none =>
            rw [List.filterMap_cons_none (by rw [hf]; rfl), ih]
            by_cases hname : name = f
            · simp [hname, hf]
            · simp [hname]
        | some v =>
            rw [List.filterMap_cons_some (by rw [hf]; rfl)]
            have hstep : ∀ rest : Record, Assoc.merge done ((Value.text f, v) :: rest) =
                Assoc.merge (Assoc.insert done (.text f) v) rest := fun _ => rfl
            rw [hstep, ih, Record.field?_insert]
            by_cases hname : name = f
            · simp [hname, hf]
            · simp [hname]
  rw [Assoc.ofList, hmerge]
  by_cases hname : name ∈ wanted
  · cases hget : get name <;> simp [hname]
  · simp [hname]

theorem field?_restrict (r : Record) (wanted : List String) (name : String) :
    (r.restrict wanted).field? name = if name ∈ wanted then r.field? name else none :=
  field?_gathered r.field? wanted name

/-- Records that are restricted to what is asked for serve requests within their declared fields. -/
theorem serves_of_answer {f : Facet} {ids : List String} {record : String → Record}
    (h : ∀ id ∈ ids, ∀ request, f.resolve id request = .ok ((record id).answer f.fields request)) :
    f.Serves ids fun id => (record id).answer f.fields none := by
  constructor
  · intro id hid
    exact h id hid none
  · intro id hid wanted hwanted
    refine ⟨(record id).restrict wanted, h id hid (some wanted), fun name => ?_⟩
    rw [field?_restrict]
    by_cases hname : name ∈ wanted
    · rw [if_pos hname, if_pos hname]
      cases hfields : f.fields with
      | none => rfl
      | some declared =>
          rw [Record.answer, field?_restrict, if_pos (hwanted declared hfields hname)]
    · rw [if_neg hname, if_neg hname]

theorem memoryFacet_serves {data : Assoc String Record} {fields : Option (List String)}
    {broken ids : List String} (h : ∀ id ∈ ids, id ∉ broken) :
    (memoryFacet data fields broken).Serves ids
      fun id => ((data.get? id).getD []).answer fields none := by
  apply serves_of_answer
  intro id hid request
  have hbroken : broken.contains id = false := by
    simpa using h id hid
  simp only [memoryFacet, hbroken, Bool.false_eq_true, if_false]

namespace Files

/-- Metadata of files that can be read. -/
theorem MetadataSource.facet_serves {s : MetadataSource} {ids : List String}
    {record : String → Record} (h : ∀ id ∈ ids, s.read id = .ok (record id)) :
    s.facet.Serves ids fun id => (record id).answer s.fields none := by
  apply serves_of_answer
  intro id hid request
  show (s.read id).map (fun r => r.answer s.fields request) = _
  rw [h id hid]
  rfl

/-- Bodies of files that can be read. -/
theorem BodySource.facet_serves {s : BodySource} {ids : List String} {text : String → List Char}
    (h : ∀ id ∈ ids, (s.disk.read id >>= Markup.readBody id) = .ok (text id)) :
    s.facet.Serves ids fun id =>
      Assoc.ofList (s.fields.filterMap fun f => (s.field? (text id) f).map (Value.text f, ·)) := by
  have hresolve : ∀ id ∈ ids, ∀ request, s.facet.resolve id request =
      .ok (Assoc.ofList ((request.getD s.fields).filterMap fun f =>
        (s.field? (text id) f).map (Value.text f, ·))) := by
    intro id hid request
    obtain ⟨content, hcontent, hbody⟩ := bind_eq_ok.1 (h id hid)
    exact bind_eq_ok.2 ⟨content, hcontent, bind_eq_ok.2 ⟨text id, hbody, rfl⟩⟩
  constructor
  · intro id hid
    exact hresolve id hid none
  · intro id hid wanted hwanted
    refine ⟨_, hresolve id hid (some wanted), fun name => ?_⟩
    rw [field?_gathered, field?_gathered]
    by_cases hname : name ∈ wanted
    · rw [if_pos (show name ∈ s.fields from hwanted s.fields rfl hname)]
      rfl
    · rw [if_neg hname]
      exact if_neg hname

end Files

end Winnow
