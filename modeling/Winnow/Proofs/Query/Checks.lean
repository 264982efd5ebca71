import Winnow.Proofs.Outcome
import Winnow.Proofs.Text.Splitting
import Winnow.Query.Builder

/-!
# What a query has been checked for

A query is built by steps, and each step checks its input (`Query.Built`). Together the checks
guarantee that all filters are on declared metadata, and that every selected path is either the
wildcard of a namespace or names a declared field of it (`Query.Sound`, `Path.Names`); the namespace
has a resolver.
-/

namespace Winnow

/-! ## Checked paths -/

/-- The namespace and the field of a path, as its segments show them. -/
inductive Path.Names (path space : String) : Option String → Prop
  | wildcard (hpath : path = Path.wildcard space) (hwild : wildcardSpace? path = some space)
      (hdot : '.' ∉ space.toList) {last : String} (hsegments : segments path = [space, last]) :
      Names path space none
  | field {field : String} {rest : List String} (hwild : wildcardSpace? path = none)
      (hsegments : segments path = space :: field :: rest) : Names path space (some field)

theorem wildcardSpace?_eq_some {path space : String} (h : Path.wildcardSpace? path = some space) :
    path = Path.wildcard space := by
  obtain ⟨rest, hrest, rfl⟩ := Option.map_eq_some_iff.1 h
  have hreverse := congrArg List.reverse (Text.dropHead?_eq_some_iff.1 hrest)
  rw [List.reverse_reverse, List.reverse_append] at hreverse
  rw [← String.toList_inj, Path.wildcard, String.toList_append, String.toList_ofList, hreverse]
  rfl

theorem Path.segments_wildcard (space : String) :
    segments (wildcard space) = Text.pieces '.' space ++ ["*"] := by
  have hlist : (wildcard space).toList = space.toList ++ '.' :: "*".toList := String.toList_append
  exact Text.pieces_append hlist

theorem names_of_splitPath {path space : String} {field? : Option String}
    (h : splitPath path = .ok (space, field?)) : Path.Names path space field? := by
  rw [splitPath] at h
  split at h
  next first second rest hsegments =>
      split at h
      · cases h
      · split at h
        next hwild =>
            split at h
            next hrest =>
                cases h
                obtain ⟨w, hw⟩ := Option.isSome_iff_exists.1 hwild
                have hpath := wildcardSpace?_eq_some hw
                rw [List.isEmpty_iff.1 hrest] at hsegments
                have hpieces : Text.pieces '.' w = [space] := by
                  rw [hpath, Path.segments_wildcard] at hsegments
                  have hlast : Text.pieces '.' w ++ ["*"] = [space] ++ [second] := hsegments
                  exact (List.append_inj' hlast rfl).1
                obtain ⟨rfl, hdot⟩ := Text.eq_of_pieces_eq_singleton hpieces
                exact .wildcard hpath hw hdot hsegments
            next => cases h
        next hwild =>
            cases h
            rw [Path.isWildcard, Bool.not_eq_true, Option.isSome_eq_false_iff,
              Option.isNone_iff_eq_none] at hwild
            exact .field hwild hsegments
  next => cases h

theorem Path.Names.space_eq {path space : String} {field? : Option String}
    (h : Path.Names path space field?) : Path.space path = space := by
  cases h with
  | wildcard _ _ _ hsegments => rw [Path.space, hsegments]; rfl
  | field _ hsegments => rw [Path.space, hsegments]; rfl

theorem Path.Names.field?_eq {path space space' : String} {field? field?' : Option String}
    (h : Path.Names path space field?) (h' : Path.Names path space' field?') :
    field? = field?' := by
  cases h with
  | wildcard _ hwild =>
      cases h' with
      | wildcard => rfl
      | field hnone => rw [hwild] at hnone; cases hnone
  | field hnone hsegments =>
      cases h' with
      | wildcard _ hwild => rw [hnone] at hwild; cases hwild
      | field _ hsegments' =>
          rw [hsegments] at hsegments'
          cases hsegments'
          rfl

/-! ## Queries that were built -/

namespace Query

/-- A query that came about by steps that all succeeded. -/
inductive Built : Query → Prop
  | new {search : Search} {facts body : Option Facet} {workers : Value} {q : Query}
      (h : Query.new search facts body workers = .ok q) : Built q
  | scan {q q' : Query} {constraints : Assoc String Value} (hq : Built q)
      (h : q.scan constraints = .ok q') : Built q'
  | filter {q q' : Query} {constraints : Assoc String Value} (hq : Built q)
      (h : q.filter constraints = .ok q') : Built q'
  | select {q q' : Query} {arguments : List Value} (hq : Built q)
      (h : q.select arguments = .ok q') : Built q'

/-- What the checks of the steps add up to. -/
structure Sound (q : Query) : Prop where
  paths : ∀ s, q.selected = some s → ∀ path ∈ s.allPaths, q.checkPath path = .ok ()
  resolver : q.filtered ≠ [] → q.facts.isSome = true
  declared : ∀ facet fields, q.facts = some facet → facet.fields = some fields →
    ∀ k ∈ q.filtered.keys, k ∈ fields

theorem mem_of_checkNames {space : String} {known names : List String}
    (h : checkNames space known names = .ok ()) : ∀ name ∈ names, name ∈ known := by
  induction names with
  | nil => simp
  | cons name names ih =>
      rw [checkNames] at h
      split at h
      next hknown =>
          intro other hother
          rcases List.mem_cons.1 hother with rfl | hother
          · simpa using hknown
          · exact ih h other hother
      next => cases h

/-- What a filter that was accepted has checked. -/
theorem exists_facet_of_filter {q q' : Query} {constraints : Assoc String Value}
    (h : q.filter constraints = .ok q') :
    ∃ facet, q.facts = some facet ∧ q' = { q with filtered := q.filtered.merge constraints } ∧
      ∀ fields, facet.fields = some fields → ∀ k ∈ constraints.keys, k ∈ fields := by
  rw [filter] at h
  cases hfacts : q.facts with
  | none =>
      rw [hfacts] at h
      cases h
  | some facet =>
      rw [hfacts] at h
      dsimp only at h
      cases hfields : facet.fields with
      | none =>
          rw [hfields] at h
          cases h
          refine ⟨facet, rfl, rfl, fun fields h => ?_⟩
          rw [hfields] at h
          cases h
      | some fields =>
          rw [hfields] at h
          obtain ⟨_, hnames, h⟩ := bind_eq_ok.1 h
          cases h
          refine ⟨facet, rfl, rfl, fun fields' h => ?_⟩
          rw [hfields] at h
          cases h
          exact mem_of_checkNames hnames

theorem sound_of_built {q : Query} (h : q.Built) : q.Sound := by
  induction h with
  | new h =>
      obtain ⟨workers, -, h⟩ := bind_eq_ok.1 h
      cases h
      exact ⟨by rintro s ⟨⟩, fun h => absurd rfl h, by rintro facet fields - - k ⟨⟩⟩
  | scan _ h ih =>
      obtain ⟨_, _, h⟩ := bind_eq_ok.1 h
      cases h
      exact ⟨ih.paths, ih.resolver, ih.declared⟩
  | filter _ h ih =>
      obtain ⟨facet, hfacts, rfl, hknown⟩ := exists_facet_of_filter h
      refine ⟨ih.paths, fun _ => by rw [hfacts]; rfl, ?_⟩
      intro facet' fields hfacet hfields k hk
      cases hfacts.symm.trans hfacet
      -- A key of the filter is an old one, or it was checked just now.
      rcases Assoc.mem_keys_merge.1 hk with hk | hk
      · exact ih.declared facet fields hfacts hfields k hk
      · exact hknown fields hfields k hk
  | select _ h ih =>
      obtain ⟨s, _, h⟩ := bind_eq_ok.1 h
      obtain ⟨_, hcheck, h⟩ := bind_eq_ok.1 h
      obtain ⟨_, hpaths, _⟩ := bind_eq_ok.1 hcheck
      cases h
      refine ⟨?_, ih.resolver, ih.declared⟩
      rintro s ⟨⟩ path hpath
      exact forM_eq_ok_iff.1 hpaths path hpath

/-- A path that was checked names a namespace that has a resolver, and a declared field of it. -/
theorem names_of_checkPath {q : Query} {path : String} (h : q.checkPath path = .ok ()) :
    ∃ field?, Path.Names path (Path.space path) field? ∧ Path.space path ∈ spaceNames ∧
      q.hasResolver (Path.space path) = true ∧
      ∀ field known, field? = some field → q.knownFields (Path.space path) = some known →
        field ∈ known := by
  obtain ⟨⟨space, field?⟩, hsplit, h⟩ := bind_eq_ok.1 h
  have hnames := names_of_splitPath hsplit
  rw [hnames.space_eq]
  dsimp only at h
  split at h
  next hspace =>
      split at h
      next hresolver =>
          refine ⟨field?, hnames, by simpa using hspace, hresolver, ?_⟩
          rintro field known rfl hknown
          rw [hknown] at h
          dsimp only at h
          split at h
          next hfield => simpa using hfield
          next => cases h
      next => cases h
  next => cases h

namespace Sound

variable {q : Query} {s : Selection}

theorem exists_names (hq : q.Sound) (hs : q.selected = some s) :
    ∀ path ∈ s.allPaths, ∃ field?, Path.Names path (Path.space path) field? := by
  intro path hpath
  obtain ⟨field?, hnames, -⟩ := names_of_checkPath (hq.paths s hs path hpath)
  exact ⟨field?, hnames⟩

theorem space_mem (hq : q.Sound) (hs : q.selected = some s) :
    ∀ path ∈ s.allPaths, Path.space path ∈ spaceNames := by
  intro path hpath
  obtain ⟨-, -, hspace, -⟩ := names_of_checkPath (hq.paths s hs path hpath)
  exact hspace

theorem hasResolver_eq (hq : q.Sound) (hs : q.selected = some s) {path : String}
    (hpath : path ∈ s.allPaths) : q.hasResolver (Path.space path) = true := by
  obtain ⟨-, -, -, hresolver, -⟩ := names_of_checkPath (hq.paths s hs path hpath)
  exact hresolver

theorem field_mem (hq : q.Sound) (hs : q.selected = some s) {path space field : String}
    (hpath : path ∈ s.allPaths) (hnames : Path.Names path space (some field)) {known : List String}
    (hknown : q.knownFields space = some known) : field ∈ known := by
  obtain ⟨field?, hnames', -, -, hfield⟩ := names_of_checkPath (hq.paths s hs path hpath)
  rw [hnames.space_eq] at hfield
  exact hfield field known (hnames'.field?_eq hnames) hknown

end Sound

end Query

end Winnow
