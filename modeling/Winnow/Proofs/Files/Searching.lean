import Mathlib
import Winnow.Files.Search
import Winnow.Proofs.Files.Covering
import Winnow.Proofs.Pattern.Rebuilding

/-!
# Files are found like identifiers in memory

A search among files lists what a search in memory keeps of the paths of all files
(`listing_agrees_with_memory`). It walks the alternatives of a template and lets the pattern decide
about what it comes across; where all parameters are known, it builds the only path that can fit and
looks for that one.

The walk may be stopped, by a link that cannot be followed or by a name that is too long. What was
listed until then is right, but files may be missing. A link that leads through a file, as if it
were a directory, makes its directory look empty; such trees are left out here. So are patterns that
refuse to build a path that they match, if all parameters are known.
-/

namespace Winnow

open Pattern Files

/-! ## Constraints -/

theorem mem_expectedTexts {constraints : Assoc String Value} {k t : String} :
    (k, t) ∈ expectedTexts constraints ↔ ∃ v, (k, v) ∈ constraints ∧ v ≠ .null ∧ t = v.plain := by
  rw [expectedTexts, List.mem_filterMap]
  constructor
  · rintro ⟨⟨k', v⟩, hv, he⟩
    cases v with
    | null => cases he
    | _ =>
        cases he
        exact ⟨_, hv, by simp, rfl⟩
  · rintro ⟨v, hv, hnull, rfl⟩
    refine ⟨(k, v), hv, ?_⟩
    cases v with
    | null => exact absurd rfl hnull
    | _ => rfl

theorem nodup_keys_expectedTexts {constraints : Assoc String Value}
    (h : constraints.keys.Nodup) : (Assoc.keys (expectedTexts constraints)).Nodup := by
  refine List.Nodup.sublist ?_ h
  clear h
  induction constraints with
  | nil => exact .slnil
  | cons e constraints ih =>
      obtain ⟨k, v⟩ := e
      cases v with
      | null => exact .cons _ ih
      | _ => exact .cons_cons _ ih

theorem meets_iff {expected params : Assoc String String} :
    meets expected params = true ↔ ∀ e ∈ expected, params.get? e.1 = some e.2 := by
  rw [meets, List.all_eq_true]
  simp

/-! ## Selecting -/

section Select

variable {p : Pattern} {expected : Assoc String String} {ids : List String}

theorem select_fault (h : ∀ id, ∃ params?, p.extract id = .ok params?) :
    (select p expected ids).fault = none := by
  induction ids with
  | nil => rfl
  | cons id ids ih =>
      obtain ⟨params?, hparams⟩ := h id
      rw [select, hparams]
      dsimp only
      split
      · exact ih
      · exact ih

/-- What is selected are the identifiers whose parameters meet what is expected. -/
theorem mem_select (h : ∀ id, ∃ params?, p.extract id = .ok params?) {id : String} :
    id ∈ (select p expected ids).ids ↔
      id ∈ ids ∧ ∃ params, p.extract id = .ok (some params) ∧ meets expected params = true := by
  induction ids with
  | nil => simp [select]
  | cons id' ids ih =>
      obtain ⟨params?, hparams⟩ := h id'
      rw [select, hparams]
      dsimp only
      by_cases hmeets : params?.any (meets expected) = true
      · rw [if_pos hmeets, List.mem_cons, List.mem_cons, ih]
        constructor
        · rintro (rfl | ⟨hid, hp⟩)
          · obtain ⟨params, rfl, hm⟩ := (Option.any_eq_true _ _).1 hmeets
            exact ⟨.inl rfl, params, hparams, hm⟩
          · exact ⟨.inr hid, hp⟩
        · rintro ⟨rfl | hid, hp⟩
          · exact .inl rfl
          · exact .inr ⟨hid, hp⟩
      · rw [if_neg hmeets, List.mem_cons, ih]
        constructor
        · rintro ⟨hid, hp⟩
          exact ⟨.inr hid, hp⟩
        · rintro ⟨rfl | hid, params, hp, hm⟩
          · rw [hparams] at hp
            cases hp
            exact absurd hm hmeets
          · exact ⟨hid, params, hp, hm⟩

theorem select_sublist : (select p expected ids).ids.Sublist ids := by
  induction ids with
  | nil => exact .slnil
  | cons id ids ih =>
      rw [select]
      split
      · exact List.nil_sublist _
      · dsimp only
        split
        · exact .cons_cons _ ih
        · exact .cons _ ih

end Select

/-! ## Known values -/

namespace Files.FileSearch

variable {constraints : Assoc String Value}

theorem expectedTexts_knownValues (constraints : Assoc String Value) :
    expectedTexts (knownValues constraints) = expectedTexts constraints := by
  induction constraints with
  | nil => rfl
  | cons e constraints ih =>
      obtain ⟨k, v⟩ := e
      cases v with
      | null => exact ih
      | _ => exact congrArg (List.cons (k, _)) ih

theorem mem_expectedTexts_of_pinnedValue? {values : Assoc String Value} {name t : String}
    (h : pinnedValue? values name = some t) :
    ∃ v, values.get? name = some v ∧ v ≠ .null ∧ t = v.plain ∧
      (name, t) ∈ expectedTexts values := by
  obtain ⟨v, hget, hv, ht⟩ := exists_of_pinnedValue?_eq_some h
  exact ⟨v, hget, hv, ht, mem_expectedTexts.2 ⟨v, Assoc.mem_of_get?_eq_some hget, hv, ht⟩⟩

/-- Mappings with the same entries, in whatever order. -/
theorem sameEntries_iff_perm {a b : Assoc String String} (ha : a.keys.Nodup) (hb : b.keys.Nodup) :
    sameEntries a b = true ↔ a.Perm b := by
  have hnodup : a.Nodup := List.Nodup.of_map Prod.fst ha
  rw [sameEntries, Bool.and_eq_true, List.all_eq_true, beq_iff_eq]
  constructor
  · rintro ⟨hlength, hentries⟩
    have hsub : a ⊆ b := by
      rintro ⟨k, v⟩ he
      exact Assoc.mem_of_get?_eq_some (by simpa using hentries _ he)
    exact (List.subperm_of_subset hnodup hsub).perm_of_length_le hlength.ge
  · intro hperm
    refine ⟨hperm.length_eq, ?_⟩
    rintro ⟨k, v⟩ he
    simpa using (Assoc.get?_eq_some_iff_mem hb).2 (hperm.subset he)

section Pinned

variable {s : FileSearch}

/-- Looking for the only path that fits never fails: a path that cannot be built is none. -/
theorem exists_pinnedPath? (h : ∀ id, ∃ params?, s.pattern.extract id = .ok params?) :
    ∃ path?, s.pinnedPath? constraints = .ok path? := by
  rw [pinnedPath?]
  cases hbuild : s.pattern.build constraints with
  | error e =>
      cases buildFault_of_build hbuild with
      | value => exact ⟨none, rfl⟩
      | missing => exact ⟨none, rfl⟩
  | ok path =>
      obtain ⟨params?, hparams⟩ := h path
      dsimp only
      rw [hparams]
      cases params? with
      | none => exact ⟨none, rfl⟩
      | some params => exact ⟨_, rfl⟩

theorem pinnedPath?_eq_some {path : String} :
    s.pinnedPath? constraints = .ok (some path) ↔ s.pattern.build constraints = .ok path ∧
      ∃ params, s.pattern.extract path = .ok (some params) ∧
        sameEntries params (expectedTexts constraints) = true := by
  rw [pinnedPath?]
  cases hbuild : s.pattern.build constraints with
  | error e =>
      cases buildFault_of_build hbuild
      all_goals
        constructor
        · rintro ⟨⟩
        · rintro ⟨⟨⟩, -⟩
  | ok built =>
      dsimp only
      constructor
      · intro h
        obtain ⟨params?, hparams, h⟩ := bind_eq_ok.1 h
        cases params? with
        | none => cases h
        | some params =>
            dsimp only at h
            split at h
            next hsame =>
                cases h
                exact ⟨rfl, params, hparams, hsame⟩
            next => cases h
      · rintro ⟨hpath, params, hparams, hsame⟩
        cases hpath
        refine bind_eq_ok.2 ⟨some params, hparams, ?_⟩
        dsimp only
        rw [if_pos hsame]
        rfl

end Pinned

/-! ## Candidates -/

theorem splitOn_names {names : List String} (hne : names ≠ []) (h : ∀ name ∈ names, IsName name) :
    Text.splitOn separator ("/".intercalate names).toList = names.map String.toList ∧
      [] ∉ names.map String.toList := by
  constructor
  · exact Text.splitOn_toList_intercalate rfl hne fun name hname => (h name hname).noSeparator
  · intro hnil
    obtain ⟨name, hname, hempty⟩ := List.mem_map.1 hnil
    exact (h name hname).ne_empty (String.toList_eq_nil_iff.1 hempty)

/-- The names to be looked up are segments of the template. -/
theorem mem_of_name_mem_ofPattern {segments : List String} {n : String}
    (h : .name n ∈ Segment.ofPattern segments) : n ∈ segments ∧ n ≠ "" := by
  obtain ⟨x, hx, htext⟩ := List.mem_map.1 h
  obtain ⟨hx, hne⟩ := List.mem_filter.1 hx
  have hxn : x = n := by
    rw [Segment.ofText] at htext
    split at htext
    · cases htext
    · split at htext
      · cases htext
      · exact Segment.name.inj htext
  subst hxn
  exact ⟨hx, by simpa using hne⟩

section Candidates

variable {s : FileSearch} {place : Files.Place} {template : Template}

theorem walk_root (hroot : s.disk.find s.root = .ok (.dir place)) (segments : List Segment) :
    s.disk.walk s.root segments = walk segments ⟨place, s.root, ""⟩ := by
  rw [Disk.walk, hroot]

variable (hroot : s.disk.find s.root = .ok (.dir place))
  (hdots : ∀ a ∈ template.alternatives, "." ∉ pieces a ∧ ".." ∉ pieces a)

include hdots in
theorem isPlain_of_mem {a n : String} (ha : a ∈ template.alternatives)
    (hn : .name n ∈ Segment.ofPattern (pieces a)) : IsPlain n := by
  obtain ⟨hmem, hne⟩ := mem_of_name_mem_ofPattern hn
  refine ⟨hne, ?_, ?_⟩
  · rintro rfl
    exact (hdots a ha).1 hmem
  · rintro rfl
    exact (hdots a ha).2 hmem

include hroot hdots in
theorem exists_of_mem_candidates {rel : String} (h : rel ∈ (s.candidates template).ids) :
    ∃ names, place.FileAt names ∧ rel = "/".intercalate names := by
  obtain ⟨l, hl, hrel⟩ := exists_of_mem_concat (mem_distinct.1 h)
  obtain ⟨a, ha, rfl⟩ := List.mem_map.1 hl
  rw [walk_root hroot] at hrel
  obtain ⟨names, hfile, -, rfl⟩ := exists_of_mem_walk (fun n => isPlain_of_mem hdots ha) hrel
  exact ⟨names, hfile, String.empty_append⟩

include hroot hdots in
theorem blocked_of_fault_candidates {e : Error} (h : (s.candidates template).fault = some e) :
    ∃ a ∈ template.alternatives, Blocked place (Segment.ofPattern (pieces a)) e := by
  obtain ⟨l, hl, hfault⟩ := exists_of_fault_concat h
  obtain ⟨a, ha, rfl⟩ := List.mem_map.1 hl
  rw [walk_root hroot] at hfault
  exact ⟨a, ha, blocked_of_fault (fun n => isPlain_of_mem hdots ha) hfault⟩

include hroot in
theorem mem_candidates (horderly : ∀ q, place.Below q → q.Orderly)
    (hlinks : ¬ place.Broken .notDirectory) (h : (s.candidates template).fault = none) {a : String}
    (ha : a ∈ template.alternatives) {names : List String} (hfile : place.FileAt names)
    (hfits : Fits (Segment.ofPattern (pieces a)) names) :
    "/".intercalate names ∈ (s.candidates template).ids := by
  obtain ⟨hfault, hids⟩ := of_fault_concat_eq_none h _ (List.mem_map_of_mem ha)
  rw [walk_root hroot] at hfault hids
  have hwalk := hids _ (mem_walk horderly hlinks hfault hfile hfits)
  rw [String.empty_append] at hwalk
  exact mem_distinct.2 hwalk

theorem nodup_candidates : (s.candidates template).ids.Nodup := nodup_distinct _

end Candidates

/-! ## Paths that meet the constraints -/

section Paths

variable {p : Pattern} {tokens : List Token} {nodes : List Regex.Node} {scope : Regex.Scope}
  {rel : String} {params : Assoc String String} {values : Assoc String Value}

/-- A path whose parameters meet what is expected is tiled with the known values. -/
theorem exists_tiling_of_meets (hmade : Made p tokens nodes scope)
    (hparams : p.extract rel = .ok (some params))
    (hmeets : meets (expectedTexts values) params = true) :
    ∃ d : Part → Choice, (∀ part ∈ p.parts, part.Fits (d part)) ∧
      (∀ part ∈ p.parts, part.isClean (d part) = true) ∧ textOf p.parts d = rel.toList ∧
      ∀ q fold v, .param q fold ∈ p.parts → pinnedValue? values q.name = some v →
        d (.param q fold) = some v.toList := by
  refine exists_tiling_of_known hmade hparams fun q _ text htext => ?_
  obtain ⟨-, -, -, -, hexpected⟩ := mem_expectedTexts_of_pinnedValue? htext
  exact meets_iff.1 hmeets _ hexpected

theorem nodup_keys_of_extract (hmade : Made p tokens nodes scope)
    (hparams : p.extract rel = .ok (some params)) :
    params.keys.Nodup ∧ ∀ k ∈ params.keys, ∃ q ∈ p.params, q.name = k := by
  obtain ⟨d, -, -, -, rfl⟩ := hmade.exists_tiling hparams
  have hsub := keys_valuesOf_sublist p.parts d
  rw [hmade.filterMap_param?] at hsub
  exact ⟨hmade.nodup_names.sublist hsub, fun k hk => List.mem_map.1 (hsub.subset hk)⟩

/-- Known values for all parameters build the path that has them. -/
theorem build_eq_of_meets (hmade : Made p tokens nodes scope)
    (hlocal : ∀ e ∈ p.constraints, e.2.isLocal = true)
    (hflat : ∀ e ∈ p.constraints, e.2.settlesFlat = true)
    (hpinned : (p.template values).pinned = true) (hparams : p.extract rel = .ok (some params))
    (hmeets : meets (expectedTexts values) params = true) : p.build values = .ok rel := by
  obtain ⟨d, hfits, hclean, htext, hknown⟩ := exists_tiling_of_meets hmade hparams hmeets
  have hgiven : ∀ part ∈ p.parts, part.Given values (d part) := by
    intro part hpart
    cases part with
    | literal => trivial
    | param q fold =>
        obtain ⟨t, ht⟩ :=
          Option.isSome_iff_exists.1 (List.all_eq_true.1 hpinned q (hmade.mem_params hpart))
        obtain ⟨v, hget, hnull, rfl, -⟩ := mem_expectedTexts_of_pinnedValue? ht
        have hd := hknown q fold _ hpart ht
        rw [hd, Part.Given, hget]
        refine ⟨?_, by rw [Option.map_some, String.ofList_toList]⟩
        cases v with
        | null => exact absurd rfl hnull
        | text x =>
            have hset := isUnset_text (hd ▸ hfits _ hpart)
            rwa [Value.plain, String.ofList_toList] at hset
        | _ => rfl
  rw [build_eq_of_given hfits hclean hgiven, htext, String.ofList_toList]
  intro q fold v c node hq hv hc hnode
  exact hmade.isSome_fullMatch hlocal hflat hq (hv ▸ hfits _ hq) hc hnode

/-- If all parameters have known values, what meets them has nothing else. -/
theorem sameEntries_of_meets (hmade : Made p tokens nodes scope) (hvalues : values.keys.Nodup)
    (hpinned : (p.template values).pinned = true) (hparams : p.extract rel = .ok (some params))
    (hmeets : meets (expectedTexts values) params = true) :
    sameEntries params (expectedTexts values) = true := by
  obtain ⟨hnodup, hnames⟩ := nodup_keys_of_extract hmade hparams
  have hexpected := nodup_keys_expectedTexts hvalues
  have hmet := meets_iff.1 hmeets
  rw [sameEntries_iff_perm hnodup hexpected]
  refine (List.perm_ext_iff_of_nodup (.of_map _ hnodup) (.of_map _ hexpected)).2 ?_
  rintro ⟨k, t⟩
  constructor
  · intro he
    obtain ⟨q, hq, rfl⟩ := hnames k (List.mem_map.2 ⟨_, he, rfl⟩)
    obtain ⟨t', ht'⟩ := Option.isSome_iff_exists.1 (List.all_eq_true.1 hpinned q hq)
    obtain ⟨-, -, -, -, hmem⟩ := mem_expectedTexts_of_pinnedValue? ht'
    have hget := hmet _ hmem
    rw [(Assoc.get?_eq_some_iff_mem hnodup).2 he] at hget
    rw [Option.some.inj hget]
    exact hmem
  · intro he
    exact Assoc.mem_of_get?_eq_some (hmet _ he)

theorem meets_of_sameEntries (hmade : Made p tokens nodes scope) (hvalues : values.keys.Nodup)
    (hparams : p.extract rel = .ok (some params))
    (hsame : sameEntries params (expectedTexts values) = true) :
    meets (expectedTexts values) params = true := by
  obtain ⟨hnodup, -⟩ := nodup_keys_of_extract hmade hparams
  have hperm := (sameEntries_iff_perm hnodup (nodup_keys_expectedTexts hvalues)).1 hsame
  refine meets_iff.2 fun e he => ?_
  exact (Assoc.get?_eq_some_iff_mem hnodup).2 (hperm.symm.subset he)

end Paths

section Search

variable {s : FileSearch} {source : String} {tokens : List Token} {nodes : List Regex.Node}
  {scope : Regex.Scope} {rel : String}

theorem nodup_keys_knownValues (hc : constraints.keys.Nodup) :
    (Assoc.keys (knownValues constraints)).Nodup :=
  hc.sublist (List.filter_sublist.map Prod.fst)

/-- The paths of a search are candidates that meet the constraints. -/
theorem of_mem_paths (hmade : Made s.pattern tokens nodes scope) (hc : constraints.keys.Nodup)
    (h : rel ∈ (s.paths constraints).ids) :
    rel ∈ (s.candidates (s.pattern.template (knownValues constraints))).ids ∧
      ∃ params, s.pattern.extract rel = .ok (some params) ∧
        meets (expectedTexts constraints) params = true := by
  rw [paths] at h
  dsimp only at h
  split at h
  · split at h
    · cases h
    · cases h
    next path hpath =>
        obtain ⟨-, params, hparams, hsame⟩ := pinnedPath?_eq_some.1 hpath
        obtain ⟨hrel, he⟩ := List.mem_filter.1 h
        have he : rel = path := by simpa using he
        subst he
        refine ⟨hrel, params, hparams, ?_⟩
        rw [← expectedTexts_knownValues]
        exact meets_of_sameEntries hmade (nodup_keys_knownValues hc) hparams hsame
  · obtain ⟨hrel, hparams⟩ := (mem_select fun id => ⟨_, hmade.extract_eq id⟩).1 h
    rw [expectedTexts_knownValues] at hparams
    exact ⟨hrel, hparams⟩

/-- Every candidate that meets the constraints is among the paths, which end where the candidates
end. -/
theorem mem_paths (hmade : Made s.pattern tokens nodes scope) (hc : constraints.keys.Nodup)
    (hpinned : (s.pattern.template (knownValues constraints)).pinned = true →
      ∀ e ∈ s.pattern.constraints, e.2.isLocal = true ∧ e.2.settlesFlat = true)
    {params : Assoc String String} (hparams : s.pattern.extract rel = .ok (some params))
    (hmeets : meets (expectedTexts constraints) params = true)
    (h : (s.paths constraints).fault = none) :
    (s.candidates (s.pattern.template (knownValues constraints))).fault = none ∧
      (rel ∈ (s.candidates (s.pattern.template (knownValues constraints))).ids →
        rel ∈ (s.paths constraints).ids) := by
  have hknown := nodup_keys_knownValues hc
  rw [← expectedTexts_knownValues] at hmeets
  rw [paths] at h ⊢
  dsimp only at h ⊢
  split at h
  next hall =>
      have hpath : s.pinnedPath? (knownValues constraints) = .ok (some rel) := by
        refine pinnedPath?_eq_some.2 ⟨?_, params, hparams, ?_⟩
        · exact build_eq_of_meets hmade (fun e he => (hpinned hall e he).1)
            (fun e he => (hpinned hall e he).2) hall hparams hmeets
        · exact sameEntries_of_meets hmade hknown hall hparams hmeets
      rw [hpath] at h
      rw [if_pos hall, hpath]
      exact ⟨h, fun hrel => List.mem_filter.2 ⟨hrel, beq_self_eq_true rel⟩⟩
  next hsome =>
      have hextract := fun id => (⟨_, hmade.extract_eq id⟩ : ∃ params?, _ = Except.ok params?)
      rw [if_neg hsome]
      dsimp only at h ⊢
      rw [select_fault hextract] at h
      exact ⟨h, fun hrel => (mem_select hextract).2 ⟨hrel, params, hparams, hmeets⟩⟩

theorem fault_candidates_of_fault_paths (hmade : Made s.pattern tokens nodes scope) {e : Error}
    (h : (s.paths constraints).fault = some e) :
    (s.candidates (s.pattern.template (knownValues constraints))).fault = some e := by
  have hextract := fun id => (⟨_, hmade.extract_eq id⟩ : ∃ params?, _ = Except.ok params?)
  rw [paths] at h
  dsimp only at h
  split at h
  · obtain ⟨path?, hpath⟩ : ∃ path?, s.pinnedPath? (knownValues constraints) = .ok path? :=
      exists_pinnedPath? hextract
    rw [hpath] at h
    cases path? with
    | none => cases h
    | some path => exact h
  · dsimp only at h
    rw [select_fault hextract] at h
    exact h

theorem nodup_paths : (s.paths constraints).ids.Nodup := by
  rw [paths]
  dsimp only
  split
  · split
    · exact .nil
    · exact .nil
    · exact nodup_candidates.filter _
  · exact nodup_candidates.sublist select_sublist

theorem extract_head_append {params : Assoc String String}
    (h : s.pattern.extract rel = .ok (some params)) : s.extract (s.head ++ rel) = .ok params := by
  have hrelative : s.relative? (s.head ++ rel) = some rel := by
    have hdrop : Text.dropHead? s.head.toList (s.head ++ rel).toList = some rel.toList :=
      Text.dropHead?_eq_some_iff.2 String.toList_append
    rw [relative?, hdrop]
    exact congrArg some String.ofList_toList
  rw [extract, hrelative]
  dsimp only
  rw [h]
  rfl

/-- A file whose parameters meet the constraints is listed. -/
theorem mem_paths_of_fileAt {place : Files.Place} (hmade : Made s.pattern tokens nodes scope)
    (hroot : s.disk.find s.root = .ok (.dir place)) (horderly : ∀ q, place.Below q → q.Orderly)
    (hlinks : ¬ place.Broken .notDirectory) (hc : constraints.keys.Nodup)
    (hpinned : (s.pattern.template (knownValues constraints)).pinned = true →
      ∀ e ∈ s.pattern.constraints, e.2.isLocal = true ∧ e.2.settlesFlat = true)
    (hend : (s.paths constraints).fault = none) {names : List String} (hat : place.FileAt names)
    {params : Assoc String String}
    (hparams : s.pattern.extract ("/".intercalate names) = .ok (some params))
    (hmeets : meets (expectedTexts constraints) params = true) :
    "/".intercalate names ∈ (s.paths constraints).ids := by
  obtain ⟨hfault, hmem⟩ := mem_paths hmade hc hpinned hparams hmeets hend
  -- The file is a candidate, by the alternative that fits its tiling.
  obtain ⟨hsplit, hnonempty⟩ := splitOn_names hat.ne_nil (hat.isName horderly)
  rw [← expectedTexts_knownValues] at hmeets
  obtain ⟨d, hfits, hclean, htext, hknown⟩ := exists_tiling_of_meets hmade hparams hmeets
  obtain ⟨a, ha, hnames⟩ := exists_alternative hmade.proper hfits hclean hknown
    (by rwa [htext, hsplit])
  have hroundtrip : (names.map String.toList).map String.ofList = names := by
    rw [List.map_map]
    exact List.map_id'' (fun _ => String.ofList_toList) names
  rw [htext, hsplit, hroundtrip] at hnames
  exact hmem (mem_candidates hroot horderly hlinks hfault ha hat hnames)

/-- **Searching among files is searching in memory among the paths of all files.** What is listed is
right, each item once, and its parameters can be read. A listing that comes to its end has
everything, where no link leads through a file, and building takes what matching yields if all
parameters are known. What stops a listing is a link that cannot be followed or a name that is too
long. -/
theorem listing_agrees_with_memory {place : Files.Place} {files : List String}
    (hp : compile source = .ok s.pattern) (hroot : s.disk.find s.root = .ok (.dir place))
    (horderly : ∀ q, place.Below q → q.Orderly)
    (hfiles : ∀ rel, rel ∈ files ↔ ∃ names, place.FileAt names ∧ rel = "/".intercalate names)
    (hc : constraints.keys.Nodup)
    (hdots : ∀ a ∈ (s.pattern.template (knownValues constraints)).alternatives,
      "." ∉ pieces a ∧ ".." ∉ pieces a) :
    (s.search.listing constraints).ids.Nodup ∧
    (∀ id ∈ (s.search.listing constraints).ids,
      (∃ rel ∈ ((memorySearch s.pattern files).listing constraints).ids, id = s.head ++ rel) ∧
      ∃ params, s.search.extract id = .ok params ∧
        meets (expectedTexts constraints) params = true) ∧
    ((s.search.listing constraints).fault = none → ¬ place.Broken .notDirectory →
      ((s.pattern.template (knownValues constraints)).pinned = true →
        ∀ e ∈ s.pattern.constraints, e.2.isLocal = true ∧ e.2.settlesFlat = true) →
      ∀ rel ∈ ((memorySearch s.pattern files).listing constraints).ids,
        s.head ++ rel ∈ (s.search.listing constraints).ids) ∧
    ((memorySearch s.pattern files).listing constraints).fault = none ∧
    ∀ e, (s.search.listing constraints).fault = some e →
      ∃ a ∈ (s.pattern.template (knownValues constraints)).alternatives,
        Blocked place (Segment.ofPattern (pieces a)) e := by
  obtain ⟨-, tokens, nodes, scope, hmade⟩ := made_of_compile hp
  have hextract := fun id => (⟨_, hmade.extract_eq id⟩ : ∃ params?, _ = Except.ok params?)
  refine ⟨?_, ?_, ?_, select_fault hextract, ?_⟩
  · exact nodup_paths.map fun _ _ h => (String.append_right_inj s.head).1 h
  · intro id hid
    obtain ⟨rel, hrel, rfl⟩ := List.mem_map.1 hid
    obtain ⟨hcandidate, params, hparams, hmeets⟩ := of_mem_paths hmade hc hrel
    have hfile := (hfiles rel).2 (exists_of_mem_candidates hroot hdots hcandidate)
    refine ⟨⟨rel, ?_, rfl⟩, params, extract_head_append hparams, hmeets⟩
    exact (mem_select hextract).2 ⟨hfile, params, hparams, hmeets⟩
  · intro hend hlinks hpinned rel hrel
    obtain ⟨hfile, params, hparams, hmeets⟩ := (mem_select hextract).1 hrel
    obtain ⟨names, hat, rfl⟩ := (hfiles rel).1 hfile
    exact List.mem_map_of_mem (mem_paths_of_fileAt hmade hroot horderly hlinks hc hpinned hend hat
      hparams hmeets)
  · intro e he
    exact blocked_of_fault_candidates hroot hdots (fault_candidates_of_fault_paths hmade he)

/-- The note of a year, in the directory of this year. -/
theorem listing_agrees_with_memory_year :
    let entries : Entries := [("2024", .dir [("a.md", .file [])])]
    let known : Assoc String Value := [("year", .text "2024")]
    ∃ p, compile "\x7byear\x7d/\x7bslug\x7d.md" = .ok p ∧
      ((memorySearch p ["2024/a.md"]).listing known).ids = ["2024/a.md"] ∧
      let s : FileSearch := ⟨⟨[("r", .dir entries)], "/"⟩, "/r", p⟩
      (s.search.listing known).ids.Nodup ∧ s.head ++ "2024/a.md" ∈ (s.search.listing known).ids := by
  intro entries known
  have hfacts : (compile "\x7byear\x7d/\x7bslug\x7d.md").toOption.map (fun p =>
      let s : FileSearch := ⟨⟨[("r", .dir entries)], "/"⟩, "/r", p⟩
      ((p.template (knownValues known)).alternatives, (p.template (knownValues known)).pinned,
        ((memorySearch p ["2024/a.md"]).listing known).ids, (s.search.listing known).fault)) =
      some (["2024/*.md"], false, ["2024/a.md"], none) := by cbv
  let place : Files.Place := ⟨entries, [[("r", .dir entries)]]⟩
  have hroot : Disk.find ⟨[("r", .dir entries)], "/"⟩ "/r" = .ok (.dir place) := by cbv
  have hbelow : ∀ q, place.Below q → q.here = entries ∨ q.here = [("a.md", .file [])] := by
    intro q hq
    cases hq with
    | refl => exact .inl rfl
    | enter he hq =>
        cases List.mem_singleton.1 he
        cases hq with
        | refl => exact .inr rfl
        | enter he => cases List.mem_singleton.1 he
  have horderly : ∀ q, place.Below q → q.Orderly := by
    intro q hq
    rcases hbelow q hq with h | h <;> constructor <;> rw [h] <;> decide
  have hlinks : ¬ place.Broken .notDirectory := by
    rintro ⟨q, hq, e, he, hkind⟩
    rcases hbelow q hq with h | h
    all_goals
      rw [h] at he
      cases List.mem_singleton.1 he
      cases hkind
  have hfiles : ∀ rel, rel ∈ ["2024/a.md"] ↔
      ∃ names, place.FileAt names ∧ rel = "/".intercalate names := by
    intro rel
    rw [List.mem_singleton]
    constructor
    · rintro rfl
      exact ⟨["2024", "a.md"], .enter List.mem_cons_self (.file List.mem_cons_self rfl), by decide⟩
    · rintro ⟨names, hat, rfl⟩
      cases hat with
      | file he hkind =>
          cases List.mem_singleton.1 he
          cases hkind
      | enter he hat =>
          cases List.mem_singleton.1 he
          cases hat with
          | file he =>
              cases List.mem_singleton.1 he
              decide
          | enter he => cases List.mem_singleton.1 he
  obtain ⟨p, hp, hfacts⟩ := exists_ok_of_toOption_map hfacts
  simp only [Prod.mk.injEq] at hfacts
  obtain ⟨halternatives, hpinned, hmemory, hfault⟩ := hfacts
  let s : FileSearch := ⟨⟨[("r", .dir entries)], "/"⟩, "/r", p⟩
  have hdots : ∀ a ∈ (s.pattern.template (knownValues known)).alternatives,
      "." ∉ pieces a ∧ ".." ∉ pieces a := by
    rw [halternatives]
    decide
  have hagrees := listing_agrees_with_memory (s := s) hp hroot horderly hfiles (by decide) hdots
  refine ⟨p, hp, hmemory, hagrees.1, hagrees.2.2.1 hfault hlinks ?_ _ ?_⟩
  · intro h
    rw [hpinned] at h
    cases h
  · rw [hmemory]
    exact List.mem_singleton_self _

/-- A link that leads to itself stops the search among files. If all parameters are known, it looks
for a path that can be built from them; here none can, since the constraint does not take the value
alone. -/
theorem listing_differs_from_memory :
    (∃ p, compile "\x7bx\x7d.md" = .ok p ∧
      ((memorySearch p ["a.md"]).listing []).ids = ["a.md"] ∧
      let s : FileSearch := ⟨⟨[("r", .dir [("a.md", .file []), ("z", .link "z")])], "/"⟩, "/r", p⟩
      (s.search.listing []).ids = [] ∧
        (s.search.listing []).fault = some (.file .tooManyLinks "/r/z")) ∧
    ∃ p, compile "\x7bx:(?>(?>abbc|a)b|abb)\x7dc" = .ok p ∧
      (∀ e ∈ p.constraints, e.2.isLocal = true) ∧
      ((memorySearch p ["abbc"]).listing [("x", .text "abb")]).ids = ["abbc"] ∧
      let s : FileSearch := ⟨⟨[("r", .dir [("abbc", .file [])])], "/"⟩, "/r", p⟩
      (s.search.listing [("x", .text "abb")]).ids = [] ∧
        (s.search.listing [("x", .text "abb")]).fault = none := by
  constructor
  · have hfacts : (compile "\x7bx\x7d.md").toOption.map (fun p =>
        let s : FileSearch := ⟨⟨[("r", .dir [("a.md", .file []), ("z", .link "z")])], "/"⟩, "/r", p⟩
        (((memorySearch p ["a.md"]).listing []).ids, (s.search.listing []).ids,
          (s.search.listing []).fault)) =
        some (["a.md"], [], some (.file .tooManyLinks "/r/z")) := by cbv
    obtain ⟨p, hp, hfacts⟩ := exists_ok_of_toOption_map hfacts
    simp only [Prod.mk.injEq] at hfacts
    exact ⟨p, hp, hfacts⟩
  · have hfacts : (compile "\x7bx:(?>(?>abbc|a)b|abb)\x7dc").toOption.map (fun p =>
        let s : FileSearch := ⟨⟨[("r", .dir [("abbc", .file [])])], "/"⟩, "/r", p⟩
        (p.constraints.all fun e => e.2.isLocal,
          ((memorySearch p ["abbc"]).listing [("x", .text "abb")]).ids,
          (s.search.listing [("x", .text "abb")]).ids,
          (s.search.listing [("x", .text "abb")]).fault)) =
        some (true, ["abbc"], [], none) := by cbv
    obtain ⟨p, hp, hfacts⟩ := exists_ok_of_toOption_map hfacts
    simp only [Prod.mk.injEq, List.all_eq_true] at hfacts
    exact ⟨p, hp, hfacts⟩

end Search

end Files.FileSearch

end Winnow
