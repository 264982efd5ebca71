import Winnow.Proofs.Outcome
import Winnow.Query.Flatten

/-!
# Names of a flat row

A flat row is asked for by paths, which go under their last segments, or by aliases. Either way
there is a list of names and paths to begin with, in which each wildcard stands for the fields of
its namespace (`namedPaths`), and what comes of it is the same for both (`flattens_namedPaths`): the
first path that would go under the name of another one is reported, and if there is none, the names
are those of the list and each has the value of its path.

The two are computed differently. Paths are looked through for a clash before any value is read,
aliases are placed one by one next to the paths that have come before. Both are read here as one
search along the list (`firstClash?`).
-/

namespace Winnow

/-! ## Names and paths -/

/-- No name belongs to two different paths. -/
def Consistent (entries : List (String × String)) : Prop :=
  ∀ a ∈ entries, ∀ b ∈ entries, a.1 = b.1 → a.2 = b.2

theorem Consistent.mono {entries entries' : List (String × String)} (h : Consistent entries')
    (hsubset : entries ⊆ entries') : Consistent entries :=
  fun a ha b hb => h a (hsubset ha) b (hsubset hb)

theorem consistent_cons {key path : String} {entries : List (String × String)} :
    Consistent ((key, path) :: entries) ↔
      (∀ e ∈ entries, e.1 = key → e.2 = path) ∧ Consistent entries := by
  constructor
  · intro h
    refine ⟨fun e he hkey => ?_, h.mono (List.subset_cons_self _ _)⟩
    exact h e (List.mem_cons_of_mem _ he) (key, path) List.mem_cons_self hkey
  · rintro ⟨hhead, htail⟩ a ha b hb hkey
    rcases List.mem_cons.1 ha with rfl | ha <;> rcases List.mem_cons.1 hb with rfl | hb
    · rfl
    · exact (hhead b hb hkey.symm).symm
    · exact hhead a ha hkey
    · exact htail a ha b hb hkey

/-- Entries that clash neither with the owners of their names nor among each other. -/
def Fits (owners : Assoc String String) (entries : List (String × String)) : Prop :=
  (∀ e ∈ entries, ∀ owner, owners.get? e.1 = some owner → owner = e.2) ∧ Consistent entries

section Owners

variable {owners : Assoc String String} {key path owner : String}
  {entries : List (String × String)}

theorem fits_nil_left : Fits [] entries ↔ Consistent entries :=
  ⟨And.right, fun h => ⟨by rintro e - owner ⟨⟩, h⟩⟩

theorem fits_nil_right (owners : Assoc String String) : Fits owners [] :=
  ⟨by simp, by simp [Consistent]⟩

/-- A name that is taken can only be used for the path that has it. -/
theorem fits_cons_of_some (h : owners.get? key = some owner) :
    Fits owners ((key, path) :: entries) ↔ owner = path ∧ Fits owners entries := by
  rw [Fits, Fits, List.forall_mem_cons, consistent_cons]
  constructor
  · rintro ⟨⟨hhead, htail⟩, -, hentries⟩
    exact ⟨hhead owner h, htail, hentries⟩
  · rintro ⟨rfl, htail, hentries⟩
    refine ⟨⟨fun owner' h' => ?_, htail⟩, fun e he hkey => ?_, hentries⟩
    · exact Option.some.inj (h'.symm.trans h)
    · exact (htail e he owner (hkey ▸ h)).symm

/-- A name that is free belongs to the path from then on. -/
theorem fits_cons_of_none (h : owners.get? key = none) :
    Fits owners ((key, path) :: entries) ↔ Fits (owners.insert key path) entries := by
  rw [Fits, Fits, List.forall_mem_cons, consistent_cons]
  have howner : ∀ e : String × String,
      (∀ owner, (owners.insert key path).get? e.1 = some owner → owner = e.2) ↔
        (e.1 = key → e.2 = path) ∧ ∀ owner, owners.get? e.1 = some owner → owner = e.2 := by
    intro e
    by_cases hkey : e.1 = key
    · rw [hkey, Assoc.get?_insert_self, h]
      simp [eq_comm]
    · rw [Assoc.get?_insert_of_ne hkey]
      simp [hkey]
  simp only [howner, h]
  constructor
  · rintro ⟨⟨-, htail⟩, hhead, hentries⟩
    exact ⟨fun e he => ⟨hhead e he, htail e he⟩, hentries⟩
  · rintro ⟨hboth, hentries⟩
    exact ⟨⟨by simp, fun e he => (hboth e he).2⟩, fun e he => (hboth e he).1, hentries⟩

/-! ## The first clash -/

/-- The first path that would go under the name of another one: the name, the path that has it and
the one that wants it. -/
def firstClash? (owners : Assoc String String) :
    List (String × String) → Option (String × List String)
  | [] => none
  | (key, path) :: rest =>
    match owners.get? key with
    | some owner => if owner = path then firstClash? owners rest else some (key, [owner, path])
    | none => firstClash? (owners.insert key path) rest

theorem firstClash?_cons_of_none (h : owners.get? key = none) :
    firstClash? owners ((key, path) :: entries) = firstClash? (owners.insert key path) entries := by
  simp only [firstClash?, h]

theorem firstClash?_cons_of_some (h : owners.get? key = some owner) :
    firstClash? owners ((key, path) :: entries) =
      if owner = path then firstClash? owners entries else some (key, [owner, path]) := by
  simp only [firstClash?, h]

theorem firstClash?_eq_none_iff : firstClash? owners entries = none ↔ Fits owners entries := by
  induction entries generalizing owners with
  | nil => exact ⟨fun _ => fits_nil_right owners, fun _ => rfl⟩
  | cons e entries ih =>
      obtain ⟨key, path⟩ := e
      cases hget : owners.get? key with
      | none => rw [firstClash?_cons_of_none hget, fits_cons_of_none hget, ih]
      | some owner =>
          rw [firstClash?_cons_of_some hget, fits_cons_of_some hget, ← ih]
          by_cases howner : owner = path
          · simp [howner]
          · simp [howner]

/-- **The clash that is found is the first one**: everything before it fits, and among that is the
path that has the name, unless it had it from the start. -/
theorem exists_of_firstClash?_eq_some {clash : String × List String}
    (h : firstClash? owners entries = some clash) :
    ∃ front key path back owner, entries = front ++ (key, path) :: back ∧ Fits owners front ∧
      (owners.get? key = some owner ∨ (key, owner) ∈ front) ∧ owner ≠ path ∧
      clash = (key, [owner, path]) := by
  induction entries generalizing owners with
  | nil => cases h
  | cons e entries ih =>
      obtain ⟨key, path⟩ := e
      cases hget : owners.get? key with
      | none =>
          rw [firstClash?_cons_of_none hget] at h
          obtain ⟨front, key', path', back, owner, rfl, hfits, howner, hne, hclash⟩ := ih h
          refine ⟨(key, path) :: front, key', path', back, owner, rfl,
            (fits_cons_of_none hget).2 hfits, ?_, hne, hclash⟩
          -- The owner is the path of the first entry, or it had the name before.
          rcases howner with howner | hmem
          · by_cases hkey : key' = key
            · subst hkey
              rw [Assoc.get?_insert_self] at howner
              cases howner
              exact .inr List.mem_cons_self
            · rw [Assoc.get?_insert_of_ne hkey] at howner
              exact .inl howner
          · exact .inr (List.mem_cons_of_mem _ hmem)
      | some owner =>
          rw [firstClash?_cons_of_some hget] at h
          by_cases howner : owner = path
          · rw [if_pos howner] at h
            obtain ⟨front, key', path', back, owner', rfl, hfits, hmem, hne, hclash⟩ := ih h
            exact ⟨(key, path) :: front, key', path', back, owner', rfl,
              (fits_cons_of_some hget).2 ⟨howner, hfits⟩, hmem.imp_right (List.mem_cons_of_mem _),
              hne, hclash⟩
          · rw [if_neg howner] at h
            cases h
            exact ⟨[], key, path, entries, owner, rfl, fits_nil_right owners, .inl hget, howner,
              rfl⟩

end Owners

/-! ## Both ways to ask for a row -/

/-- The row of names and paths, or the first clash among them. -/
def flattenEntries (row : Record) (entries : List (String × String)) : Except Error Row :=
  match firstClash? [] entries with
  | some (key, owners) => .error (.collision key owners)
  | none => .ok (Assoc.ofList (entries.map fun e => (e.1, Path.read row e.2)))

/-- The names and paths that a list of them stands for in a row: the fields of a wildcard go under
their own names, whatever the wildcard is called. -/
def namedPaths (row : Record) (named : List (String × String)) : List (String × String) :=
  named.flatMap fun (name, path) =>
    if Path.isWildcard path then (Path.expandOne row path).map fun p => (Path.leaf p, p)
    else [(name, path)]

theorem clashFrom_eq_firstClash? (owners : Assoc String String) (paths : List String) :
    clashFrom owners paths = firstClash? owners (paths.map fun p => (Path.leaf p, p)) := by
  induction paths generalizing owners with
  | nil => rfl
  | cons path paths ih =>
      rw [clashFrom, List.map_cons, firstClash?]
      cases owners.get? (Path.leaf path) with
      | none => exact ih _
      | some owner => simp only [ih]

/-- Paths go under their last segments. -/
theorem namedPaths_leaf (row : Record) (paths : List String) :
    namedPaths row (paths.map fun p => (Path.leaf p, p)) =
      (Path.expand row paths).map fun p => (Path.leaf p, p) := by
  rw [namedPaths, Path.expand, List.flatMap_map, List.map_flatMap]
  refine List.flatMap_congr fun path _ => ?_
  by_cases hwild : Path.isWildcard path = true
  · exact if_pos hwild
  · have hspace : Path.wildcardSpace? path = none := by
      simpa [Path.isWildcard] using hwild
    rw [Path.expandOne, hspace]
    exact if_neg hwild

theorem flatten_eq_flattenEntries (row : Record) (paths : List String) :
    flatten row paths =
      flattenEntries row (namedPaths row (paths.map fun p => (Path.leaf p, p))) := by
  rw [namedPaths_leaf, flatten, flattenEntries, clash?, clashFrom_eq_firstClash?, List.map_map]
  rfl

/-- Placing entries one by one stops at the first clash, and writes them all if there is none. -/
theorem foldlM_put_eq (row : Record) (entries : List (String × String)) (p : Placement) :
    (entries.foldlM (Placement.put row) p).map Placement.row =
      match firstClash? p.sources entries with
      | some (key, owners) => .error (.collision key owners)
      | none => .ok (p.row.merge (entries.map fun e => (e.1, Path.read row e.2))) := by
  induction entries generalizing p with
  | nil => rfl
  | cons e entries ih =>
      obtain ⟨key, path⟩ := e
      rw [List.foldlM_cons]
      cases hget : p.sources.get? key with
      | none =>
          rw [firstClash?_cons_of_none hget]
          simp only [Placement.put, hget]
          exact ih _
      | some owner =>
          rw [firstClash?_cons_of_some hget]
          simp only [Placement.put, hget]
          by_cases howner : owner = path
          · rw [if_pos howner, if_pos howner]
            exact ih _
          · rw [if_neg howner, if_neg howner]
            rfl

theorem flattenAliased_eq_flattenEntries (row : Record) (aliases : Assoc String String) :
    flattenAliased row aliases = flattenEntries row (namedPaths row aliases) := by
  have hfold := foldlM_put_eq row (namedPaths row aliases) ⟨[], []⟩
  rw [flattenEntries, Assoc.ofList, ← hfold]
  rfl

/-! ## What comes of names and paths -/

/-- What a list of names and paths comes to in a row of namespaces. -/
structure Flattens (row : Record) (entries : List (String × String))
    (result : Except Error Row) : Prop where
  /-- It fails exactly if some name has two different paths. -/
  fails : (∃ e, result = .error e) ↔ ∃ a ∈ entries, ∃ b ∈ entries, a.1 = b.1 ∧ a.2 ≠ b.2
  /-- Reported are the first entry that clashes with one before it, and the path of that one. -/
  reports : ∀ e, result = .error e → ∃ front key path back owner,
    entries = front ++ (key, path) :: back ∧ Consistent front ∧ (key, owner) ∈ front ∧
      owner ≠ path ∧ e = .collision key [owner, path]
  /-- The names stand where they first come, each with the value of its path. -/
  yields : ∀ flat, result = .ok flat → flat.keys = (entries.map Prod.fst).eraseDups ∧
    ∀ e ∈ entries, flat.get? e.1 = some (Path.read row e.2)

theorem exists_flattenEntries_iff (row : Record) {entries : List (String × String)} :
    (∃ flat, flattenEntries row entries = .ok flat) ↔ Consistent entries := by
  rw [← fits_nil_left, ← firstClash?_eq_none_iff, flattenEntries]
  cases firstClash? [] entries with
  | none => simp
  | some clash => simp

/-- Entries that agree on the path of each name write the value of that path. -/
theorem get?_ofList_of_consistent {row : Record} {entries : List (String × String)}
    (h : Consistent entries) {e : String × String} (he : e ∈ entries) :
    Assoc.get? e.1 (Assoc.ofList (entries.map fun e => (e.1, Path.read row e.2))) =
      some (Path.read row e.2) := by
  have hkey : e.1 ∈ Assoc.keys (Assoc.ofList (entries.map fun e => (e.1, Path.read row e.2))) := by
    rw [Assoc.keys_ofList, List.mem_eraseDups, Assoc.keys, List.map_map]
    exact List.mem_map_of_mem he
  obtain ⟨v, hv⟩ := Option.ne_none_iff_exists'.1 fun hnone => Assoc.get?_eq_none_iff.1 hnone hkey
  obtain ⟨d, hd, hdv⟩ := List.mem_map.1 (Assoc.mem_of_get?_ofList hv)
  obtain ⟨hname, rfl⟩ := Prod.mk.inj hdv
  rw [hv, h d hd e he hname]

theorem flattens_flattenEntries (row : Record) (entries : List (String × String)) :
    Flattens row entries (flattenEntries row entries) := by
  constructor
  · have hinconsistent : (∃ a ∈ entries, ∃ b ∈ entries, a.1 = b.1 ∧ a.2 ≠ b.2) ↔
        ¬ Consistent entries := by
      simp [Consistent]
    rw [hinconsistent, ← exists_flattenEntries_iff row]
    cases flattenEntries row entries with
    | error e => simp
    | ok flat => simp
  · intro e he
    rw [flattenEntries] at he
    split at he
    next key owners hclash =>
      cases he
      obtain ⟨front, key', path, back, owner, hsplit, hfits, howner, hne, hpair⟩ :=
        exists_of_firstClash?_eq_some hclash
      cases hpair
      exact ⟨front, key, path, back, owner, hsplit, fits_nil_left.1 hfits,
        howner.resolve_left (by rintro ⟨⟩), hne, rfl⟩
    next => cases he
  · intro flat hflat
    have hconsistent : Consistent entries := (exists_flattenEntries_iff row).1 ⟨flat, hflat⟩
    rw [flattenEntries] at hflat
    split at hflat
    next => cases hflat
    next =>
      cases hflat
      refine ⟨?_, fun e he => get?_ofList_of_consistent hconsistent he⟩
      rw [Assoc.keys_ofList, Assoc.keys, List.map_map]
      rfl

/-- **Paths and aliases obey one law.** What they come to is told by the names and paths that they
stand for; so if every alias but those of wildcards is the last segment of its path, aliases come to
the same as their paths, the same clash included. -/
theorem flattens_namedPaths (row : Record) (paths : List String) (aliases : Assoc String String) :
    Flattens row (namedPaths row (paths.map fun p => (Path.leaf p, p))) (flatten row paths) ∧
    Flattens row (namedPaths row aliases) (flattenAliased row aliases) ∧
    ((∀ e ∈ aliases, Path.isWildcard e.2 = false → e.1 = Path.leaf e.2) →
      flattenAliased row aliases = flatten row (aliases.map Prod.snd)) := by
  refine ⟨?_, ?_, fun hleaf => ?_⟩
  · rw [flatten_eq_flattenEntries]
    exact flattens_flattenEntries row _
  · rw [flattenAliased_eq_flattenEntries]
    exact flattens_flattenEntries row _
  · rw [flattenAliased_eq_flattenEntries, flatten_eq_flattenEntries]
    congr 1
    rw [namedPaths, namedPaths, List.map_map, List.flatMap_map]
    refine List.flatMap_congr fun e he => ?_
    by_cases hwild : Path.isWildcard e.2 = true
    · simp only [Function.comp_apply, hwild, if_true]
    · have hname := hleaf e he ((Bool.not_eq_true _).mp hwild)
      simp only [Function.comp_apply, hwild, ← hname]

/-- A wildcard brings in a name that a path has already. -/
theorem flattens_namedPaths_wildcard :
    let row : Record := [(.text "params", .map [(.text "title", .text "a")]),
      (.text "meta", .map [(.text "year", .int 7), (.text "title", .text "b")])]
    let aliases : Assoc String String := [("title", "params.title"), ("all", "meta.*")]
    let entries := [("title", "params.title"), ("year", "meta.year"), ("title", "meta.title")]
    (∀ e ∈ aliases, Path.isWildcard e.2 = false → e.1 = Path.leaf e.2) ∧
      namedPaths row aliases = entries ∧ Flattens row entries (flattenAliased row aliases) ∧
      flattenAliased row aliases = flatten row ["params.title", "meta.*"] ∧
      flatten row ["params.title", "meta.*"] =
        .error (.collision "title" ["params.title", "meta.title"]) := by
  intro row aliases entries
  have hleaf : ∀ e ∈ aliases, Path.isWildcard e.2 = false → e.1 = Path.leaf e.2 := by
    decide +kernel
  have hentries : namedPaths row aliases = entries := by decide +kernel
  obtain ⟨-, hlaw, hagree⟩ := flattens_namedPaths row [] aliases
  rw [hentries] at hlaw
  exact ⟨hleaf, hentries, hlaw, hagree hleaf, by cbv⟩

end Winnow
