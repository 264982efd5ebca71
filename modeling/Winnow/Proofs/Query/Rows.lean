import Winnow.Proofs.Outcome
import Winnow.Proofs.Text.Splitting
import Winnow.Query.Plan

/-!
# What a flat row depends on

A flat row is made from a row of namespaces, of which it reads only the selected paths. Two rows of
namespaces that agree on those (`Path.Agrees`) give the same flat row, with the same names in the
same order, or the same clash (`Selection.flatten_congr`). For a wildcard they have to agree on the
whole namespace, since its fields name the output.
-/

namespace Winnow

theorem Value.text_beq (a b : String) : (Value.text a == Value.text b) = (a == b) := by
  show Value.eq (.text a) (.text b) = _
  rw [Value.eq] <;> simp [Value.eqScalar]

@[simp] theorem Record.field?_nil (name : String) : Record.field? name [] = none := rfl

@[simp] theorem Record.field?_cons (name key : String) (v : Value) (r : Record) :
    Record.field? name ((.text key, v) :: r) = if name = key then some v else r.field? name := by
  rw [Record.field?, Assoc.get?, Value.text_beq]
  simp only [beq_iff_eq]
  rfl

theorem Value.text_beq_eq_true {a : String} {v : Value} (h : (Value.text a == v) = true) :
    v = .text a := by
  have heq : Value.eq (.text a) v = true := h
  cases v with
  | text b =>
      have hab : (Value.text a == Value.text b) = true := h
      rw [Value.text_beq, beq_iff_eq] at hab
      rw [hab]
  | _ =>
      rw [Value.eq] at heq
      · simp [Value.eqScalar] at heq
      all_goals simp

/-- Writing a field. Keys that are no texts cannot get in the way. -/
theorem Record.field?_insert (name key : String) (v : Value) (r : Record) :
    Record.field? name (Assoc.insert r (.text key) v) =
      if name = key then some v else r.field? name := by
  induction r with
  | nil => exact Record.field?_cons name key v []
  | cons e r ih =>
      obtain ⟨k, v'⟩ := e
      rw [Assoc.insert]
      by_cases hk : (Value.text key == k) = true
      · rw [if_pos hk, Value.text_beq_eq_true hk, Record.field?_cons, Record.field?_cons]
        by_cases hname : name = key
        · rw [if_pos hname, if_pos hname]
        · rw [if_neg hname, if_neg hname, if_neg hname]
      · have hstep : ∀ m : Record, Record.field? name ((k, v') :: m) =
            if (Value.text name == k) = true then some v' else m.field? name := fun _ => rfl
        rw [if_neg hk, hstep, hstep, ih]
        by_cases hname : name = key
        · subst hname
          rw [if_neg hk, if_pos rfl, if_pos rfl]
        · rw [if_neg hname, if_neg hname]

namespace ResultRow

variable (r : ResultRow)

theorem field?_params : r.spaces.field? "params" = r.params.map Value.map := by
  obtain ⟨params, facts, body⟩ := r
  cases params <;> cases facts <;> cases body <;> simp [spaces]

theorem field?_meta : r.spaces.field? "meta" = r.facts.map Value.map := by
  obtain ⟨params, facts, body⟩ := r
  cases params <;> cases facts <;> cases body <;> simp [spaces]

theorem field?_body : r.spaces.field? "body" = r.body.map Value.map := by
  obtain ⟨params, facts, body⟩ := r
  cases params <;> cases facts <;> cases body <;> simp [spaces]

end ResultRow

namespace Path

/-- Two rows of namespaces show the same under a path. -/
def Agrees (row row' : Record) (path : String) : Prop :=
  match wildcardSpace? path with
  | some space => '.' ∉ space.toList ∧ row.field? space = row'.field? space
  | none => read row path = read row' path

theorem read_congr {row row' : Record} {path space : String} {rest : List String}
    (hpath : segments path = space :: rest) (h : row.field? space = row'.field? space) :
    read row path = read row' path := by
  have hread (row : Record) : read row path = rest.foldl enter ((row.field? space).getD .null) := by
    rw [read, hpath]
    rfl
  rw [hread, hread, h]

/-- Under a path with a field, only this field of the namespace matters. -/
theorem read_congr_field {row row' fields fields' : Record} {path space field : String}
    {rest : List String} (hpath : segments path = space :: field :: rest)
    (h : row.field? space = some (.map fields)) (h' : row'.field? space = some (.map fields'))
    (hfield : fields.field? field = fields'.field? field) : read row path = read row' path := by
  have hread : ∀ row fields : Record, row.field? space = some (.map fields) →
      read row path = rest.foldl enter ((fields.field? field).getD .null) := by
    intro row fields h
    have henter : enter (.map row) space = .map fields :=
      congrArg (fun v : Option Value => v.getD .null) h
    rw [read, hpath, List.foldl_cons, henter]
    rfl
  rw [hread row fields h, hread row' fields' h', hfield]

theorem segments_of_dotless {path : String} (h : '.' ∉ path.toList) : segments path = [path] :=
  Text.pieces_of_not_mem h

theorem segments_ofField (space : String) (key : Value) :
    segments (ofField space key) = segments space ++ segments key.plain := by
  refine Text.pieces_append ?_
  rw [ofField, String.toList_append, String.toList_append, List.append_assoc]
  rfl

theorem expandOne_congr {row row' : Record} {path : String} (h : Agrees row row' path) :
    expandOne row path = expandOne row' path ∧
      ∀ p ∈ expandOne row path, read row p = read row' p := by
  rw [Agrees] at h
  rw [expandOne, expandOne]
  cases hspace : wildcardSpace? path with
  | none =>
      rw [hspace] at h
      refine ⟨rfl, fun p hp => ?_⟩
      rw [List.mem_singleton.1 hp]
      exact h
  | some space =>
      rw [hspace] at h
      obtain ⟨hdot, hfields⟩ := h
      dsimp only
      rw [hfields]
      refine ⟨rfl, fun p hp => ?_⟩
      split at hp
      next fields hmap =>
          obtain ⟨e, -, rfl⟩ := List.mem_map.1 hp
          have hsegments : segments (ofField space e.1) = space :: segments e.1.plain := by
            rw [segments_ofField, segments_of_dotless hdot, List.singleton_append]
          exact read_congr hsegments hfields
      next => cases hp

end Path

/-- A list of paths gives the same flat row. -/
theorem flatten_congr {row row' : Record} {paths : List String}
    (h : ∀ path ∈ paths, Path.Agrees row row' path) : flatten row paths = flatten row' paths := by
  have hexpand : Path.expand row paths = Path.expand row' paths :=
    List.flatMap_congr fun path hpath => (Path.expandOne_congr (h path hpath)).1
  have hread : ∀ p ∈ Path.expand row paths, Path.read row p = Path.read row' p := by
    intro p hp
    obtain ⟨path, hpath, hp⟩ := List.mem_flatMap.1 hp
    exact (Path.expandOne_congr (h path hpath)).2 p hp
  have hentries : (Path.expand row paths).map (fun p => (Path.leaf p, Path.read row p)) =
      (Path.expand row paths).map (fun p => (Path.leaf p, Path.read row' p)) :=
    List.map_congr_left fun p hp => by rw [hread p hp]
  rw [flatten, flatten, ← hexpand]
  simp only [hentries]

theorem Placement.put_congr {row row' : Record} {p : Placement} {entry : String × String}
    (h : Path.read row entry.2 = Path.read row' entry.2) :
    Placement.put row p entry = Placement.put row' p entry := by
  obtain ⟨key, path⟩ := entry
  simp only [Placement.put, h]

theorem foldlM_put_congr {row row' : Record} {entries : List (String × String)}
    (h : ∀ e ∈ entries, Path.read row e.2 = Path.read row' e.2) (p : Placement) :
    entries.foldlM (Placement.put row) p = entries.foldlM (Placement.put row') p := by
  induction entries generalizing p with
  | nil => rfl
  | cons e entries ih =>
      rw [List.foldlM_cons, List.foldlM_cons, Placement.put_congr (h e List.mem_cons_self)]
      exact congrArg _ (funext fun p => ih (fun e' he' => h e' (List.mem_cons_of_mem _ he')) p)

/-- Aliases give the same flat row. -/
theorem flattenAliased_congr {row row' : Record} {aliases : Assoc String String}
    (h : ∀ path ∈ aliases.map Prod.snd, Path.Agrees row row' path) :
    flattenAliased row aliases = flattenAliased row' aliases := by
  have hentry : ∀ e ∈ aliases, aliasEntries row e = aliasEntries row' e ∧
      ∀ d ∈ aliasEntries row e, Path.read row d.2 = Path.read row' d.2 := by
    rintro ⟨name, path⟩ he
    have hagrees := h path (List.mem_map.2 ⟨_, he, rfl⟩)
    obtain ⟨hexpand, hread⟩ := Path.expandOne_congr hagrees
    rw [aliasEntries, aliasEntries, hexpand]
    refine ⟨rfl, fun d hd => ?_⟩
    by_cases hwild : Path.isWildcard path = true
    · rw [if_pos hwild] at hd
      obtain ⟨p, hp, rfl⟩ := List.mem_map.1 hd
      exact hread p (hexpand ▸ hp)
    · rw [if_neg hwild] at hd
      rw [List.mem_singleton.1 hd]
      rw [Path.isWildcard, Bool.not_eq_true, Option.isSome_eq_false_iff,
        Option.isNone_iff_eq_none] at hwild
      rw [Path.Agrees, hwild] at hagrees
      exact hagrees
  have hentries : aliases.flatMap (aliasEntries row) = aliases.flatMap (aliasEntries row') :=
    List.flatMap_congr fun e he => (hentry e he).1
  have hread : ∀ d ∈ aliases.flatMap (aliasEntries row),
      Path.read row d.2 = Path.read row' d.2 := by
    intro d hd
    obtain ⟨e, he, hd⟩ := List.mem_flatMap.1 hd
    exact (hentry e he).2 d hd
  rw [flattenAliased, flattenAliased, ← hentries, foldlM_put_congr hread]

/-- **A flat row depends on nothing but the selected paths.** -/
theorem Selection.flatten_congr {s : Selection} {row row' : Record}
    (h : ∀ path ∈ s.allPaths, Path.Agrees row row' path) : s.flatten row = s.flatten row' := by
  cases s with
  | paths ps => exact Winnow.flatten_congr h
  | aliases es =>
      refine flattenAliased_congr fun path hpath => ?_
      obtain ⟨e, he, rfl⟩ := List.mem_map.1 hpath
      exact h e.2 (Assoc.snd_mem_of_mem_ofList he)

end Winnow
