import Winnow.Proofs.Query.Collisions
import Winnow.Proofs.Query.Rows

/-!
# What wildcards bring in

A wildcard is replaced by the paths of all fields of its namespace, and these are read like any
other path. The path of a field is a text, though: the text of the key behind a dot. Read back it is
cut at every dot, each segment is looked up as a text, and the last one is the name in the flat row.
So a wildcard gives the fields of its namespace, each under its own text, exactly if the texts are
distinct and have no dots, and each key is found under its text (`flatten_wildcard`). Mappings whose
keys are texts without dots are such; a number as a key is not found, and a key with a dot is looked
for in another place (`flatten_wildcard_loses`).
-/

namespace Winnow

/-! ## Paths of fields -/

namespace Path

variable {row : Record} {space : String} {fields : Record}

theorem segments_ne_nil (path : String) : segments path ≠ [] :=
  fun h => Text.splitOn_ne_nil '.' path.toList (List.map_eq_nil_iff.1 h)

theorem leaf_ofField (space : String) (key : Value) : leaf (ofField space key) = leaf key.plain := by
  rw [leaf, leaf, segments_ofField, List.getLast?_append_of_ne_nil _ (segments_ne_nil _)]

/-- A field is read from what the path of its namespace leads to. -/
theorem read_ofField (row : Record) (space : String) (key : Value) :
    read row (ofField space key) = (segments key.plain).foldl enter (read row space) := by
  rw [read, read, segments_ofField, List.foldl_append]

theorem leaf_of_dotless {path : String} (h : '.' ∉ path.toList) : leaf path = path := by
  rw [leaf, segments_of_dotless h]
  rfl

theorem dot_not_mem_leaf (path : String) : '.' ∉ (leaf path).toList := by
  obtain ⟨last, hlast⟩ := Option.ne_none_iff_exists'.1
    (mt List.getLast?_eq_none_iff.1 (segments_ne_nil path))
  obtain ⟨piece, hpiece, rfl⟩ := List.mem_map.1 (List.mem_of_getLast? hlast)
  rw [leaf, hlast, Option.getD_some, String.toList_ofList]
  exact Text.not_mem_of_mem_splitOn hpiece

theorem read_ofField_of_dotless {key : Value} (h : '.' ∉ key.plain.toList) :
    read row (ofField space key) = enter (read row space) key.plain := by
  rw [read_ofField, segments_of_dotless h]
  rfl

theorem wildcardSpace?_wildcard (space : String) : wildcardSpace? (wildcard space) = some space := by
  have hreverse : (wildcard space).toList.reverse = ['*', '.'] ++ space.toList.reverse := by
    rw [wildcard, String.toList_append, List.reverse_append]
    rfl
  rw [wildcardSpace?, hreverse, Text.dropHead?_eq_some_iff.2 rfl, Option.map_some,
    List.reverse_reverse, String.ofList_toList]

theorem expand_wildcard (h : row.field? space = some (.map fields)) :
    expand row [wildcard space] = fields.map fun e => ofField space e.1 := by
  rw [expand, List.flatMap_singleton, expandOne, wildcardSpace?_wildcard]
  dsimp only
  rw [h]

end Path

/-! ## Mappings -/

/-- A mapping: no two of its keys are the same key. -/
def Record.IsMapping (r : Record) : Prop := r.Pairwise fun a b => (a.1 == b.1) = false

theorem Record.field?_of_mem {r : Record} (hr : r.IsMapping) {name : String} {v : Value}
    (h : (.text name, v) ∈ r) : r.field? name = some v := by
  induction r with
  | nil => cases h
  | cons e r ih =>
      obtain ⟨hfirst, hrest⟩ := List.pairwise_cons.1 hr
      obtain ⟨k, v'⟩ := e
      rw [field?, Assoc.get?]
      rcases List.mem_cons.1 h with he | h
      · cases he
        rw [if_pos ((Value.text_beq name name).trans (beq_self_eq_true name))]
      · have hk : (k == Value.text name) = false := hfirst _ h
        rw [if_neg, ← field?, ih hrest h]
        intro hname
        rw [Value.text_beq_eq_true hname, Value.text_beq, beq_self_eq_true] at hk
        cases hk

/-! ## The flat row of a wildcard -/

section Wildcard

variable {row fields : Record} {space : String}

/-- The fields of a mapping by their texts. -/
def named (fields : Record) : Row := fields.map fun e => (e.1.plain, e.2)

theorem flatten_wildcard_eq (h : row.field? space = some (.map fields)) :
    flatten row [Path.wildcard space] = flattenEntries row
      (fields.map fun e => (Path.leaf e.1.plain, Path.ofField space e.1)) := by
  rw [flatten_eq_flattenEntries, namedPaths_leaf, Path.expand_wildcard h, List.map_map]
  congr 1
  exact List.map_congr_left fun e _ => by
    rw [Function.comp_apply, Path.leaf_ofField]

/-- Distinct texts without dots, under which the keys are found, give one name for each field. -/
theorem flatten_wildcard_of_readable (h : row.field? space = some (.map fields))
    (hnodup : (named fields).keys.Nodup)
    (hread : ∀ e ∈ fields, '.' ∉ e.1.plain.toList ∧
      Path.enter (Path.read row space) e.1.plain = e.2) :
    flatten row [Path.wildcard space] = .ok (named fields) := by
  have hnames : (fields.map fun e => (Path.leaf e.1.plain, Path.ofField space e.1)) =
      fields.map fun e => (e.1.plain, Path.ofField space e.1) :=
    List.map_congr_left fun e he => by rw [Path.leaf_of_dotless (hread e he).1]
  have hconsistent : Consistent (fields.map fun e => (e.1.plain, Path.ofField space e.1)) := by
    intro a ha b hb hname
    obtain ⟨e, -, rfl⟩ := List.mem_map.1 ha
    obtain ⟨f, -, rfl⟩ := List.mem_map.1 hb
    exact congrArg (space ++ "." ++ ·) hname
  have hvalues : ((fields.map fun e => (e.1.plain, Path.ofField space e.1)).map
      fun e => (e.1, Path.read row e.2)) = named fields := by
    rw [List.map_map]
    refine List.map_congr_left fun e he => ?_
    obtain ⟨hdot, hvalue⟩ := hread e he
    rw [Function.comp_apply, Path.read_ofField_of_dotless hdot, hvalue]
  rw [flatten_wildcard_eq h, hnames, flattenEntries,
    firstClash?_eq_none_iff.2 (fits_nil_left.2 hconsistent)]
  dsimp only
  rw [hvalues, Assoc.ofList_of_nodup hnodup]

theorem readable_of_flatten_wildcard (h : row.field? space = some (.map fields))
    (hflat : flatten row [Path.wildcard space] = .ok (named fields)) :
    (named fields).keys.Nodup ∧ ∀ e ∈ fields, '.' ∉ e.1.plain.toList ∧
      Path.enter (Path.read row space) e.1.plain = e.2 := by
  rw [flatten_wildcard_eq h] at hflat
  obtain ⟨hkeys, hvalues⟩ := (flattens_flattenEntries row _).yields _ hflat
  -- As many names as fields: none was left out for being there already.
  have hleaves : (named fields).keys = fields.map fun e => Path.leaf e.1.plain := by
    rw [List.map_map] at hkeys
    rw [hkeys]
    refine (eraseDups_sublist _).eq_of_length ?_
    rw [← hkeys, named, Assoc.keys, List.map_map, List.length_map, List.length_map]
  have hnodup : (named fields).keys.Nodup := hkeys ▸ nodup_eraseDups _
  have hdotless : ∀ e ∈ fields, '.' ∉ e.1.plain.toList := by
    rw [named, Assoc.keys, List.map_map, List.map_inj_left] at hleaves
    intro e he
    have hleaf : e.1.plain = Path.leaf e.1.plain := hleaves e he
    rw [hleaf]
    exact Path.dot_not_mem_leaf _
  refine ⟨hnodup, fun e he => ⟨hdotless e he, ?_⟩⟩
  have hget := hvalues _ (List.mem_map_of_mem he)
  dsimp only at hget
  rw [Path.leaf_of_dotless (hdotless e he), Path.read_ofField_of_dotless (hdotless e he),
    (Assoc.get?_eq_some_iff_mem hnodup).2 (List.mem_map_of_mem he)] at hget
  exact (Option.some.inj hget).symm

/-- A field under a text without dots is read back by its path. -/
theorem read_ofField_text (h : row.field? space = some (.map fields)) (hspace : '.' ∉ space.toList)
    (hfields : fields.IsMapping) {name : String} {v : Value} (hv : (.text name, v) ∈ fields)
    (hname : '.' ∉ name.toList) :
    Path.enter (Path.read row space) name = v ∧
      Path.read row (Path.ofField space (.text name)) = v := by
  have hread : Path.read row space = .map fields := by
    rw [Path.read, Path.segments_of_dotless hspace]
    exact congrArg (fun v : Option Value => v.getD .null) h
  have hfield : Path.enter (Path.read row space) name = v := by
    rw [hread]
    exact congrArg (fun v : Option Value => v.getD .null) (Record.field?_of_mem hfields hv)
  have hpath : Path.read row (Path.ofField space (.text name)) =
      Path.enter (Path.read row space) name := Path.read_ofField_of_dotless hname
  exact ⟨hfield, hpath.trans hfield⟩

theorem nodup_keys_named (hfields : fields.IsMapping)
    (htexts : ∀ e ∈ fields, ∃ name, e.1 = .text name ∧ '.' ∉ name.toList) :
    (named fields).keys.Nodup := by
  rw [named, Assoc.keys, List.map_map, List.Nodup, List.pairwise_map]
  refine hfields.imp_of_mem fun {e f} he hf hdistinct hsame => ?_
  obtain ⟨name, hname, -⟩ := htexts e he
  obtain ⟨other, hother, -⟩ := htexts f hf
  have hsame : name = other := by simpa [hname, hother, Value.plain] using hsame
  rw [hname, hother, hsame, Value.text_beq, beq_self_eq_true] at hdistinct
  cases hdistinct

/-- **A wildcard stands for one path for each field, and gives the whole namespace, each field under
the text of its key, exactly if the texts are distinct and without dots and the keys are found under
them.** So it is with any mapping whose keys are texts without dots; and in every mapping the fields
of such keys are read back. -/
theorem flatten_wildcard (h : row.field? space = some (.map fields)) :
    Path.expand row [Path.wildcard space] = fields.map (fun e => Path.ofField space e.1) ∧
    (flatten row [Path.wildcard space] = .ok (named fields) ↔
      (named fields).keys.Nodup ∧ ∀ e ∈ fields, '.' ∉ e.1.plain.toList ∧
        Path.enter (Path.read row space) e.1.plain = e.2) ∧
    ('.' ∉ space.toList → fields.IsMapping →
      (∀ name v, (.text name, v) ∈ fields → '.' ∉ name.toList →
        Path.read row (Path.ofField space (.text name)) = v ∧
          Path.leaf (Path.ofField space (.text name)) = name) ∧
      ((∀ e ∈ fields, ∃ name, e.1 = .text name ∧ '.' ∉ name.toList) →
        flatten row [Path.wildcard space] = .ok (named fields))) := by
  refine ⟨Path.expand_wildcard h, ⟨readable_of_flatten_wildcard h, fun ⟨hnodup, hread⟩ =>
    flatten_wildcard_of_readable h hnodup hread⟩, fun hspace hfields => ⟨?_, fun htexts => ?_⟩⟩
  · intro name v hv hname
    exact ⟨(read_ofField_text h hspace hfields hv hname).2,
      (Path.leaf_ofField space _).trans (Path.leaf_of_dotless hname)⟩
  · refine flatten_wildcard_of_readable h (nodup_keys_named hfields htexts) fun e he => ?_
    obtain ⟨key, v⟩ := e
    obtain ⟨name, hkey, hname⟩ := htexts _ he
    dsimp only at hkey
    subst hkey
    exact ⟨hname, (read_ofField_text h hspace hfields he hname).1⟩

/-- The metadata of a note. -/
theorem flatten_wildcard_note :
    let fields : Record := [(.text "title", .text "a"), (.text "year", .int 7)]
    let row : Record := [(.text "params", .map []), (.text "meta", .map fields)]
    (row.field? "meta" = some (.map fields) ∧ fields.IsMapping) ∧
      flatten row ["meta.*"] = .ok [("title", .text "a"), ("year", .int 7)] := by
  intro fields row
  have hmeta : row.field? "meta" = some (.map fields) := by cbv
  have hfields : fields.IsMapping := by simp [fields, Record.IsMapping, Value.text_beq]
  have htexts : ∀ e ∈ fields, ∃ name, e.1 = .text name ∧ '.' ∉ name.toList := by
    simp only [fields, List.forall_mem_cons]
    exact ⟨⟨"title", rfl, by decide⟩, ⟨"year", rfl, by decide⟩, by simp⟩
  obtain ⟨-, -, hplain⟩ := flatten_wildcard hmeta
  have hpath : Path.wildcard "meta" = "meta.*" := by decide
  exact ⟨⟨hmeta, hfields⟩, hpath ▸ (hplain (by decide) hfields).2 htexts⟩

/-- A number is not found under its text. A key with a dot is looked for in another place, and two
of them may even claim one name. -/
theorem flatten_wildcard_loses :
    let row (fields : Record) : Record := [(.text "meta", .map fields)]
    flatten (row [(.int 1, .text "x")]) ["meta.*"] = .ok [("1", .null)] ∧
    flatten (row [(.text "a.b", .text "x")]) ["meta.*"] = .ok [("b", .null)] ∧
    flatten (row [(.text "a.b", .text "x"), (.text "c.b", .text "y")]) ["meta.*"] =
      .error (.collision "b" ["meta.a.b", "meta.c.b"]) := by
  refine ⟨by cbv, by cbv, by cbv⟩

end Wildcard

end Winnow
