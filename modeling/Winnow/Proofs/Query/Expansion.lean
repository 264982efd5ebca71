import Winnow.Proofs.Query.Checks
import Winnow.Proofs.Query.Wildcards

/-!
# Expanding twice

The path of a field is a text made of the namespace and the name of the field, so a name may make it
a wildcard again: the name `*` is the wildcard of its own namespace, and a name that ends in `.*`
that of another one. Where no wildcard brings in such names, the paths that were expanded are no
wildcards and expanding them again changes nothing (`expand_expand`). In rows whose namespaces have
names without dots, as those of items have, a wildcard is expanded once and for all only then, or
where nothing but such names is brought in, the star among them; else paths are lost or come twice
(`expand_expand_grows`).
-/

namespace Winnow.Path

variable {row fields : Record} {space path : String}

/-- A name that makes the path of a field a wildcard. -/
def IsStarred (name : String) : Prop := name = "*" ∨ isWildcard name = true

/-! ## Wildcards among the paths of fields -/

theorem isWildcard_iff : isWildcard path = true ↔ ∃ space, path = wildcard space := by
  rw [isWildcard, Option.isSome_iff_exists]
  constructor
  · rintro ⟨space, h⟩
    exact ⟨space, wildcardSpace?_eq_some h⟩
  · rintro ⟨space, rfl⟩
    exact ⟨space, wildcardSpace?_wildcard space⟩

theorem ofField_star (space : String) {key : Value} (h : key.plain = "*") :
    ofField space key = wildcard space := by
  rw [ofField, h, wildcard, String.append_assoc]
  rfl

theorem ofField_wildcard (space : String) {key : Value} {name : String}
    (h : key.plain = wildcard name) :
    ofField space key = wildcard (space ++ "." ++ name) := by
  rw [ofField, h, wildcard, wildcard, ← String.append_assoc]

/-- The path of a field is a wildcard only by the name of the field. -/
theorem isWildcard_ofField (space : String) (key : Value) :
    isWildcard (ofField space key) = true ↔ IsStarred key.plain := by
  constructor
  · intro h
    obtain ⟨other, h⟩ := isWildcard_iff.1 h
    -- Read from the end, the name is a star, or a star with a dot before it.
    have hreverse : key.plain.toList.reverse ++ '.' :: space.toList.reverse =
        '*' :: '.' :: other.toList.reverse := by
      have hlist := congrArg (fun s : String => s.toList.reverse) h
      simpa [ofField, wildcard, String.toList_append] using hlist
    rcases hname : key.plain.toList.reverse with _ | ⟨c, _ | ⟨d, rest⟩⟩
    · rw [hname] at hreverse
      cases (List.cons.inj hreverse).1
    · rw [hname] at hreverse
      obtain ⟨rfl, -⟩ := List.cons.inj hreverse
      exact .inl (String.toList_inj.1 (List.reverse_injective hname))
    · rw [hname] at hreverse
      obtain ⟨rfl, htail⟩ := List.cons.inj hreverse
      obtain ⟨rfl, -⟩ := List.cons.inj htail
      refine .inr (isWildcard_iff.2 ⟨String.ofList rest.reverse, ?_⟩)
      rw [← String.toList_inj, wildcard, String.toList_append, String.toList_ofList,
        ← List.reverse_inj, hname]
      simp
  · rintro (h | h)
    · rw [ofField_star space h]
      exact isWildcard_iff.2 ⟨space, rfl⟩
    · obtain ⟨name, hname⟩ := isWildcard_iff.1 h
      rw [ofField_wildcard space hname]
      exact isWildcard_iff.2 ⟨_, rfl⟩

/-! ## Paths that stay -/

theorem expandOne_of_not_wildcard (h : isWildcard path = false) : expandOne row path = [path] := by
  rw [isWildcard, Option.isSome_eq_false_iff, Option.isNone_iff_eq_none] at h
  rw [expandOne, h]

/-- Paths that are no wildcards stay as they are. -/
theorem expand_of_plain {paths : List String} (h : ∀ path ∈ paths, isWildcard path = false) :
    expand row paths = paths := by
  induction paths with
  | nil => rfl
  | cons path paths ih =>
      obtain ⟨hpath, hpaths⟩ := List.forall_mem_cons.1 h
      have hrest := ih hpaths
      rw [expand] at hrest ⊢
      rw [List.flatMap_cons, hrest, expandOne_of_not_wildcard hpath]
      rfl

/-- No wildcard brings in a name that makes a path a wildcard. -/
def BringsPlain (row : Record) (paths : List String) : Prop :=
  ∀ path ∈ paths, ∀ space fields, wildcardSpace? path = some space →
    row.field? space = some (.map fields) → ∀ e ∈ fields, ¬ IsStarred e.1.plain

theorem plain_of_mem_expand {paths : List String} (h : BringsPlain row paths) :
    ∀ path ∈ expand row paths, isWildcard path = false := by
  intro path hpath
  obtain ⟨given, hgiven, hpath⟩ := List.mem_flatMap.1 hpath
  rw [expandOne] at hpath
  split at hpath
  next hspace =>
      rw [List.mem_singleton.1 hpath, isWildcard, hspace]
      rfl
  next space hspace =>
      split at hpath
      next fields hfields =>
          obtain ⟨e, he, rfl⟩ := List.mem_map.1 hpath
          have hplain := h given hgiven space fields hspace hfields e he
          exact (Bool.not_eq_true _).mp (mt (isWildcard_ofField space e.1).1 hplain)
      next => cases hpath

/-! ## Namespaces without dots -/

section Dotless

variable (hfields : row.field? space = some (.map fields))
  (hspaces : ∀ name, '.' ∈ name.toList → row.field? name = none)

include hspaces in
/-- A name that ends in a dot and a star asks for a namespace that is not there. -/
theorem expandOne_ofField_wildcard {key : Value} (h : isWildcard key.plain = true) :
    expandOne row (ofField space key) = [] := by
  obtain ⟨name, hname⟩ := isWildcard_iff.1 h
  have hnone : row.field? (space ++ "." ++ name) = none := hspaces _ (by simp)
  rw [ofField_wildcard space hname, expandOne, wildcardSpace?_wildcard]
  dsimp only
  rw [hnone]

theorem expandOne_ofField_plain {key : Value} (h : ¬ IsStarred key.plain) :
    expandOne row (ofField space key) = [ofField space key] :=
  expandOne_of_not_wildcard ((Bool.not_eq_true _).mp (mt (isWildcard_ofField space key).1 h))

theorem expandOne_ofField_star (row : Record) (space : String) {key : Value}
    (h : key.plain = "*") : expandOne row (ofField space key) = expand row [wildcard space] := by
  rw [ofField_star space h, expand, List.flatMap_singleton]

include hfields in
theorem expand_twice : expand row (expand row [wildcard space]) =
    fields.flatMap fun e => expandOne row (ofField space e.1) := by
  rw [expand_wildcard hfields, expand, List.flatMap_map]

theorem expandOne_ofField_ne_nil {key : Value} (h : ¬ IsStarred key.plain) :
    expandOne row (ofField space key) ≠ [] := by
  rw [expandOne_ofField_plain h]
  exact List.cons_ne_nil _ _

include hfields in
/-- A star brings in all paths of its namespace again, so nothing else may be kept. -/
theorem starred_of_expand_twice_of_star {e : Value × Value} (he : e ∈ fields)
    (hstar : e.1.plain = "*")
    (h : expand row (expand row [wildcard space]) = expand row [wildcard space]) :
    ∀ e ∈ fields, IsStarred e.1.plain := by
  obtain ⟨before, behind, rfl⟩ := List.append_of_mem he
  rw [expand_twice hfields, List.flatMap_append, List.flatMap_cons,
    expandOne_ofField_star row space hstar] at h
  have hlength := congrArg List.length h
  simp only [List.length_append] at hlength
  have hbefore := List.flatMap_eq_nil_iff.1 (List.eq_nil_of_length_eq_zero
    (show (before.flatMap fun e => expandOne row (ofField space e.1)).length = 0 by omega))
  have hbehind := List.flatMap_eq_nil_iff.1 (List.eq_nil_of_length_eq_zero
    (show (behind.flatMap fun e => expandOne row (ofField space e.1)).length = 0 by omega))
  intro other hother
  by_contra hplain
  rcases List.mem_append.1 hother with hother | hother
  · exact expandOne_ofField_ne_nil hplain (hbefore other hother)
  · rcases List.mem_cons.1 hother with rfl | hother
    · exact hplain (.inl hstar)
    · exact expandOne_ofField_ne_nil hplain (hbehind other hother)

include hspaces in
theorem length_flatMap_expandOne_le (space : String) {es : Record} (h : ∀ e ∈ es, e.1.plain ≠ "*") :
    (es.flatMap fun e => expandOne row (ofField space e.1)).length ≤ es.length := by
  induction es with
  | nil => exact Nat.le_refl 0
  | cons e es ih =>
      obtain ⟨he, hes⟩ := List.forall_mem_cons.1 h
      have hrest := ih hes
      have hfirst : (expandOne row (ofField space e.1)).length ≤ 1 := by
        by_cases hstarred : IsStarred e.1.plain
        · rw [expandOne_ofField_wildcard hspaces (hstarred.resolve_left he)]
          exact Nat.zero_le 1
        · rw [expandOne_ofField_plain hstarred]
          exact Nat.le_refl 1
      rw [List.flatMap_cons, List.length_append, List.length_cons]
      omega

include hfields hspaces in
/-- Without a star, a wildcard among the paths of the fields is a path that is lost. -/
theorem plain_of_expand_twice (hstar : ∀ e ∈ fields, e.1.plain ≠ "*")
    (h : expand row (expand row [wildcard space]) = expand row [wildcard space]) :
    ∀ e ∈ fields, ¬ IsStarred e.1.plain := by
  intro e he hstarred
  obtain ⟨before, behind, rfl⟩ := List.append_of_mem he
  rw [expand_twice hfields, expand_wildcard hfields, List.flatMap_append, List.flatMap_cons,
    expandOne_ofField_wildcard hspaces (hstarred.resolve_left (hstar e he))] at h
  have hlength := congrArg List.length h
  have hbefore := length_flatMap_expandOne_le hspaces space
    fun e he => hstar e (List.mem_append_left _ he)
  have hbehind := length_flatMap_expandOne_le hspaces space
    fun e he => hstar e (List.mem_append_right _ (List.mem_cons_of_mem _ he))
  simp only [List.length_append, List.length_map, List.length_cons, List.length_nil] at hlength
  omega

include hspaces in
theorem flatMap_expandOne_eq_nil {es : Record} (hstar : "*" ∉ (named es).keys)
    (h : ∀ e ∈ es, IsStarred e.1.plain) :
    (es.flatMap fun e => expandOne row (ofField space e.1)) = [] := by
  refine List.flatMap_eq_nil_iff.2 fun e he => ?_
  refine expandOne_ofField_wildcard hspaces ((h e he).resolve_left fun hname => hstar ?_)
  rw [← hname, named, Assoc.keys, List.map_map]
  exact List.mem_map_of_mem he

include hfields hspaces in
/-- A star among other wildcards, which are all lost, brings in what was there. -/
theorem expand_twice_of_star (hnodup : (named fields).keys.Nodup) {e : Value × Value}
    (he : e ∈ fields) (hstar : e.1.plain = "*") (h : ∀ e ∈ fields, IsStarred e.1.plain) :
    expand row (expand row [wildcard space]) = expand row [wildcard space] := by
  obtain ⟨before, behind, rfl⟩ := List.append_of_mem he
  have hkeys : (named (before ++ e :: behind)).keys =
      (named before).keys ++ "*" :: (named behind).keys := by
    simp [named, Assoc.keys, hstar]
  rw [hkeys, List.nodup_append, List.nodup_cons] at hnodup
  obtain ⟨-, ⟨hbehind, -⟩, hapart⟩ := hnodup
  have hbefore : "*" ∉ (named before).keys := fun hmem =>
    hapart "*" hmem "*" List.mem_cons_self rfl
  rw [expand_twice hfields, List.flatMap_append, List.flatMap_cons,
    expandOne_ofField_star row space hstar,
    flatMap_expandOne_eq_nil hspaces hbefore fun e he => h e (List.mem_append_left _ he),
    flatMap_expandOne_eq_nil hspaces hbehind fun e he =>
      h e (List.mem_append_right _ (List.mem_cons_of_mem _ he))]
  simp

end Dotless

/-- **Expanding twice is expanding once**, where no wildcard brings in the name `*` or a name that
ends in `.*`. In a row whose namespaces have names without dots, and for a namespace whose fields
have distinct names, this is so for its wildcard exactly if none of the names is such, or all of
them are and the star is one of them. -/
theorem expand_expand (row : Record) :
    (∀ paths, BringsPlain row paths → expand row (expand row paths) = expand row paths) ∧
    ((∀ name, '.' ∈ name.toList → row.field? name = none) →
      ∀ space fields, row.field? space = some (.map fields) → (named fields).keys.Nodup →
        (expand row (expand row [wildcard space]) = expand row [wildcard space] ↔
          (∀ e ∈ fields, ¬ IsStarred e.1.plain) ∨
            (∃ e ∈ fields, e.1.plain = "*") ∧ ∀ e ∈ fields, IsStarred e.1.plain)) := by
  constructor
  · intro paths h
    exact expand_of_plain (plain_of_mem_expand h)
  · intro hspaces space fields hfields hnodup
    constructor
    · intro h
      by_cases hstar : ∃ e ∈ fields, e.1.plain = "*"
      · obtain ⟨e, he, hname⟩ := hstar
        exact .inr ⟨⟨e, he, hname⟩, starred_of_expand_twice_of_star hfields he hname h⟩
      · refine .inl (plain_of_expand_twice hfields hspaces ?_ h)
        intro e he hname
        exact hstar ⟨e, he, hname⟩
    · rintro (hplain | ⟨⟨e, he, hname⟩, hstarred⟩)
      · refine expand_of_plain (plain_of_mem_expand ?_)
        intro path hpath other fields' hother hfields'
        rw [List.mem_singleton.1 hpath, wildcardSpace?_wildcard] at hother
        cases hother
        cases hfields.symm.trans hfields'
        exact hplain
      · exact expand_twice_of_star hfields hspaces hnodup he hname hstarred

/-- The metadata of a note, whose author is a mapping that no wildcard looks into, and a namespace
of names that are all wildcards. -/
theorem expand_expand_note :
    let fields : Record := [(.text "title", .text "a"), (.text "author", .map [(.text "*", .null)])]
    let row : Record := [(.text "params", .map []), (.text "meta", .map fields)]
    let stars : Record := [(.text "x.*", .int 1), (.text "*", .int 2)]
    let starred : Record := [(.text "meta", .map stars)]
    (BringsPlain row ["meta.*", "params.x"] ∧
      expand row ["meta.*", "params.x"] = ["meta.title", "meta.author", "params.x"] ∧
      expand row (expand row ["meta.*", "params.x"]) = expand row ["meta.*", "params.x"]) ∧
    (∀ name, '.' ∈ name.toList → starred.field? name = none) ∧
      starred.field? "meta" = some (.map stars) ∧ (named stars).keys.Nodup ∧
      expand starred [wildcard "meta"] = ["meta.x.*", "meta.*"] ∧
      expand starred (expand starred [wildcard "meta"]) = expand starred [wildcard "meta"] := by
  intro fields row stars starred
  constructor
  · have hplain : BringsPlain row ["meta.*", "params.x"] := by
      intro path hpath space fields' hspace hfields'
      rcases List.mem_cons.1 hpath with rfl | hpath
      · have hmeta : wildcardSpace? "meta.*" = some "meta" := by cbv
        cases hmeta.symm.trans hspace
        have hread : row.field? "meta" = some (.map fields) := by cbv
        cases hread.symm.trans hfields'
        simp only [fields, List.forall_mem_cons]
        refine ⟨?_, ?_, List.forall_mem_nil _⟩
        · rintro (h | h)
          · exact absurd h (by decide)
          · cases h
        · rintro (h | h)
          · exact absurd h (by decide)
          · cases h
      · rw [List.mem_singleton.1 hpath] at hspace
        cases hspace
    exact ⟨hplain, by cbv, (expand_expand row).1 _ hplain⟩
  · have hspaces : ∀ name, '.' ∈ name.toList → starred.field? name = none := by
      intro name hdot
      have hname : name ≠ "meta" := by
        rintro rfl
        exact absurd hdot (by decide)
      rw [Record.field?_cons, if_neg hname]
      rfl
    have hread : starred.field? "meta" = some (.map stars) := by cbv
    have hnodup : (named stars).keys.Nodup := by decide
    refine ⟨hspaces, hread, hnodup, by cbv, ?_⟩
    refine ((expand_expand starred).2 hspaces "meta" stars hread hnodup).2 (.inr ⟨?_, ?_⟩)
    · exact ⟨_, List.mem_cons_of_mem _ List.mem_cons_self, rfl⟩
    · simp only [stars, List.forall_mem_cons]
      exact ⟨.inr rfl, .inl rfl, List.forall_mem_nil _⟩

/-- The field `*` brings in the whole namespace again. -/
theorem expand_expand_grows :
    let row : Record := [(.text "meta", .map [(.text "*", .int 1), (.text "a", .int 2)])]
    expand row ["meta.*"] = ["meta.*", "meta.a"] ∧
      expand row (expand row ["meta.*"]) = ["meta.*", "meta.a", "meta.a"] := by
  exact ⟨by cbv, by cbv⟩

end Winnow.Path
