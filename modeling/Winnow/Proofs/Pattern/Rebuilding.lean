import Winnow.Pattern.Building
import Winnow.Proofs.Pattern.Tiling
import Winnow.Proofs.Regex.Cutting

/-!
# Building undoes matching

The values that a match yields can be put back into the pattern, and make up the path again
(`build_extract`). For the texts this is the tiling of the path. What needs care is that building
checks a value once more, on its own, while the matcher saw it before the rest of the path: a
constraint may take a value there that it would not take alone. For constraints that see nothing but
the text they take, this can only happen where a part that is settled once and for all stands inside
another such part (`Node.settlesFlat` rules it out), as in the pattern of `build_fails_on_nested`.
-/

namespace Winnow.Pattern

open Regex

/-! ## Building from given values -/

/-- Whether values say of a part that it is given `c`. -/
def Part.Given (values : Assoc String Value) : Part → Choice → Prop
  | .literal _, _ => True
  | .param q _, none => isUnset q (values.get? q.name) = true
  | .param q _, some v => isUnset q (values.get? q.name) = false ∧
      (values.get? q.name).map Value.plain = some (String.ofList v)

theorem toList_folded (fold : Fold) (text : String) :
    (folded fold text).toList = fold.wrap text.toList := by
  cases fold <;> simp [folded, Fold.wrap]

theorem folded_ofList (fold : Fold) (v : List Char) :
    folded fold (String.ofList v) = String.ofList (fold.wrap v) := by
  rw [← String.toList_inj, toList_folded, String.toList_ofList, String.toList_ofList]

theorem isEmpty_ofList (v : List Char) : (String.ofList v).isEmpty = v.isEmpty := by
  rw [Bool.eq_iff_iff, String.isEmpty_iff, List.isEmpty_iff, ← String.toList_eq_nil_iff,
    String.toList_ofList]

/-- The text of a value counts as a value. -/
theorem isUnset_text {q : Param} {fold : Fold} {v : List Char}
    (h : (Part.param q fold).Fits (some v)) :
    isUnset q (some (.text (String.ofList v))) = false := by
  rw [isUnset, isEmpty_ofList]
  cases hkind : q.kind with
  | optional =>
      rw [Part.Fits, hkind] at h
      simpa [Kind.isOptional] using h.1
  | _ => rfl

/-- A value that was handed out passes the checks, if its constraint takes it alone. -/
theorem valueFault?_eq_none {p : Pattern} {q : Param} {fold : Fold} {v : List Char}
    (hfits : (Part.param q fold).Fits (some v))
    (hclean : (Part.param q fold).isClean (some v) = true)
    (halone : ∀ c node, q.kind.constraint? = some c → p.constraints.get? q.name = some node →
      (node.fullMatch v).isSome = true) : p.valueFault? q (String.ofList v) = none := by
  cases hkind : q.kind with
  | splat => simp only [valueFault?, hkind]
  | required =>
      rw [Part.Fits, hkind] at hfits
      simp [valueFault?, hkind, isEmpty_ofList, hfits.1, hfits.2, Kind.constraint?]
  | optional =>
      rw [Part.Fits, hkind] at hfits
      simp [valueFault?, hkind, isEmpty_ofList, hfits.1, hfits.2, Kind.constraint?]
  | constrained c =>
      have hconstraint : q.kind.constraint? = some c := by rw [hkind]; rfl
      have hv : v.isEmpty = false ∧ v.contains separator = false := by
        simpa [Part.isClean, hconstraint] using hclean
      simp only [valueFault?, hkind, isEmpty_ofList, hv.1, String.toList_ofList, hv.2,
        Kind.constraint?]
      cases hnode : p.constraints.get? q.name with
      | none => rfl
      | some node =>
          have hmatch := halone c node hconstraint hnode
          simp [Option.isNone_eq_false_iff.2 hmatch]

theorem buildPart_eq {p : Pattern} {values : Assoc String Value} {part : Part} {c : Choice}
    (hfits : part.Fits c) (hclean : part.isClean c = true) (hgiven : part.Given values c)
    (halone : ∀ q fold v con node, part = .param q fold → c = some v →
      q.kind.constraint? = some con → p.constraints.get? q.name = some node →
      (node.fullMatch v).isSome = true) :
    p.buildPart values part = .ok (String.ofList (part.text c)) := by
  cases part with
  | literal text => rw [buildPart, Part.text, String.ofList_toList]
  | param q fold =>
      cases c with
      | none =>
          have hunset : isUnset q (values.get? q.name) = true := hgiven
          have hoptional : q.kind.isOptional = true := hfits
          rw [buildPart, if_pos hunset]
          cases hkind : q.kind with
          | optional => rfl
          | _ =>
              rw [hkind] at hoptional
              cases hoptional
      | some v =>
          obtain ⟨hset, hplain⟩ := hgiven
          have hfault := valueFault?_eq_none hfits hclean
            (halone q fold v · · rfl rfl)
          rw [buildPart]
          simp only [hset, hplain, Option.getD_some, hfault, folded_ofList]
          rfl

/-- **Building from the values of a tiling makes up its text.** -/
theorem build_eq_of_given {p : Pattern} {values : Assoc String Value} {d : Part → Choice}
    (hfits : ∀ part ∈ p.parts, part.Fits (d part))
    (hclean : ∀ part ∈ p.parts, part.isClean (d part) = true)
    (hgiven : ∀ part ∈ p.parts, part.Given values (d part))
    (halone : ∀ q fold v con node, .param q fold ∈ p.parts → d (.param q fold) = some v →
      q.kind.constraint? = some con → p.constraints.get? q.name = some node →
      (node.fullMatch v).isSome = true) :
    p.build values = .ok (String.ofList (textOf p.parts d)) := by
  have hparts : ∀ parts ⊆ p.parts,
      p.buildParts values parts = .ok (String.ofList (textOf parts d)) := by
    intro parts hsub
    induction parts with
    | nil => rfl
    | cons part rest ih =>
        have hpart := hsub List.mem_cons_self
        have hhead : p.buildPart values part = .ok (String.ofList (part.text (d part))) := by
          refine buildPart_eq (hfits part hpart) (hclean part hpart) (hgiven part hpart) ?_
          rintro q fold v con node rfl
          exact halone q fold v con node hpart
        have htail := ih fun other hother => hsub (List.mem_cons_of_mem _ hother)
        rw [buildParts, hhead, htail, textOf_cons, String.ofList_append]
        rfl
  exact hparts p.parts (List.Subset.refl _)

/-- The errors that building ends in: a value is refused, or it is missing. -/
inductive BuildFault : Error → Prop
  | value (name text : String) (fault : ValueFault) : BuildFault (.parameterValue name text fault)
  | missing (name source : String) : BuildFault (.missingParameter name source)

theorem buildFault_of_buildPart {p : Pattern} {values : Assoc String Value} {part : Part}
    {e : Error} (h : p.buildPart values part = .error e) : BuildFault e := by
  cases part with
  | literal => cases h
  | param q fold =>
      rw [buildPart] at h
      dsimp only at h
      split at h
      · split at h
        · cases h
        · cases h
        · cases h
          exact .missing _ _
      · split at h
        · cases h
          exact .value _ _ _
        · cases h

theorem buildFault_of_build {p : Pattern} {values : Assoc String Value} {e : Error}
    (h : p.build values = .error e) : BuildFault e := by
  rw [build] at h
  generalize p.parts = parts at h
  induction parts with
  | nil => cases h
  | cons part parts ih =>
      rw [buildParts] at h
      cases hhead : p.buildPart values part with
      | error e' =>
          rw [hhead] at h
          cases h
          exact buildFault_of_buildPart hhead
      | ok head =>
          rw [hhead] at h
          cases htail : p.buildParts values parts with
          | error e' =>
              rw [htail] at h
              cases h
              exact ih htail
          | ok tail =>
              rw [htail] at h
              cases h

/-! ## Values of a match -/

theorem keys_valuesOf_sublist (parts : List Part) (d : Part → Choice) :
    (Assoc.keys (valuesOf parts d)).Sublist ((parts.filterMap Part.param?).map Param.name) := by
  induction parts with
  | nil => exact .slnil
  | cons part rest ih =>
      cases part with
      | literal text => exact ih
      | param q fold =>
          cases hc : d (.param q fold) with
          | none =>
              rw [valuesOf_param_none hc]
              exact .cons _ ih
          | some v =>
              rw [valuesOf_param_some hc]
              exact .cons_cons _ ih

/-- A parameter that occurs once has among the values just what its part was given. -/
theorem get?_valuesOf {parts : List Part} (d : Part → Choice)
    (hnodup : ((parts.filterMap Part.param?).map Param.name).Nodup) {q : Param} {fold : Fold}
    (hq : .param q fold ∈ parts) :
    (valuesOf parts d).get? q.name = (d (.param q fold)).map String.ofList := by
  induction parts with
  | nil => cases hq
  | cons part rest ih =>
      cases part with
      | literal text =>
          rcases List.mem_cons.1 hq with he | hq
          · cases he
          · exact ih hnodup hq
      | param r f =>
          have hnodup' : (r.name :: (rest.filterMap Part.param?).map Param.name).Nodup := hnodup
          obtain ⟨hnew, hnodup'⟩ := List.nodup_cons.1 hnodup'
          have hrest := ih hnodup'
          rcases List.mem_cons.1 hq with he | hq
          · cases he
            cases hc : d (.param q fold) with
            | none =>
                rw [valuesOf_param_none hc]
                exact Assoc.get?_eq_none_iff.2 fun hk =>
                  hnew ((keys_valuesOf_sublist rest d).subset hk)
            | some v =>
                rw [valuesOf_param_some hc]
                exact Assoc.get?_cons_self _ _ _
          · -- A later part has another name, so the value of this one does not hide its value.
            have hne : q.name ≠ r.name := by
              intro he
              refine hnew (he ▸ List.mem_map.2 ⟨q, ?_, rfl⟩)
              exact List.mem_filterMap.2 ⟨_, hq, rfl⟩
            cases hc : d (.param r f) with
            | none =>
                rw [valuesOf_param_none hc]
                exact hrest hq
            | some v =>
                rw [valuesOf_param_some hc, Assoc.get?_cons_of_ne hne]
                exact hrest hq

theorem Kind.eq_constrained {kind : Kind} {c : String} (h : kind.constraint? = some c) :
    kind = .constrained c := by
  cases kind with
  | constrained c' => exact congrArg Kind.constrained (Option.some.inj h)
  | _ => cases h

/-- What stands for the constraint of a parameter is the expression of that constraint. -/
theorem read_of_get?_constraintNodes {params : List Param} (hnodup : (params.map Param.name).Nodup)
    {q : Param} (hq : q ∈ params) {c : String} (hc : q.kind.constraint? = some c) {node : Node}
    (h : (constraintNodes params).get? q.name = some node) :
    q.kind = .constrained c ∧ Regex.read c.toList = .ok node := by
  obtain ⟨r, hr, hnode⟩ := List.mem_filterMap.1 (Assoc.mem_of_get?_eq_some h)
  have hconstrained := Kind.eq_constrained hc
  refine ⟨hconstrained, ?_⟩
  cases hkind : r.kind with
  | constrained c' =>
      rw [hkind] at hnode
      obtain ⟨n, hn, he⟩ := Option.map_eq_some_iff.1 hnode
      obtain ⟨hname, rfl⟩ := Prod.mk.inj he
      have hrq : r = q := List.inj_on_of_nodup_map hnodup hr hq hname
      rw [hrq, hconstrained] at hkind
      cases hkind
      cases hread : Regex.read c.toList with
      | error e =>
          rw [hread] at hn
          cases hn
      | ok n' =>
          rw [hread] at hn
          exact congrArg _ (Option.some.inj hn)
  | _ =>
      rw [hkind] at hnode
      cases hnode

/-- A value that a part was given is one that its constraint takes alone. -/
theorem Made.isSome_fullMatch {p : Pattern} {tokens : List Token} {nodes : List Node} {s : Scope}
    (h : Made p tokens nodes s) (hlocal : ∀ e ∈ p.constraints, e.2.isLocal = true)
    (hflat : ∀ e ∈ p.constraints, e.2.settlesFlat = true) {q : Param} {fold : Fold}
    (hq : .param q fold ∈ p.parts) {v : List Char} (hfits : (Part.param q fold).Fits (some v))
    {c : String} (hc : q.kind.constraint? = some c) {node : Node}
    (hnode : p.constraints.get? q.name = some node) : (node.fullMatch v).isSome = true := by
  have hmem : (q.name, node) ∈ p.constraints := Assoc.mem_of_get?_eq_some hnode
  rw [h.constraints] at hnode
  obtain ⟨hkind, hread⟩ := read_of_get?_constraintNodes h.nodup_names (h.mem_params hq) hc hnode
  rw [Part.Fits, hkind] at hfits
  obtain ⟨rest, hrest⟩ := hfits node hread (hlocal _ hmem)
  exact isSome_fullMatch_of_mem_rests (hlocal _ hmem) (hflat _ hmem) hrest

/-- **Building undoes matching.** For constraints that see nothing but the text they take, and in
which no settled part stands inside another, the values of a path make up this path again. -/
theorem build_extract {source : String} {p : Pattern} (h : compile source = .ok p)
    (hlocal : ∀ e ∈ p.constraints, e.2.isLocal = true)
    (hflat : ∀ e ∈ p.constraints, e.2.settlesFlat = true) {id : String}
    {values : Assoc String String} (hv : p.extract id = .ok (some values)) :
    p.build (values.map fun e => (e.1, .text e.2)) = .ok id := by
  obtain ⟨-, tokens, nodes, s, hmade⟩ := made_of_compile h
  obtain ⟨d, hfits, hclean, htext, rfl⟩ := hmade.exists_tiling hv
  have hgiven : ∀ part ∈ p.parts,
      part.Given ((valuesOf p.parts d).map fun e => (e.1, Value.text e.2)) (d part) := by
    intro part hpart
    cases part with
    | literal text => trivial
    | param q fold =>
        have hget := get?_valuesOf d (hmade.filterMap_param? ▸ hmade.nodup_names) hpart
        cases hc : d (.param q fold) with
        | none => simp only [Part.Given, Assoc.get?_map, hget, hc, Option.map_none, isUnset]
        | some v =>
            have hset := isUnset_text (hc ▸ hfits _ hpart)
            simp only [Part.Given, Assoc.get?_map, hget, hc, Option.map_some, hset, Value.plain,
              true_and]
  rw [build_eq_of_given hfits hclean hgiven, htext, String.ofList_toList]
  rintro q fold v c node hq hv hc hnode
  exact hmade.isSome_fullMatch hlocal hflat hq (hv ▸ hfits _ hq) hc hnode

/-- A number and an optional text behind it. -/
theorem build_extract_number : ∃ p, compile "\x7bn:[0-9]+\x7d\x7b?x\x7d" = .ok p ∧
    (∀ e ∈ p.constraints, e.2.isLocal = true) ∧ (∀ e ∈ p.constraints, e.2.settlesFlat = true) ∧
    p.extract "12ab" = .ok (some [("n", "12"), ("x", "ab")]) ∧
    p.build [("n", .text "12"), ("x", .text "ab")] = .ok "12ab" := by
  have hfacts : (compile "\x7bn:[0-9]+\x7d\x7b?x\x7d").toOption.map (fun p =>
      (p.constraints.all fun e => e.2.isLocal && e.2.settlesFlat, (p.extract "12ab").toOption)) =
      some (true, some (some [("n", "12"), ("x", "ab")])) := by decide +kernel
  obtain ⟨p, hp, hfacts⟩ := exists_ok_of_toOption_map hfacts
  obtain ⟨hconstraints, hvalues⟩ := Prod.mk.inj hfacts
  simp only [List.all_eq_true, Bool.and_eq_true] at hconstraints
  have hlocal : ∀ e ∈ p.constraints, e.2.isLocal = true := fun e he => (hconstraints e he).1
  have hflat : ∀ e ∈ p.constraints, e.2.settlesFlat = true := fun e he => (hconstraints e he).2
  have hextract : p.extract "12ab" = .ok (some [("n", "12"), ("x", "ab")]) :=
    eq_ok_of_toOption hvalues
  exact ⟨p, hp, hlocal, hflat, hextract, build_extract hp hlocal hflat hextract⟩

/-- Inside a settled part the constraint takes `abb` only because of the `c` behind it: alone, the
inner part settles for `a`, and nothing makes up for that. So the value of a match is refused. -/
theorem build_fails_on_nested : ∃ p, compile "\x7bx:(?>(?>abbc|a)b|abb)\x7dc" = .ok p ∧
    (∀ e ∈ p.constraints, e.2.isLocal = true) ∧
    p.extract "abbc" = .ok (some [("x", "abb")]) ∧ p.build [("x", .text "abb")] ≠ .ok "abbc" := by
  have hfacts : (compile "\x7bx:(?>(?>abbc|a)b|abb)\x7dc").toOption.map (fun p =>
      ((p.constraints.all fun e => e.2.isLocal) && (p.build [("x", .text "abb")]).toOption.isNone,
        (p.extract "abbc").toOption)) =
      some (true, some (some [("x", "abb")])) := by decide +kernel
  obtain ⟨p, hp, hfacts⟩ := exists_ok_of_toOption_map hfacts
  obtain ⟨hfacts, hvalues⟩ := Prod.mk.inj hfacts
  obtain ⟨hlocal, hbuild⟩ := Bool.and_eq_true_iff.1 hfacts
  refine ⟨p, hp, List.all_eq_true.1 hlocal, eq_ok_of_toOption hvalues, fun h => ?_⟩
  rw [h] at hbuild
  cases hbuild

end Winnow.Pattern
