import Winnow.Proofs.Pattern.Acceptance
import Winnow.Proofs.Regex.Excerpts

/-!
# Constraints in place and alone

A constraint is pasted into the expression of the whole pattern to find a value, and is matched on
its own to check one. What it takes in a path it should therefore match alone, or a value that was
extracted could not be put back. It does so if it is portable (`extract_meets_constraint`): if it
speaks of its groups by name, and neither looks at what stands around its value nor settles on
anything in view of it. Less than that will not do (`values_refused_alone`).
-/

namespace Winnow.Pattern

open Regex

section Portable

variable {c : String} (hportable : portable c.toList = true) {alone : Node}
  (halone : read c.toList = .ok alone)
include hportable halone

/-- The group of a constrained parameter keeps a text that the constraint matches alone. -/
theorem group?_of_mem_ways_constrained {q : Param} {fold : Fold} (hkind : q.kind = .constrained c)
    {s s' : Scope} {node : Node} (h : partNode true (.param q fold) s = .ok (node, s'))
    {p m : Place} (hfree : ∀ j ≥ s.next, p.group? j = none) (hm : m ∈ node.ways p) :
    ∃ v, m.group? s.next = some v ∧ (alone.fullMatch v).isSome = true := by
  obtain ⟨-, body, s₁, hvalue, rfl, -⟩ := partNode_param h
  rw [hkind] at hvalue hm
  obtain ⟨v, -, hv, ⟨m', hm', hpm'⟩, -⟩ := captured_of_mem_ways hm
  exact ⟨v, hv, isSome_fullMatch_of_portable hportable hvalue halone rfl hfree hm' hpm'⟩

/-- Wherever the expression of a layout ends, a constrained parameter has been given a text that
its constraint matches alone. -/
theorem choice_of_mem_ways_constrained {q : Param} {fold : Fold} (hkind : q.kind = .constrained c)
    {parts : List Part} {s s' : Scope} {nodes : List Node}
    (h : partNodes true parts s = .ok (nodes, s')) (hp : ∀ part ∈ parts, part.Proper)
    (hq : .param q fold ∈ parts) {p m : Place} (hfree : ∀ j ≥ s.next, p.group? j = none)
    (hm : m ∈ (Node.join nodes).ways p) :
    ∃ v, (Part.param q fold).choice s'.names m = some v ∧ (alone.fullMatch v).isSome = true := by
  induction parts generalizing s nodes p with
  | nil => cases hq
  | cons part rest ih =>
      obtain ⟨node, s₁, nodes', hpart, hrest, rfl⟩ := partNodes_cons h
      have hp' : ∀ other ∈ rest, other.Proper := fun other hother =>
        hp other (List.mem_cons_of_mem _ hother)
      have hproper := hp part List.mem_cons_self
      rw [ways_join_cons] at hm
      obtain ⟨m', hm', hm⟩ := List.mem_flatMap.1 hm
      obtain ⟨choice, hcrossed⟩ := crossed_of_mem_ways hpart hproper hfree hm'
      rcases List.mem_cons.1 hq with rfl | hq
      · -- What it was given is what its group keeps, and later parts leave that group alone.
        obtain ⟨v, hv, hmatch⟩ :=
          group?_of_mem_ways_constrained hportable halone hkind hpart hfree hm'
        have htail := tiled_of_mem_ways hrest hp' hcrossed.newer hm
        have hchoice :=
          choice_eq_of_crossed hpart hproper (partNodes_grows hrest hp') hcrossed htail.older
        rw [hcrossed.value q fold rfl] at hv
        exact ⟨v, hchoice.trans hv, hmatch⟩
      · exact ih hrest hp' hq hcrossed.newer hm

end Portable

/-- **An extracted value meets its constraint.** For every pattern and path, the value that is
extracted for a parameter with a portable constraint matches this constraint alone, and passes the
check that building makes. -/
theorem extract_meets_constraint {source : String} {p : Pattern} (h : compile source = .ok p)
    {q : Param} (hq : q ∈ p.params) {c : String} (hkind : q.kind = .constrained c)
    (hportable : portable c.toList = true) {id : String} {values : Assoc String String}
    (hv : p.extract id = .ok (some values)) :
    ∃ v alone, values.get? q.name = some v ∧ read c.toList = .ok alone ∧
      (alone.fullMatch v.toList).isSome = true ∧ p.constraints.get? q.name = some alone ∧
      p.valueFault? q v = none := by
  obtain ⟨-, tokens, nodes, s, hmade⟩ := made_of_compile h
  obtain ⟨fold, hpart⟩ := hmade.exists_part_of_mem_params hq
  obtain ⟨alone, hconstraint, halone⟩ := hmade.exists_constraint hq hkind
  rw [hmade.extract_eq] at hv
  obtain ⟨place, hplace, hv⟩ := Option.bind_eq_some_iff.1 (Except.ok.inj hv)
  split at hv
  next hclean =>
    cases hv
    have hfits := (hmade.tiled hplace).1 _ hpart
    have hclean := List.all_eq_true.1 hclean _ hpart
    have hways : place ∈ (Node.join nodes).ways (.start id.toList) := by
      rw [fullMatch_eq_find?, hmade.matcher] at hplace
      exact List.mem_of_find?_eq_some hplace
    obtain ⟨v, hchoice, hmatch⟩ := choice_of_mem_ways_constrained hportable halone hkind hmade.read
      hmade.proper hpart (fun j _ => rfl) hways
    rw [← hmade.groups] at hchoice
    rw [hchoice] at hfits hclean
    refine ⟨String.ofList v, alone, ?_, halone, ?_, hconstraint, ?_⟩
    · have hnodup := hmade.filterMap_param? ▸ hmade.nodup_names
      rw [get?_valuesOf _ hnodup hpart, hchoice, Option.map_some]
    · rw [String.toList_ofList]
      exact hmatch
    · refine valueFault?_eq_none hfits hclean fun c' node _ hnode => ?_
      rw [hconstraint] at hnode
      cases hnode
      exact hmatch
  next => cases hv

/-- A letter that comes again, referred to by name behind another parameter, and not before an `a`:
in the path a `b` follows, alone nothing does. -/
theorem extract_meets_constraint_again :
    ∃ p, compile "\x7bk\x7d/\x7bx:(?P<g>[ab])-(?P=g)(?!a)\x7db" = .ok p ∧
      p.extract "n/a-ab" = .ok (some [("k", "n"), ("x", "a-a")]) ∧
      portable "(?P<g>[ab])-(?P=g)(?!a)".toList = true ∧
      ∃ alone, read "(?P<g>[ab])-(?P=g)(?!a)".toList = .ok alone ∧
        (alone.fullMatch "a-a".toList).isSome = true ∧
        p.valueFault? ⟨"x", .constrained "(?P<g>[ab])-(?P=g)(?!a)", 1⟩ "a-a" = none := by
  have hfacts : (compile "\x7bk\x7d/\x7bx:(?P<g>[ab])-(?P=g)(?!a)\x7db").toOption.map (fun p =>
      (p.params, (p.extract "n/a-ab").toOption)) =
      some ([⟨"k", .required, 0⟩, ⟨"x", .constrained "(?P<g>[ab])-(?P=g)(?!a)", 1⟩],
        some (some [("k", "n"), ("x", "a-a")])) := by decide +kernel
  obtain ⟨p, hp, hfacts⟩ := exists_ok_of_toOption_map hfacts
  obtain ⟨hparams, hvalues⟩ := Prod.mk.inj hfacts
  have hq : ⟨"x", .constrained "(?P<g>[ab])-(?P=g)(?!a)", 1⟩ ∈ p.params := by
    rw [hparams]
    exact List.mem_cons_of_mem _ List.mem_cons_self
  have hportable : portable "(?P<g>[ab])-(?P=g)(?!a)".toList = true := by decide +kernel
  have hextract := eq_ok_of_toOption hvalues
  obtain ⟨v, alone, hv, halone, hmatch, -, hfault⟩ :=
    extract_meets_constraint hp hq rfl hportable hextract
  obtain rfl : v = "a-a" := by
    have hget : Assoc.get? "x" [("k", "n"), ("x", "a-a")] = some "a-a" := by decide
    exact Option.some.inj (hv.symm.trans hget)
  exact ⟨p, hp, hextract, hportable, alone, halone, hmatch, hfault⟩

/-! ## What is not portable -/

/-- The pattern extracts a value from the path that the constraint of its parameter does not match
alone. -/
def ExtractsRefused (source id : String) : Prop :=
  ∃ p q c alone values v, compile source = .ok p ∧ q ∈ p.params ∧ q.kind = .constrained c ∧
    read c.toList = .ok alone ∧ p.extract id = .ok (some values) ∧ values.get? q.name = some v ∧
    alone.fullMatch v.toList = none

theorem extractsRefused_of_facts {source id : String} (c v : String)
    (hpattern : (compile source).toOption.map (fun p => (p.params, (p.extract id).toOption)) =
      some ([⟨"x", .constrained c, 0⟩], some (some [("x", v)])))
    (halone : (read c.toList).toOption.map (fun alone => (alone.fullMatch v.toList).isNone) =
      some true) : ExtractsRefused source id := by
  obtain ⟨p, hp, hfacts⟩ := exists_ok_of_toOption_map hpattern
  obtain ⟨hparams, hextract⟩ := Prod.mk.inj hfacts
  obtain ⟨alone, halone, hrefused⟩ := exists_ok_of_toOption_map halone
  refine ⟨p, ⟨"x", .constrained c, 0⟩, c, alone, _, v, hp, ?_, rfl, halone,
    eq_ok_of_toOption hextract, Assoc.get?_cons_self _ _ _, Option.isNone_iff_eq_none.1 hrefused⟩
  rw [hparams]
  exact List.mem_singleton_self _

/-- Constraints take in a path what they refuse alone if they ask for what stands around, ahead,
behind or at the edge of a word; if they refer to groups by number; and if what they settle on, or
refuse to see, settles something or looks around in its turn. -/
theorem values_refused_alone :
    ExtractsRefused "\x7bx:a(?=b)\x7db" "ab" ∧
    ExtractsRefused "b\x7bx:(?<=b)a\x7d" "ba" ∧
    ExtractsRefused "\x7bx:-\\b\x7da" "-a" ∧
    ExtractsRefused "\x7bx:(a)(b)\\2\x7d" "aba" ∧
    ExtractsRefused "\x7bx:(a)?(?(1)b|c)\x7d" "ac" ∧
    ExtractsRefused "\x7bx:(?>(?>abbc|a)b|abb)\x7dc" "abbc" ∧
    ExtractsRefused "\x7bx:(?>ab$|a)b\x7dc" "abc" ∧
    ExtractsRefused "\x7bx:(?>ab(?!c)|a)b\x7dc" "abc" ∧
    ExtractsRefused "\x7bx:(?!a$)a\x7db" "ab" ∧
    ExtractsRefused "\x7bx:(?!a(?!b))a\x7db" "ab" ∧
    ExtractsRefused "\x7bx:(?!(?>abc|a)b)ab\x7dc" "abc" :=
  ⟨extractsRefused_of_facts "a(?=b)" "a" (by decide +kernel) (by decide +kernel),
    extractsRefused_of_facts "(?<=b)a" "a" (by decide +kernel) (by decide +kernel),
    extractsRefused_of_facts "-\\b" "-" (by decide +kernel) (by decide +kernel),
    extractsRefused_of_facts "(a)(b)\\2" "aba" (by decide +kernel) (by decide +kernel),
    extractsRefused_of_facts "(a)?(?(1)b|c)" "ac" (by decide +kernel) (by decide +kernel),
    extractsRefused_of_facts "(?>(?>abbc|a)b|abb)" "abb" (by decide +kernel) (by decide +kernel),
    extractsRefused_of_facts "(?>ab$|a)b" "ab" (by decide +kernel) (by decide +kernel),
    extractsRefused_of_facts "(?>ab(?!c)|a)b" "ab" (by decide +kernel) (by decide +kernel),
    extractsRefused_of_facts "(?!a$)a" "a" (by decide +kernel) (by decide +kernel),
    extractsRefused_of_facts "(?!a(?!b))a" "a" (by decide +kernel) (by decide +kernel),
    extractsRefused_of_facts "(?!(?>abc|a)b)ab" "ab" (by decide +kernel) (by decide +kernel)⟩

end Winnow.Pattern
