import Winnow.Proofs.Regex.Ways

/-!
# Local expressions

An expression without anchors, references, conditions and lookaround sees nothing but the text that
it takes. Its ways are then a matter of texts: `Node.rests` lists what each of them leaves
(`map_after_ways`), and the numbers of groups play no part (`rests_unnumbered`).
-/

namespace Winnow.Regex

/-- Whether an expression sees nothing but the text that it takes. -/
def Node.isLocal : Node → Bool
  | .anchor _ => false
  | .seq a b => a.isLocal && b.isLocal
  | .alt a b => a.isLocal && b.isLocal
  | .group _ a => a.isLocal
  | .reference _ _ => false
  | .condition _ _ _ => false
  | .ahead _ _ => false
  | .behind _ _ _ => false
  | .atomic a => a.isLocal
  | .loop _ _ _ a => a.isLocal
  | _ => true

/-! ## Ways as remaining texts -/

/-- What is left after a character that is accepted. -/
def stepRests (accept : Char → Bool) : List Char → List (List Char)
  | [] => []
  | c :: s => if accept c then [s] else []

/-- What the ways of a repetition leave. `last` is the length of the text at which the latest round
began. -/
def loopRests (greed : Greed) (body : List Char → List (List Char)) (most : Option Nat) :
    Nat → Nat → Option Nat → List Char → List (List Char)
  | 0, _, _, s => [s]
  | fuel + 1, count, last, s =>
    if most.any (count ≥ ·) || last == some s.length then [s]
    else greed.order s
      ((body s).flatMap (loopRests greed body most fuel (count + 1) (some s.length)))

/-- What a repetition leaves that settles each of its rounds. -/
def settledRest (body : List Char → List (List Char)) (most : Option Nat) :
    Nat → Nat → List Char → List Char
  | 0, _, s => s
  | fuel + 1, count, s =>
    if most.any (count ≥ ·) then s
    else
      match (body s).head? with
      | some r => if r.length = s.length then r else settledRest body most fuel (count + 1) r
      | none => s

/-- What the ways of a fixed number of rounds leave. -/
def repeatRests (body : List Char → List (List Char)) : Nat → List Char → List (List Char)
  | 0, s => [s]
  | n + 1, s => (body s).flatMap (repeatRests body n)

/-- What a fixed number of rounds leaves, each settled before the next. -/
def repeatSettledRest (body : List Char → List (List Char)) : Nat → List Char → Option (List Char)
  | 0, s => some s
  | n + 1, s => (body s).head?.bind (repeatSettledRest body n)

/-- What the ways of a local expression leave of a text, in the order in which they are tried. -/
def Node.rests : Node → List Char → List (List Char)
  | .empty, s => [s]
  | .char c, s => stepRests (· == c) s
  | .any, s => stepRests (fun _ => true) s
  | .notLineFeed, s => stepRests (· != '\n') s
  | .set m negated items, s => stepRests (fun c => inSet m items c != negated) s
  | .seq a b, s => (a.rests s).flatMap b.rests
  | .alt a b, s => a.rests s ++ b.rests s
  | .group _ a, s => a.rests s
  | .atomic a, s => (a.rests s).head?.toList
  | .loop .possessive least most a, s =>
    ((repeatSettledRest a.rests least s).map fun r =>
      settledRest a.rests most (r.length + 2) least r).toList
  | .loop greed least most a, s =>
    (repeatRests a.rests least s).flatMap fun r =>
      loopRests greed a.rests most (r.length + 2) least none r
  | .anchor _, _ => []
  | .reference _ _, _ => []
  | .condition _ _ _, _ => []
  | .ahead _ _, _ => []
  | .behind _ _ _, _ => []

theorem Greed.map_order {α β : Type} (greed : Greed) (f : α → β) (stay : α) (go : List α) :
    (greed.order stay go).map f = greed.order (f stay) (go.map f) := by
  cases greed <;> simp [Greed.order]

theorem map_after_step? (accept : Char → Bool) (p : Place) :
    (p.step? accept).toList.map Place.after = stepRests accept p.after := by
  rw [Place.step?]
  cases p.after with
  | nil => rfl
  | cons c s =>
      simp only [stepRests]
      split <;> rfl

theorem flatMap_map_after {ways : Place → List Place} {f : Place → List Place}
    {g : List Char → List (List Char)} {p : Place}
    (h : ∀ q ∈ ways p, (f q).map Place.after = g q.after) :
    ((ways p).flatMap f).map Place.after = ((ways p).map Place.after).flatMap g := by
  rw [List.map_flatMap, List.flatMap_map]
  exact List.flatMap_congr h

section Repetition

variable {body : Place → List Place} {rests : List Char → List (List Char)}
  (hbody : ∀ p, (body p).map Place.after = rests p.after)
  (hleads : ∀ p, ∀ q ∈ body p, ∃ t, p.Leads t q)
include hbody

include hleads in
/-- Positions grow as the remaining text shrinks, so that the two repetitions see in the same round
that nothing was taken. -/
theorem map_after_loopWays (greed : Greed) (most : Option Nat) {n : Nat} (fuel count : Nat)
    (last : Option Nat) (p : Place) (hp : p.position + p.after.length = n)
    (hlast : ∀ x ∈ last, x ≤ n) :
    (loopWays greed body most fuel count last p).map Place.after =
      loopRests greed rests most fuel count (last.map (n - ·)) p.after := by
  induction fuel generalizing count last p with
  | zero => rfl
  | succ fuel ih =>
      have hstop : (last == some p.position) = (last.map (n - ·) == some p.after.length) := by
        cases last with
        | none => rfl
        | some x =>
            have hx := hlast x rfl
            simp only [Option.map_some, Option.some_beq_some]
            rw [Bool.eq_iff_iff, beq_iff_eq, beq_iff_eq]
            omega
      rw [loopWays, loopRests, hstop]
      split
      · rfl
      · rw [Greed.map_order, flatMap_map_after (g := loopRests greed rests most fuel (count + 1)
          (some p.after.length)), hbody]
        intro q hq
        obtain ⟨t, ht⟩ := hleads p q hq
        have hlen := congrArg List.length ht.after
        rw [List.length_append] at hlen
        have hpos := ht.position
        rw [ih (count + 1) (some p.position) q (by omega) (by rintro x ⟨⟩; omega)]
        rw [Option.map_some, show n - p.position = p.after.length by omega]

include hleads in
theorem after_settledWay (most : Option Nat) (fuel count : Nat) (p : Place) :
    (settledWay body most fuel count p).after = settledRest rests most fuel count p.after := by
  induction fuel generalizing count p with
  | zero => rfl
  | succ fuel ih =>
      rw [settledWay, settledRest, ← hbody, List.head?_map]
      split
      · rfl
      · cases hq : (body p).head? with
        | none => rfl
        | some q =>
            obtain ⟨t, ht⟩ := hleads p q (List.mem_of_mem_head? hq)
            have hlen := congrArg List.length ht.after
            rw [List.length_append] at hlen
            have hpos := ht.position
            have hsame : q.position = p.position ↔ q.after.length = p.after.length := by omega
            simp only [Option.map_some, hsame]
            split
            · rfl
            · exact ih (count + 1) q

theorem map_after_repeatWays (n : Nat) (p : Place) :
    (repeatWays body n p).map Place.after = repeatRests rests n p.after := by
  induction n generalizing p with
  | zero => rfl
  | succ n ih =>
      rw [repeatWays, repeatRests, flatMap_map_after fun q _ => ih q, hbody]

theorem map_after_repeatSettledWay (n : Nat) (p : Place) :
    (repeatSettledWay body n p).map Place.after = repeatSettledRest rests n p.after := by
  induction n generalizing p with
  | zero => rfl
  | succ n ih =>
      rw [repeatSettledWay, repeatSettledRest, ← hbody, List.head?_map]
      cases (body p).head? with
      | none => rfl
      | some q => exact ih q

end Repetition

/-- **The ways of a local expression are a matter of texts.** -/
theorem map_after_ways {n : Node} (h : n.isLocal = true) (p : Place) :
    (n.ways p).map Place.after = n.rests p.after := by
  induction n generalizing p with
  | empty => rfl
  | char c => exact map_after_step? _ p
  | any => exact map_after_step? _ p
  | notLineFeed => exact map_after_step? _ p
  | set m negated items => exact map_after_step? _ p
  | anchor a => cases h
  | seq a b iha ihb =>
      rw [Node.isLocal, Bool.and_eq_true] at h
      rw [Node.ways, Node.rests, flatMap_map_after fun q _ => ihb h.2 q, iha h.1]
  | alt a b iha ihb =>
      rw [Node.isLocal, Bool.and_eq_true] at h
      rw [Node.ways, Node.rests, List.map_append, iha h.1, ihb h.2]
  | group i a ih =>
      rw [Node.ways, Node.rests, List.map_map, ← ih h]
      rfl
  | reference m i => cases h
  | condition i a b iha ihb => cases h
  | ahead negated a ih => cases h
  | behind negated w a ih => cases h
  | atomic a ih =>
      rw [Node.ways, Node.rests, ← ih h, List.head?_map]
      cases (a.ways p).head? <;> rfl
  | loop greed least most a ih =>
      -- Whether a round took nothing is told by the position in one loop and by the length of the
      -- rest in the other. They agree because every way leads forward.
      have hleads : ∀ p, ∀ q ∈ a.ways p, ∃ t, p.Leads t q :=
        fun p q hq => exists_leads_of_mem_ways hq
      have hloop (greed : Greed) (q : Place) :
          (loopWays greed a.ways most (q.after.length + 2) least none q).map Place.after =
            loopRests greed a.rests most (q.after.length + 2) least none q.after :=
        map_after_loopWays (ih h) hleads greed most _ least none q rfl (by rintro x ⟨⟩)
      cases greed with
      | greedy =>
          rw [Node.ways, Node.rests, flatMap_map_after (fun q _ => hloop .greedy q)
            (g := fun r => loopRests .greedy a.rests most (r.length + 2) least none r),
            map_after_repeatWays (ih h)]
          intro hg
          cases hg
      | «lazy» =>
          rw [Node.ways, Node.rests, flatMap_map_after (fun q _ => hloop .lazy q)
            (g := fun r => loopRests .lazy a.rests most (r.length + 2) least none r),
            map_after_repeatWays (ih h)]
          intro hg
          cases hg
      | possessive =>
          rw [Node.ways, Node.rests, ← map_after_repeatSettledWay (ih h)]
          cases repeatSettledWay a.ways least p with
          | none => rfl
          | some q => exact congrArg (fun r => [r]) (after_settledWay (ih h) hleads most _ least q)

/-- A local expression matches a text in full exactly if one of its ways leaves nothing. -/
theorem isSome_fullMatch_iff {n : Node} (h : n.isLocal = true) (text : List Char) :
    (n.fullMatch text).isSome ↔ [] ∈ n.rests text := by
  have hways : (n.ways (.start text)).map Place.after = n.rests text :=
    map_after_ways h (.start text)
  rw [fullMatch_eq_find?, List.find?_isSome, ← hways, List.mem_map]
  simp only [List.isEmpty_iff]

/-- Expressions that differ in the numbers of groups only, once they are without numbers. -/
def Node.unnumbered : Node → Node
  | .seq a b => .seq a.unnumbered b.unnumbered
  | .alt a b => .alt a.unnumbered b.unnumbered
  | .group _ a => .group 0 a.unnumbered
  | .reference m _ => .reference m 0
  | .condition _ a b => .condition 0 a.unnumbered b.unnumbered
  | .ahead negated a => .ahead negated a.unnumbered
  | .behind negated _ a => .behind negated 0 a.unnumbered
  | .atomic a => .atomic a.unnumbered
  | .loop greed least most a => .loop greed least most a.unnumbered
  | n => n

/-- The numbers of groups play no part in what a local expression takes. -/
theorem rests_unnumbered (n : Node) : n.unnumbered.rests = n.rests := by
  induction n with
  | seq a b iha ihb =>
      funext s
      rw [Node.unnumbered, Node.rests, Node.rests, iha, ihb]
  | alt a b iha ihb =>
      funext s
      rw [Node.unnumbered, Node.rests, Node.rests, iha, ihb]
  | group i a ih =>
      funext s
      rw [Node.unnumbered, Node.rests, Node.rests, ih]
  | atomic a ih =>
      funext s
      rw [Node.unnumbered, Node.rests, Node.rests, ih]
  | loop greed least most a ih =>
      funext s
      cases greed <;> simp only [Node.unnumbered, Node.rests, ih]
  | _ => rfl

theorem isLocal_unnumbered (n : Node) : n.unnumbered.isLocal = n.isLocal := by
  induction n with
  | seq a b iha ihb => rw [Node.unnumbered, Node.isLocal, Node.isLocal, iha, ihb]
  | alt a b iha ihb => rw [Node.unnumbered, Node.isLocal, Node.isLocal, iha, ihb]
  | group i a ih => rw [Node.unnumbered, Node.isLocal, Node.isLocal, ih]
  | atomic a ih => rw [Node.unnumbered, Node.isLocal, Node.isLocal, ih]
  | loop greed least most a ih => rw [Node.unnumbered, Node.isLocal, Node.isLocal, ih]
  | _ => rfl

end Winnow.Regex
