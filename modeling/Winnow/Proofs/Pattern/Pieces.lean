import Winnow.Pattern.Compiled
import Winnow.Proofs.Regex.Ways

/-!
# What the pieces of a pattern match

The expressions that a pattern puts together itself are few: its literals, a piece of a segment, any
rest of a line, and something optional. For each of them its ways are told exactly: which texts they
take, and in which order.
-/

namespace Winnow

open Regex

/-- The text `t` lies between two places, and no group was taken on the way. -/
structure Regex.Place.Takes (p : Place) (t : List Char) (q : Place) : Prop where
  leads : p.Leads t q
  groups : q.groups = p.groups

namespace Regex.Place.Takes

theorem refl (p : Place) : p.Takes [] p := ⟨.refl p, rfl⟩

theorem trans {p q r : Place} {s t : List Char} (h : p.Takes s q) (h' : q.Takes t r) :
    p.Takes (s ++ t) r :=
  ⟨h.leads.trans h'.leads, h'.groups.trans h.groups⟩

theorem group? {p q : Place} {t : List Char} (h : p.Takes t q) (j : Nat) :
    q.group? j = p.group? j :=
  congrArg (Assoc.get? j) h.groups

end Regex.Place.Takes

namespace Pattern

/-! ## Single characters -/

theorem takes_of_step? {accept : Char → Bool} {p q : Place} (h : p.step? accept = some q) :
    ∃ c, accept c = true ∧ p.Takes [c] q := by
  obtain ⟨c, rest, hp, hc, rfl⟩ := Place.step?_eq_some_iff.1 h
  exact ⟨c, hc, ⟨hp, rfl⟩, rfl⟩

/-- A step over the first character of a text leads to a place before the rest of it. -/
theorem exists_step? (accept : Char → Bool) {p : Place} {c : Char} {rest : List Char}
    (hp : p.after = c :: rest) (hc : accept c = true) :
    ∃ q, p.step? accept = some q ∧ p.Takes [c] q ∧ q.after = rest := by
  refine ⟨_, Place.step?_eq_some_iff.2 ⟨c, rest, hp, hc, rfl⟩, ⟨⟨hp, rfl⟩, rfl⟩, rfl⟩

/-! ## Sequences -/

theorem ways_join_cons (n : Node) (ns : List Node) (p : Place) :
    (Node.join (n :: ns)).ways p = (n.ways p).flatMap (Node.join ns).ways := by
  cases ns with
  | nil => exact (List.flatMap_singleton' _).symm
  | cons m ms => rfl

theorem ways_literalNode_ofList_cons (c : Char) (cs : List Char) (p : Place) :
    (Node.join ((c :: cs).map .char)).ways p =
      (p.step? (· == c)).toList.flatMap (Node.join (cs.map .char)).ways :=
  ways_join_cons (.char c) (cs.map .char) p

/-- A literal matches itself, in at most one way. -/
theorem length_ways_literal_le (text : List Char) (p : Place) :
    ((Node.join (text.map .char)).ways p).length ≤ 1 := by
  induction text generalizing p with
  | nil => exact Nat.le_refl 1
  | cons c cs ih =>
      rw [ways_literalNode_ofList_cons]
      cases p.step? (· == c) with
      | none => exact Nat.zero_le 1
      | some q =>
          rw [Option.toList_some, List.flatMap_singleton]
          exact ih q

theorem takes_of_mem_ways_literal {text : List Char} {p q : Place}
    (h : q ∈ (Node.join (text.map .char)).ways p) : p.Takes text q := by
  induction text generalizing p with
  | nil =>
      rw [List.mem_singleton.1 h]
      exact .refl p
  | cons c cs ih =>
      rw [ways_literalNode_ofList_cons] at h
      obtain ⟨m, hm, hq⟩ := List.mem_flatMap.1 h
      obtain ⟨c', hc', hpm⟩ := takes_of_step? (Option.mem_toList.1 hm)
      rw [beq_iff_eq.1 hc'] at hpm
      exact hpm.trans (ih hq)

theorem exists_mem_ways_literal {text rest : List Char} {p : Place} (h : p.after = text ++ rest) :
    ∃ q ∈ (Node.join (text.map .char)).ways p, q.after = rest := by
  induction text generalizing p with
  | nil => exact ⟨p, List.mem_singleton_self p, h⟩
  | cons c cs ih =>
      obtain ⟨m, hm, hpm, hafter⟩ := exists_step? (· == c) h (beq_self_eq_true c)
      obtain ⟨q, hq, hrest⟩ := ih hafter
      refine ⟨q, ?_, hrest⟩
      rw [ways_literalNode_ofList_cons, hm]
      exact List.mem_flatMap.2 ⟨m, List.mem_singleton_self m, hq⟩

/-! ## Runs of characters -/

section Runs

variable {accept : Char → Bool} {greed : Greed} {fuel count : Nat} {last : Option Nat} {p q : Place}

/-- The ways of going on over single characters, as long as there is fuel for the rest of the
text. -/
theorem loopWays_step (hlast : last ≠ some p.position) :
    loopWays greed (fun p => (p.step? accept).toList) none (fuel + 1) count last p =
      greed.order p ((p.step? accept).toList.flatMap
        (loopWays greed (fun p => (p.step? accept).toList) none fuel (count + 1)
          (some p.position))) := by
  rw [loopWays]
  simp [hlast]

theorem takes_of_mem_loopWays
    (h : q ∈ loopWays greed (fun p => (p.step? accept).toList) none fuel count last p) :
    ∃ v, v.all accept = true ∧ p.Takes v q := by
  refine rel_of_mem_loopWays (T := fun p q => ∃ v, v.all accept = true ∧ p.Takes v q)
    ?_ (fun p => ⟨[], rfl, .refl p⟩) ?_ h
  · intro p q hq
    obtain ⟨c, hc, hpq⟩ := takes_of_step? (Option.mem_toList.1 hq)
    exact ⟨[c], by rw [List.all_cons, hc, List.all_nil, Bool.and_true], hpq⟩
  · rintro p q r ⟨v, hv, hpq⟩ ⟨w, hw, hqr⟩
    exact ⟨v ++ w, by rw [List.all_append, hv, hw, Bool.and_true], hpq.trans hqr⟩

/-- Every run of accepted characters is a way, as long as there is fuel for it. -/
theorem exists_mem_loopWays (greed : Greed) (count : Nat) (last : Option Nat) {v rest : List Char}
    (hv : v.all accept = true)
    (hp : p.after = v ++ rest) (hfuel : v.length < fuel) (hlast : last ≠ some p.position) :
    ∃ q ∈ loopWays greed (fun p => (p.step? accept).toList) none fuel count last p,
      q.after = rest := by
  induction v generalizing fuel count last p with
  | nil =>
      obtain ⟨fuel, rfl⟩ := Nat.exists_eq_succ_of_ne_zero (Nat.ne_of_gt hfuel)
      rw [loopWays_step hlast]
      exact ⟨p, Greed.mem_order.2 (.inl rfl), hp⟩
  | cons c v ih =>
      obtain ⟨fuel, rfl⟩ := Nat.exists_eq_succ_of_ne_zero (Nat.ne_of_gt (Nat.zero_lt_of_lt hfuel))
      rw [List.all_cons, Bool.and_eq_true] at hv
      obtain ⟨m, hm, hpm, hafter⟩ := exists_step? accept hp hv.1
      have hmoved : some p.position ≠ some m.position := by
        rw [hpm.leads.position]
        simp
      obtain ⟨q, hq, hrest⟩ := ih (count + 1) (some p.position) hv.2 hafter
        (Nat.lt_of_succ_lt_succ hfuel) hmoved
      refine ⟨q, ?_, hrest⟩
      rw [loopWays_step hlast, hm]
      exact Greed.mem_order.2 (.inr (List.mem_flatMap.2 ⟨m, List.mem_singleton_self m, hq⟩))

/-- Going on leads behind the place where it starts. -/
theorem position_lt_of_mem_go
    (h : q ∈ (p.step? accept).toList.flatMap
      (loopWays greed (fun p => (p.step? accept).toList) none fuel count last)) :
    p.position < q.position := by
  obtain ⟨m, hm, hq⟩ := List.mem_flatMap.1 h
  obtain ⟨c, -, hpm⟩ := takes_of_step? (Option.mem_toList.1 hm)
  obtain ⟨v, -, hmq⟩ := takes_of_mem_loopWays hq
  rw [hmq.leads.position, hpm.leads.position]
  simp
  omega

/-- A lazy run is tried from the shortest to the longest. -/
theorem pairwise_loopWays_lazy (hlast : last ≠ some p.position) :
    (loopWays .lazy (fun p => (p.step? accept).toList) none fuel count last p).Pairwise
      fun q q' => q.position < q'.position := by
  induction fuel generalizing count last p with
  | zero => exact List.pairwise_singleton _ _
  | succ fuel ih =>
      rw [loopWays_step hlast, Greed.order_lazy, List.pairwise_cons]
      refine ⟨fun q hq => position_lt_of_mem_go hq, ?_⟩
      cases hm : p.step? accept with
      | none => exact .nil
      | some m =>
          obtain ⟨c, -, hpm⟩ := takes_of_step? hm
          rw [Option.toList_some, List.flatMap_singleton]
          refine ih ?_
          rw [hpm.leads.position]
          simp

/-- A greedy run is tried from the longest to the shortest. -/
theorem pairwise_loopWays_greedy (hlast : last ≠ some p.position) :
    (loopWays .greedy (fun p => (p.step? accept).toList) none fuel count last p).Pairwise
      fun q q' => q'.position < q.position := by
  induction fuel generalizing count last p with
  | zero => exact List.pairwise_singleton _ _
  | succ fuel ih =>
      rw [loopWays_step hlast, Greed.order_greedy, List.pairwise_append]
      refine ⟨?_, List.pairwise_singleton _ _, ?_⟩
      · cases hm : p.step? accept with
        | none => exact .nil
        | some m =>
            obtain ⟨c, -, hpm⟩ := takes_of_step? hm
            rw [Option.toList_some, List.flatMap_singleton]
            refine ih ?_
            rw [hpm.leads.position]
            simp
      · intro q hq q' hq'
        rw [List.mem_singleton.1 hq']
        exact position_lt_of_mem_go hq

end Runs

/-! ## Pieces of segments, rests of lines, and options -/

theorem inSet_separator (c : Char) :
    (inSet ⟨false, false⟩ [.range separator.toNat separator.toNat] c != true) =
      (c != separator) := by
  have hc : c.toNat = separator.toNat ↔ c = separator :=
    ⟨fun h => Char.ext (UInt32.toNat_inj.1 h), fun h => h ▸ rfl⟩
  have hset :
      inSet ⟨false, false⟩ [.range separator.toNat separator.toNat] c = (c == separator) := by
    rw [Bool.eq_iff_iff, beq_iff_eq, ← hc]
    simp [inSet, Mode.variants]
    omega
  rw [hset]
  cases h : c == separator <;> simp [bne, h]

theorem ways_segment (p : Place) :
    segment.ways p = (p.step? (· != separator)).toList.flatMap fun q =>
      loopWays .lazy (fun p => (p.step? (· != separator)).toList) none (q.after.length + 2) 1 none
        q := by
  have hbody : (Node.set ⟨false, false⟩ true [.range separator.toNat separator.toNat]).ways =
      fun p : Place => (p.step? (· != separator)).toList := by
    funext p
    rw [Node.ways]
    simp only [inSet_separator]
  rw [segment, Node.ways, hbody, repeatWays, List.flatMap_assoc]
  simp only [repeatWays, List.flatMap_singleton]

/-- **A segment piece takes any text without separator that is not empty.** -/
theorem takes_of_mem_ways_segment {p q : Place} (h : q ∈ segment.ways p) :
    ∃ v, v ≠ [] ∧ separator ∉ v ∧ p.Takes v q := by
  rw [ways_segment] at h
  obtain ⟨m, hm, hq⟩ := List.mem_flatMap.1 h
  obtain ⟨c, hc, hpm⟩ := takes_of_step? (Option.mem_toList.1 hm)
  obtain ⟨v, hv, hmq⟩ := takes_of_mem_loopWays hq
  refine ⟨c :: v, by simp, ?_, hpm.trans hmq⟩
  intro hsep
  rcases List.mem_cons.1 hsep with hsep | hsep
  · simp [← hsep] at hc
  · simpa using List.all_eq_true.1 hv _ hsep

theorem exists_mem_ways_segment {v rest : List Char} {p : Place} (hne : v ≠ []) (hv : separator ∉ v)
    (hp : p.after = v ++ rest) : ∃ q ∈ segment.ways p, q.after = rest := by
  cases v with
  | nil => exact absurd rfl hne
  | cons c v =>
      have haccept : ∀ d ∈ c :: v, (d != separator) = true := by
        intro d hd
        have hne : d ≠ separator := fun h => hv (h ▸ hd)
        simpa using hne
      obtain ⟨m, hm, hpm, hafter⟩ := exists_step? (· != separator) hp
        (haccept c List.mem_cons_self)
      have hfuel : v.length < m.after.length + 2 := by
        have hlen := congrArg List.length hafter
        rw [List.append_eq, List.length_append] at hlen
        omega
      obtain ⟨q, hq, hrest⟩ := exists_mem_loopWays .lazy 1 none
        (List.all_eq_true.2 fun d hd => haccept d (List.mem_cons_of_mem _ hd)) hafter hfuel
        (by simp)
      refine ⟨q, ?_, hrest⟩
      rw [ways_segment]
      exact List.mem_flatMap.2 ⟨m, Option.mem_toList.2 hm, hq⟩

/-- A segment piece is tried from the shortest to the longest. -/
theorem pairwise_ways_segment (p : Place) :
    (segment.ways p).Pairwise fun q q' => q.position < q'.position := by
  rw [ways_segment]
  cases p.step? (· != separator) with
  | none => exact .nil
  | some m =>
      rw [Option.toList_some, List.flatMap_singleton]
      exact pairwise_loopWays_lazy (by simp)

theorem ways_anyRest (p : Place) :
    anyRest.ways p = loopWays .greedy (fun p => (p.step? (· != '\n')).toList) none
      (p.after.length + 2) 0 none p := by
  rw [anyRest, Node.ways, repeatWays, List.flatMap_singleton]
  rfl

/-- **A splat takes any text within a line.** -/
theorem takes_of_mem_ways_anyRest {p q : Place} (h : q ∈ anyRest.ways p) :
    ∃ v, '\n' ∉ v ∧ p.Takes v q := by
  rw [ways_anyRest] at h
  obtain ⟨v, hv, hpq⟩ := takes_of_mem_loopWays h
  refine ⟨v, ?_, hpq⟩
  intro hfeed
  simpa using List.all_eq_true.1 hv _ hfeed

theorem exists_mem_ways_anyRest {v rest : List Char} {p : Place} (hv : '\n' ∉ v)
    (hp : p.after = v ++ rest) : ∃ q ∈ anyRest.ways p, q.after = rest := by
  have haccept : ∀ d ∈ v, (d != '\n') = true := by
    intro d hd
    have hne : d ≠ '\n' := fun h => hv (h ▸ hd)
    simpa using hne
  have hfuel : v.length < p.after.length + 2 := by
    rw [hp, List.length_append]
    omega
  rw [ways_anyRest]
  exact exists_mem_loopWays .greedy 0 none (List.all_eq_true.2 haccept) hp hfuel (by simp)

/-- A splat is tried from the longest to the shortest. -/
theorem pairwise_ways_anyRest (p : Place) :
    (anyRest.ways p).Pairwise fun q q' => q'.position < q.position := by
  rw [ways_anyRest]
  exact pairwise_loopWays_greedy (by simp)

/-- An option is tried first, and left out last. -/
theorem ways_optionally (n : Node) (p : Place) : (optionally n).ways p = n.ways p ++ [p] := by
  have honce : loopWays .greedy n.ways (some 1) (p.after.length + 1) 1 (some p.position) =
      fun q => [q] := by
    funext q
    rw [loopWays]
    simp
  have hloop : loopWays .greedy n.ways (some 1) (p.after.length + 2) 0 none p =
      n.ways p ++ [p] := by
    rw [loopWays, honce, List.flatMap_singleton']
    rfl
  rw [optionally, Node.ways, repeatWays, List.flatMap_singleton, hloop]

end Pattern

end Winnow
