import Winnow.Proofs.Regex.Numbering

/-!
# Excerpts

An expression takes a text in the midst of a longer one, from groups that were numbered behind
others. Does it take the same text alone? The places of both are laid side by side
(`Excerpt.Shows`): around a place of the excerpt there is less text, and its groups have smaller
numbers.

Plain expressions go the same ways in both, but for those that leave the excerpt (`keeps_ways`). An
expression may look around only as long as less text makes it see no more than it should
(`Node.isPortable`): then each of its ways inside the excerpt is one of the excerpt alone
(`shows_of_mem_ways`).
-/

namespace Winnow.Regex

/-- Whether an expression does nothing but take characters and remember them in groups, and settles
nothing before what follows is tried. -/
def Node.isPlain : Node → Bool
  | .anchor _ => false
  | .seq a b => a.isPlain && b.isPlain
  | .alt a b => a.isPlain && b.isPlain
  | .group _ a => a.isPlain
  | .condition _ a b => a.isPlain && b.isPlain
  | .ahead _ _ => false
  | .behind _ _ _ => false
  | .atomic _ => false
  | .loop .possessive _ _ _ => false
  | .loop _ _ _ a => a.isPlain
  | _ => true

/-- Whether an expression stays true of a text that is taken out of its surroundings: it does not
ask for what stands around, and what it settles or refuses to see is plain. -/
def Node.isPortable : Node → Bool
  | .anchor (.wordEdge _ _) => false
  | .seq a b => a.isPortable && b.isPortable
  | .alt a b => a.isPortable && b.isPortable
  | .group _ a => a.isPortable
  | .condition _ a b => a.isPortable && b.isPortable
  | .ahead negated a => negated && a.isPlain
  | .behind negated _ a => negated && a.isPlain
  | .atomic a => a.isPlain
  | .loop .possessive _ _ a => a.isPlain
  | .loop _ _ _ a => a.isPortable
  | _ => true

/-! ## Places side by side -/

/-- A part of a text by itself. -/
structure Excerpt where
  size : Nat
  /-- The text before it, reversed. -/
  left : List Char
  right : List Char
  /-- By how much positions are smaller in the excerpt. -/
  offset : Nat
  /-- By how much the numbers of groups are smaller. -/
  shift : Nat

namespace Excerpt

variable {e : Excerpt}

/-- The place `p` of the excerpt is the place `u` of the whole text. -/
structure Shows (e : Excerpt) (p u : Place) : Prop where
  before : u.before = p.before ++ e.left
  after : u.after = p.after ++ e.right
  position : u.position = p.position + e.offset
  counted : p.position = p.before.length
  size : p.position + p.after.length = e.size
  groups : ∀ j, u.group? (j + e.shift) = p.group? j

/-- Whether the excerpt reaches up to a place. -/
def covers (e : Excerpt) (u : Place) : Bool := e.right.length ≤ u.after.length

/-- The places `ps` are, in their order, those among `us` that the excerpt reaches up to. -/
def Keeps (e : Excerpt) (ps us : List Place) : Prop := List.Forall₂ e.Shows ps (us.filter e.covers)

theorem Shows.covers {p u : Place} (h : e.Shows p u) : e.covers u = true := by
  simp [Excerpt.covers, h.after]

theorem Shows.length_le {p u : Place} (h : e.Shows p u) : p.after.length ≤ u.after.length := by
  rw [h.after, List.length_append]
  exact Nat.le_add_right _ _

theorem covers_of_leads {u v : Place} (h : ∃ t, u.Leads t v) (hv : e.covers v = true) :
    e.covers u = true := by
  obtain ⟨t, h⟩ := h
  simp only [Excerpt.covers, decide_eq_true_eq] at hv ⊢
  have hlen := congrArg List.length h.after
  rw [List.length_append] at hlen
  omega

theorem Shows.position_eq_iff {p q u v : Place} (hp : e.Shows p u) (hq : e.Shows q v) :
    v.position = u.position ↔ q.position = p.position := by
  have hp := hp.position
  have hq := hq.position
  omega

/-- A round that began where the latest one did began there in both texts. -/
theorem Shows.last_beq {p u : Place} (h : e.Shows p u) (last : Option Nat) :
    (last.map (· + e.offset) == some u.position) = (last == some p.position) := by
  cases last with
  | none => rfl
  | some x => simp [h.position]

theorem Shows.taken_eq {p q u v : Place} (hp : e.Shows p u) (hq : e.Shows q v) :
    u.taken v = p.taken q := by
  have hpos : v.position - u.position = q.position - p.position := by
    rw [hp.position, hq.position]
    omega
  have hle : q.position - p.position ≤ p.after.length := by
    have hp := hp.size
    have hq := hq.size
    omega
  rw [Place.taken, Place.taken, hpos, hp.after, List.take_append_of_le_length hle]

theorem Shows.capture {q v : Place} (h : e.Shows q v) (i : Nat) (text : List Char) :
    e.Shows (q.capture i text) (v.capture (i + e.shift) text) := by
  refine ⟨h.before, h.after, h.position, h.counted, h.size, fun j => ?_⟩
  by_cases hij : j = i
  · rw [hij, Place.group?_capture_self, Place.group?_capture_self]
  · rw [Place.group?_capture_of_ne hij, Place.group?_capture_of_ne fun he =>
      hij (Nat.add_right_cancel he)]
    exact h.groups j

/-! ### Lists of places -/

theorem keeps_nil : e.Keeps [] [] := .nil

theorem keeps_singleton {p u : Place} (h : e.Shows p u) : e.Keeps [p] [u] := by
  rw [Keeps, List.filter_cons_of_pos h.covers]
  exact .cons h .nil

theorem keeps_beyond {u : Place} (h : e.covers u = false) : e.Keeps [] [u] := by
  rw [Keeps, List.filter_cons_of_neg (by simp [h])]
  exact .nil

theorem Keeps.append {ps qs us vs : List Place} (h : e.Keeps ps us) (h' : e.Keeps qs vs) :
    e.Keeps (ps ++ qs) (us ++ vs) := by
  rw [Keeps, List.filter_append]
  exact List.rel_append h h'

theorem Keeps.order {p u : Place} {ps us : List Place} (greed : Greed) (h : e.Shows p u)
    (hs : e.Keeps ps us) : e.Keeps (greed.order p ps) (greed.order u us) := by
  cases greed with
  | «lazy» => exact (keeps_singleton h).append hs
  | _ => exact hs.append (keeps_singleton h)

/-- Going on from places beyond the excerpt does not lead back into it. -/
theorem Keeps.flatMap {ps us : List Place} {f g : Place → List Place} (h : e.Keeps ps us)
    (hleads : ∀ u, ∀ v ∈ g u, ∃ t, u.Leads t v)
    (hfg : ∀ p u, e.Shows p u → e.Keeps (f p) (g u)) :
    e.Keeps (ps.flatMap f) (us.flatMap g) := by
  induction us generalizing ps with
  | nil =>
      cases h
      exact keeps_nil
  | cons u us ih =>
      rw [List.flatMap_cons]
      by_cases hu : e.covers u = true
      · rw [Keeps, List.filter_cons_of_pos hu] at h
        cases h with
        | cons hp hps => exact (hfg _ _ hp).append (ih hps)
      · rw [Keeps, List.filter_cons_of_neg hu] at h
        have hgone : e.Keeps [] (g u) := by
          rw [Keeps, List.forall₂_nil_left_iff, List.filter_eq_nil_iff]
          intro v hv hcovers
          exact hu (covers_of_leads (hleads u v hv) hcovers)
        exact hgone.append (ih h)

theorem Keeps.map_capture {ps us : List Place} (h : e.Keeps ps us) (i : Nat) {p u : Place}
    (hp : e.Shows p u) :
    e.Keeps (ps.map fun q => q.capture i (p.taken q))
      (us.map fun v => v.capture (i + e.shift) (u.taken v)) := by
  rw [Keeps, List.filter_map, List.forall₂_map_left_iff, List.forall₂_map_right_iff]
  refine List.Forall₂.imp (fun q v hq => ?_) h
  rw [hp.taken_eq hq]
  exact hq.capture i _

theorem Keeps.exists_of_mem {ps us : List Place} (h : e.Keeps ps us) {v : Place} (hv : v ∈ us)
    (hcovers : e.covers v = true) : ∃ q ∈ ps, e.Shows q v :=
  exists_of_forall₂ h.flip (List.mem_filter.2 ⟨hv, hcovers⟩)

theorem Keeps.exists_of_mem_left {ps us : List Place} (h : e.Keeps ps us) {p : Place}
    (hp : p ∈ ps) : ∃ u ∈ us, e.Shows p u := by
  obtain ⟨u, hu, hpu⟩ := exists_of_forall₂ h hp
  exact ⟨u, (List.mem_filter.1 hu).1, hpu⟩

/-- The first place is still the first one if the excerpt reaches up to it. -/
theorem Keeps.head? {ps us : List Place} (h : e.Keeps ps us) {v : Place} (hv : us.head? = some v)
    (hcovers : e.covers v = true) : ∃ q, ps.head? = some q ∧ e.Shows q v := by
  obtain ⟨rest, rfl⟩ := List.head?_eq_some_iff.1 hv
  rw [Keeps, List.filter_cons_of_pos hcovers] at h
  cases h with
  | cons hq _ => exact ⟨_, rfl, hq⟩

theorem Keeps.eq_nil {ps us : List Place} (h : e.Keeps ps us) (hus : us.head? = none) :
    ps = [] := by
  rw [List.head?_eq_none_iff.1 hus] at h
  cases h
  rfl

end Excerpt

open Excerpt

variable {e : Excerpt}

/-! ## Plain expressions -/

theorem keeps_step? (accept : Char → Bool) {p u : Place} (h : e.Shows p u) :
    e.Keeps (p.step? accept).toList (u.step? accept).toList := by
  have hafter := h.after
  cases hp : p.after with
  | nil =>
      -- The excerpt ends here, and a step goes beyond it.
      rw [hp, List.nil_append] at hafter
      have hnone : p.step? accept = none := by rw [Place.step?, hp]
      rw [hnone]
      cases hv : u.step? accept with
      | none => exact keeps_nil
      | some v =>
          obtain ⟨c, rest, hrest, -, rfl⟩ := Place.step?_eq_some_iff.1 hv
          refine keeps_beyond ?_
          rw [hafter] at hrest
          simp [Excerpt.covers, hrest]
  | cons c s =>
      rw [hp, List.cons_append] at hafter
      simp only [Place.step?, hp, hafter]
      split
      · refine keeps_singleton ⟨?_, rfl, ?_, ?_, ?_, h.groups⟩
        · rw [h.before, List.cons_append]
        · rw [h.position, Nat.add_right_comm]
        · rw [h.counted, List.length_cons]
        · have hsize := h.size
          rw [hp, List.length_cons] at hsize
          dsimp only
          omega
      · exact keeps_nil

theorem toList_skip?_cons (m : Mode) (c : Char) (text : List Char) (p : Place) :
    (p.skip? m (c :: text)).toList =
      (p.step? (m.same c)).toList.flatMap fun q => (q.skip? m text).toList := by
  rw [Place.skip?]
  cases p.step? (m.same c) <;> simp

theorem keeps_skip? (m : Mode) (text : List Char) {p u : Place} (h : e.Shows p u) :
    e.Keeps (p.skip? m text).toList (u.skip? m text).toList := by
  induction text generalizing p u with
  | nil => exact keeps_singleton h
  | cons c text ih =>
      rw [toList_skip?_cons, toList_skip?_cons]
      refine (keeps_step? (m.same c) h).flatMap (fun u v hv => ?_) fun p u hpu => ih hpu
      exact leads_of_skip? (Option.mem_toList.1 hv)

/-! ### Repetition -/

section Forward

variable {body : Place → List Place} (hleads : ∀ p, ∀ q ∈ body p, ∃ t, p.Leads t q)

theorem exists_leads_refl (p : Place) : ∃ t, p.Leads t p := ⟨[], .refl p⟩

theorem exists_leads_trans (p q r : Place) (h : ∃ t, p.Leads t q) (h' : ∃ t, q.Leads t r) :
    ∃ t, p.Leads t r := by
  obtain ⟨s, hs⟩ := h
  obtain ⟨t, ht⟩ := h'
  exact ⟨s ++ t, hs.trans ht⟩

include hleads in
theorem exists_leads_of_mem_loopWays {greed : Greed} {most : Option Nat} {fuel count : Nat}
    {last : Option Nat} {p q : Place} (h : q ∈ loopWays greed body most fuel count last p) :
    ∃ t, p.Leads t q :=
  rel_of_mem_loopWays (T := fun p q => ∃ t, p.Leads t q) hleads exists_leads_refl
    exists_leads_trans h

include hleads in
theorem exists_leads_settledWay (most : Option Nat) (fuel count : Nat) (p : Place) :
    ∃ t, p.Leads t (settledWay body most fuel count p) :=
  rel_settledWay (T := fun p q => ∃ t, p.Leads t q) hleads exists_leads_refl exists_leads_trans
    most fuel count p

include hleads in
theorem exists_leads_of_mem_repeatWays {n : Nat} {p q : Place} (h : q ∈ repeatWays body n p) :
    ∃ t, p.Leads t q :=
  rel_of_mem_repeatWays (T := fun p q => ∃ t, p.Leads t q) hleads exists_leads_refl
    exists_leads_trans h

include hleads in
theorem exists_leads_of_repeatSettledWay {n : Nat} {p q : Place}
    (h : repeatSettledWay body n p = some q) : ∃ t, p.Leads t q :=
  rel_of_repeatSettledWay (T := fun p q => ∃ t, p.Leads t q) hleads exists_leads_refl
    exists_leads_trans h

/-- What leads forward leads to no more text than there was. -/
theorem length_le_of_leads {p q : Place} (h : ∃ t, p.Leads t q) :
    q.after.length ≤ p.after.length ∧
      (q.position = p.position ∨ q.after.length < p.after.length) := by
  obtain ⟨t, ht⟩ := h
  have hlen := congrArg List.length ht.after
  have hpos := ht.position
  rw [List.length_append] at hlen
  omega

include hleads in
/-- Fuel beyond the length of the text does not matter, since every round but the last takes
something. -/
theorem loopWays_fuel {greed : Greed} {most : Option Nat} {fuel fuel' count : Nat}
    {last : Option Nat} {p : Place}
    (h : last = some p.position ∨ p.after.length < fuel ∧ p.after.length < fuel') :
    loopWays greed body most fuel count last p = loopWays greed body most fuel' count last p := by
  induction fuel generalizing fuel' count last p with
  | zero =>
      obtain rfl : last = some p.position := h.resolve_right (by omega)
      cases fuel' <;> simp [loopWays]
  | succ fuel ih =>
      cases fuel' with
      | zero =>
          obtain rfl : last = some p.position := h.resolve_right (by omega)
          simp [loopWays]
      | succ fuel' =>
          rw [loopWays, loopWays]
          split
          · rfl
          next hstop =>
            congr 1
            refine List.flatMap_congr fun q hq => ih ?_
            have hlast : last ≠ some p.position := by
              rintro rfl
              simp at hstop
            obtain ⟨hle, hsame | hless⟩ := length_le_of_leads (hleads p q hq)
            · exact .inl (congrArg some hsame.symm)
            · exact .inr (by have := h.resolve_left hlast; omega)

include hleads in
theorem settledWay_fuel {most : Option Nat} {fuel fuel' count : Nat} {p : Place}
    (h : p.after.length < fuel) (h' : p.after.length < fuel') :
    settledWay body most fuel count p = settledWay body most fuel' count p := by
  induction fuel generalizing fuel' count p with
  | zero => omega
  | succ fuel ih =>
      obtain ⟨fuel', rfl⟩ : ∃ k, fuel' = k + 1 := ⟨fuel' - 1, by omega⟩
      rw [settledWay, settledWay]
      split
      · rfl
      · split
        next q hq =>
            split
            · rfl
            next hmoved =>
              have hpq := hleads p q (List.mem_of_mem_head? hq)
              obtain ⟨-, hsame | hless⟩ := length_le_of_leads hpq
              · exact absurd hsame hmoved
              · exact ih (by omega) (by omega)
        next => rfl

include hleads in
/-- The fuel for the whole text is enough for the excerpt, and does not do more. -/
theorem loopWays_of_shows {greed : Greed} {most : Option Nat} {count : Nat} {q v : Place}
    (h : e.Shows q v) :
    loopWays greed body most (q.after.length + 2) count none q =
      loopWays greed body most (v.after.length + 2) count none q := by
  have hlen := h.length_le
  exact loopWays_fuel hleads (.inr ⟨by omega, by omega⟩)

include hleads in
theorem settledWay_of_shows {most : Option Nat} {count : Nat} {q v : Place} (h : e.Shows q v) :
    settledWay body most (q.after.length + 2) count q =
      settledWay body most (v.after.length + 2) count q := by
  have hlen := h.length_le
  exact settledWay_fuel hleads (by omega) (by omega)

end Forward

section Rounds

variable {body body' : Place → List Place} (hleads : ∀ p, ∀ q ∈ body p, ∃ t, p.Leads t q)
  (hleads' : ∀ u, ∀ v ∈ body' u, ∃ t, u.Leads t v)
  (hkeeps : ∀ p u, e.Shows p u → e.Keeps (body p) (body' u))
include hleads' hkeeps

theorem keeps_loopWays (greed : Greed) (most : Option Nat) (fuel count : Nat) (last : Option Nat)
    {p u : Place} (h : e.Shows p u) :
    e.Keeps (loopWays greed body most fuel count last p)
      (loopWays greed body' most fuel count (last.map (· + e.offset)) u) := by
  induction fuel generalizing count last p u with
  | zero => exact keeps_singleton h
  | succ fuel ih =>
      rw [loopWays, loopWays, h.last_beq]
      split
      · exact keeps_singleton h
      · refine Keeps.order greed h ((hkeeps p u h).flatMap
          (fun u v => exists_leads_of_mem_loopWays hleads') fun q v hqv => ?_)
        rw [h.position]
        exact ih (count + 1) (some p.position) hqv

theorem keeps_repeatWays (n : Nat) {p u : Place} (h : e.Shows p u) :
    e.Keeps (repeatWays body n p) (repeatWays body' n u) := by
  induction n generalizing p u with
  | zero => exact keeps_singleton h
  | succ n ih =>
      exact (hkeeps p u h).flatMap (fun u v => exists_leads_of_mem_repeatWays hleads')
        fun q v hqv => ih hqv

include hleads in
theorem keeps_flatMap_loopWays (greed : Greed) (most : Option Nat) (least : Nat) {p u : Place}
    (h : e.Shows p u) :
    e.Keeps
      ((repeatWays body least p).flatMap fun q =>
        loopWays greed body most (q.after.length + 2) least none q)
      ((repeatWays body' least u).flatMap fun v =>
        loopWays greed body' most (v.after.length + 2) least none v) := by
  refine (keeps_repeatWays hleads' hkeeps least h).flatMap
    (fun u v => exists_leads_of_mem_loopWays hleads') fun q v hqv => ?_
  rw [loopWays_of_shows hleads hqv]
  exact keeps_loopWays hleads' hkeeps greed most _ least none hqv

end Rounds

/-- **Plain expressions go the same ways in an excerpt**, but for those that leave it. -/
theorem keeps_ways {n : Node} (hn : n.isPlain = true) {p u : Place} (h : e.Shows p u) :
    e.Keeps (n.ways p) ((n.renumber (· + e.shift)).ways u) := by
  induction n generalizing p u with
  | empty => exact keeps_singleton h
  | char c => exact keeps_step? _ h
  | any => exact keeps_step? _ h
  | notLineFeed => exact keeps_step? _ h
  | set m negated items => exact keeps_step? _ h
  | seq a b iha ihb =>
      rw [Node.isPlain, Bool.and_eq_true] at hn
      exact (iha hn.1 h).flatMap (fun u v hv => exists_leads_of_mem_ways hv)
        fun q v hqv => ihb hn.2 hqv
  | alt a b iha ihb =>
      rw [Node.isPlain, Bool.and_eq_true] at hn
      exact (iha hn.1 h).append (ihb hn.2 h)
  | group i a ih => exact (ih hn h).map_capture i h
  | reference m i =>
      rw [Node.renumber, Node.ways, Node.ways, h.groups i]
      cases p.group? i with
      | none => exact keeps_nil
      | some text => exact keeps_skip? m text h
  | condition i a b iha ihb =>
      rw [Node.isPlain, Bool.and_eq_true] at hn
      rw [Node.renumber, Node.ways, Node.ways, h.groups i]
      split
      · exact iha hn.1 h
      · exact ihb hn.2 h
  | loop greed least most a ih =>
      have hleads : ∀ p, ∀ q ∈ a.ways p, ∃ t, p.Leads t q :=
        fun p q hq => exists_leads_of_mem_ways hq
      have hleads' : ∀ u, ∀ v ∈ (a.renumber (· + e.shift)).ways u, ∃ t, u.Leads t v :=
        fun u v hv => exists_leads_of_mem_ways hv
      cases greed with
      | greedy =>
          exact keeps_flatMap_loopWays hleads hleads' (fun p u => ih hn) .greedy most least h
      | «lazy» =>
          exact keeps_flatMap_loopWays hleads hleads' (fun p u => ih hn) .lazy most least h
      | possessive => cases hn
  | _ => cases hn

/-! ## Portable expressions -/

section Settling

variable {body body' : Place → List Place}
  (hleads : ∀ p, ∀ q ∈ body p, ∃ t, p.Leads t q) (hleads' : ∀ u, ∀ v ∈ body' u, ∃ t, u.Leads t v)
  (hkeeps : ∀ p u, e.Shows p u → e.Keeps (body p) (body' u))
include hleads' hkeeps

theorem shows_settledWay {most : Option Nat} {fuel count : Nat} {p u : Place} (h : e.Shows p u)
    (hcovers : e.covers (settledWay body' most fuel count u) = true) :
    e.Shows (settledWay body most fuel count p) (settledWay body' most fuel count u) := by
  induction fuel generalizing count p u with
  | zero => exact h
  | succ fuel ih =>
      rw [settledWay] at hcovers ⊢
      rw [settledWay]
      split
      · exact h
      next hmore =>
        rw [if_neg hmore] at hcovers
        cases hv : (body' u).head? with
        | none =>
            rw [(hkeeps p u h).eq_nil hv]
            exact h
        | some v =>
            rw [hv] at hcovers
            dsimp only at hcovers ⊢
            -- The round stays in the excerpt, as everything after it does.
            have hv' : e.covers v = true := by
              split at hcovers
              · exact hcovers
              · have hon := exists_leads_settledWay hleads' most fuel (count + 1) v
                exact covers_of_leads hon hcovers
            obtain ⟨q, hq, hqv⟩ := (hkeeps p u h).head? hv hv'
            rw [hq]
            dsimp only
            by_cases hsame : v.position = u.position
            · rw [if_pos hsame, if_pos ((h.position_eq_iff hqv).1 hsame)]
              exact hqv
            · rw [if_neg hsame] at hcovers ⊢
              rw [if_neg fun he => hsame ((h.position_eq_iff hqv).2 he)]
              exact ih hqv hcovers

theorem shows_repeatSettledWay {n : Nat} {p u v : Place} (h : e.Shows p u)
    (hv : repeatSettledWay body' n u = some v) (hcovers : e.covers v = true) :
    ∃ q, repeatSettledWay body n p = some q ∧ e.Shows q v := by
  induction n generalizing p u with
  | zero =>
      cases hv
      exact ⟨p, rfl, h⟩
  | succ n ih =>
      obtain ⟨m, hm, hv⟩ := Option.bind_eq_some_iff.1 hv
      have hm' := covers_of_leads (exists_leads_of_repeatSettledWay hleads' hv) hcovers
      obtain ⟨q, hq, hqm⟩ := (hkeeps p u h).head? hm hm'
      rw [repeatSettledWay, hq]
      exact ih hqm hv

include hleads in
theorem shows_map_settledWay {most : Option Nat} {least : Nat} {p u v : Place} (h : e.Shows p u)
    (hv : ((repeatSettledWay body' least u).map fun m =>
      settledWay body' most (m.after.length + 2) least m) = some v) (hcovers : e.covers v = true) :
    ∃ q, ((repeatSettledWay body least p).map fun m =>
      settledWay body most (m.after.length + 2) least m) = some q ∧ e.Shows q v := by
  obtain ⟨m, hm, rfl⟩ := Option.map_eq_some_iff.1 hv
  have hm' := covers_of_leads
    (exists_leads_settledWay hleads' most (m.after.length + 2) least m) hcovers
  obtain ⟨q, hq, hqm⟩ := shows_repeatSettledWay hleads' hkeeps h hm hm'
  refine ⟨_, Option.map_eq_some_iff.2 ⟨q, hq, rfl⟩, ?_⟩
  rw [settledWay_of_shows hleads hqm]
  exact shows_settledWay hleads' hkeeps hqm hcovers

end Settling

section Rounds

variable {body body' : Place → List Place}
  (hleads' : ∀ u, ∀ v ∈ body' u, ∃ t, u.Leads t v)
  (hshows : ∀ p u v, e.Shows p u → v ∈ body' u → e.covers v = true → ∃ q ∈ body p, e.Shows q v)
include hleads' hshows

theorem shows_of_mem_loopWays {greed : Greed} {most : Option Nat} {fuel count : Nat}
    {last : Option Nat} {p u v : Place} (h : e.Shows p u)
    (hv : v ∈ loopWays greed body' most fuel count (last.map (· + e.offset)) u)
    (hcovers : e.covers v = true) :
    ∃ q ∈ loopWays greed body most fuel count last p, e.Shows q v := by
  induction fuel generalizing count last p u with
  | zero =>
      cases List.mem_singleton.1 hv
      exact ⟨p, List.mem_singleton_self p, h⟩
  | succ fuel ih =>
      rw [loopWays, h.last_beq] at hv
      rw [loopWays]
      split at hv
      next hend =>
          cases List.mem_singleton.1 hv
          rw [if_pos hend]
          exact ⟨p, List.mem_singleton_self p, h⟩
      next hend =>
        rw [if_neg hend]
        rcases Greed.mem_order.1 hv with rfl | hv
        · exact ⟨p, Greed.mem_order.2 (.inl rfl), h⟩
        · obtain ⟨m, hm, hv⟩ := List.mem_flatMap.1 hv
          have hm' := covers_of_leads (exists_leads_of_mem_loopWays hleads' hv) hcovers
          obtain ⟨q, hq, hqm⟩ := hshows p u m h hm hm'
          have hv : v ∈ loopWays greed body' most fuel (count + 1)
              ((some p.position).map (· + e.offset)) m := by
            rw [h.position] at hv
            exact hv
          obtain ⟨r, hr, hrv⟩ := ih hqm hv
          exact ⟨r, Greed.mem_order.2 (.inr (List.mem_flatMap.2 ⟨q, hq, hr⟩)), hrv⟩

theorem shows_of_mem_repeatWays {n : Nat} {p u v : Place} (h : e.Shows p u)
    (hv : v ∈ repeatWays body' n u) (hcovers : e.covers v = true) :
    ∃ q ∈ repeatWays body n p, e.Shows q v := by
  induction n generalizing p u with
  | zero =>
      cases List.mem_singleton.1 hv
      exact ⟨p, List.mem_singleton_self p, h⟩
  | succ n ih =>
      obtain ⟨m, hm, hv⟩ := List.mem_flatMap.1 hv
      have hm' := covers_of_leads (exists_leads_of_mem_repeatWays hleads' hv) hcovers
      obtain ⟨q, hq, hqm⟩ := hshows p u m h hm hm'
      obtain ⟨r, hr, hrv⟩ := ih hqm hv
      exact ⟨r, List.mem_flatMap.2 ⟨q, hq, hr⟩, hrv⟩

theorem shows_of_mem_flatMap_loopWays (hleads : ∀ p, ∀ q ∈ body p, ∃ t, p.Leads t q)
    {greed : Greed} {most : Option Nat} {least : Nat} {p u v : Place} (h : e.Shows p u)
    (hv : v ∈ (repeatWays body' least u).flatMap fun m =>
      loopWays greed body' most (m.after.length + 2) least none m) (hcovers : e.covers v = true) :
    ∃ q ∈ (repeatWays body least p).flatMap fun m =>
      loopWays greed body most (m.after.length + 2) least none m, e.Shows q v := by
  obtain ⟨m, hm, hv⟩ := List.mem_flatMap.1 hv
  have hm' := covers_of_leads (exists_leads_of_mem_loopWays hleads' hv) hcovers
  obtain ⟨q, hq, hqm⟩ := shows_of_mem_repeatWays hleads' hshows h hm hm'
  have hv : v ∈ loopWays greed body' most (m.after.length + 2) least
      ((none : Option Nat).map (· + e.offset)) m := hv
  obtain ⟨r, hr, hrv⟩ := shows_of_mem_loopWays hleads' hshows hqm hv hcovers
  refine ⟨r, List.mem_flatMap.2 ⟨q, hq, ?_⟩, hrv⟩
  rw [loopWays_of_shows hleads hqm]
  exact hr

end Rounds

/-- With less text around, what holds of a place holds all the more, except at edges of words. -/
theorem Anchor.holds_of_shows {a : Anchor} (hn : (Node.anchor a).isPortable = true) {p u : Place}
    (h : e.Shows p u) (ha : a.holds u = true) : a.holds p = true := by
  have hbefore := h.before
  have hafter := h.after
  cases a with
  | wordEdge negated ascii => cases hn
  | textStart =>
      rw [Anchor.holds, List.isEmpty_iff] at ha ⊢
      rw [ha] at hbefore
      exact (List.append_eq_nil_iff.1 hbefore.symm).1
  | textEnd =>
      rw [Anchor.holds, List.isEmpty_iff] at ha ⊢
      rw [ha] at hafter
      exact (List.append_eq_nil_iff.1 hafter.symm).1
  | lineStart =>
      rw [Anchor.holds, hbefore] at ha
      rw [Anchor.holds]
      cases hp : p.before with
      | nil => rfl
      | cons c s =>
          rw [hp] at ha
          exact ha
  | lineEnd =>
      rw [Anchor.holds, hafter] at ha
      rw [Anchor.holds]
      cases hp : p.after with
      | nil => rfl
      | cons c s =>
          rw [hp] at ha
          exact ha
  | lastLineEnd =>
      rw [Anchor.holds, hafter] at ha
      rw [Anchor.holds]
      cases hp : p.after with
      | nil => rfl
      | cons c s =>
          rw [hp] at ha
          simp_all

theorem shows_back? {k : Nat} {p q u : Place} (h : e.Shows p u) (hq : p.back? k = some q) :
    ∃ v, u.back? k = some v ∧ e.Shows q v := by
  induction k generalizing p u with
  | zero =>
      cases hq
      exact ⟨u, rfl, h⟩
  | succ k ih =>
      have hbefore := h.before
      have hcounted := h.counted
      have hsize := h.size
      rw [Place.back?] at hq ⊢
      cases hp : p.before with
      | nil =>
          rw [hp] at hq
          cases hq
      | cons c s =>
          rw [hp] at hq hbefore hcounted
          rw [hbefore]
          have hback : e.Shows ⟨p.position - 1, s, c :: p.after, p.groups⟩
              ⟨u.position - 1, s ++ e.left, c :: u.after, u.groups⟩ := by
            rw [List.length_cons] at hcounted
            have hposition := h.position
            refine ⟨rfl, ?_, ?_, ?_, ?_, h.groups⟩
            · rw [h.after, List.cons_append]
            · dsimp only
              omega
            · dsimp only
              omega
            · dsimp only [List.length_cons]
              omega
          exact ih hback hq

/-- Where looking around has to see nothing, it sees nothing in less of the text. -/
theorem shows_of_mem_lookWays {p u v : Place} {seen seen' : Option Place} (h : e.Shows p u)
    (hv : v ∈ lookWays true u seen') (hblank : seen' = none → seen = none) :
    ∃ q ∈ lookWays true p seen, e.Shows q v := by
  cases seen' with
  | some m => cases hv
  | none =>
      cases List.mem_singleton.1 hv
      rw [hblank rfl]
      exact ⟨p, List.mem_singleton_self p, h⟩

/-- **Portable expressions go in an excerpt all the ways that stay in it**, if their groups are
numbered alike. -/
theorem shows_of_mem_ways {n : Node} (hn : n.isPortable = true) {p u v : Place} (h : e.Shows p u)
    (hv : v ∈ (n.renumber (· + e.shift)).ways u) (hcovers : e.covers v = true) :
    ∃ q ∈ n.ways p, e.Shows q v := by
  have hplain : ∀ {a : Node}, a.isPlain = true → ∀ p u, e.Shows p u →
      e.Keeps (a.ways p) ((a.renumber (· + e.shift)).ways u) := fun ha p u => keeps_ways ha
  have hleads : ∀ (a : Node) p, ∀ q ∈ a.ways p, ∃ t, p.Leads t q :=
    fun a p q hq => exists_leads_of_mem_ways hq
  induction n generalizing p u v with
  | anchor a =>
      have hv : v ∈ (Node.anchor a).ways u := hv
      rw [Node.ways] at hv
      split at hv
      next ha =>
          cases List.mem_singleton.1 hv
          refine ⟨p, ?_, h⟩
          rw [Node.ways, if_pos (Anchor.holds_of_shows hn h ha)]
          exact List.mem_singleton_self p
      next => cases hv
  | seq a b iha ihb =>
      rw [Node.isPortable, Bool.and_eq_true] at hn
      obtain ⟨m, hm, hv⟩ := List.mem_flatMap.1 hv
      obtain ⟨q, hq, hqm⟩ := iha hn.1 h hm (covers_of_leads (exists_leads_of_mem_ways hv) hcovers)
      obtain ⟨r, hr, hrv⟩ := ihb hn.2 hqm hv hcovers
      exact ⟨r, List.mem_flatMap.2 ⟨q, hq, hr⟩, hrv⟩
  | alt a b iha ihb =>
      rw [Node.isPortable, Bool.and_eq_true] at hn
      rcases List.mem_append.1 hv with hv | hv
      · obtain ⟨q, hq, hqv⟩ := iha hn.1 h hv hcovers
        exact ⟨q, List.mem_append_left _ hq, hqv⟩
      · obtain ⟨q, hq, hqv⟩ := ihb hn.2 h hv hcovers
        exact ⟨q, List.mem_append_right _ hq, hqv⟩
  | group i a ih =>
      obtain ⟨m, hm, rfl⟩ := List.mem_map.1 hv
      obtain ⟨q, hq, hqm⟩ := ih hn h hm hcovers
      refine ⟨_, List.mem_map_of_mem hq, ?_⟩
      rw [h.taken_eq hqm]
      exact hqm.capture i _
  | condition i a b iha ihb =>
      rw [Node.isPortable, Bool.and_eq_true] at hn
      rw [Node.renumber, Node.ways, h.groups i] at hv
      rw [Node.ways]
      split at hv
      next hi =>
          rw [if_pos hi]
          exact iha hn.1 h hv hcovers
      next hi =>
          rw [if_neg hi]
          exact ihb hn.2 h hv hcovers
  | ahead negated a ih =>
      rw [Node.isPortable, Bool.and_eq_true] at hn
      obtain ⟨rfl, ha⟩ := hn
      refine shows_of_mem_lookWays h hv fun hseen => ?_
      rw [(keeps_ways ha h).eq_nil hseen]
      rfl
  | behind negated w a ih =>
      rw [Node.isPortable, Bool.and_eq_true] at hn
      obtain ⟨rfl, ha⟩ := hn
      refine shows_of_mem_lookWays h hv fun hseen => ?_
      cases hq : p.back? w with
      | none => rfl
      | some q =>
          obtain ⟨m, hm, hqm⟩ := shows_back? h hq
          rw [hm, Option.bind_some] at hseen
          rw [Option.bind_some, (keeps_ways ha hqm).eq_nil hseen]
          rfl
  | atomic a ih =>
      -- The way that is settled on stays in the excerpt, so it comes first there too.
      obtain ⟨q, hq, hqv⟩ := (keeps_ways hn h).head? (Option.mem_toList.1 hv) hcovers
      exact ⟨q, Option.mem_toList.2 hq, hqv⟩
  | loop greed least most a ih =>
      have hshows : a.isPortable = true → ∀ p u v, e.Shows p u →
          v ∈ (a.renumber (· + e.shift)).ways u → e.covers v = true → ∃ q ∈ a.ways p, e.Shows q v :=
        fun ha p u v h hv hcovers => ih ha h hv hcovers
      cases greed with
      | greedy =>
          exact shows_of_mem_flatMap_loopWays (hleads _) (hshows hn) (hleads a) h hv hcovers
      | «lazy» =>
          exact shows_of_mem_flatMap_loopWays (hleads _) (hshows hn) (hleads a) h hv hcovers
      | possessive =>
          obtain ⟨q, hq, hqv⟩ := shows_map_settledWay (hleads a) (hleads _) (hplain hn) h
            (Option.mem_toList.1 hv) hcovers
          exact ⟨q, Option.mem_toList.2 hq, hqv⟩
  | _ => exact (hplain rfl p u h).exists_of_mem hv hcovers

/-- **What a portable expression takes in the midst of a text it matches alone**, when its groups
are numbered behind others that it knows nothing of. -/
theorem isSome_fullMatch_of_mem_ways {n : Node} {d : Nat} (hn : n.isPortable = true) {u v : Place}
    {text : List Char} (hfree : ∀ j ≥ d, u.group? j = none)
    (hv : v ∈ (n.renumber (· + d)).ways u) (htext : u.Leads text v) :
    (n.fullMatch text).isSome = true := by
  let e : Excerpt := ⟨text.length, u.before, v.after, u.position, d⟩
  have hstart : e.Shows (.start text) u := by
    refine ⟨rfl, htext.after, (Nat.zero_add _).symm, rfl, Nat.zero_add _, fun j => ?_⟩
    exact hfree (j + d) (Nat.le_add_left _ _)
  have hcovers : e.covers v = true := by simp [e, Excerpt.covers]
  obtain ⟨q, hq, hqv⟩ := shows_of_mem_ways hn hstart hv hcovers
  -- Behind the text nothing is left of the excerpt.
  have hend : q.after = [] := by
    have hafter : v.after = q.after ++ v.after := hqv.after
    exact List.append_left_eq_self.1 hafter.symm
  rw [fullMatch_eq_find?, List.find?_isSome]
  exact ⟨q, hq, List.isEmpty_iff.2 hend⟩

/-- Whether an expression means the same in the midst of a pattern as it does alone. -/
def portable (text : List Char) : Bool :=
  namesGroups text && (read text).toOption.any Node.isPortable

/-- **What a portable constraint takes in place it matches alone**, whatever groups come before it
and whatever text surrounds what it takes. -/
theorem isSome_fullMatch_of_portable {s s' : Scope} {text : List Char} {node alone : Node} {d : Nat}
    (hportable : portable text = true) (h : readInto s text = .ok (node, s'))
    (halone : read text = .ok alone) (hd : s.next = d + 1) {u v : Place}
    (hfree : ∀ j ≥ d, u.group? j = none) (hv : v ∈ node.ways u) {taken : List Char}
    (htaken : u.Leads taken v) : (alone.fullMatch taken).isSome = true := by
  rw [portable, halone, Bool.and_eq_true] at hportable
  rw [renumber_of_namesGroups hportable.1 h halone hd] at hv
  exact isSome_fullMatch_of_mem_ways hportable.2 hfree hv htaken

end Winnow.Regex
