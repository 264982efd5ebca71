import Mathlib.Tactic
import Winnow.Regex.Matching

/-!
# The ways to match

An expression can match from a place in several ways. `Node.ways` lists the places where they end,
the preferred way first, without mentioning what is tried afterwards. Running an expression before
a continuation is taking the first of these places at which the continuation succeeds
(`run_eq_findSome?`), so every question about the backtracking search becomes one about a list.

Two facts hold of every way of every expression: it leads forward over some text
(`exists_leads_of_mem_ways`), and it leaves the groups outside of the expression as they were
(`group?_of_mem_ways`).
-/

namespace Winnow.Regex

/-! ## Lists of ways -/

/-- Staying behind or ahead of going on, as a repetition prefers it. -/
def Greed.order {α : Type} (greed : Greed) (stay : α) (go : List α) : List α :=
  match greed with
  | .lazy => stay :: go
  | _ => go ++ [stay]

@[simp] theorem Greed.order_greedy {α : Type} (stay : α) (go : List α) :
    Greed.greedy.order stay go = go ++ [stay] := rfl

@[simp] theorem Greed.order_lazy {α : Type} (stay : α) (go : List α) :
    Greed.lazy.order stay go = stay :: go := rfl

/-- The ways of a repetition whose rounds may be given up again. -/
def loopWays (greed : Greed) (body : Place → List Place) (most : Option Nat) :
    Nat → Nat → Option Nat → Place → List Place
  | 0, _, _, p => [p]
  | fuel + 1, count, last, p =>
    if most.any (count ≥ ·) || last == some p.position then [p]
    else greed.order p
      ((body p).flatMap (loopWays greed body most fuel (count + 1) (some p.position)))

/-- Where a repetition ends that settles each of its rounds. -/
def settledWay (body : Place → List Place) (most : Option Nat) : Nat → Nat → Place → Place
  | 0, _, p => p
  | fuel + 1, count, p =>
    if most.any (count ≥ ·) then p
    else
      match (body p).head? with
      | some q => if q.position = p.position then q else settledWay body most fuel (count + 1) q
      | none => p

/-- The ways of a fixed number of rounds. -/
def repeatWays (body : Place → List Place) : Nat → Place → List Place
  | 0, p => [p]
  | n + 1, p => (body p).flatMap (repeatWays body n)

/-- The way of a fixed number of rounds, each settled before the next. -/
def repeatSettledWay (body : Place → List Place) : Nat → Place → Option Place
  | 0, p => some p
  | n + 1, p => (body p).head?.bind (repeatSettledWay body n)

/-- The ways of looking around: the place stays, only groups may be taken from what was seen. -/
def lookWays (negated : Bool) (p : Place) : Option Place → List Place
  | some q => if negated then [] else [{ p with groups := q.groups }]
  | none => if negated then [p] else []

/-- The places where an expression can end, in the order in which they are tried. -/
def Node.ways : Node → Place → List Place
  | .empty, p => [p]
  | .char c, p => (p.step? (· == c)).toList
  | .any, p => (p.step? fun _ => true).toList
  | .notLineFeed, p => (p.step? (· != '\n')).toList
  | .set m negated items, p => (p.step? fun c => inSet m items c != negated).toList
  | .anchor a, p => if a.holds p then [p] else []
  | .seq a b, p => (a.ways p).flatMap b.ways
  | .alt a b, p => a.ways p ++ b.ways p
  | .group i a, p => (a.ways p).map fun q => q.capture i (p.taken q)
  | .reference m i, p => ((p.group? i).bind fun text => p.skip? m text).toList
  | .condition i a b, p => if (p.group? i).isSome then a.ways p else b.ways p
  | .ahead negated a, p => lookWays negated p (a.ways p).head?
  | .behind negated w a, p => lookWays negated p ((p.back? w).bind fun q => (a.ways q).head?)
  | .atomic a, p => (a.ways p).head?.toList
  | .loop .greedy least most a, p =>
    (repeatWays a.ways least p).flatMap fun q =>
      loopWays .greedy a.ways most (q.after.length + 2) least none q
  | .loop .lazy least most a, p =>
    (repeatWays a.ways least p).flatMap fun q =>
      loopWays .lazy a.ways most (q.after.length + 2) least none q
  | .loop .possessive least most a, p =>
    ((repeatSettledWay a.ways least p).map fun q =>
      settledWay a.ways most (q.after.length + 2) least q).toList

/-! ## Running is taking the first way that carries through -/

theorem findSome?_flatMap {α β γ : Type} (xs : List α) (f : α → List β) (k : β → Option γ) :
    (xs.flatMap f).findSome? k = xs.findSome? fun x => (f x).findSome? k := by
  induction xs with
  | nil => rfl
  | cons x xs ih =>
      rw [List.flatMap_cons, List.findSome?_append, ih, List.findSome?_cons]
      cases (f x).findSome? k <;> rfl

theorem findSome?_toList {α β : Type} (x : Option α) (k : α → Option β) :
    x.toList.findSome? k = x.bind k := by
  cases x <;> simp

theorem findSome?_some {α : Type} (xs : List α) : xs.findSome? some = xs.head? := by
  cases xs <;> rfl

section Loops

variable {body : Matcher} {ways : Place → List Place}
  (h : ∀ p k, body p k = (ways p).findSome? k)
include h

theorem loopGreedy_eq (most : Option Nat) (fuel count : Nat) (last : Option Nat) (p : Place)
    (k : Attempt) :
    loopGreedy body most fuel count last p k =
      (loopWays .greedy ways most fuel count last p).findSome? k := by
  induction fuel generalizing count last p with
  | zero => simp [loopGreedy, loopWays]
  | succ fuel ih =>
      rw [loopGreedy, loopWays]
      split
      · simp
      · rw [h, Greed.order_greedy, List.findSome?_append, findSome?_flatMap]
        simp only [ih]
        cases (ways p).findSome? _ <;> simp

theorem loopLazy_eq (most : Option Nat) (fuel count : Nat) (last : Option Nat) (p : Place)
    (k : Attempt) :
    loopLazy body most fuel count last p k =
      (loopWays .lazy ways most fuel count last p).findSome? k := by
  induction fuel generalizing count last p with
  | zero => simp [loopLazy, loopWays]
  | succ fuel ih =>
      rw [loopLazy, loopWays]
      cases hk : k p with
      | some r =>
          simp only
          split <;> simp [hk]
      | none =>
          simp only
          split
          · simp [hk]
          · rw [h, Greed.order_lazy, List.findSome?_cons, hk, findSome?_flatMap]
            simp only [ih]

theorem loopSettled_eq (most : Option Nat) (fuel count : Nat) (p : Place) :
    loopSettled body most fuel count p = settledWay ways most fuel count p := by
  induction fuel generalizing count p with
  | zero => rfl
  | succ fuel ih =>
      rw [loopSettled, settledWay, h, findSome?_some]
      split
      · rfl
      · cases (ways p).head? with
        | none => rfl
        | some q => simp only [ih]

theorem repeatExactly_eq (n : Nat) (p : Place) (k : Attempt) :
    repeatExactly body n p k = (repeatWays ways n p).findSome? k := by
  induction n generalizing p with
  | zero => simp [repeatExactly, repeatWays]
  | succ n ih =>
      rw [repeatExactly, repeatWays, h, findSome?_flatMap]
      simp only [ih]

theorem repeatSettled_eq (n : Nat) (p : Place) :
    repeatSettled body n p = repeatSettledWay ways n p := by
  induction n generalizing p with
  | zero => rfl
  | succ n ih =>
      rw [repeatSettled, repeatSettledWay, h, findSome?_some]
      cases (ways p).head? with
      | none => rfl
      | some q => simp only [Option.bind_some, ih]

end Loops

/-- **Backtracking is search in the list of ways.** -/
theorem run_eq_findSome? (n : Node) (p : Place) (k : Attempt) :
    n.run p k = (n.ways p).findSome? k := by
  -- What is attempted next stays general: a sequence tries its second part there.
  induction n generalizing p k with
  | empty => simp [Node.run, Node.ways]
  | char c => rw [Node.run, Node.ways, findSome?_toList]
  | any => rw [Node.run, Node.ways, findSome?_toList]
  | notLineFeed => rw [Node.run, Node.ways, findSome?_toList]
  | set m negated items => rw [Node.run, Node.ways, findSome?_toList]
  | anchor a =>
      rw [Node.run, Node.ways]
      split <;> simp
  | seq a b iha ihb =>
      rw [Node.run, Node.ways, iha, findSome?_flatMap]
      simp only [ihb]
  | alt a b iha ihb =>
      rw [Node.run, Node.ways, iha, ihb, List.findSome?_append]
      cases (a.ways p).findSome? k <;> rfl
  | group i a ih =>
      rw [Node.run, Node.ways, ih, List.findSome?_map]
      rfl
  | reference m i => rw [Node.run, Node.ways, findSome?_toList]
  | condition i a b iha ihb =>
      rw [Node.run, Node.ways]
      split
      · exact iha p k
      · exact ihb p k
  | ahead negated a ih =>
      rw [Node.run, Node.ways, ih, findSome?_some]
      cases (a.ways p).head? <;> cases negated <;> simp [lookWays]
  | behind negated w a ih =>
      have hb : ((p.back? w).bind fun q => a.run q some) =
          (p.back? w).bind fun q => (a.ways q).head? := by
        simp only [ih, findSome?_some]
      rw [Node.run, Node.ways, hb]
      cases (p.back? w).bind fun q => (a.ways q).head? <;> cases negated <;> simp [lookWays]
  | atomic a ih => rw [Node.run, Node.ways, ih, findSome?_some, findSome?_toList]
  | loop greed least most a ih =>
      cases greed with
      | greedy =>
          rw [Node.run, Node.ways, repeatExactly_eq ih, findSome?_flatMap]
          simp only [loopGreedy_eq ih]
      | «lazy» =>
          rw [Node.run, Node.ways, repeatExactly_eq ih, findSome?_flatMap]
          simp only [loopLazy_eq ih]
      | possessive =>
          rw [Node.run, Node.ways, repeatSettled_eq ih, findSome?_toList]
          cases repeatSettledWay a.ways least p with
          | none => rfl
          | some q => simp only [Option.bind_some, Option.map_some, loopSettled_eq ih]

/-- A full match ends at the first way that uses up the text. -/
theorem fullMatch_eq_find? (n : Node) (text : List Char) :
    n.fullMatch text = (n.ways (.start text)).find? (·.after.isEmpty) := by
  rw [Node.fullMatch, run_eq_findSome?, ← List.findSome?_guard]
  rfl

/-! ## Every way leads forward

What holds between the start and the end of a way for each expression on its own, and can be put
together along a path, holds for repetitions too. -/

@[simp] theorem Greed.mem_order {α : Type} {greed : Greed} {stay x : α} {go : List α} :
    x ∈ greed.order stay go ↔ x = stay ∨ x ∈ go := by
  cases greed <;> simp [Greed.order, or_comm]

section Closure

variable {body : Place → List Place} {T : Place → Place → Prop}
  (hbody : ∀ p, ∀ q ∈ body p, T p q) (hrefl : ∀ p, T p p)
  (htrans : ∀ p q r, T p q → T q r → T p r)
include hbody hrefl htrans

theorem rel_of_mem_loopWays {greed : Greed} {most : Option Nat} {fuel count : Nat}
    {last : Option Nat} {p q : Place} (h : q ∈ loopWays greed body most fuel count last p) :
    T p q := by
  induction fuel generalizing count last p with
  | zero =>
      rw [loopWays, List.mem_singleton] at h
      exact h ▸ hrefl p
  | succ fuel ih =>
      rw [loopWays] at h
      split at h
      · rw [List.mem_singleton] at h
        exact h ▸ hrefl p
      · rcases Greed.mem_order.1 h with rfl | h
        · exact hrefl q
        · obtain ⟨m, hm, hq⟩ := List.mem_flatMap.1 h
          exact htrans p m q (hbody p m hm) (ih hq)

theorem rel_settledWay (most : Option Nat) (fuel count : Nat) (p : Place) :
    T p (settledWay body most fuel count p) := by
  induction fuel generalizing count p with
  | zero => exact hrefl p
  | succ fuel ih =>
      rw [settledWay]
      split
      · exact hrefl p
      · split
        next m hm =>
            have hpm : T p m := hbody p m (List.mem_of_mem_head? hm)
            split
            · exact hpm
            · exact htrans p m _ hpm (ih _ m)
        next => exact hrefl p

theorem rel_of_mem_repeatWays {n : Nat} {p q : Place} (h : q ∈ repeatWays body n p) : T p q := by
  induction n generalizing p with
  | zero =>
      rw [repeatWays, List.mem_singleton] at h
      exact h ▸ hrefl p
  | succ n ih =>
      obtain ⟨m, hm, hq⟩ := List.mem_flatMap.1 h
      exact htrans p m q (hbody p m hm) (ih hq)

theorem rel_of_repeatSettledWay {n : Nat} {p q : Place}
    (h : repeatSettledWay body n p = some q) : T p q := by
  induction n generalizing p with
  | zero =>
      cases h
      exact hrefl q
  | succ n ih =>
      obtain ⟨m, hm, hq⟩ := Option.bind_eq_some_iff.1 h
      exact htrans p m q (hbody p m (List.mem_of_mem_head? hm)) (ih hq)

theorem rel_of_mem_loop {greed : Greed} {least : Nat} {most : Option Nat} {a : Node}
    {p q : Place} (ha : a.ways = body) (h : q ∈ (Node.loop greed least most a).ways p) :
    T p q := by
  subst ha
  cases greed with
  | greedy =>
      obtain ⟨m, hm, hq⟩ := List.mem_flatMap.1 h
      exact htrans p m q (rel_of_mem_repeatWays hbody hrefl htrans hm)
        (rel_of_mem_loopWays hbody hrefl htrans hq)
  | «lazy» =>
      obtain ⟨m, hm, hq⟩ := List.mem_flatMap.1 h
      exact htrans p m q (rel_of_mem_repeatWays hbody hrefl htrans hm)
        (rel_of_mem_loopWays hbody hrefl htrans hq)
  | possessive =>
      obtain ⟨m, hm, hq⟩ := Option.map_eq_some_iff.1 (Option.mem_toList.1 h)
      exact htrans p m q (rel_of_repeatSettledWay hbody hrefl htrans hm)
        (hq ▸ rel_settledWay hbody hrefl htrans most _ least m)

end Closure

/-- The text `t` lies between the places `p` and `q`. -/
structure Place.Leads (p : Place) (t : List Char) (q : Place) : Prop where
  after : p.after = t ++ q.after
  position : q.position = p.position + t.length

namespace Place.Leads

theorem refl (p : Place) : p.Leads [] p := ⟨rfl, rfl⟩

theorem trans {p q r : Place} {s t : List Char} (h : p.Leads s q) (h' : q.Leads t r) :
    p.Leads (s ++ t) r :=
  ⟨by rw [h.after, h'.after, List.append_assoc],
    by rw [h'.position, h.position, List.length_append, Nat.add_assoc]⟩

/-- What was taken on the way is the text in between. -/
theorem taken {p q : Place} {t : List Char} (h : p.Leads t q) : p.taken q = t := by
  rw [Place.taken, h.after, h.position, Nat.add_sub_cancel_left, List.take_left]

end Place.Leads

theorem Place.step?_eq_some_iff {accept : Char → Bool} {p q : Place} :
    p.step? accept = some q ↔ ∃ c rest, p.after = c :: rest ∧ accept c = true ∧
      q = ⟨p.position + 1, c :: p.before, rest, p.groups⟩ := by
  cases hp : p.after with
  | nil => simp [Place.step?, hp]
  | cons c rest =>
      simp only [Place.step?, hp]
      constructor
      · intro h
        split at h
        next hc => exact ⟨c, rest, rfl, hc, (Option.some.inj h).symm⟩
        next => cases h
      · rintro ⟨c', rest', he, hc, rfl⟩
        cases he
        exact if_pos hc

theorem leads_of_step? {accept : Char → Bool} {p q : Place} (h : p.step? accept = some q) :
    ∃ t, p.Leads t q := by
  obtain ⟨c, rest, hp, -, rfl⟩ := Place.step?_eq_some_iff.1 h
  exact ⟨[c], hp, rfl⟩

theorem groups_of_step? {accept : Char → Bool} {p q : Place} (h : p.step? accept = some q) :
    q.groups = p.groups := by
  obtain ⟨c, rest, -, -, rfl⟩ := Place.step?_eq_some_iff.1 h
  rfl

theorem leads_of_skip? {m : Mode} {text : List Char} {p q : Place}
    (h : p.skip? m text = some q) : ∃ t, p.Leads t q := by
  induction text generalizing p with
  | nil =>
      cases h
      exact ⟨[], .refl q⟩
  | cons c text ih =>
      rw [Place.skip?] at h
      split at h
      next r hr =>
          obtain ⟨s, hs⟩ := leads_of_step? hr
          obtain ⟨t, ht⟩ := ih h
          exact ⟨s ++ t, hs.trans ht⟩
      next => cases h

theorem groups_of_skip? {m : Mode} {text : List Char} {p q : Place}
    (h : p.skip? m text = some q) : q.groups = p.groups := by
  induction text generalizing p with
  | nil =>
      cases h
      rfl
  | cons c text ih =>
      rw [Place.skip?] at h
      split at h
      next r hr => rw [ih h, groups_of_step? hr]
      next => cases h

theorem groups_of_back? {n : Nat} {p q : Place} (h : Place.back? n p = some q) :
    q.groups = p.groups := by
  induction n generalizing p with
  | zero =>
      cases h
      rfl
  | succ n ih =>
      rw [Place.back?] at h
      split at h
      · cases h
      · have hq := ih h
        exact hq

theorem leads_of_mem_lookWays {negated : Bool} {p q : Place} {seen : Option Place}
    (h : q ∈ lookWays negated p seen) : p.Leads [] q := by
  cases seen <;> cases negated <;> simp [lookWays] at h
  · exact h ▸ .refl q
  · exact h ▸ ⟨rfl, rfl⟩

theorem groups_of_mem_lookWays {negated : Bool} {p q : Place} {seen : Option Place}
    (h : q ∈ lookWays negated p seen) :
    q.groups = p.groups ∨ ∃ m, seen = some m ∧ q.groups = m.groups := by
  cases seen <;> cases negated <;> simp [lookWays] at h
  · exact .inl (h ▸ rfl)
  · exact .inr ⟨_, rfl, h ▸ rfl⟩

/-- **Every way leads forward** over some text. -/
theorem exists_leads_of_mem_ways {n : Node} {p q : Place} (h : q ∈ n.ways p) :
    ∃ t, p.Leads t q := by
  -- Loops and sequences need only that leading forward is reflexive and transitive.
  have htrans : ∀ p q r : Place, (∃ t, p.Leads t q) → (∃ t, q.Leads t r) → ∃ t, p.Leads t r := by
    rintro p q r ⟨s, hs⟩ ⟨t, ht⟩
    exact ⟨s ++ t, hs.trans ht⟩
  induction n generalizing p q with
  | empty =>
      rw [Node.ways, List.mem_singleton] at h
      exact ⟨[], h ▸ .refl q⟩
  | char c => exact leads_of_step? (Option.mem_toList.1 h)
  | any => exact leads_of_step? (Option.mem_toList.1 h)
  | notLineFeed => exact leads_of_step? (Option.mem_toList.1 h)
  | set m negated items => exact leads_of_step? (Option.mem_toList.1 h)
  | anchor a =>
      rw [Node.ways] at h
      split at h
      · exact ⟨[], List.mem_singleton.1 h ▸ .refl q⟩
      · cases h
  | seq a b iha ihb =>
      obtain ⟨m, hm, hq⟩ := List.mem_flatMap.1 h
      exact htrans p m q (iha hm) (ihb hq)
  | alt a b iha ihb =>
      rcases List.mem_append.1 h with h | h
      · exact iha h
      · exact ihb h
  | group i a ih =>
      obtain ⟨m, hm, rfl⟩ := List.mem_map.1 h
      obtain ⟨t, ht⟩ := ih hm
      exact ⟨t, ht.after, ht.position⟩
  | reference m i =>
      obtain ⟨text, -, hs⟩ := Option.bind_eq_some_iff.1 (Option.mem_toList.1 h)
      exact leads_of_skip? hs
  | condition i a b iha ihb =>
      rw [Node.ways] at h
      split at h
      · exact iha h
      · exact ihb h
  | ahead negated a ih => exact ⟨[], leads_of_mem_lookWays h⟩
  | behind negated w a ih => exact ⟨[], leads_of_mem_lookWays h⟩
  | atomic a ih => exact ih (List.mem_of_mem_head? (Option.mem_toList.1 h))
  | loop greed least most a ih =>
      exact rel_of_mem_loop (T := fun p q => ∃ t, p.Leads t q) (fun p q => ih)
        (fun p => ⟨[], .refl p⟩) htrans rfl h

/-! ## Characters that are never taken -/

/-- Whether no part of an expression takes the character. -/
def Node.shuns (c : Char) : Node → Bool
  | .empty => true
  | .char d => d != c
  | .any => false
  | .notLineFeed => c == '\n'
  | .set m negated items => inSet m items c == negated
  | .anchor _ => true
  | .seq a b => a.shuns c && b.shuns c
  | .alt a b => a.shuns c && b.shuns c
  | .group _ a => a.shuns c
  | .reference .. => false
  | .condition _ a b => a.shuns c && b.shuns c
  | .ahead .. => true
  | .behind .. => true
  | .atomic a => a.shuns c
  | .loop _ _ _ a => a.shuns c

theorem not_mem_of_step? {accept : Char → Bool} {c : Char} (hc : accept c = false) {p q : Place}
    (h : p.step? accept = some q) : ∃ t, p.Leads t q ∧ c ∉ t := by
  obtain ⟨d, rest, hp, hd, rfl⟩ := Place.step?_eq_some_iff.1 h
  refine ⟨[d], ⟨hp, rfl⟩, fun hmem => ?_⟩
  rw [← List.mem_singleton.1 hmem, hc] at hd
  cases hd

/-- **No way takes a character that the expression shuns.** -/
theorem not_mem_of_mem_ways {n : Node} {c : Char} (hn : n.shuns c = true) {p q : Place}
    (h : q ∈ n.ways p) : ∃ t, p.Leads t q ∧ c ∉ t := by
  have hrefl : ∀ p : Place, ∃ t, p.Leads t p ∧ c ∉ t := fun p => ⟨[], .refl p, List.not_mem_nil⟩
  have htrans : ∀ p q r : Place, (∃ t, p.Leads t q ∧ c ∉ t) → (∃ t, q.Leads t r ∧ c ∉ t) →
      ∃ t, p.Leads t r ∧ c ∉ t := by
    rintro p q r ⟨s, hs, hc⟩ ⟨t, ht, hc'⟩
    exact ⟨s ++ t, hs.trans ht, by simp [hc, hc']⟩
  induction n generalizing p q with
  | empty =>
      rw [Node.ways, List.mem_singleton] at h
      exact h ▸ hrefl q
  | char d =>
      refine not_mem_of_step? ?_ (Option.mem_toList.1 h)
      exact beq_eq_false_iff_ne.2 (bne_iff_ne.1 hn).symm
  | any => cases hn
  | notLineFeed => exact not_mem_of_step? (by simpa [Node.shuns] using hn) (Option.mem_toList.1 h)
  | set m negated items =>
      exact not_mem_of_step? (by simpa [Node.shuns] using hn) (Option.mem_toList.1 h)
  | anchor a =>
      rw [Node.ways] at h
      split at h
      · exact List.mem_singleton.1 h ▸ hrefl q
      · cases h
  | seq a b iha ihb =>
      rw [Node.shuns, Bool.and_eq_true] at hn
      obtain ⟨m, hm, hq⟩ := List.mem_flatMap.1 h
      exact htrans p m q (iha hn.1 hm) (ihb hn.2 hq)
  | alt a b iha ihb =>
      rw [Node.shuns, Bool.and_eq_true] at hn
      rcases List.mem_append.1 h with h | h
      · exact iha hn.1 h
      · exact ihb hn.2 h
  | group i a ih =>
      obtain ⟨m, hm, rfl⟩ := List.mem_map.1 h
      obtain ⟨t, ht, hc⟩ := ih hn hm
      exact ⟨t, ⟨ht.after, ht.position⟩, hc⟩
  | reference m i => cases hn
  | condition i a b iha ihb =>
      rw [Node.shuns, Bool.and_eq_true] at hn
      rw [Node.ways] at h
      split at h
      · exact iha hn.1 h
      · exact ihb hn.2 h
  | ahead negated a ih => exact ⟨[], leads_of_mem_lookWays h, List.not_mem_nil⟩
  | behind negated w a ih => exact ⟨[], leads_of_mem_lookWays h, List.not_mem_nil⟩
  | atomic a ih => exact ih hn (List.mem_of_mem_head? (Option.mem_toList.1 h))
  | loop greed least most a ih =>
      exact rel_of_mem_loop (T := fun p q => ∃ t, p.Leads t q ∧ c ∉ t) (fun p q => ih hn)
        hrefl htrans rfl h

/-- A text with a shunned character does not match. -/
theorem fullMatch_eq_none_of_shuns {n : Node} {c : Char} (hn : n.shuns c = true) {text : List Char}
    (hc : c ∈ text) : n.fullMatch text = none := by
  rw [fullMatch_eq_find?, List.find?_eq_none]
  intro q hq hend
  obtain ⟨t, ht, hfree⟩ := not_mem_of_mem_ways hn hq
  have htext : text = t ++ q.after := ht.after
  rw [List.isEmpty_iff.1 hend, List.append_nil] at htext
  exact hfree (htext ▸ hc)

/-! ## Groups outside of an expression stay as they are -/

/-- The numbers of the groups in an expression. -/
def Node.groupNumbers : Node → List Nat
  | .seq a b => a.groupNumbers ++ b.groupNumbers
  | .alt a b => a.groupNumbers ++ b.groupNumbers
  | .group i a => i :: a.groupNumbers
  | .condition _ a b => a.groupNumbers ++ b.groupNumbers
  | .ahead _ a => a.groupNumbers
  | .behind _ _ a => a.groupNumbers
  | .atomic a => a.groupNumbers
  | .loop _ _ _ a => a.groupNumbers
  | _ => []

theorem Place.group?_capture_of_ne {i j : Nat} (h : j ≠ i) (text : List Char) (p : Place) :
    (p.capture i text).group? j = p.group? j :=
  Assoc.get?_insert_of_ne h text p.groups

@[simp] theorem Place.group?_capture_self (i : Nat) (text : List Char) (p : Place) :
    (p.capture i text).group? i = some text :=
  Assoc.get?_insert_self i text p.groups

theorem group?_of_mem_ways {n : Node} {j : Nat} (hj : j ∉ n.groupNumbers) {p q : Place}
    (h : q ∈ n.ways p) : q.group? j = p.group? j := by
  induction n generalizing p q with
  | empty =>
      rw [Node.ways, List.mem_singleton] at h
      rw [h]
  | char c => exact congrArg (Assoc.get? j) (groups_of_step? (Option.mem_toList.1 h))
  | any => exact congrArg (Assoc.get? j) (groups_of_step? (Option.mem_toList.1 h))
  | notLineFeed => exact congrArg (Assoc.get? j) (groups_of_step? (Option.mem_toList.1 h))
  | set m negated items => exact congrArg (Assoc.get? j) (groups_of_step? (Option.mem_toList.1 h))
  | anchor a =>
      rw [Node.ways] at h
      split at h
      · rw [List.mem_singleton.1 h]
      · cases h
  | seq a b iha ihb =>
      rw [Node.groupNumbers, List.mem_append, not_or] at hj
      obtain ⟨m, hm, hq⟩ := List.mem_flatMap.1 h
      rw [ihb hj.2 hq, iha hj.1 hm]
  | alt a b iha ihb =>
      rw [Node.groupNumbers, List.mem_append, not_or] at hj
      rcases List.mem_append.1 h with h | h
      · exact iha hj.1 h
      · exact ihb hj.2 h
  | group i a ih =>
      rw [Node.groupNumbers, List.mem_cons, not_or] at hj
      obtain ⟨m, hm, rfl⟩ := List.mem_map.1 h
      rw [Place.group?_capture_of_ne hj.1, ih hj.2 hm]
  | reference m i =>
      obtain ⟨text, -, hs⟩ := Option.bind_eq_some_iff.1 (Option.mem_toList.1 h)
      exact congrArg (Assoc.get? j) (groups_of_skip? hs)
  | condition i a b iha ihb =>
      rw [Node.groupNumbers, List.mem_append, not_or] at hj
      rw [Node.ways] at h
      split at h
      · exact iha hj.1 h
      · exact ihb hj.2 h
  | ahead negated a ih =>
      rcases groups_of_mem_lookWays h with hg | ⟨m, hm, hg⟩
      · exact congrArg (Assoc.get? j) hg
      · exact (congrArg (Assoc.get? j) hg).trans (ih hj (List.mem_of_mem_head? hm))
  | behind negated w a ih =>
      rcases groups_of_mem_lookWays h with hg | ⟨m, hm, hg⟩
      · exact congrArg (Assoc.get? j) hg
      · -- Going back keeps the groups, and so does the way from there.
        obtain ⟨r, hr, hm⟩ := Option.bind_eq_some_iff.1 hm
        calc q.group? j = m.group? j := congrArg (Assoc.get? j) hg
          _ = r.group? j := ih hj (List.mem_of_mem_head? hm)
          _ = p.group? j := congrArg (Assoc.get? j) (groups_of_back? hr)
  | atomic a ih => exact ih hj (List.mem_of_mem_head? (Option.mem_toList.1 h))
  | loop greed least most a ih =>
      exact rel_of_mem_loop (T := fun p q => q.group? j = p.group? j) (fun p q => ih hj)
        (fun p => rfl) (fun p q r hpq hqr => hqr.trans hpq) rfl h

end Winnow.Regex
