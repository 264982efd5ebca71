import Winnow.Proofs.Query.Calls

/-!
# The first rows

A query for a single row goes through the listing item by item and stops as soon as its answer is
settled. The answer is the one that the rows of the whole query give (`outcome_single`,
`outcome_strictSingle`), although the whole query works phase by phase. And nothing behind the item
that settles it plays a part: it is not looked at, and another query that is like this one up to
there, whatever comes behind, makes the same calls and gives the same answer (`LooksNoFurther`).
-/

namespace Winnow

/-- What comes after a computation only matters if it comes through. -/
theorem Logged.bind_congr {α β : Type} {x : Logged α} {f g : α → Logged β}
    (h : ∀ a, x.outcome = .ok a → f a = g a) : (x >>= f) = x >>= g := by
  obtain ⟨calls, outcome⟩ := x
  cases outcome with
  | error e => rfl
  | ok a =>
      show Logged.mk _ _ = Logged.mk _ _
      rw [h a rfl]

namespace Query

variable {q q' : Query} {plan : Plan} {fault : Option Error} {count : Nat}
  {before after ids : List String} {decider : String}

/-! ## What a run for the first rows gives -/

/-- If all items come through, the run gives the first of their rows. -/
theorem outcome_firstRows (h : ∀ id ∈ ids, ∃ row?, (q.resolveOne plan id).outcome = .ok row?)
    (count : Nat) : (q.firstRows plan none count ids).outcome =
      .ok ((ids.filterMap (Stream.rowOf (q.resolveOne plan))).take count) := by
  induction ids generalizing count with
  | nil => cases count <;> rfl
  | cons id ids ih =>
      obtain ⟨⟨row?, hrow⟩, hids⟩ := List.forall_mem_cons.1 h
      cases count with
      | zero => rfl
      | succ count =>
          rw [firstRows, Logged.outcome_bind, hrow]
          cases row? with
          | none =>
              rw [List.filterMap_cons_none (by rw [Stream.rowOf, hrow])]
              exact ih hids (count + 1)
          | some row =>
              rw [List.filterMap_cons_some (by rw [Stream.rowOf, hrow]), List.take_succ_cons]
              show Logged.outcome _ = _
              rw [Logged.outcome_bind, ih hids count]
              rfl

theorem outcome_first (hplan : q.plan = .ok plan) {rows : List Row}
    (hrows : q.exec.outcome = .ok rows) (count : Nat) :
    (q.first count).outcome = .ok (rows.take count) := by
  obtain ⟨hfault, hids, rfl⟩ := (exec_eq_ok_iff hplan).1 hrows
  unfold first
  rw [hplan, Logged.silent_ok_bind]
  show (q.firstRows plan (q.search.listing q.scanned).fault count _).outcome = _
  rw [hfault]
  exact outcome_firstRows hids count

/-- The one and only row, or the reason why there is none. -/
def onlyRow (q : Query) : List Row → Except Error Row
  | [] => .error (.emptyResult q.describe)
  | [row] => .ok row
  | _ :: _ :: _ => .error (.multipleResult q.describe)

theorem outcome_single (hplan : q.plan = .ok plan) {rows : List Row}
    (hrows : q.exec.outcome = .ok rows) : q.single.outcome = .ok rows.head? := by
  unfold single
  rw [Logged.outcome_bind, outcome_first hplan hrows]
  cases rows <;> rfl

theorem outcome_strictSingle (hplan : q.plan = .ok plan) {rows : List Row}
    (hrows : q.exec.outcome = .ok rows) : q.strictSingle.outcome = q.onlyRow rows := by
  unfold strictSingle
  rw [Logged.outcome_bind, outcome_first hplan hrows]
  match rows with
  | [] => rfl
  | [_] => rfl
  | _ :: _ :: _ => rfl

/-! ## Where a run ends -/

/-- The item `decider`, behind those of `before`, settles a run for `count` rows: up to there the
items come through and give too few rows, and it gives the one that is missing, or fails. -/
structure Decides (q : Query) (plan : Plan) (count : Nat) (before : List String)
    (decider : String) : Prop where
  resolved : ∀ id ∈ before, ∃ row?, (q.resolveOne plan id).outcome = .ok row?
  missing : (before.filterMap (Stream.rowOf (q.resolveOne plan))).length < count
  settled : (∃ e, (q.resolveOne plan decider).outcome = .error e) ∨
    (∃ row, (q.resolveOne plan decider).outcome = .ok (some row)) ∧
      count = (before.filterMap (Stream.rowOf (q.resolveOne plan))).length + 1

section Decides

variable {row? : Option Row}

/-- What is left to settle behind an item that comes through. -/
theorem Decides.of_cons {id : String} (h : q.Decides plan count (id :: before) decider)
    (hrow : (q.resolveOne plan id).outcome = .ok row?) :
    ∃ count', count = count' + row?.toList.length ∧ q.Decides plan count' before decider := by
  obtain ⟨hresolved, hmissing, hsettled⟩ := h
  have hsplit : ((id :: before).filterMap (Stream.rowOf (q.resolveOne plan))).length =
      row?.toList.length + (before.filterMap (Stream.rowOf (q.resolveOne plan))).length := by
    have hhead : Stream.rowOf (q.resolveOne plan) id = row? := by
      cases row? <;> rw [Stream.rowOf, hrow]
    rw [List.filterMap_cons, hhead]
    cases row? <;> simp [Nat.add_comm]
  rw [hsplit] at hmissing hsettled
  refine ⟨count - row?.toList.length, by omega, fun id hid => ?_, by omega, ?_⟩
  · exact hresolved id (List.mem_cons_of_mem _ hid)
  · refine hsettled.imp_right fun hlast => ⟨hlast.1, ?_⟩
    have hcount := hlast.2
    omega

/-- Where the first item settles the run, it is an error or the one row that is asked for. -/
theorem Decides.of_nil (h : q.Decides plan count [] decider) :
    (∃ e, (q.resolveOne plan decider).outcome = .error e) ∨
      (∃ row, (q.resolveOne plan decider).outcome = .ok (some row)) ∧ count = 1 :=
  h.settled

theorem Decides.exists_succ (h : q.Decides plan count before decider) :
    ∃ count', count = count' + 1 :=
  Nat.exists_eq_add_one.2 (Nat.zero_lt_of_lt h.missing)

/-- The item that settles a run is the last one that is looked at. -/
theorem touched_of_decides (h : q.Decides plan count before decider) (after : List String) :
    q.touched plan count (before ++ decider :: after) = before ++ [decider] := by
  induction before generalizing count with
  | nil =>
      obtain ⟨count, rfl⟩ := h.exists_succ
      rw [List.nil_append, touched]
      rcases h.of_nil with ⟨e, he⟩ | ⟨⟨row, hrow⟩, hcount⟩
      · rw [he]
        rfl
      · obtain rfl : count = 0 := by omega
        rw [hrow]
        cases after <;> rfl
  | cons id before ih =>
      obtain ⟨count', hcount⟩ := h.exists_succ
      obtain ⟨row?, hrow⟩ := h.resolved id List.mem_cons_self
      obtain ⟨left, hleft, hdecides⟩ := h.of_cons hrow
      rw [List.cons_append, hcount, touched, hrow]
      cases row? with
      | none =>
          show id :: q.touched plan (count' + 1) _ = _
          rw [← hcount, hleft]
          exact congrArg _ (ih hdecides)
      | some row =>
          obtain rfl : count' = left := Nat.succ_injective (hcount.symm.trans hleft)
          exact congrArg _ (ih hdecides)

/-- Two runs do the same if they do the same for the items up to the one that settles the first. -/
theorem firstRows_congr (h : q.Decides plan count before decider)
    (hsame : ∀ id ∈ before ++ [decider], q'.resolveOne plan id = q.resolveOne plan id)
    (fault' : Option Error) (after' : List String) :
    q'.firstRows plan fault' count (before ++ decider :: after') =
      q.firstRows plan fault count (before ++ decider :: after) := by
  induction before generalizing count with
  | nil =>
      obtain ⟨count, rfl⟩ := h.exists_succ
      rw [List.nil_append, List.nil_append, firstRows, firstRows, hsame decider List.mem_cons_self]
      refine Logged.bind_congr fun row? hrow? => ?_
      rcases h.of_nil with ⟨e, he⟩ | ⟨⟨row, hrow⟩, hcount⟩
      · cases he.symm.trans hrow?
      · obtain rfl : count = 0 := by omega
        cases hrow.symm.trans hrow?
        simp only [firstRows]
  | cons id before ih =>
      obtain ⟨hid, hbefore⟩ := List.forall_mem_cons.1 hsame
      obtain ⟨count', hcount⟩ := h.exists_succ
      rw [List.cons_append, List.cons_append, hcount, firstRows, firstRows, hid]
      refine Logged.bind_congr fun row? hrow => ?_
      obtain ⟨left, hleft, hdecides⟩ := h.of_cons hrow
      cases row? with
      | none =>
          show q'.firstRows plan fault' (count' + 1) _ = q.firstRows plan fault (count' + 1) _
          rw [← hcount, hleft]
          exact ih hdecides hbefore
      | some row =>
          obtain rfl : count' = left := Nat.succ_injective (hcount.symm.trans hleft)
          show (_ >>= fun rows => _) = (_ >>= fun rows => _)
          rw [ih hdecides hbefore]

end Decides

/-- The query `q'` asks for the same as `q`, it lists the items in `ids` first, and its resolvers
answer for them as those of `q` do. -/
structure AlikeUpTo (q q' : Query) (ids : List String) : Prop where
  scanned : q'.scanned = q.scanned
  filtered : q'.filtered = q.filtered
  selected : q'.selected = q.selected
  listed : ids <+: (q'.search.listing q'.scanned).ids
  params : ∀ id ∈ ids, q'.search.extract id = q.search.extract id
  facts : ∀ id ∈ ids, ∀ request,
    q'.facts.map (·.resolve id request) = q.facts.map (·.resolve id request)
  body : ∀ id ∈ ids, ∀ request,
    q'.body.map (·.resolve id request) = q.body.map (·.resolve id request)

/-- A run calls resolvers for the items in `ids` only, and nothing but what they say of these items
matters: not the rest of the listing, not an error behind, not what they say of other items. -/
def LooksNoFurther {α : Type} (run : Query → Logged α) (q : Query) (ids : List String) : Prop :=
  (∀ c ∈ (run q).calls, c.id ∈ ids) ∧ ∀ q', q.AlikeUpTo q' ids → run q' = run q

theorem resolve_congr {name : FacetName} {facet facet' : Option Facet} {id : String}
    {request : Request} (h : facet'.map (·.resolve id request) = facet.map (·.resolve id request)) :
    resolve name facet' id request = resolve name facet id request := by
  cases facet <;> cases facet' <;> simp_all [resolve]

theorem resolveOne_congr (h : q.AlikeUpTo q' ids) {id : String} (hid : id ∈ ids) :
    q'.resolveOne plan id = q.resolveOne plan id := by
  have hparams : q'.resolveParams id = q.resolveParams id := by
    rw [resolveParams, resolveParams, h.params id hid]
  have hfacts : q'.resolveFacts plan id = q.resolveFacts plan id :=
    resolve_congr (h.facts id hid plan.metaRequest)
  have hbuild : ∀ known, q'.buildRow plan id known = q.buildRow plan id known := by
    intro known
    unfold buildRow
    rw [hparams, hfacts, resolve_congr (h.body id hid plan.bodyRequest)]
  unfold resolveOne
  simp only [hfacts, hbuild]

theorem id_of_mem_calls_resolveOne {id : String} {c : Call}
    (hc : c ∈ (q.resolveOne plan id).calls) : c.id = id := by
  have hread : ∀ c ∈ (q.resolveFacts plan id).calls, c.id = id := by
    intro c hc
    rw [List.mem_singleton.1 ((calls_resolve_sublist ..).subset hc)]
  have hbuild : ∀ known, ∀ c ∈ (q.buildRow plan id known).calls, c.id = id := fun known c hc =>
    (onceFor_rowCosts plan id _).2 c ((calls_buildRow_sublist q plan id known).subset hc)
  by_cases hfilter : plan.hasFilter = true
  · cases hfacts : (q.resolveFacts plan id).outcome with
    | error e =>
        rw [calls_resolveOne_of_error hfilter hfacts] at hc
        exact hread c hc
    | ok facts =>
        rw [calls_resolveOne_of_ok hfilter hfacts, List.mem_append, List.mem_ite_nil_right] at hc
        exact hc.elim (hread c) fun hc => hbuild _ c hc.2
  · rw [calls_resolveOne_unfiltered hfilter] at hc
    exact hbuild none c hc

theorem plan_congr (h : q.AlikeUpTo q' ids) : q'.plan = q.plan := by
  rw [Query.plan, Query.plan, h.selected, h.filtered]

/-- A run for the first rows looks at the items up to the one that settles it. -/
theorem first_looksNoFurther (hplan : q.plan = .ok plan)
    (hids : (q.search.listing q.scanned).ids = before ++ decider :: after)
    (h : q.Decides plan count before decider) :
    LooksNoFurther (·.first count) q (before ++ [decider]) := by
  constructor
  · intro c hc
    rw [calls_first hplan, hids, touched_of_decides h] at hc
    obtain ⟨id, hid, hcall⟩ := List.mem_flatMap.1 hc
    rwa [id_of_mem_calls_resolveOne hcall]
  · intro q' halike
    obtain ⟨after', hids'⟩ := halike.listed
    rw [List.append_assoc, List.singleton_append] at hids'
    show q'.first count = q.first count
    unfold first
    rw [plan_congr halike, hplan, Logged.silent_ok_bind, Logged.silent_ok_bind]
    show q'.firstRows plan _ count _ = q.firstRows plan _ count _
    rw [hids, ← hids']
    exact firstRows_congr h (fun id hid => resolveOne_congr halike hid) _ _

theorem describe_congr (h : q.AlikeUpTo q' ids) : q'.describe = q.describe := by
  unfold describe
  rw [h.scanned, h.filtered, h.selected]

theorem single_looksNoFurther (h : LooksNoFurther (·.first 1) q ids) :
    LooksNoFurther single q ids := by
  constructor
  · rw [calls_single]
    exact h.1
  · intro q' halike
    have hfirst : q'.first 1 = q.first 1 := h.2 q' halike
    rw [single, single, hfirst]

theorem strictSingle_looksNoFurther (h : LooksNoFurther (·.first 2) q ids) :
    LooksNoFurther strictSingle q ids := by
  constructor
  · rw [calls_strictSingle]
    exact h.1
  · intro q' halike
    have hfirst : q'.first 2 = q.first 2 := h.2 q' halike
    rw [strictSingle, strictSingle, hfirst, describe_congr halike]

end Query

end Winnow
