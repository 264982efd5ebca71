import Winnow.Proofs.Query.Moves
import Winnow.Proofs.Query.Narrowing

/-!
# Draining a stream

A query can be run as a whole, phase by phase, or as a stream, item by item and several items at a
time. As a whole it comes through exactly if the listing and every single item do, and its rows are
those of the single items (`exec_eq_ok_iff`). So a stream that is drained gives the same rows,
whatever the order in which its items become ready, and fails exactly if the query as a whole does.
-/

namespace Winnow.Query

/-! ## The whole query, item by item -/

/-- The flat row of an item that is not filtered out. -/
def flatRow (q : Query) (plan : Plan) (id : String) : Except Error Row :=
  (q.buildRow plan id none).outcome >>= fun row => plan.selection.flatten row.spaces

section Items

variable {q : Query} {plan : Plan} {id : String} {facts : Record}

/-- Metadata that is known already stands for what would be resolved. -/
theorem outcome_buildRow_known (hfacts : (q.resolveFacts plan id).outcome = .ok facts)
    {known : Option Record} (hknown : ∀ r, known = some r → r = facts) :
    (q.buildRow plan id known).outcome = (q.buildRow plan id none).outcome := by
  cases known with
  | none => rfl
  | some r =>
      obtain rfl := hknown r rfl
      have hpure : (Logged.pure r).outcome = .ok r := rfl
      unfold buildRow
      simp only [Logged.outcome_bind, outcome_onlyIf hpure, outcome_onlyIf hfacts]

/-- What an item gives once its row is built. -/
theorem outcome_flattened {known : Option Record}
    (hbuild : (q.buildRow plan id known).outcome = (q.buildRow plan id none).outcome) :
    (do
      let row ← q.buildRow plan id known
      return some (← Logged.silent (plan.selection.flatten row.spaces)) : Logged _).outcome =
        (q.flatRow plan id).map some := by
  rw [Logged.outcome_bind, hbuild, flatRow]
  cases (q.buildRow plan id none).outcome with
  | error e => rfl
  | ok row =>
      show Logged.outcome _ = (plan.selection.flatten row.spaces).map some
      rw [Logged.outcome_bind, Logged.outcome_silent]
      cases plan.selection.flatten row.spaces <;> rfl

theorem outcome_resolveOne_filtered (hfilter : plan.hasFilter = true)
    (hfacts : (q.resolveFacts plan id).outcome = .ok facts) :
    (q.resolveOne plan id).outcome =
      if plan.accepts facts then (q.flatRow plan id).map some else .ok none := by
  unfold resolveOne
  rw [if_pos hfilter, Logged.outcome_bind, hfacts]
  show Logged.outcome _ = _
  by_cases haccepts : plan.accepts facts = true
  · rw [if_pos haccepts, if_pos haccepts]
    exact outcome_flattened (outcome_buildRow_known hfacts fun r hr => (Option.some.inj hr).symm)
  · rw [if_neg haccepts, if_neg haccepts]
    rfl

theorem outcome_resolveOne_unfiltered (hfilter : plan.hasFilter = false) :
    (q.resolveOne plan id).outcome = (q.flatRow plan id).map some := by
  unfold resolveOne
  rw [hfilter]
  exact outcome_flattened rfl

/-- The filter phase either fails, and then some item fails, or keeps the items that are not
filtered out, and remembers of them what resolving them gives. -/
theorem survivors_cases (q : Query) (plan : Plan) (ids : List String) :
    (∃ keep cache, (q.survivors plan ids).outcome = .ok (ids.filter keep, cache) ∧
      ∀ id ∈ ids,
        (q.buildRow plan id (Assoc.get? id cache)).outcome = (q.buildRow plan id none).outcome ∧
        (q.resolveOne plan id).outcome =
          if keep id then (q.flatRow plan id).map some else .ok none) ∨
    ((∃ e, (q.survivors plan ids).outcome = .error e) ∧
      ∃ id ∈ ids, ∃ e, (q.resolveOne plan id).outcome = .error e) := by
  cases hfilter : plan.hasFilter with
  | false =>
      refine .inl ⟨fun _ => true, [], ?_, fun id _ => ⟨rfl, ?_⟩⟩
      · rw [survivors, hfilter, List.filter_true]
        rfl
      · exact outcome_resolveOne_unfiltered hfilter
  | true =>
      -- The facts of all items can be read, or those of one cannot and the filter fails.
      by_cases hall : ∀ id ∈ ids, ∃ facts, (q.resolveFacts plan id).outcome = .ok facts
      · choose! known hknown using hall
        obtain ⟨cache, hcache, hremembered⟩ := outcome_survivors hknown
        refine .inl ⟨_, cache, hcache, fun id hid => ⟨?_, ?_⟩⟩
        · exact outcome_buildRow_known (hknown id hid) fun r hr => hremembered id r hr
        · exact outcome_resolveOne_filtered hfilter (hknown id hid)
      · right
        constructor
        · have hnone : ¬ ∃ all, (Logged.each (q.resolveFacts plan) ids).outcome = .ok all := by
            rwa [Logged.outcome_each, exists_mapM_eq_ok_iff]
          cases heach : (Logged.each (q.resolveFacts plan) ids).outcome with
          | ok all => exact absurd ⟨all, heach⟩ hnone
          | error e =>
              refine ⟨e, ?_⟩
              rw [survivors, if_pos hfilter, Logged.outcome_bind, heach]
              rfl
        · push Not at hall
          obtain ⟨id, hid, hfails⟩ := hall
          cases hfacts : (q.resolveFacts plan id).outcome with
          | ok facts => exact absurd hfacts (hfails facts)
          | error e =>
              refine ⟨id, hid, e, ?_⟩
              unfold resolveOne
              rw [if_pos hfilter, Logged.outcome_bind, hfacts]
              rfl

end Items

/-- Building the rows of those items that are kept is building, for each item, a row or none. -/
theorem mapM_filter_eq_ok_iff {work : String → Logged (Option Row)} {keep : String → Bool}
    {row : String → Except Error Row} {ids : List String}
    (h : ∀ id ∈ ids, (work id).outcome = if keep id then (row id).map some else .ok none)
    {rows : List Row} : (ids.filter keep).mapM row = .ok rows ↔
      (∀ id ∈ ids, ∃ row?, (work id).outcome = .ok row?) ∧
        rows = ids.filterMap (Stream.rowOf work) := by
  induction ids generalizing rows with
  | nil =>
      rw [List.filter_nil, List.mapM_nil]
      exact ⟨fun hrows => ⟨by simp, (Except.ok.inj hrows).symm⟩, fun hrows => hrows.2 ▸ rfl⟩
  | cons id ids ih =>
      obtain ⟨hid, hids⟩ := List.forall_mem_cons.1 h
      rw [List.forall_mem_cons]
      cases hkeep : keep id with
      | false =>
          rw [hkeep] at hid
          have hrow : Stream.rowOf work id = none := by simp [Stream.rowOf, hid]
          rw [List.filter_cons_of_neg (by simp [hkeep]), ih hids, List.filterMap_cons_none hrow]
          exact ⟨fun hrest => ⟨⟨⟨none, hid⟩, hrest.1⟩, hrest.2⟩,
            fun hrest => ⟨hrest.1.2, hrest.2⟩⟩
      | true =>
          rw [hkeep, if_pos rfl] at hid
          rw [List.filter_cons_of_pos hkeep, List.mapM_cons, bind_eq_ok]
          cases hfirst : row id with
          | error e =>
              rw [hfirst] at hid
              constructor
              · rintro ⟨_, ⟨⟩, _⟩
              · rintro ⟨⟨⟨row?, hrow⟩, -⟩, -⟩
                rw [hid] at hrow
                cases hrow
          | ok first =>
              rw [hfirst] at hid
              have hrow : Stream.rowOf work id = some first := by
                simp [Stream.rowOf, hid, Except.map]
              rw [List.filterMap_cons_some hrow]
              constructor
              · rintro ⟨_, ⟨⟩, hrest⟩
                obtain ⟨rest, hothers, hrows⟩ := bind_eq_ok.1 hrest
                cases hrows
                obtain ⟨hall, rfl⟩ := (ih hids).1 hothers
                exact ⟨⟨⟨some first, hid⟩, hall⟩, rfl⟩
              · rintro ⟨⟨-, hall⟩, rfl⟩
                refine ⟨first, rfl, bind_eq_ok.2 ⟨_, (ih hids).2 ⟨hall, rfl⟩, rfl⟩⟩

theorem outcome_exec {q : Query} {plan : Plan} (hplan : q.plan = .ok plan) :
    q.exec.outcome = (q.search.listing q.scanned).all >>= fun ids =>
      (q.survivors plan ids).outcome >>= fun survivors =>
        (survivors.1.mapM fun id => (q.buildRow plan id (survivors.2.get? id)).outcome) >>=
          fun rows => rows.mapM fun row => plan.selection.flatten row.spaces := by
  unfold exec
  simp only [Logged.outcome_bind, Logged.outcome_silent, Logged.outcome_each, hplan]
  rfl

/-- **The query as a whole is the query item by item**: it comes through exactly if the listing and
every item do, and its rows are those of the items, in the order of the listing. -/
theorem exec_eq_ok_iff {q : Query} {plan : Plan} (hplan : q.plan = .ok plan) {rows : List Row} :
    q.exec.outcome = .ok rows ↔ (q.search.listing q.scanned).fault = none ∧
      (∀ id ∈ (q.search.listing q.scanned).ids, ∃ row?, (q.resolveOne plan id).outcome = .ok row?) ∧
      rows = (q.search.listing q.scanned).ids.filterMap (Stream.rowOf (q.resolveOne plan)) := by
  rw [outcome_exec hplan]
  generalize q.search.listing q.scanned = listing
  obtain ⟨ids, fault⟩ := listing
  cases fault with
  | some e =>
      constructor
      · rintro ⟨⟩
      · rintro ⟨⟨⟩, -⟩
  | none =>
      show ((q.survivors plan ids).outcome >>= _) = _ ↔ _
      dsimp only
      rcases survivors_cases q plan ids with
        ⟨keep, cache, hsurvivors, hitems⟩ | ⟨⟨e, he⟩, id, hid, hfails⟩
      · rw [hsurvivors]
        show (((ids.filter keep).mapM fun id =>
              (q.buildRow plan id (Assoc.get? id cache)).outcome) >>=
            fun rows => rows.mapM fun row => plan.selection.flatten row.spaces) = _ ↔ _
        rw [mapM_congr fun id hid => (hitems id (List.mem_of_mem_filter hid)).1,
          mapM_bind_mapM_eq_ok_iff]
        have hrows : (ids.filter keep).mapM (q.flatRow plan) = .ok rows ↔ _ :=
          mapM_filter_eq_ok_iff fun id hid => (hitems id hid).2
        exact hrows.trans (by simp)
      · rw [he]
        constructor
        · rintro ⟨⟩
        · rintro ⟨-, hall, -⟩
          obtain ⟨e', he'⟩ := hfails
          obtain ⟨row?, hrow⟩ := hall id hid
          rw [he'] at hrow
          cases hrow

/-! ## Streams -/

theorem streamLimit_ofNat {limit : Nat} (h : 1 ≤ limit) : streamLimit (.int limit) = .ok limit := by
  rw [streamLimit, positiveCount, if_neg (by omega)]
  rfl

/-- A limit is positive, or it is refused as an argument. -/
theorem yields_streamLimit (limit : Value) :
    Yields (streamLimit limit) (1 ≤ ·) fun e => ∃ fault, e = .argument fault := by
  unfold streamLimit positiveCount
  split
  next => exact (by decide : 1 ≤ 50)
  next i =>
      split
      · exact ⟨_, rfl⟩
      · show 1 ≤ i.toNat
        omega
  next => exact ⟨_, rfl⟩

/-- What a stream that has ended gives, against the query as a whole. -/
theorem outcome_of_ended {q : Query} {plan : Plan} (hplan : q.plan = .ok plan) {limit : Nat}
    {consumed : List String} {s : Stream}
    (h : Stream.Accounts (q.resolveOne plan) none (q.search.listing q.scanned) limit consumed s)
    (hended : s.status ≠ .running) :
    match q.exec.outcome with
    | .error _ => ∃ e, s.outcome.outcome = .error e
    | .ok rows => ∃ drained, s.outcome.outcome = .ok drained ∧ drained.Perm rows ∧
        (limit = 1 → drained = rows) ∧ s.remaining = [] := by
  have hexplained := h.explained
  rw [Stream.Explains] at hexplained
  cases hstatus : s.status with
  | running => exact absurd hstatus hended
  | closed =>
      rw [hstatus] at hexplained
      cases hexplained
  | finished =>
      rw [hstatus] at hexplained
      obtain ⟨hconsumed, hfault, hremaining, hready, hinFlight⟩ := hexplained
      have houtcome : s.outcome.outcome = .ok s.rows := by rw [Stream.outcome, hstatus]
      -- Nothing is ready, in flight or left, so the items consumed are those of the listing.
      have hplaced := h.placed
      have hordered := h.ordered
      rw [hready, hinFlight, hremaining, List.append_nil, List.append_nil, List.map_nil,
        List.append_nil] at hplaced hordered
      rw [(exec_eq_ok_iff hplan).2
        ⟨hfault, fun id hid => hconsumed id (hplaced.symm.subset hid), rfl⟩]
      refine ⟨s.rows, houtcome, ?_, fun hone => ?_, hremaining⟩
      · rw [h.rows]
        exact hplaced.filterMap _
      · rw [h.rows, hordered hone]
  | failed e =>
      rw [hstatus] at hexplained
      have houtcome : s.outcome.outcome = .error e := by rw [Stream.outcome, hstatus]
      cases hexec : q.exec.outcome with
      | error e' => exact ⟨e, houtcome⟩
      | ok rows =>
          obtain ⟨hfault, hall, -⟩ := (exec_eq_ok_iff hplan).1 hexec
          exact absurd hexplained (h.not_failed hfault hall)

/-- **Streaming loses, repeats and invents nothing.** On every course a stream can go on until it
ends, and it ends after finitely many moves. If the query as a whole fails, so does the stream; if
not, the stream comes to the end of the listing, and its rows are those of the query in some order,
and with a single slot in the same order. The stream of the program is one of these courses. -/
theorem stream_eq_exec {q : Query} {plan : Plan} (hplan : q.plan = .ok plan) {limit : Nat}
    (hlimit : 1 ≤ limit) :
    (∃ s, Stream.Steps (q.resolveOne plan) none
        (.start (q.search.listing q.scanned) limit none) s ∧ s.status ≠ .running ∧
        q.stream (.int limit) none = s.outcome) ∧
    ∀ s, Stream.Steps (q.resolveOne plan) none
        (.start (q.search.listing q.scanned) limit none) s →
      (∀ s', Stream.Step (q.resolveOne plan) none s s' → s'.movesLeft < s.movesLeft) ∧
      if s.status = .running then ∃ s', Stream.Step (q.resolveOne plan) none s s'
      else match q.exec.outcome with
        | .error _ => ∃ e, s.outcome.outcome = .error e
        | .ok rows => ∃ drained, s.outcome.outcome = .ok drained ∧ drained.Perm rows ∧
            (limit = 1 → drained = rows) ∧ s.remaining = [] := by
  constructor
  · refine ⟨_, Stream.steps_run _ _,
      Stream.status_run_ne_running (Stream.movesLeft_le_weight _), ?_⟩
    rw [stream, hplan, streamLimit_ofNat hlimit]
    rfl
  · intro s hs
    refine ⟨fun s' => Stream.movesLeft_lt_of_step, ?_⟩
    split
    next hrunning => exact Stream.exists_step hrunning
    next hended =>
        obtain ⟨consumed, haccounts⟩ := Stream.exists_accounts hlimit hs
        exact outcome_of_ended hplan haccounts hended

/-- Three items, of which one is listed twice, with two slots. -/
theorem stream_eq_exec_twice :
    let search : Search := ⟨["x"], fun _ => ⟨["a", "b", "a"], none⟩, fun id => .ok [("x", id)]⟩
    ∃ q plan, (Query.new search none none .null >>= (·.select [.text "params.*"])) = .ok q ∧
      q.plan = .ok plan ∧
      ∀ s, Stream.Steps (q.resolveOne plan) none
          (.start (q.search.listing q.scanned) 2 none) s → s.status ≠ .running →
        ∃ drained, s.outcome.outcome = .ok drained ∧
          (drained.map fun row => row.map fun e => (e.1, e.2.plain)).Perm
            [[("x", "a")], [("x", "b")], [("x", "a")]] := by
  intro search
  let q₁ : Query := ⟨search, none, none, 8, [], [], none⟩
  let q₂ : Query := { q₁ with selected := some (.paths ["params.*"]) }
  have hnew : Query.new search none none .null = .ok q₁ := rfl
  have hselect : q₁.select [.text "params.*"] = .ok q₂ := by
    have hcheck : q₁.checkSelection (.paths ["params.*"]) = .ok () :=
      eq_ok_of_toOption (by decide +kernel)
    exact bind_eq_ok.2 ⟨_, rfl, bind_eq_ok.2 ⟨(), hcheck, rfl⟩⟩
  obtain ⟨plan, hplan, -⟩ : ∃ plan, q₂.plan = .ok plan ∧ plan.needsParams = true :=
    exists_ok_of_toOption_map (by decide +kernel)
  obtain ⟨rows, hexec, hrows⟩ : ∃ rows, q₂.exec.outcome = .ok rows ∧
      (rows.map fun row => row.map fun e => (e.1, e.2.plain)) =
        [[("x", "a")], [("x", "b")], [("x", "a")]] :=
    exists_ok_of_toOption_map (by decide +kernel)
  refine ⟨q₂, plan, ?_, hplan, fun s hs hended => ?_⟩
  · rw [hnew]
    exact hselect
  · have hdrained := ((stream_eq_exec hplan (show 1 ≤ 2 by decide)).2 s hs).2
    rw [if_neg hended, hexec] at hdrained
    obtain ⟨drained, houtcome, hperm, -⟩ := hdrained
    exact ⟨drained, houtcome, hrows ▸ hperm.map _⟩

end Winnow.Query
