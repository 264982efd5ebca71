import Winnow.Proofs.Query.Draining

/-!
# Streams that stop early

A consumer may want no more than some rows of a stream. With one slot, items are delivered in the
order of the listing, and the consumer gets what it would have got by taking that many rows of the
query as a whole (`stream_one_eq_upTo`): while the stream goes on it has delivered fewer rows than
are wanted (`Stream.lacks_of_steps`), and at the moment in which that stops being so it is closed.
-/

namespace Winnow

/-- All elements of a list, or as many of the first as are wanted. -/
def upTo {α : Type} (wanted : Option Nat) (xs : List α) : List α :=
  match wanted with
  | none => xs
  | some n => xs.take n

namespace Stream

variable {work : String → Logged (Option Row)} {wanted : Option Nat} {s s' : Stream}

/-- A stream that its consumer has not closed has delivered fewer rows than are wanted. -/
def Lacks (wanted : Option Nat) (s : Stream) : Prop :=
  s.status ≠ .closed → ∀ n, wanted = some n → s.rows.length < n

theorem lacks_start (listing : Listing) (limit : Nat) (wanted : Option Nat) :
    (start listing limit wanted).Lacks wanted := by
  intro hopen n hwanted
  rw [start] at hopen
  by_cases hnone : wanted = some 0
  · rw [if_pos hnone] at hopen
    exact absurd rfl hopen
  · rw [hwanted, Option.some.injEq] at hnone
    exact Nat.pos_of_ne_zero hnone

theorem Lacks.of_running (h : s.Lacks wanted) (hrunning : s.status = .running) {n : Nat}
    (hwanted : wanted = some n) : s.rows.length < n := by
  refine h ?_ n hwanted
  rw [hrunning]
  rintro ⟨⟩

/-- **Each move keeps it so**: only a delivery adds a row, and the row that fills the want closes
the stream. -/
theorem Lacks.step (h : s.Lacks wanted) (hstep : Step work wanted s s') : s'.Lacks wanted := by
  have hrunning := hstep.running
  intro hopen n hwanted
  have hlength := h.of_running hrunning hwanted
  cases hstep with
  | deliver _ hready =>
      obtain ⟨t, rest, hcons⟩ := List.exists_cons_of_ne_nil hready
      obtain ⟨rows, status, hdeliver, houtcome⟩ := deliver_of_cons wanted hcons
      rw [hdeliver] at hopen ⊢
      show rows.length < n
      rcases houtcome with ⟨_, -, rfl, -⟩ | ⟨-, rfl, -⟩ | ⟨row, -, rfl, rfl⟩
      · exact hlength
      · exact hlength
      · by_cases hfull : wanted = some (s.rows ++ [row]).length
        · rw [if_pos hfull] at hopen
          exact absurd rfl hopen
        · rw [hwanted, Option.some.injEq, List.length_append, List.length_singleton] at hfull
          rw [List.length_append, List.length_singleton]
          omega
  | pull =>
      cases hremaining : s.remaining with
      | cons id rest =>
          rw [pull_of_cons work hremaining]
          exact hlength
      | nil =>
          obtain ⟨status, hpull, -⟩ := pull_of_nil work hremaining
          rw [hpull]
          exact hlength
  | wait => exact hlength
  | finish => exact hlength

theorem lacks_of_steps {listing : Listing} {limit : Nat}
    (h : Steps work wanted (start listing limit wanted) s) : s.Lacks wanted := by
  induction h with
  | refl => exact lacks_start listing limit wanted
  | tail _ hstep ih => exact ih.step hstep

end Stream

namespace Query

variable {q : Query} {plan : Plan} {wanted : Option Nat} {rows : List Row}

/-- What a stream with one slot gives when it has ended, if the query as a whole comes through. -/
theorem outcome_of_ended_one (hplan : q.plan = .ok plan) (hexec : q.exec.outcome = .ok rows)
    {s : Stream} (hs : Stream.Steps (q.resolveOne plan) wanted
      (.start (q.search.listing q.scanned) 1 wanted) s) (hended : s.status ≠ .running) :
    s.outcome.outcome = .ok (upTo wanted rows) := by
  obtain ⟨consumed, haccounts⟩ := Stream.exists_accounts Nat.one_pos hs
  obtain ⟨hfault, hall, hrows⟩ := (exec_eq_ok_iff hplan).1 hexec
  -- With one slot the items consumed are the first of the listing.
  have hordered := haccounts.ordered rfl
  have hsplit : rows = s.rows ++
      (((s.ready ++ s.inFlight).map Ticket.id) ++ s.remaining).filterMap
        (Stream.rowOf (q.resolveOne plan)) := by
    rw [hrows, ← hordered, haccounts.rows, List.append_assoc, List.filterMap_append]
  have hexplained := haccounts.explained
  rw [Stream.Explains] at hexplained
  cases hstatus : s.status with
  | running => exact absurd hstatus hended
  | failed e =>
      rw [hstatus] at hexplained
      exact absurd hexplained (haccounts.not_failed hfault hall)
  | finished =>
      rw [hstatus] at hexplained
      obtain ⟨-, -, hremaining, hready, hinFlight⟩ := hexplained
      rw [hready, hinFlight, hremaining] at hsplit
      have hwhole : rows = s.rows := by simpa using hsplit
      rw [Stream.outcome, hstatus, hwhole]
      cases hwanted : wanted with
      | none => rfl
      | some n =>
          have hlacks := Stream.lacks_of_steps hs
          have hlength : s.rows.length < n := hlacks (by rw [hstatus]; rintro ⟨⟩) n hwanted
          show Except.ok s.rows = .ok (s.rows.take n)
          rw [List.take_of_length_le (Nat.le_of_lt hlength)]
  | closed =>
      rw [hstatus] at hexplained
      rw [Stream.outcome, hstatus, hexplained]
      show Except.ok s.rows = .ok (rows.take s.rows.length)
      rw [hsplit, List.take_left]

/-- A query that has rows has a plan. -/
theorem exists_plan_of_exec (hexec : q.exec.outcome = .ok rows) : ∃ plan, q.plan = .ok plan := by
  cases hplan : q.plan with
  | ok plan => exact ⟨plan, rfl⟩
  | error e =>
      rw [exec, Logged.outcome_bind, hplan] at hexec
      cases hexec

/-- **A stream with one slot is the query as a whole, cut where its consumer stops.** It does not
fail where the whole does not. -/
theorem stream_one_eq_upTo (hexec : q.exec.outcome = .ok rows) (wanted : Option Nat) :
    (q.stream (.int 1) wanted).outcome = .ok (upTo wanted rows) := by
  obtain ⟨plan, hplan⟩ := exists_plan_of_exec hexec
  rw [stream, hplan]
  exact outcome_of_ended_one hplan hexec (Stream.steps_run _ _)
    (Stream.status_run_ne_running (Stream.movesLeft_le_weight _))

end Query

end Winnow
