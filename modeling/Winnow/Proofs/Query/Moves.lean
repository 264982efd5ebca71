import Mathlib.Tactic
import Winnow.Query.Streaming

/-!
# Moves of a stream

A stream has no fixed course: whenever it waits, any of the items in flight may become ready, any
number of them, and in any order. `Step` relates the states of a stream for all these courses, and
`Stream.run` is one of them (`steps_run`). Two things hold of all. A course cannot go on for ever,
because every move uses up some of a bound (`movesLeft_lt_of_step`), and it only ends by an error,
by its consumer, or when there is nothing left to do (`exists_step`). And every item is in one
place: it was not pulled yet, or is in flight, or is ready, or was consumed (`exists_accounts`).
-/

namespace Winnow.Stream

variable {work : String → Logged (Option Row)} {wanted : Option Nat} {s s' : Stream}

/-! ## The relation -/

/-- One move of a stream that is running. Delivery goes before pulling, and pulling before waiting;
after a wait the items in `done` are ready, in that order, and those in `left` are still in
flight. -/
inductive Step (work : String → Logged (Option Row)) (wanted : Option Nat) : Stream → Stream → Prop
  | deliver {s : Stream} (hrunning : s.status = .running) (hready : s.ready ≠ []) :
      Step work wanted s (s.deliver wanted)
  | pull {s : Stream} (hrunning : s.status = .running) (hready : s.ready = [])
      (hexhausted : s.exhausted = false) (hfree : 0 < s.free) : Step work wanted s (s.pull work)
  | wait {s : Stream} (hrunning : s.status = .running) (hready : s.ready = [])
      (hfull : s.exhausted = true ∨ s.free = 0) {done left : List Ticket} (hdone : done ≠ [])
      (hsplit : (done ++ left).Perm s.inFlight) :
      Step work wanted s { s with inFlight := left, ready := done }
  | finish {s : Stream} (hrunning : s.status = .running) (hready : s.ready = [])
      (hfull : s.exhausted = true ∨ s.free = 0) (hinFlight : s.inFlight = []) :
      Step work wanted s { s with status := .finished }

/-- Any number of moves. -/
abbrev Steps (work : String → Logged (Option Row)) (wanted : Option Nat) : Stream → Stream → Prop :=
  Relation.ReflTransGen (Step work wanted)

theorem Step.running (h : Step work wanted s s') : s.status = .running := by
  cases h <;> assumption

/-- What a wait leaves is what was in flight. -/
theorem complete_perm (isDone : Nat → Bool) (s : Stream) :
    ((s.complete isDone).ready ++ (s.complete isDone).inFlight).Perm s.inFlight := by
  have hsplit :=
    (List.filter_append_perm (fun x : Ticket × Nat => isDone x.2) s.inFlight.zipIdx).map Prod.fst
  rw [List.map_append, List.zipIdx_map_fst] at hsplit
  exact hsplit

theorem ready_complete_ne_nil {isDone : Nat → Bool}
    (h : ∃ i < s.inFlight.length, isDone i = true) : (s.complete isDone).ready ≠ [] := by
  obtain ⟨i, hi, hdone⟩ := h
  have hmem : (s.inFlight[i], i) ∈ s.inFlight.zipIdx.filter fun x => isDone x.2 :=
    List.mem_filter.2 ⟨List.mk_mem_zipIdx_iff_getElem?.2 (List.getElem?_eq_getElem hi), hdone⟩
  exact List.ne_nil_of_mem (List.mem_map_of_mem hmem)

/-- **The moves of the program are steps**, whichever items in flight become ready, as long as there
is one. -/
theorem step_move (hrunning : s.status = .running) {isDone : Nat → Bool}
    (hdone : s.inFlight ≠ [] → ∃ i < s.inFlight.length, isDone i = true) :
    Step work wanted s (s.move work wanted isDone) := by
  rw [move]
  split
  next hready => exact .deliver hrunning (by simpa using hready)
  next hready =>
      have hready : s.ready = [] := by simpa using hready
      split
      next hpull =>
          rw [Bool.and_eq_true, Bool.not_eq_true', decide_eq_true_eq] at hpull
          exact .pull hrunning hready hpull.1 hpull.2
      next hpull =>
          have hfull : s.exhausted = true ∨ s.free = 0 := by
            cases hexhausted : s.exhausted with
            | true => exact .inl rfl
            | false => simpa [hexhausted] using hpull
          split
          next hinFlight => exact .finish hrunning hready hfull (List.isEmpty_iff.1 hinFlight)
          next hinFlight =>
              have hne : s.inFlight ≠ [] := by simpa using hinFlight
              exact .wait hrunning hready hfull (ready_complete_ne_nil (hdone hne))
                (complete_perm isDone s)

theorem step_move_oldest (hrunning : s.status = .running) :
    Step work wanted s (s.move work wanted (· == 0)) :=
  step_move hrunning fun hne => ⟨0, List.length_pos_iff.2 hne, rfl⟩

/-- **A stream that is running can move.** -/
theorem exists_step (hrunning : s.status = .running) : ∃ s', Step work wanted s s' :=
  ⟨_, step_move_oldest hrunning⟩

theorem steps_run (fuel : Nat) (s : Stream) : Steps work wanted s (run work wanted fuel s) := by
  induction fuel generalizing s with
  | zero => exact .refl
  | succ fuel ih =>
      rw [run]
      split
      next hrunning => exact .head (step_move_oldest hrunning) (ih _)
      next => exact .refl

/-! ## What the moves change -/

/-- Delivering changes a slot, and beyond that only what the item at hand gives. -/
theorem deliver_of_cons (wanted : Option Nat) {t : Ticket} {rest : List Ticket}
    (h : s.ready = t :: rest) :
    ∃ rows status, s.deliver wanted =
        { s with ready := rest, free := s.free + 1, rows := rows, status := status } ∧
      ((∃ e, t.work.outcome = .error e ∧ rows = s.rows ∧ status = .failed e) ∨
        (t.work.outcome = .ok none ∧ rows = s.rows ∧ status = s.status) ∨
        ∃ row, t.work.outcome = .ok (some row) ∧ rows = s.rows ++ [row] ∧
          status = if wanted = some rows.length then .closed else s.status) := by
  simp only [deliver, h]
  cases houtcome : t.work.outcome with
  | error e => exact ⟨_, _, rfl, .inl ⟨e, rfl, rfl, rfl⟩⟩
  | ok row? =>
      cases row? with
      | none => exact ⟨_, _, rfl, .inr (.inl ⟨rfl, rfl, rfl⟩)⟩
      | some row => exact ⟨_, _, rfl, .inr (.inr ⟨row, rfl, rfl, rfl⟩)⟩

theorem pull_of_cons (work : String → Logged (Option Row)) {id : String} {rest : List String}
    (h : s.remaining = id :: rest) :
    s.pull work = { s with
      remaining := rest
      free := s.free - 1
      inFlight := s.inFlight ++ [⟨id, work id⟩]
      calls := s.calls ++ (work id).calls } := by
  simp only [pull, h]

theorem pull_of_nil (work : String → Logged (Option Row)) (h : s.remaining = []) :
    ∃ status, s.pull work = { s with exhausted := true, status := status } ∧
      ((s.fault = none ∧ status = s.status) ∨ ∃ e, s.fault = some e ∧ status = .failed e) := by
  simp only [pull, h]
  cases hfault : s.fault with
  | none => exact ⟨_, rfl, .inl ⟨rfl, rfl⟩⟩
  | some e => exact ⟨_, rfl, .inr ⟨e, rfl, rfl⟩⟩

/-! ## Every course ends -/

/-- A bound on the moves that are left, which is zero for a stream that has ended. -/
def movesLeft (s : Stream) : Nat :=
  match s.status with
  | .running => s.weight
  | _ => 0

theorem movesLeft_of_running (h : s.status = .running) : s.movesLeft = s.weight := by
  rw [movesLeft, h]

theorem movesLeft_le_weight (s : Stream) : s.movesLeft ≤ s.weight := by
  rw [movesLeft]
  split
  · exact Nat.le_refl _
  · exact Nat.zero_le _

/-- **Every move uses up some of the bound.** -/
theorem movesLeft_lt_of_step (h : Step work wanted s s') : s'.movesLeft < s.movesLeft := by
  rw [movesLeft_of_running h.running]
  cases h with
  | deliver hrunning hready =>
      refine Nat.lt_of_le_of_lt (movesLeft_le_weight _) ?_
      obtain ⟨t, rest, hcons⟩ := List.exists_cons_of_ne_nil hready
      obtain ⟨rows, status, hdeliver, -⟩ := deliver_of_cons wanted hcons
      simp only [hdeliver, weight, hcons, List.length_cons]
      omega
  | pull hrunning hready hexhausted hfree =>
      refine Nat.lt_of_le_of_lt (movesLeft_le_weight _) ?_
      cases hremaining : s.remaining with
      | nil =>
          obtain ⟨status, hpull, -⟩ := pull_of_nil work hremaining
          simp only [hpull, weight, hexhausted]
          simp
      | cons id rest =>
          simp only [pull_of_cons work hremaining, weight, hremaining, List.length_append,
            List.length_cons, List.length_nil]
          omega
  | wait hrunning hready hfull hdone hsplit =>
      refine Nat.lt_of_le_of_lt (movesLeft_le_weight _) ?_
      have hlength := hsplit.length_eq
      have hpos := List.length_pos_iff.2 hdone
      rw [List.length_append] at hlength
      simp only [weight, hready, List.length_nil]
      omega
  | finish => exact Nat.succ_pos _

theorem status_run_ne_running {fuel : Nat} (h : s.movesLeft ≤ fuel) :
    (run work wanted fuel s).status ≠ .running := by
  induction fuel generalizing s with
  | zero =>
      intro hrunning
      rw [run] at hrunning
      rw [movesLeft_of_running hrunning] at h
      exact Nat.not_succ_le_zero _ h
  | succ fuel ih =>
      rw [run]
      split
      next hrunning =>
          have hstep : Step work wanted s (s.move work wanted (· == 0)) := step_move_oldest hrunning
          have hlt := movesLeft_lt_of_step hstep
          exact ih (by omega)
      next hended => exact fun hrunning => hended hrunning

/-! ## Every item is in one place -/

/-- The row that an item gives. -/
def rowOf (work : String → Logged (Option Row)) (id : String) : Option Row :=
  match (work id).outcome with
  | .ok row? => row?
  | .error _ => none

/-- Why a stream runs or has ended, where `consumed` are the items whose slots were released. -/
def Explains (work : String → Logged (Option Row)) (wanted : Option Nat) (listing : Listing)
    (consumed : List String) (s : Stream) : Prop :=
  match s.status with
  | .running => (∀ id ∈ consumed, ∃ row?, (work id).outcome = .ok row?) ∧
      (s.exhausted = true → listing.fault = none)
  | .finished => (∀ id ∈ consumed, ∃ row?, (work id).outcome = .ok row?) ∧ listing.fault = none ∧
      s.remaining = [] ∧ s.ready = [] ∧ s.inFlight = []
  | .failed e => listing.fault = some e ∨ ∃ id ∈ consumed, (work id).outcome = .error e
  | .closed => wanted = some s.rows.length

/-- What is known of a stream on its way: the items whose slots were released, in this order, and
those that hold a slot and those not yet pulled make up the listing. -/
structure Accounts (work : String → Logged (Option Row)) (wanted : Option Nat) (listing : Listing)
    (limit : Nat) (consumed : List String) (s : Stream) : Prop where
  tickets : ∀ t ∈ s.ready ++ s.inFlight, t.work = work t.id
  placed : (consumed ++ (s.ready ++ s.inFlight).map Ticket.id ++ s.remaining).Perm listing.ids
  ordered : limit = 1 →
    consumed ++ (s.ready ++ s.inFlight).map Ticket.id ++ s.remaining = listing.ids
  slots : s.free + s.inFlight.length + s.ready.length = limit
  rows : s.rows = consumed.filterMap (rowOf work)
  fault : s.fault = listing.fault
  exhausted : s.exhausted = true → s.remaining = []
  explained : Explains work wanted listing consumed s

theorem accounts_start (work : String → Logged (Option Row)) (wanted : Option Nat)
    (listing : Listing) (limit : Nat) :
    Accounts work wanted listing limit [] (start listing limit wanted) where
  tickets := by simp [start]
  placed := .refl _
  ordered := fun _ => rfl
  slots := rfl
  rows := rfl
  fault := rfl
  exhausted := by simp [start]
  explained := by
    rw [Explains, start]
    by_cases hnone : wanted = some 0
    · rw [if_pos hnone]
      exact hnone
    · rw [if_neg hnone]
      exact ⟨by simp, by simp⟩

namespace Accounts

variable {listing : Listing} {limit : Nat} {consumed : List String}

theorem of_running (h : Accounts work wanted listing limit consumed s)
    (hrunning : s.status = .running) :
    (∀ id ∈ consumed, ∃ row?, (work id).outcome = .ok row?) ∧
      (s.exhausted = true → listing.fault = none) := by
  have hexplained := h.explained
  rwa [Explains, hrunning] at hexplained

/-- Delivery moves an item from those that are ready to those that were consumed. -/
theorem deliver (h : Accounts work wanted listing limit consumed s)
    (hrunning : s.status = .running) {t : Ticket} {rest : List Ticket}
    (hready : s.ready = t :: rest) :
    Accounts work wanted listing limit (consumed ++ [t.id]) (s.deliver wanted) := by
  obtain ⟨hconsumed, hfault⟩ := h.of_running hrunning
  have hwork : t.work = work t.id := h.tickets t (by simp [hready])
  -- The item moves across the border of two lists, so that their order as a whole stays the same.
  have hplaces : consumed ++ [t.id] ++ (rest ++ s.inFlight).map Ticket.id ++ s.remaining =
      consumed ++ (s.ready ++ s.inFlight).map Ticket.id ++ s.remaining := by
    simp [hready]
  obtain ⟨rows, status, hdeliver, houtcome⟩ := deliver_of_cons wanted hready
  rw [hdeliver]
  refine ⟨fun u hu => h.tickets u ?_, ?_, fun hone => ?_, ?_, ?_, h.fault, h.exhausted, ?_⟩
  · rw [hready]
    exact List.mem_cons_of_mem _ hu
  · show (consumed ++ [t.id] ++ (rest ++ s.inFlight).map Ticket.id ++ s.remaining).Perm _
    exact hplaces ▸ h.placed
  · exact hplaces.trans (h.ordered hone)
  · have hslots := h.slots
    rw [hready, List.length_cons] at hslots
    dsimp only
    omega
  · show rows = _
    rw [List.filterMap_append, ← h.rows]
    rcases houtcome with ⟨e, he, rfl, -⟩ | ⟨hnone, rfl, -⟩ | ⟨row, hrow, rfl, -⟩
    · simp [rowOf, ← hwork, he]
    · simp [rowOf, ← hwork, hnone]
    · simp [rowOf, ← hwork, hrow]
  · have hall : ∀ row?, t.work.outcome = .ok row? →
        ∀ id ∈ consumed ++ [t.id], ∃ row?, (work id).outcome = .ok row? := by
      intro row? hrow id hid
      rcases List.mem_append.1 hid with hid | hid
      · exact hconsumed id hid
      · rw [List.mem_singleton.1 hid, ← hwork]
        exact ⟨row?, hrow⟩
    rcases houtcome with ⟨e, he, -, rfl⟩ | ⟨hnone, -, rfl⟩ | ⟨row, hrow, -, rfl⟩
    · exact .inr ⟨t.id, by simp, hwork ▸ he⟩
    · rw [Explains, hrunning]
      exact ⟨hall _ hnone, hfault⟩
    · by_cases hwanted : wanted = some rows.length
      · rw [if_pos hwanted]
        exact hwanted
      · rw [if_neg hwanted, Explains, hrunning]
        exact ⟨hall _ hrow, hfault⟩

/-- Pulling moves an item from the listing into flight, or finds the listing at its end. -/
theorem pull (h : Accounts work wanted listing limit consumed s) (hrunning : s.status = .running)
    (hfree : 0 < s.free) : Accounts work wanted listing limit consumed (s.pull work) := by
  obtain ⟨hconsumed, hfault⟩ := h.of_running hrunning
  cases hremaining : s.remaining with
  | cons id rest =>
      rw [pull_of_cons work hremaining]
      have hplaces :
          consumed ++ (s.ready ++ (s.inFlight ++ [Ticket.mk id (work id)])).map Ticket.id ++ rest =
            consumed ++ (s.ready ++ s.inFlight).map Ticket.id ++ s.remaining := by
        simp [hremaining]
      have hopen : s.exhausted ≠ true := by
        intro hexhausted
        rw [h.exhausted hexhausted] at hremaining
        cases hremaining
      refine ⟨fun t ht => ?_, ?_, fun hone => ?_, ?_, h.rows, h.fault,
        fun hexhausted => absurd hexhausted hopen, ?_⟩
      · rw [← List.append_assoc] at ht
        rcases List.mem_append.1 ht with ht | ht
        · exact h.tickets t ht
        · rw [List.mem_singleton.1 ht]
      · exact hplaces ▸ h.placed
      · exact hplaces.trans (h.ordered hone)
      · have hslots := h.slots
        simp only [List.length_append, List.length_singleton]
        omega
      · rw [Explains, hrunning]
        exact ⟨hconsumed, hfault⟩
  | nil =>
      obtain ⟨status, hpull, hstatus⟩ := pull_of_nil work hremaining
      rw [hpull]
      refine ⟨h.tickets, h.placed, h.ordered, h.slots, h.rows, h.fault, fun _ => hremaining, ?_⟩
      rcases hstatus with ⟨hnone, rfl⟩ | ⟨e, he, rfl⟩
      · rw [Explains, hrunning]
        exact ⟨hconsumed, fun _ => h.fault.symm.trans hnone⟩
      · exact .inl (h.fault.symm.trans he)

/-- Waiting makes some of the items in flight ready. -/
theorem wait (h : Accounts work wanted listing limit consumed s) (hrunning : s.status = .running)
    (hready : s.ready = []) {done left : List Ticket} (hdone : done ≠ [])
    (hsplit : (done ++ left).Perm s.inFlight) :
    Accounts work wanted listing limit consumed { s with inFlight := left, ready := done } := by
  have hinFlight : s.ready ++ s.inFlight = s.inFlight := by rw [hready, List.nil_append]
  have hlength := hsplit.length_eq
  have hslots := h.slots
  rw [List.length_append] at hlength
  rw [hready, List.length_nil] at hslots
  refine ⟨fun t ht => h.tickets t ?_, ?_, fun hone => ?_, ?_, h.rows, h.fault, h.exhausted, ?_⟩
  · rw [hinFlight]
    exact hsplit.subset ht
  · have hplaced := h.placed
    rw [hinFlight] at hplaced
    exact (((hsplit.map Ticket.id).append_left consumed).append_right s.remaining).trans hplaced
  · -- With one slot there is one item in flight, and it is this one that becomes ready.
    have hordered := h.ordered hone
    have hpos := List.length_pos_iff.2 hdone
    obtain ⟨t, ht⟩ := List.length_eq_one_iff.1 (show s.inFlight.length = 1 by omega)
    rw [ht] at hsplit
    rwa [hinFlight, ht, ← List.perm_singleton.1 hsplit] at hordered
  · dsimp only
    omega
  · have hexplained := h.of_running hrunning
    rwa [Explains, hrunning]

/-- Only a stream that has consumed the whole listing finishes. -/
theorem finish (h : Accounts work wanted listing limit consumed s) (hlimit : 1 ≤ limit)
    (hrunning : s.status = .running) (hready : s.ready = [])
    (hfull : s.exhausted = true ∨ s.free = 0) (hinFlight : s.inFlight = []) :
    Accounts work wanted listing limit consumed { s with status := .finished } := by
  obtain ⟨hconsumed, hfault⟩ := h.of_running hrunning
  have hexhausted : s.exhausted = true := by
    refine hfull.resolve_right fun hfree => ?_
    have hslots := h.slots
    rw [hready, hinFlight, hfree] at hslots
    exact absurd hslots (Nat.ne_of_lt hlimit)
  exact ⟨h.tickets, h.placed, h.ordered, h.slots, h.rows, h.fault, h.exhausted,
    hconsumed, hfault hexhausted, h.exhausted hexhausted, hready, hinFlight⟩

/-- Where the listing and every item come through there is no error to end a stream with. -/
theorem not_failed (h : Accounts work wanted listing limit consumed s)
    (hfault : listing.fault = none)
    (hall : ∀ id ∈ listing.ids, ∃ row?, (work id).outcome = .ok row?) {e : Error} :
    ¬ (listing.fault = some e ∨ ∃ id ∈ consumed, (work id).outcome = .error e) := by
  rintro (hcut | ⟨id, hid, hfails⟩)
  · rw [hfault] at hcut
    cases hcut
  · have hid : id ∈ listing.ids :=
      h.placed.subset (List.mem_append_left _ (List.mem_append_left _ hid))
    obtain ⟨row?, hrow⟩ := hall id hid
    rw [hfails] at hrow
    cases hrow

/-- **Each move keeps account of every item.** -/
theorem step (h : Accounts work wanted listing limit consumed s) (hlimit : 1 ≤ limit)
    (hstep : Step work wanted s s') :
    ∃ consumed', Accounts work wanted listing limit consumed' s' := by
  cases hstep with
  | deliver hrunning hready =>
      obtain ⟨t, rest, hcons⟩ := List.exists_cons_of_ne_nil hready
      exact ⟨_, h.deliver hrunning hcons⟩
  | pull hrunning hready hexhausted hfree => exact ⟨_, h.pull hrunning hfree⟩
  | wait hrunning hready hfull hdone hsplit => exact ⟨_, h.wait hrunning hready hdone hsplit⟩
  | finish hrunning hready hfull hinFlight =>
      exact ⟨_, h.finish hlimit hrunning hready hfull hinFlight⟩

end Accounts

/-- **Nothing is lost, and nothing comes twice**: on every course of a stream the items that were
consumed, those that hold a slot, and those that were not pulled yet make up the listing. -/
theorem exists_accounts {listing : Listing} {limit : Nat} (hlimit : 1 ≤ limit)
    (h : Steps work wanted (start listing limit wanted) s) :
    ∃ consumed, Accounts work wanted listing limit consumed s := by
  induction h with
  | refl => exact ⟨[], accounts_start work wanted listing limit⟩
  | tail _ hstep ih =>
      obtain ⟨consumed, haccounts⟩ := ih
      exact haccounts.step hlimit hstep

end Winnow.Stream
