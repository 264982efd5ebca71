import Winnow.Proofs.Query.Draining

/-!
# The window of a stream

A move of a `Stream` pulls an identifier or delivers an item at once. Looked at more closely, a slot
is acquired before the next identifier is asked for, and a row is with the consumer while its item
still holds the slot, which is released when the consumer comes back for more or closes the stream.
What is in flight when a stream has ended is still resolved.

`Window.Step` relates the states of a stream between these smaller steps, and every course of a
stream is made of them (`exists_window_of_steps`). Slots are numbered in the order in which they are
acquired, and items in the order in which they are pulled. No slot is lost and none is released
twice, and no item is in two places (`Window.Balanced`). So a stream resolves not many more items
than its consumer has seen (`stream_within_window`).
-/

namespace Winnow

/-- An item that was pulled, and the number of its slot. -/
abbrev Item := String × Nat

/-- What holds a slot besides the items in flight and those that are ready. -/
inductive Hand
  | empty
  /-- A slot was acquired, and an identifier for it is asked for. -/
  | asking (n : Nat)
  /-- The outcome of an item is looked at. -/
  | judging (i : Item)
  /-- The consumer has the row of an item. -/
  | offering (i : Item)

namespace Hand

/-- The slot that is held. -/
def numbers : Hand → List Nat
  | empty => []
  | asking n => [n]
  | judging i => [i.2]
  | offering i => [i.2]

def items : Hand → List Item
  | empty => []
  | asking _ => []
  | judging i => [i]
  | offering i => [i]

/-- The item whose row the consumer has. -/
def offered : Hand → List Item
  | empty => []
  | asking _ => []
  | judging _ => []
  | offering i => [i]

end Hand

/-- A stream, and where its slots are. -/
structure Window where
  pulled : List String
  remaining : List String
  fault : Option Error
  exhausted : Bool
  /-- Slots that nothing holds, and how often a slot was acquired. -/
  free : Nat
  taken : Nat
  hand : Hand
  inFlight : List Item
  ready : List Item
  /-- Items that came to their end, and the slots that were released, in order. -/
  consumed : List Item
  released : List Nat
  rows : List Row
  status : StreamStatus

namespace Window

variable {work : String → Logged (Option Row)} {wanted : Option Nat} {listing : Listing}
  {limit : Nat} {w w' : Window} {s s' : Stream}

/-! ## Steps -/

/-- A stream before its first step. A consumer that wants no row closes it at once. -/
def start (listing : Listing) (limit : Nat) (wanted : Option Nat) : Window where
  pulled := []
  remaining := listing.ids
  fault := listing.fault
  exhausted := false
  free := limit
  taken := 0
  hand := .empty
  inFlight := []
  ready := []
  consumed := []
  released := []
  rows := []
  status := if wanted = some 0 then .closed else .running

def acquire (w : Window) : Window :=
  { w with free := w.free - 1, taken := w.taken + 1, hand := .asking w.taken }

/-- Puts the next identifier in flight, on the slot that was acquired for it. -/
def submit (w : Window) (n : Nat) (id : String) (rest : List String) : Window :=
  { w with
    pulled := w.pulled ++ [id]
    remaining := rest
    hand := .empty
    inFlight := w.inFlight ++ [(id, n)] }

def release (w : Window) (n : Nat) : Window :=
  { w with free := w.free + 1, hand := .empty, released := w.released ++ [n] }

/-- Releases the slot of an item that has come to its end. -/
def consume (w : Window) (i : Item) : Window :=
  { w.release i.2 with consumed := w.consumed ++ [i] }

/-- One step. As in `Stream.Step`, delivery goes before pulling, and pulling before waiting. -/
inductive Step (work : String → Logged (Option Row)) (wanted : Option Nat) : Window → Window → Prop
  | acquire {w : Window} (hrunning : w.status = .running) (hhand : w.hand = .empty)
      (hready : w.ready = []) (hexhausted : w.exhausted = false) (hfree : 0 < w.free) :
      Step work wanted w w.acquire
  | submit {w : Window} {n : Nat} {id : String} {rest : List String}
      (hrunning : w.status = .running) (hhand : w.hand = .asking n)
      (hremaining : w.remaining = id :: rest) : Step work wanted w (w.submit n id rest)
  /-- The listing has come to its end. -/
  | exhaust {w : Window} {n : Nat} (hrunning : w.status = .running) (hhand : w.hand = .asking n)
      (hremaining : w.remaining = []) (hfault : w.fault = none) :
      Step work wanted w { w.release n with exhausted := true }
  /-- The listing is cut short by an error. The slot is never released then. -/
  | cut {w : Window} {n : Nat} {e : Error} (hrunning : w.status = .running)
      (hhand : w.hand = .asking n) (hremaining : w.remaining = []) (hfault : w.fault = some e) :
      Step work wanted w { w with status := .failed e }
  | wait {w : Window} (hrunning : w.status = .running) (hhand : w.hand = .empty)
      (hready : w.ready = []) (hfull : w.exhausted = true ∨ w.free = 0) {done left : List Item}
      (hdone : done ≠ []) (hsplit : (done ++ left).Perm w.inFlight) :
      Step work wanted w { w with inFlight := left, ready := done }
  | finish {w : Window} (hrunning : w.status = .running) (hhand : w.hand = .empty)
      (hready : w.ready = []) (hfull : w.exhausted = true ∨ w.free = 0)
      (hinFlight : w.inFlight = []) : Step work wanted w { w with status := .finished }
  | take {w : Window} {i : Item} {rest : List Item} (hrunning : w.status = .running)
      (hhand : w.hand = .empty) (hready : w.ready = i :: rest) :
      Step work wanted w { w with ready := rest, hand := .judging i }
  /-- The item was filtered out. -/
  | drop {w : Window} {i : Item} (hrunning : w.status = .running) (hhand : w.hand = .judging i)
      (houtcome : (work i.1).outcome = .ok none) : Step work wanted w (w.consume i)
  | fail {w : Window} {i : Item} {e : Error} (hrunning : w.status = .running)
      (hhand : w.hand = .judging i) (houtcome : (work i.1).outcome = .error e) :
      Step work wanted w { w.consume i with status := .failed e }
  | offer {w : Window} {i : Item} {row : Row} (hrunning : w.status = .running)
      (hhand : w.hand = .judging i) (houtcome : (work i.1).outcome = .ok (some row)) :
      Step work wanted w { w with hand := .offering i, rows := w.rows ++ [row] }
  /-- The consumer comes back for more. -/
  | resume {w : Window} {i : Item} (hrunning : w.status = .running) (hhand : w.hand = .offering i)
      (hwanted : wanted ≠ some w.rows.length) : Step work wanted w (w.consume i)
  /-- The consumer has all it wanted, and closes the stream; the slot is released on the way out. -/
  | close {w : Window} {i : Item} (hrunning : w.status = .running) (hhand : w.hand = .offering i)
      (hwanted : wanted = some w.rows.length) : Step work wanted w { w with status := .closed }
  | leave {w : Window} {i : Item} (hclosed : w.status = .closed) (hhand : w.hand = .offering i) :
      Step work wanted w (w.consume i)
  /-- Work that was started before the stream ended comes to its end. -/
  | settle {w : Window} (hended : w.status ≠ .running) {done left : List Item}
      (hsplit : (done ++ left).Perm w.inFlight) :
      Step work wanted w { w with inFlight := left, ready := w.ready ++ done }

/-- Any number of steps. -/
abbrev Steps (work : String → Logged (Option Row)) (wanted : Option Nat) : Window → Window → Prop :=
  Relation.ReflTransGen (Step work wanted)

/-- **A stream that has ended pulls nothing**, and does not run again. -/
theorem pulled_eq_of_ended (hended : w.status ≠ .running) (h : Steps work wanted w w') :
    w'.status ≠ .running ∧ w'.pulled = w.pulled := by
  induction h with
  | refl => exact ⟨hended, rfl⟩
  | tail _ hstep ih =>
      obtain ⟨hstatus, hpulled⟩ := ih
      cases hstep with
      | leave => exact ⟨hstatus, hpulled⟩
      | settle => exact ⟨hstatus, hpulled⟩
      | _ => exact absurd ‹_› hstatus

/-! ## Where slots and items are -/

/-- The numbers of the slots that are held. -/
def held (w : Window) : List Nat := w.hand.numbers ++ (w.ready ++ w.inFlight).map Prod.snd

/-- The items that hold a slot. -/
def holders (w : Window) : List Item := w.hand.items ++ w.ready ++ w.inFlight

/-- Every slot that was acquired was released once or is held, and every item that was pulled was
consumed or holds its slot. -/
structure Balanced (listing : Listing) (limit : Nat) (w : Window) : Prop where
  slots : w.free + w.held.length = limit
  numbered : (w.released ++ w.held).Perm (List.range w.taken)
  listed : w.pulled ++ w.remaining = listing.ids
  placed : (w.consumed ++ w.holders).Perm w.pulled.zipIdx
  asking : ∀ n, w.hand = .asking n → n = w.pulled.length ∧ w.taken = n + 1 ∧ w.exhausted = false
  unasked : (∀ n, w.hand ≠ .asking n) → w.exhausted = false → w.taken = w.pulled.length

theorem balanced_start (listing : Listing) (limit : Nat) (wanted : Option Nat) :
    Balanced listing limit (start listing limit wanted) where
  slots := rfl
  numbered := .refl _
  listed := rfl
  placed := .refl _
  asking := by rintro n ⟨⟩
  unasked _ _ := rfl

/-- What is released is what the hand held. -/
theorem release_balances {n : Nat} (h : w.hand.numbers = [n]) :
    (w.release n).free + (w.release n).held.length = w.free + w.held.length ∧
      (w.release n).released ++ (w.release n).held = w.released ++ w.held := by
  rw [held, held, h, release]
  constructor
  · simp only [Hand.numbers, List.length_append, List.length_nil, List.length_singleton]
    omega
  · simp only [Hand.numbers, List.nil_append, List.append_assoc]

namespace Balanced

variable (h : Balanced listing limit w)
include h

/-- Rows and status have no part in the balance. -/
theorem report (rows : List Row) (status : StreamStatus) :
    Balanced listing limit { w with rows := rows, status := status } :=
  ⟨h.slots, h.numbered, h.listed, h.placed, h.asking, h.unasked⟩

theorem acquire (hhand : w.hand = .empty) (hexhausted : w.exhausted = false) (hfree : 0 < w.free) :
    Balanced listing limit w.acquire := by
  have htaken := h.unasked (by simp [hhand]) hexhausted
  have hslots := h.slots
  have hnumbered := h.numbered
  have hplaced := h.placed
  rw [held, hhand] at hslots hnumbered
  rw [holders, hhand] at hplaced
  refine ⟨?_, ?_, h.listed, hplaced, ?_, fun hasking => absurd rfl (hasking w.taken)⟩
  · simp only [Window.acquire, held, Hand.numbers, List.length_append, List.length_nil,
      List.length_singleton] at hslots ⊢
    omega
  · rw [Window.acquire, held, List.range_succ]
    exact List.perm_middle.trans ((hnumbered.cons w.taken).trans
      (List.perm_append_singleton w.taken _).symm)
  · rintro n ⟨⟩
    exact ⟨htaken, rfl, hexhausted⟩

theorem submit {n : Nat} {id : String} {rest : List String} (hhand : w.hand = .asking n)
    (hremaining : w.remaining = id :: rest) : Balanced listing limit (w.submit n id rest) := by
  obtain ⟨rfl, htaken, hexhausted⟩ := h.asking n hhand
  have hslots := h.slots
  have hnumbered := h.numbered
  have hplaced := h.placed
  rw [held, hhand] at hslots hnumbered
  rw [holders, hhand] at hplaced
  refine ⟨?_, ?_, ?_, ?_, by rintro m ⟨⟩, fun _ _ => ?_⟩
  · simp only [Window.submit, held, Hand.numbers, List.length_append, List.length_map,
      List.length_nil, List.length_singleton] at hslots ⊢
    omega
  · refine .trans (.append_left _ ?_) hnumbered
    have hmap : (w.ready ++ (w.inFlight ++ [(id, w.pulled.length)])).map Prod.snd =
        (w.ready ++ w.inFlight).map Prod.snd ++ [w.pulled.length] := by
      rw [← List.append_assoc, List.map_append]
      rfl
    show ((w.ready ++ (w.inFlight ++ [(id, w.pulled.length)])).map Prod.snd).Perm _
    rw [hmap]
    exact List.perm_append_singleton _ _
  · rw [← h.listed, hremaining]
    exact List.append_assoc ..
  · have hplaced' := hplaced.append_right [(id, w.pulled.length)]
    simp only [Hand.items, List.nil_append, List.append_assoc] at hplaced'
    simpa only [Window.submit, holders, Hand.items, List.zipIdx_append, List.zipIdx_singleton,
      Nat.zero_add, List.nil_append, List.append_assoc] using hplaced'
  · rw [Window.submit, htaken, List.length_append, List.length_singleton]

theorem exhaust {n : Nat} (hhand : w.hand = .asking n) :
    Balanced listing limit { w.release n with exhausted := true } := by
  obtain ⟨hslots, hnumbered⟩ := release_balances (w := w) (n := n) (by rw [hhand]; rfl)
  have hplaced := h.placed
  rw [holders, hhand] at hplaced
  exact ⟨hslots.trans h.slots, hnumbered ▸ h.numbered, h.listed, hplaced, by rintro m ⟨⟩,
    by rintro - ⟨⟩⟩

theorem consume {i : Item} (hitems : w.hand.items = [i]) :
    Balanced listing limit (w.consume i) := by
  have hnumbers : w.hand.numbers = [i.2] := by
    cases hhand : w.hand <;> rw [hhand] at hitems <;> cases hitems <;> rfl
  have hasking : ∀ n, w.hand ≠ .asking n := by
    rintro n hhand
    rw [hhand] at hitems
    cases hitems
  obtain ⟨hslots, hnumbered⟩ := release_balances hnumbers
  have hplaced := h.placed
  rw [holders, hitems] at hplaced
  refine ⟨hslots.trans h.slots, hnumbered ▸ h.numbered, h.listed, ?_, by rintro m ⟨⟩,
    fun _ => h.unasked hasking⟩
  simpa only [Window.consume, Window.release, holders, Hand.items, List.nil_append,
    List.append_assoc] using hplaced

/-- An item that is ready is taken into the hand. -/
theorem take {i : Item} {rest : List Item} (hhand : w.hand = .empty)
    (hready : w.ready = i :: rest) :
    Balanced listing limit { w with ready := rest, hand := .judging i } := by
  have hslots := h.slots
  have hnumbered := h.numbered
  have hplaced := h.placed
  rw [held, hhand, hready] at hslots hnumbered
  rw [holders, hhand, hready] at hplaced
  exact ⟨hslots, hnumbered, h.listed, hplaced, by rintro m ⟨⟩,
    fun _ => h.unasked (by simp [hhand])⟩

theorem offer {i : Item} (hhand : w.hand = .judging i) :
    Balanced listing limit { w with hand := .offering i } := by
  have hslots := h.slots
  have hnumbered := h.numbered
  have hplaced := h.placed
  rw [held, hhand] at hslots hnumbered
  rw [holders, hhand] at hplaced
  exact ⟨hslots, hnumbered, h.listed, hplaced, by rintro m ⟨⟩,
    fun _ => h.unasked (by simp [hhand])⟩

/-- Items that were in flight become ready. -/
theorem shift {ready inFlight : List Item}
    (hsplit : (ready ++ inFlight).Perm (w.ready ++ w.inFlight)) :
    Balanced listing limit { w with ready := ready, inFlight := inFlight } := by
  have hheld : (w.hand.numbers ++ (ready ++ inFlight).map Prod.snd).Perm w.held :=
    (hsplit.map Prod.snd).append_left _
  refine ⟨?_, (hheld.append_left _).trans h.numbered, h.listed, ?_, h.asking, h.unasked⟩
  · rw [← h.slots]
    exact congrArg (w.free + ·) hheld.length_eq
  · refine .trans (.append_left _ ?_) h.placed
    rw [holders, holders, List.append_assoc, List.append_assoc]
    exact hsplit.append_left _

/-- **Each step keeps the balance.** -/
theorem step (hstep : Step work wanted w w') : Balanced listing limit w' := by
  cases hstep with
  | acquire hrunning hhand hready hexhausted hfree => exact h.acquire hhand hexhausted hfree
  | submit hrunning hhand hremaining => exact h.submit hhand hremaining
  | exhaust hrunning hhand => exact h.exhaust hhand
  | cut => exact h.report _ _
  | wait hrunning hhand hready hfull hdone hsplit =>
      refine h.shift ?_
      rwa [hready, List.nil_append]
  | finish => exact h.report _ _
  | take hrunning hhand hready => exact h.take hhand hready
  | drop hrunning hhand => exact h.consume (by rw [hhand]; rfl)
  | fail hrunning hhand => exact (h.consume (by rw [hhand]; rfl)).report _ _
  | offer hrunning hhand => exact (h.offer hhand).report _ _
  | resume hrunning hhand => exact h.consume (by rw [hhand]; rfl)
  | close => exact h.report _ _
  | leave hclosed hhand => exact h.consume (by rw [hhand]; rfl)
  | settle hended hsplit =>
      refine h.shift ?_
      rw [List.append_assoc]
      exact hsplit.append_left _

end Balanced

theorem balanced_of_steps (h : Steps work wanted (start listing limit wanted) w) :
    Balanced listing limit w := by
  induction h with
  | refl => exact balanced_start listing limit wanted
  | tail _ hstep ih => exact ih.step hstep

/-! ## What the consumer has seen -/

/-- Whether an item comes to its end without a row. -/
def isDropped (work : String → Logged (Option Row)) (id : String) : Bool :=
  match (work id).outcome with
  | .ok none => true
  | _ => false

/-- How many items were filtered out so far. -/
def dropped (work : String → Logged (Option Row)) (w : Window) : Nat :=
  w.consumed.countP fun i => isDropped work i.1

/-- The rows are those of the items that were consumed, and of the one whose row the consumer has
just now. When it closes the stream there, this is the row that it wanted last. -/
structure Reported (work : String → Logged (Option Row)) (wanted : Option Nat) (w : Window) :
    Prop where
  rows : w.rows = (w.consumed ++ w.hand.offered).filterMap fun i => Stream.rowOf work i.1
  offered : ∀ i ∈ w.hand.offered, ∃ row, (work i.1).outcome = .ok (some row)
  sound : (∀ e, w.status ≠ .failed e) → ∀ i ∈ w.consumed, ∃ row?, (work i.1).outcome = .ok row?
  closed : w.status = .closed → wanted = some w.rows.length ∧ w.hand.items = w.hand.offered ∧
    0 < w.free + w.hand.numbers.length

theorem reported_start (work : String → Logged (Option Row)) (listing : Listing)
    (hlimit : 1 ≤ limit) (wanted : Option Nat) :
    Reported work wanted (start listing limit wanted) where
  rows := rfl
  offered := by rintro i ⟨⟩
  sound := by rintro - i ⟨⟩
  closed hclosed := by
    refine ⟨?_, rfl, hlimit⟩
    by_contra hwanted
    have hrunning : (start listing limit wanted).status = .running := if_neg hwanted
    rw [hrunning] at hclosed
    cases hclosed

namespace Reported

variable (h : Reported work wanted w)
include h

/-- Steps that touch neither rows nor the items that were consumed. -/
theorem keep (hrows : w'.rows = w.rows) (hconsumed : w'.consumed = w.consumed)
    (hoffered : w'.hand.offered = w.hand.offered) (hrunning : w.status = .running)
    (hopen : w'.status ≠ .closed) : Reported work wanted w' := by
  refine ⟨?_, ?_, fun _ => ?_, fun hclosed => absurd hclosed hopen⟩
  · rw [hrows, hconsumed, hoffered, h.rows]
  · rw [hoffered]
    exact h.offered
  · rw [hconsumed]
    exact h.sound (by simp [hrunning])

/-- The item that the hand holds comes to its end, with the row that the consumer has had, if it
gives one. -/
theorem consume {i : Item}
    (hrow : w.hand.offered = [i] ∨ w.hand.offered = [] ∧ (work i.1).outcome = .ok none) :
    Reported work wanted (w.consume i) := by
  have hshown : w.rows = (w.consumed ++ [i]).filterMap fun i => Stream.rowOf work i.1 := by
    rcases hrow with hoffered | ⟨hoffered, hnone⟩
    · rw [h.rows, hoffered]
    · simp [h.rows, hoffered, Stream.rowOf, hnone]
  refine ⟨?_, by rintro j ⟨⟩, fun hstatus j hj => ?_, fun hclosed => ?_⟩
  · exact hshown.trans (by rw [Window.consume, Window.release, Hand.offered, List.append_nil])
  · rcases List.mem_append.1 hj with hj | hj
    · exact h.sound hstatus j hj
    · rw [List.mem_singleton.1 hj]
      rcases hrow with hoffered | ⟨-, hnone⟩
      · obtain ⟨row, hrow⟩ := h.offered i (by simp [hoffered])
        exact ⟨some row, hrow⟩
      · exact ⟨none, hnone⟩
  · exact ⟨(h.closed hclosed).1, rfl, Nat.lt_of_lt_of_le (Nat.succ_pos _) (Nat.le_add_right _ _)⟩

theorem fail {i : Item} {e : Error} (hhand : w.hand = .judging i)
    (houtcome : (work i.1).outcome = .error e) :
    Reported work wanted { w.consume i with status := .failed e } := by
  refine ⟨?_, by rintro j ⟨⟩, fun hstatus => absurd rfl (hstatus e), by rintro ⟨⟩⟩
  rw [Window.consume, Window.release, Hand.offered, h.rows, hhand]
  simp [Hand.offered, Stream.rowOf, houtcome]

theorem offer {i : Item} {row : Row} (hrunning : w.status = .running) (hhand : w.hand = .judging i)
    (houtcome : (work i.1).outcome = .ok (some row)) :
    Reported work wanted { w with hand := .offering i, rows := w.rows ++ [row] } := by
  refine ⟨?_, ?_, fun _ => h.sound (by simp [hrunning]), ?_⟩
  · rw [h.rows, hhand]
    simp [Hand.offered, Stream.rowOf, houtcome]
  · intro j hj
    rw [List.mem_singleton.1 hj]
    exact ⟨row, houtcome⟩
  · intro hclosed
    cases hrunning.symm.trans hclosed

/-- **Each step reports rows as they come.** -/
theorem step (hstep : Step work wanted w w') : Reported work wanted w' := by
  cases hstep with
  | acquire hrunning hhand =>
      exact h.keep rfl rfl (by rw [hhand]; rfl) hrunning (hrunning ▸ nofun)
  | submit hrunning hhand => exact h.keep rfl rfl (by rw [hhand]; rfl) hrunning (hrunning ▸ nofun)
  | exhaust hrunning hhand => exact h.keep rfl rfl (by rw [hhand]; rfl) hrunning (hrunning ▸ nofun)
  | cut hrunning hhand => exact h.keep rfl rfl rfl hrunning nofun
  | wait hrunning => exact h.keep rfl rfl rfl hrunning (hrunning ▸ nofun)
  | finish hrunning => exact h.keep rfl rfl rfl hrunning nofun
  | take hrunning hhand => exact h.keep rfl rfl (by rw [hhand]; rfl) hrunning (hrunning ▸ nofun)
  | drop hrunning hhand houtcome => exact h.consume (.inr ⟨by rw [hhand]; rfl, houtcome⟩)
  | fail hrunning hhand houtcome => exact h.fail hhand houtcome
  | offer hrunning hhand houtcome => exact h.offer hrunning hhand houtcome
  | resume hrunning hhand => exact h.consume (.inl (by rw [hhand]; rfl))
  | close hrunning hhand hwanted =>
      refine ⟨h.rows, h.offered, fun _ => h.sound (by simp [hrunning]), fun _ => ⟨hwanted, ?_, ?_⟩⟩
      · rw [hhand]
        rfl
      · rw [hhand]
        exact Nat.succ_pos _
  | leave hclosed hhand => exact h.consume (.inl (by rw [hhand]; rfl))
  | settle hended => exact ⟨h.rows, h.offered, h.sound, h.closed⟩

end Reported

theorem reported_of_steps (hlimit : 1 ≤ limit)
    (h : Steps work wanted (start listing limit wanted) w) : Reported work wanted w := by
  induction h with
  | refl => exact reported_start work listing hlimit wanted
  | tail _ hstep ih => exact ih.step hstep

/-- Items that came to their end without an error gave a row or were filtered out. -/
theorem length_eq_rows_add_dropped {items : List Item}
    (h : ∀ i ∈ items, ∃ row?, (work i.1).outcome = .ok row?) :
    items.length = (items.filterMap fun i => Stream.rowOf work i.1).length +
      items.countP fun i => isDropped work i.1 := by
  induction items with
  | nil => rfl
  | cons i items ih =>
      obtain ⟨⟨row?, hrow⟩, hitems⟩ := List.forall_mem_cons.1 h
      have ih := ih hitems
      cases row? with
      | none =>
          have hnothing : Stream.rowOf work i.1 = none := by rw [Stream.rowOf, hrow]
          have hdropped : isDropped work i.1 = true := by rw [isDropped, hrow]
          simp only [List.filterMap_cons, List.countP_cons, List.length_cons, hnothing, hdropped,
            if_true]
          omega
      | some row =>
          have hshown : Stream.rowOf work i.1 = some row := by rw [Stream.rowOf, hrow]
          have hkept : isDropped work i.1 = false := by rw [isDropped, hrow]
          simp only [List.filterMap_cons, List.countP_cons, List.length_cons, hshown, hkept,
            Bool.false_eq_true, if_false]
          omega

/-- **A consumer that closes the stream** has had no more items resolved than one for each row
before the last, one for each item that was filtered out, and one for each slot. -/
theorem pulled_le_of_closed (hb : Balanced listing limit w) (hr : Reported work wanted w)
    (hclosed : w.status = .closed) :
    w.pulled.length ≤ w.rows.length - 1 + w.dropped work + limit := by
  obtain ⟨-, hitems, hheld⟩ := hr.closed hclosed
  have hconsumed : w.consumed.length =
      (w.consumed.filterMap fun i => Stream.rowOf work i.1).length + w.dropped work :=
    length_eq_rows_add_dropped (hr.sound (by simp [hclosed]))
  have hoffered : w.hand.offered.length =
      (w.hand.offered.filterMap fun i => Stream.rowOf work i.1).length ∧
      w.hand.offered.length ≤ w.hand.numbers.length := by
    cases hhand : w.hand with
    | offering i =>
        obtain ⟨row, hrow⟩ := hr.offered i (by simp [hhand, Hand.offered])
        simp [Hand.offered, Hand.numbers, Stream.rowOf, hrow]
    | _ => simp [Hand.offered]
  -- What was pulled is consumed, which rows and drops account for, or holds one of the slots. The
  -- row that the consumer had last is still in its hand, or its slot is free again.
  have hplaced := hb.placed.length_eq
  have hslots := hb.slots
  have hrows := congrArg List.length hr.rows
  simp only [holders, held, hitems, List.filterMap_append, List.length_append, List.length_map,
    List.length_zipIdx] at hplaced hslots hrows
  omega

/-! ## Courses of a stream -/

/-- An item as a stream holds it. -/
def ticket (work : String → Logged (Option Row)) (i : Item) : Ticket := ⟨i.1, work i.1⟩

/-- Between two moves of a stream that runs, the hand is empty. -/
structure Shows (work : String → Logged (Option Row)) (s : Stream) (w : Window) : Prop where
  remaining : s.remaining = w.remaining
  fault : s.fault = w.fault
  inFlight : s.inFlight = w.inFlight.map (ticket work)
  ready : s.ready = w.ready.map (ticket work)
  calls : s.calls = w.pulled.flatMap fun id => (work id).calls
  rows : s.rows = w.rows
  status : s.status = w.status
  atRest : s.status = .running → w.hand = .empty ∧ s.free = w.free ∧ s.exhausted = w.exhausted

theorem shows_start (work : String → Logged (Option Row)) (listing : Listing) (limit : Nat)
    (wanted : Option Nat) :
    Shows work (.start listing limit wanted) (start listing limit wanted) :=
  ⟨rfl, rfl, rfl, rfl, rfl, rfl, rfl, fun _ => ⟨rfl, rfl, rfl⟩⟩

/-- A split of what was mapped is one of what it was mapped from. -/
theorem exists_split_of_map {α β : Type} {f : α → β} {xs : List α} {done left : List β}
    (h : (done ++ left).Perm (xs.map f)) :
    ∃ done' left' : List α, (done' ++ left').Perm xs ∧ done'.map f = done ∧ left'.map f = left := by
  obtain ⟨ys, hys, hperm⟩ := (congrFun (congrFun (List.eq_map_comp_perm f) _) _).mpr h
  obtain ⟨done', left', rfl, hdone, hleft⟩ := List.map_eq_append_iff.1 hys.symm
  exact ⟨done', left', hperm, hdone, hleft⟩

theorem shows_deliver (h : Shows work s w) (hrunning : s.status = .running)
    (hready : s.ready ≠ []) :
    ∃ w', Steps work wanted w w' ∧ Shows work (s.deliver wanted) w' := by
  obtain ⟨hhand, hfree, hexhausted⟩ := h.atRest hrunning
  have hstatus : w.status = .running := h.status ▸ hrunning
  obtain ⟨t, tail, hcons⟩ := List.exists_cons_of_ne_nil hready
  obtain ⟨i, rest, hi, rfl, rfl⟩ := List.map_eq_cons_iff.1 (h.ready.symm.trans hcons)
  obtain ⟨rows, status, hdeliver, houtcome⟩ := Stream.deliver_of_cons wanted hcons
  rw [hdeliver]
  have htake : Step work wanted w _ := .take hstatus hhand hi
  rcases houtcome with ⟨e, he, rfl, rfl⟩ | ⟨hnone, rfl, rfl⟩ | ⟨row, hrow, rfl, rfl⟩
  · refine ⟨_, .head htake (.single (.fail hstatus rfl he)), ?_⟩
    exact ⟨h.remaining, h.fault, h.inFlight, rfl, h.calls, h.rows, rfl, nofun⟩
  · refine ⟨_, .head htake (.single (.drop hstatus rfl hnone)), ?_⟩
    exact ⟨h.remaining, h.fault, h.inFlight, rfl, h.calls, h.rows, h.status,
      fun _ => ⟨rfl, congrArg (· + 1) hfree, hexhausted⟩⟩
  · have hoffer : Step work wanted _ _ := .offer (w := { w with ready := rest, hand := .judging i })
      hstatus rfl hrow
    have hrows : s.rows ++ [row] = w.rows ++ [row] := congrArg (· ++ [row]) h.rows
    -- The slot is released either way: when the consumer comes back, or on the way out.
    by_cases hwanted : wanted = some (w.rows ++ [row]).length
    · refine ⟨_, .head htake (.head hoffer (.head (.close hstatus rfl hwanted)
        (.single (.leave rfl rfl)))), ?_⟩
      rw [hrows, if_pos hwanted]
      exact ⟨h.remaining, h.fault, h.inFlight, rfl, h.calls, rfl, rfl, nofun⟩
    · refine ⟨_, .head htake (.head hoffer (.single (.resume hstatus rfl hwanted))), ?_⟩
      rw [hrows, if_neg hwanted]
      exact ⟨h.remaining, h.fault, h.inFlight, rfl, h.calls, rfl, h.status,
        fun _ => ⟨rfl, congrArg (· + 1) hfree, hexhausted⟩⟩

theorem shows_pull (h : Shows work s w) (hrunning : s.status = .running) (hready : s.ready = [])
    (hexhausted : s.exhausted = false) (hfree : 0 < s.free) :
    ∃ w', Steps work wanted w w' ∧ Shows work (s.pull work) w' := by
  obtain ⟨hhand, hfrees, hexhausteds⟩ := h.atRest hrunning
  have hstatus : w.status = .running := h.status ▸ hrunning
  have hacquire : Step work wanted w w.acquire :=
    .acquire hstatus hhand (List.map_eq_nil_iff.1 (h.ready ▸ hready)) (hexhausteds ▸ hexhausted)
      (hfrees ▸ hfree)
  cases hremaining : s.remaining with
  | cons id rest =>
      rw [Stream.pull_of_cons work hremaining]
      refine ⟨_, .head hacquire (.single (.submit hstatus rfl (h.remaining ▸ hremaining))), ?_⟩
      refine ⟨rfl, h.fault, ?_, h.ready, ?_, h.rows, h.status, fun _ => ⟨rfl, ?_, hexhausteds⟩⟩
      · simp only [Window.submit, Window.acquire, h.inFlight, List.map_append, List.map_singleton,
          ticket]
      · simp only [Window.submit, Window.acquire, h.calls, List.flatMap_append,
          List.flatMap_singleton]
      · exact congrArg (· - 1) hfrees
  | nil =>
      have hnil : w.acquire.remaining = [] := h.remaining ▸ hremaining
      obtain ⟨status, hpull, hend⟩ := Stream.pull_of_nil work hremaining
      rw [hpull]
      rcases hend with ⟨hfault, rfl⟩ | ⟨e, hfault, rfl⟩
      · refine ⟨_, .head hacquire (.single (.exhaust hstatus rfl hnil (h.fault ▸ hfault))), ?_⟩
        refine ⟨h.remaining, h.fault, h.inFlight, h.ready, h.calls, h.rows, h.status,
          fun _ => ⟨rfl, ?_, rfl⟩⟩
        show s.free = w.free - 1 + 1
        omega
      · refine ⟨_, .head hacquire (.single (.cut hstatus rfl hnil (h.fault ▸ hfault))), ?_⟩
        exact ⟨h.remaining, h.fault, h.inFlight, h.ready, h.calls, h.rows, rfl, nofun⟩

/-- **A move of a stream is made of steps.** -/
theorem exists_window_of_step (h : Shows work s w) (hstep : Stream.Step work wanted s s') :
    ∃ w', Steps work wanted w w' ∧ Shows work s' w' := by
  have hstatus : w.status = .running := h.status ▸ hstep.running
  obtain ⟨hhand, hfree, hexhausted⟩ := h.atRest hstep.running
  cases hstep with
  | deliver hrunning hready => exact shows_deliver h hrunning hready
  | pull hrunning hready hexhausted hfree => exact shows_pull h hrunning hready hexhausted hfree
  | wait hrunning hready hfull hdone hsplit =>
      rw [h.inFlight] at hsplit
      obtain ⟨done, left, hperm, rfl, rfl⟩ := exists_split_of_map hsplit
      refine ⟨_, .single (.wait hstatus hhand (List.map_eq_nil_iff.1 (h.ready ▸ hready))
        (hfree ▸ hexhausted ▸ hfull) (fun hnil => hdone (List.map_eq_nil_iff.2 hnil)) hperm), ?_⟩
      exact ⟨h.remaining, h.fault, rfl, rfl, h.calls, h.rows, h.status,
        fun _ => ⟨hhand, hfree, hexhausted⟩⟩
  | finish hrunning hready hfull hinFlight =>
      refine ⟨_, .single (.finish hstatus hhand (List.map_eq_nil_iff.1 (h.ready ▸ hready))
        (hfree ▸ hexhausted ▸ hfull) (List.map_eq_nil_iff.1 (h.inFlight ▸ hinFlight))), ?_⟩
      exact ⟨h.remaining, h.fault, h.inFlight, h.ready, h.calls, h.rows, rfl, nofun⟩

/-- **Every course of a stream is made of steps.** -/
theorem exists_window_of_steps
    (h : Stream.Steps work wanted (.start listing limit wanted) s) :
    ∃ w, Steps work wanted (start listing limit wanted) w ∧ Shows work s w := by
  induction h with
  | refl => exact ⟨_, .refl, shows_start work listing limit wanted⟩
  | tail _ hstep ih =>
      obtain ⟨w, hw, hshows⟩ := ih
      obtain ⟨w', hw', hshows'⟩ := exists_window_of_step hshows hstep
      exact ⟨w', hw.trans hw', hshows'⟩

end Window

/-- **A stream stays within its window.** On every course, and at every point of it, each slot is
free, held by the hand, or held by an item that is ready or in flight; none is released twice or
while it is held. Each item that was pulled has come to its end or holds a slot, and is in one place
only. A stream that has ended pulls no more, so that a consumer that closes it at its `k`-th row has
had at most `k - 1` items resolved beyond those that were filtered out and one for each slot. The
stream of the program takes one of these courses, and so do all that its items' order of completion
may lead to. -/
theorem Query.stream_within_window {q : Query} {plan : Plan} (hplan : q.plan = .ok plan)
    {limit : Nat} (hlimit : 1 ≤ limit) (wanted : Option Nat) :
    (∃ s w, Window.Steps (q.resolveOne plan) wanted
        (.start (q.search.listing q.scanned) limit wanted) w ∧
      Window.Shows (q.resolveOne plan) s w ∧ w.status ≠ .running ∧
      q.stream (.int limit) wanted = s.outcome) ∧
    (∀ s, Stream.Steps (q.resolveOne plan) wanted
        (.start (q.search.listing q.scanned) limit wanted) s →
      ∃ w, Window.Steps (q.resolveOne plan) wanted
        (.start (q.search.listing q.scanned) limit wanted) w ∧
        Window.Shows (q.resolveOne plan) s w) ∧
    ∀ w, Window.Steps (q.resolveOne plan) wanted
        (.start (q.search.listing q.scanned) limit wanted) w →
      w.free + w.hand.numbers.length + w.ready.length + w.inFlight.length = limit ∧
      (w.released ++ w.held).Nodup ∧
      (w.consumed ++ w.holders).Perm w.pulled.zipIdx ∧
      w.pulled ++ w.remaining = (q.search.listing q.scanned).ids ∧
      (w.status ≠ .running → ∀ w', Window.Steps (q.resolveOne plan) wanted w w' →
        w'.pulled = w.pulled) ∧
      ∀ k, wanted = some k → w.status = .closed →
        w.pulled.length ≤ (k - 1) + w.dropped (q.resolveOne plan) + limit := by
  refine ⟨?_, fun s hs => Window.exists_window_of_steps hs, fun w hw => ?_⟩
  · obtain ⟨w, hw, hshows⟩ := Window.exists_window_of_steps (Stream.steps_run
      (Stream.start (q.search.listing q.scanned) limit wanted).weight
      (.start (q.search.listing q.scanned) limit wanted))
    refine ⟨_, w, hw, hshows, hshows.status ▸
      Stream.status_run_ne_running (Stream.movesLeft_le_weight _), ?_⟩
    rw [stream, hplan, streamLimit_ofNat hlimit]
    rfl
  · -- Two invariants hold on every course, and all else is read off from them.
    have hbalanced := Window.balanced_of_steps hw
    have hreported := Window.reported_of_steps hlimit hw
    refine ⟨?_, ?_, hbalanced.placed, hbalanced.listed, fun hended w' hw' =>
      (Window.pulled_eq_of_ended hended hw').2, fun k hk hclosed => ?_⟩
    · rw [← hbalanced.slots, Window.held]
      simp only [List.length_append, List.length_map]
      omega
    · exact hbalanced.numbered.nodup_iff.2 List.nodup_range
    · obtain ⟨hwanted, -, -⟩ := hreported.closed hclosed
      cases hk.symm.trans hwanted
      exact Window.pulled_le_of_closed hbalanced hreported hclosed

/-- A consumer that wants one row of four items, with two slots, has at most two items resolved, and
gets its row. -/
theorem Query.stream_within_window_first :
    let search : Search :=
      ⟨["x"], fun _ => ⟨["a", "b", "c", "d"], none⟩, fun id => .ok [("x", id)]⟩
    ∃ q plan, (Query.new search none none .null >>= (·.select [.text "params.*"])) = .ok q ∧
      q.plan = .ok plan ∧
      (∃ w, Window.Steps (q.resolveOne plan) (some 1)
          (.start (q.search.listing q.scanned) 2 (some 1)) w ∧ w.status ≠ .running ∧
          w.rows.map (·.map fun e => (e.1, e.2.plain)) = [[("x", "a")]]) ∧
      ∀ w, Window.Steps (q.resolveOne plan) (some 1)
          (.start (q.search.listing q.scanned) 2 (some 1)) w → w.status = .closed →
        w.pulled.length ≤ w.dropped (q.resolveOne plan) + 2 := by
  intro search
  let q₁ : Query := ⟨search, none, none, 8, [], [], none⟩
  let q₂ : Query := { q₁ with selected := some (.paths ["params.*"]) }
  have hnew : Query.new search none none .null = .ok q₁ := rfl
  have hselect : q₁.select [.text "params.*"] = .ok q₂ := by
    have hcheck : q₁.checkSelection (.paths ["params.*"]) = .ok () :=
      eq_ok_of_toOption (by decide +kernel)
    exact bind_eq_ok.2 ⟨_, rfl, bind_eq_ok.2 ⟨(), hcheck, rfl⟩⟩
  obtain ⟨plan, hplan, -⟩ : ∃ plan, q₂.plan = .ok plan ∧ plan.needsParams = true :=
    exists_ok_of_toOption_map (by decide +kernel)
  have hstream : (q₂.stream (.int (2 : Nat)) (some 1)).outcome.toOption.map
      (·.map (·.map fun e => (e.1, e.2.plain))) = some [[("x", "a")]] := by decide +kernel
  obtain ⟨⟨s, w, hw, hshows, hended, hrun⟩, -, hall⟩ :=
    stream_within_window hplan (show 1 ≤ 2 by decide) (some 1)
  refine ⟨q₂, plan, ?_, hplan, ⟨w, hw, hended, ?_⟩, fun w hw hclosed => ?_⟩
  · rw [hnew]
    exact hselect
  · rw [hrun, Stream.outcome] at hstream
    rw [← hshows.rows]
    dsimp only at hstream
    split at hstream
    · cases hstream
    · exact Option.some.inj hstream
  · have hbound := (hall w hw).2.2.2.2.2 1 rfl hclosed
    omega

end Winnow
