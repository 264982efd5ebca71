import Mathlib.Tactic
import Winnow.Regex.Reading

/-!
# Readers that see only the text

Most readers of expressions look at nothing but the text in front of them: what was read before, the
groups and names so far, plays no part in what they do (`Read.Blind`). Blindness is kept when
readers are put together, so it is shown piece by piece.
-/

namespace Winnow.Regex

/-- The reader, with what it has read so far replaced. -/
def Reader.at (r : Reader) (scope : Scope) (flags : List Char) : Reader := ⟨r.rest, scope, flags⟩

/-- The reader sees and changes nothing but the remaining text. -/
def Read.Blind {α : Type} (m : Read α) : Prop :=
  ∀ (r : Reader) (s : Scope) (g : List Char),
    m.run (r.at s g) = (m.run r).map fun x => (x.1, x.2.at s g)

open Read

section Rules

variable {α β : Type}

theorem blind_pure (a : α) : Blind (pure a : Read α) := fun _ _ _ => rfl

theorem blind_throw (fault : Fault) : Blind (throw fault : Read α) := fun _ _ _ => rfl

theorem blind_fail : Blind (fail : Read α) := blind_throw .malformed

theorem blind_bind {m : Read α} {k : α → Read β} (hm : Blind m) (hk : ∀ a, Blind (k a)) :
    Blind (m >>= k) := by
  intro r s g
  rw [StateT.run_bind, StateT.run_bind, hm]
  cases m.run r with
  | error e => rfl
  | ok x => exact hk x.1 x.2 s g

theorem blind_ite {c : Prop} [Decidable c] {m n : Read α} (hm : Blind m) (hn : Blind n) :
    Blind (if c then m else n) := by
  split
  · exact hm
  · exact hn

/-- A check before the rest is read. -/
theorem blind_check {c : Prop} [Decidable c] {fault : Fault} {n : Read α} (hn : Blind n) :
    Blind (if c then (throw fault : Read PUnit) >>= fun _ => n else n) :=
  blind_ite (blind_bind (blind_throw fault) fun _ => hn) hn

theorem blind_get {k : Reader → Read α} (hk : ∀ r, Blind (k r))
    (hr : ∀ r s g, k (r.at s g) = k r) : Blind (get >>= k) := by
  intro r s g
  exact (congrArg (fun m : Read α => m.run (r.at s g)) (hr r s g)).trans (hk r r s g)

theorem blind_modify {f : Reader → Reader} (hf : ∀ r s g, f (r.at s g) = (f r).at s g) :
    Blind (modify f) := by
  intro r s g
  exact congrArg (fun r' => (Except.ok ((), r') : Except Fault (Unit × Reader))) (hf r s g)

end Rules

/-! ## Single characters -/

theorem blind_peek : Blind peek := fun _ _ _ => rfl

theorem blind_advance : Blind advance := fun _ _ _ => rfl

theorem blind_next : Blind next := by
  refine blind_get (fun r => ?_) fun _ _ _ => rfl
  split
  · exact blind_fail
  · exact blind_bind (blind_modify fun _ _ _ => rfl) fun _ => blind_pure _

theorem blind_accept (c : Char) : Blind (accept c) :=
  blind_bind blind_peek fun _ =>
    blind_ite (blind_bind blind_advance fun _ => blind_pure true) (blind_pure false)

theorem blind_expect (c : Char) : Blind (expect c) :=
  blind_bind (blind_accept c) fun _ => blind_ite (blind_pure _) blind_fail

theorem blind_takeWhile (ok : Char → Bool) (n : Nat) : Blind (takeWhile ok n) := by
  induction n with
  | zero => exact blind_pure []
  | succ n ih =>
      refine blind_bind blind_peek fun t => ?_
      split
      next c =>
          exact blind_ite
            (blind_bind blind_advance fun _ => blind_bind ih fun cs => blind_pure (c :: cs))
            (blind_pure [])
      next => exact blind_pure []

theorem blind_takeUntil (c : Char) : Blind (takeUntil c) :=
  blind_get (fun _ => blind_check <|
    blind_bind (blind_modify fun _ _ _ => rfl) fun _ => blind_pure _) fun _ _ _ => rfl

/-! ## Escapes and sets -/

theorem blind_hexEscape (n : Nat) : Blind (hexEscape n) :=
  blind_bind (blind_takeWhile isHex n) fun _ => blind_check (blind_check (blind_pure _))

theorem blind_octalEscape (ds : List Char) : Blind (octalEscape ds) := blind_check (blind_pure _)

theorem blind_namedEscape : Blind namedEscape :=
  blind_bind (blind_expect _) fun _ => blind_bind (blind_takeUntil _) fun _ =>
    blind_check (blind_throw _)

theorem blind_plainEscape (c : Char) : Blind (plainEscape c) := by
  rw [plainEscape.eq_def]
  split
  · exact blind_hexEscape 2
  · exact blind_hexEscape 4
  · exact blind_hexEscape 8
  · exact blind_namedEscape
  · exact blind_ite blind_fail (blind_pure _)

theorem blind_setEscape (c : Char) : Blind (setEscape c) := by
  rw [setEscape.eq_def]
  split
  · exact blind_pure _
  · exact blind_pure _
  · exact blind_ite
      (blind_bind (blind_takeWhile isOctal 2) fun ds => blind_octalEscape (c :: ds))
      (blind_plainEscape c)

theorem blind_setMember (t : Token) : Blind (setMember t) :=
  blind_ite (blind_setEscape t.char) (blind_pure _)

theorem blind_setItems (fuel : Nat) (items : List SetItem) : Blind (setItems fuel items) := by
  induction fuel generalizing items with
  | zero => exact blind_fail
  | succ fuel ih =>
      refine blind_bind blind_next fun t =>
        blind_ite (blind_pure _) (blind_bind (blind_setMember t) fun first => ?_)
      refine blind_bind (blind_accept '-') fun _ =>
        blind_ite (blind_bind blind_next fun t => blind_ite (blind_pure _) ?_) (ih _)
      refine blind_bind (blind_setMember t) fun last => ?_
      cases first <;> cases last
      · exact blind_check (ih _)
      all_goals exact blind_fail

/-! ## Quantifiers and flags -/

theorem blind_readCount (ds : List Char) : Blind (readCount ds) :=
  blind_check (blind_check (blind_pure _))

theorem blind_readBounds : Blind readBounds := by
  refine blind_bind blind_peek fun _ =>
    blind_ite (blind_pure none) (blind_get (fun r => ?_) fun _ _ _ => rfl)
  refine blind_bind (blind_takeWhile Char.isDigit r.rest.length) fun lo =>
    blind_bind (blind_accept ',') fun _ => ?_
  refine blind_ite (blind_bind (blind_takeWhile _ _) fun hi => ?_)
    (blind_bind (blind_pure lo) fun hi => ?_)
  all_goals
    refine blind_bind (blind_accept _) fun _ =>
      blind_ite (blind_bind (blind_modify fun _ _ _ => rfl) fun _ => blind_pure none) ?_
    exact blind_bind (blind_readCount lo) fun _ => blind_ite (blind_pure _) <|
      blind_bind (blind_readCount hi) fun _ => blind_check (blind_pure _)

theorem blind_readGreed : Blind readGreed := by
  refine blind_bind (blind_accept '?') fun _ => blind_ite (blind_pure _) ?_
  exact blind_bind (blind_accept '+') fun _ => blind_ite (blind_pure _) (blind_pure _)

theorem blind_readFlags (fuel : Nat) (on : List Char) : Blind (readFlags fuel on) := by
  induction fuel generalizing on with
  | zero => exact blind_fail
  | succ fuel ih =>
      refine blind_check (blind_bind blind_next fun t => blind_check ?_)
      exact blind_ite (blind_pure _) (blind_check (ih _))

theorem blind_readFlagsOff (fuel : Nat) (off : List Char) : Blind (readFlagsOff fuel off) := by
  induction fuel generalizing off with
  | zero => exact blind_fail
  | succ fuel ih =>
      exact blind_bind blind_next fun t => blind_ite (blind_pure _) (blind_check (ih _))

end Winnow.Regex
