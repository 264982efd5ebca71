import Winnow.Proofs.Regex.Blindness

/-!
# Two readings of one text

Two readers go over the same text, each with a scope of its own. `Joint` says what holds when both
come through: they end before the same text, the first scope has only grown, and the results are
related. The rules follow the way readers are put together.
-/

namespace Winnow.Regex

open Read

/-- A scope after some more has been read. -/
structure Scope.Grows (s s' : Scope) : Prop where
  next : s.next ≤ s'.next
  names : ∀ name i, s.names.get? name = some i → s'.names.get? name = some i
  closed : ∀ i, s.isClosed i = true → s'.isClosed i = true
  awaited : ∀ i ∈ s.awaited, i ∈ s'.awaited

namespace Scope.Grows

theorem refl (s : Scope) : s.Grows s :=
  ⟨Nat.le_refl _, fun _ _ h => h, fun _ h => h, fun _ h => h⟩

theorem trans {s t u : Scope} (h : s.Grows t) (h' : t.Grows u) : s.Grows u :=
  ⟨Nat.le_trans h.next h'.next, fun name i hi => h'.names name i (h.names name i hi),
    fun i hi => h'.closed i (h.closed i hi), fun i hi => h'.awaited i (h.awaited i hi)⟩

end Scope.Grows

/-- How the groups of two readings of one text are numbered. -/
structure Pairing where
  /-- The number of the first group in the first reading. -/
  first : Nat
  second : Nat
  /-- Whether the first reading knows no groups but its own. They are then out of reach of the
  numbers in the text, since a reference by number has at most two digits. -/
  remote : Prop
  far : remote → 100 ≤ first

namespace Pairing

/-- The number that the second reading gives to a group of the first. -/
def other (g : Pairing) (i : Nat) : Nat := i - g.first + g.second

/-- What the first reading refers to, in this scope, it refers to by name. -/
def Tracks (g : Pairing) (s : Scope) : Prop := g.remote ∧ s.awaited = []

theorem other_succ {g : Pairing} {i : Nat} (h : g.first ≤ i) : g.other (i + 1) = g.other i + 1 := by
  rw [other, other]
  omega

theorem eq_of_other_eq {g : Pairing} {i j : Nat} (hi : g.first ≤ i) (hj : g.first ≤ j)
    (h : g.other i = g.other j) : i = j := by
  rw [other, other] at h
  omega

theorem Tracks.of_grows {g : Pairing} {s s' : Scope} (h : g.Tracks s') (hg : s.Grows s') :
    g.Tracks s :=
  ⟨h.1, List.eq_nil_iff_forall_not_mem.2 fun i hi => by
    have := hg.awaited i hi
    rw [h.2] at this
    cases this⟩

end Pairing

/-- What two readings have recorded of the same text. -/
structure Scope.Paired (g : Pairing) (s₁ s₂ : Scope) : Prop where
  first : g.first ≤ s₁.next
  next : s₂.next = g.other s₁.next
  names : g.Tracks s₁ → ∀ name i, s₁.names.get? name = some i →
    s₂.names.get? name = some (g.other i)
  closed : g.Tracks s₁ → ∀ i w, s₁.closed.get? i = some w →
    g.first ≤ i ∧ s₂.closed.get? (g.other i) = some w

/-- Two readers before the same text. No flags were given to the second one for its whole
expression. -/
structure Reader.Abreast (g : Pairing) (r₁ r₂ : Reader) : Prop where
  rest : r₁.rest = r₂.rest
  global : r₂.global = []
  scopes : r₁.scope.Paired g r₂.scope

/-- If two readings succeed, then they end abreast, the first one in a scope that has grown from
`s`, and with results that `R` relates. -/
def Joint {α β : Type} (g : Pairing) (s : Scope) (x₁ : Except Fault (α × Reader))
    (x₂ : Except Fault (β × Reader)) (R : α → Scope → β → Prop) : Prop :=
  ∀ a r₁ b r₂, x₁ = .ok (a, r₁) → x₂ = .ok (b, r₂) →
    r₁.Abreast g r₂ ∧ s.Grows r₁.scope ∧ R a r₁.scope b

section Rules

variable {α β γ δ : Type} {g : Pairing} {s : Scope} {r₁ r₂ : Reader}

theorem Joint.grow {s' : Scope} {x₁ : Except Fault (α × Reader)} {x₂ : Except Fault (β × Reader)}
    {R : α → Scope → β → Prop} (hs : s.Grows s') (h : Joint g s' x₁ x₂ R) : Joint g s x₁ x₂ R := by
  intro a r₁ b r₂ h₁ h₂
  obtain ⟨hr, hg, hR⟩ := h a r₁ b r₂ h₁ h₂
  exact ⟨hr, hs.trans hg, hR⟩

theorem Joint.imp {x₁ : Except Fault (α × Reader)} {x₂ : Except Fault (β × Reader)}
    {R Q : α → Scope → β → Prop} (h : Joint g s x₁ x₂ R)
    (hRQ : ∀ a s' b, s.Grows s' → R a s' b → Q a s' b) : Joint g s x₁ x₂ Q := by
  intro a r₁ b r₂ h₁ h₂
  obtain ⟨hr, hg, hR⟩ := h a r₁ b r₂ h₁ h₂
  exact ⟨hr, hg, hRQ a _ b hg hR⟩

theorem joint_pure {R : α → Scope → β → Prop} {a : α} {b : β} (hr : r₁.Abreast g r₂)
    (hs : s.Grows r₁.scope) (hR : R a r₁.scope b) :
    Joint g s ((pure a : Read α).run r₁) ((pure b : Read β).run r₂) R := by
  rintro a r₁ b r₂ ⟨⟩ ⟨⟩
  exact ⟨hr, hs, hR⟩

theorem joint_fail_left {x : Except Fault (β × Reader)} {R : α → Scope → β → Prop} :
    Joint g s ((fail : Read α).run r₁) x R := by
  rintro a r₁ b r₂ ⟨⟩

theorem joint_bind {m₁ : Read α} {m₂ : Read β} {k₁ : α → Read γ} {k₂ : β → Read δ}
    {R : α → Scope → β → Prop} {Q : γ → Scope → δ → Prop}
    (hm : Joint g s (m₁.run r₁) (m₂.run r₂) R)
    (hk : ∀ a r₁' b r₂', r₁'.Abreast g r₂' → s.Grows r₁'.scope → R a r₁'.scope b →
      Joint g s ((k₁ a).run r₁') ((k₂ b).run r₂') Q) :
    Joint g s ((m₁ >>= k₁).run r₁) ((m₂ >>= k₂).run r₂) Q := by
  intro c r₁' d r₂' h₁ h₂
  rw [StateT.run_bind] at h₁ h₂
  cases hx₁ : m₁.run r₁ with
  | error e =>
      rw [hx₁] at h₁
      cases h₁
  | ok x =>
      cases hx₂ : m₂.run r₂ with
      | error e =>
          rw [hx₂] at h₂
          cases h₂
      | ok y =>
          rw [hx₁] at h₁
          rw [hx₂] at h₂
          obtain ⟨hr, hg, hR⟩ := hm x.1 x.2 y.1 y.2 hx₁ hx₂
          exact hk x.1 x.2 y.1 y.2 hr hg hR c r₁' d r₂' h₁ h₂

/-- A blind reader does the same in both readings. -/
theorem joint_of_blind {m : Read α} (hm : Blind m) (hr : r₁.Abreast g r₂) :
    Joint g r₁.scope (m.run r₁) (m.run r₂) fun a s b => s = r₁.scope ∧ a = b := by
  intro a r₁' b r₂' h₁ h₂
  have hat : r₁ = r₂.at r₁.scope r₁.global := by rw [Reader.at, ← hr.rest]
  have hself := hm r₂ r₂.scope r₂.global
  rw [show r₂.at r₂.scope r₂.global = r₂ from rfl, h₂] at hself
  rw [hat, hm, h₂] at h₁
  cases h₁
  have hglobal : r₂'.global = r₂.global :=
    congrArg (fun x : α × Reader => x.2.global) (Except.ok.inj hself)
  have hscope : r₂'.scope = r₂.scope :=
    congrArg (fun x : α × Reader => x.2.scope) (Except.ok.inj hself)
  exact ⟨⟨rfl, hglobal.trans hr.global, hscope ▸ hr.scopes⟩, .refl _, rfl, rfl⟩

theorem joint_bind_blind {m : Read α} {k₁ : α → Read γ} {k₂ : α → Read δ}
    {Q : γ → Scope → δ → Prop} (hm : Blind m) (hr : r₁.Abreast g r₂) (hs : r₁.scope = s)
    (hk : ∀ a r₁' r₂', r₁'.Abreast g r₂' → r₁'.scope = s →
      Joint g s ((k₁ a).run r₁') ((k₂ a).run r₂') Q) :
    Joint g s ((m >>= k₁).run r₁) ((m >>= k₂).run r₂) Q := by
  subst hs
  refine joint_bind (joint_of_blind hm hr) ?_
  rintro a r₁' b r₂' hr' - ⟨hs, rfl⟩
  exact hk a r₁' r₂' hr' hs

/-- The end of a reading that has left the scope as it was. -/
theorem joint_return {R : α → Scope → β → Prop} {a : α} {b : β} (hr : r₁.Abreast g r₂)
    (hs : r₁.scope = s) (hR : R a s b) :
    Joint g s ((pure a : Read α).run r₁) ((pure b : Read β).run r₂) R := by
  subst hs
  exact joint_pure hr (.refl _) hR

theorem joint_throw_left {fault : Fault} {k : PUnit → Read α} {x : Except Fault (β × Reader)}
    {R : α → Scope → β → Prop} :
    Joint g s ((((throw fault : Read PUnit)) >>= k).run r₁) x R := by
  rintro a r₁ b r₂ ⟨⟩

theorem joint_ite {c : Prop} [Decidable c] {m₁ n₁ : Read α} {m₂ n₂ : Read β}
    {R : α → Scope → β → Prop} (hm : c → Joint g s (m₁.run r₁) (m₂.run r₂) R)
    (hn : ¬ c → Joint g s (n₁.run r₁) (n₂.run r₂) R) :
    Joint g s ((if c then m₁ else n₁).run r₁) ((if c then m₂ else n₂).run r₂) R := by
  by_cases h : c
  · rw [if_pos h, if_pos h]
    exact hm h
  · rw [if_neg h, if_neg h]
    exact hn h

/-- Checks that may fail in one of the readings only. -/
theorem joint_checks {c₁ c₂ : Prop} [Decidable c₁] [Decidable c₂] {fault : Fault} {n₁ : Read α}
    {n₂ : Read β} {R : α → Scope → β → Prop} (hn : ¬ c₁ → Joint g s (n₁.run r₁) (n₂.run r₂) R) :
    Joint g s ((if c₁ then (throw fault : Read PUnit) >>= fun _ => n₁ else n₁).run r₁)
      ((if c₂ then (throw fault : Read PUnit) >>= fun _ => n₂ else n₂).run r₂) R := by
  by_cases h₁ : c₁
  · rw [if_pos h₁]
    exact joint_throw_left
  · by_cases h₂ : c₂
    · rw [if_pos h₂]
      rintro a r b r' - ⟨⟩
    · rw [if_neg h₁, if_neg h₂]
      exact hn h₁

theorem joint_check {c : Prop} [Decidable c] {fault : Fault} {n₁ : Read α} {n₂ : Read β}
    {R : α → Scope → β → Prop} (hn : Joint g s (n₁.run r₁) (n₂.run r₂) R) :
    Joint g s ((if c then (throw fault : Read PUnit) >>= fun _ => n₁ else n₁).run r₁)
      ((if c then (throw fault : Read PUnit) >>= fun _ => n₂ else n₂).run r₂) R :=
  joint_checks fun _ => hn

theorem joint_modifyScope {f₁ f₂ : Scope → Scope} (hr : r₁.Abreast g r₂)
    (hf : r₁.scope.Grows (f₁ r₁.scope)) (hpaired : (f₁ r₁.scope).Paired g (f₂ r₂.scope)) :
    Joint g r₁.scope ((modifyScope f₁).run r₁) ((modifyScope f₂).run r₂)
      fun _ s _ => s = f₁ r₁.scope := by
  rintro u r₁' u' r₂' ⟨⟩ ⟨⟩
  exact ⟨⟨hr.rest, hr.global, hpaired⟩, hf, rfl⟩

theorem joint_get {k₁ : Reader → Read α} {k₂ : Reader → Read β} {Q : α → Scope → β → Prop}
    (h : Joint g s ((k₁ r₁).run r₁) ((k₂ r₂).run r₂) Q) :
    Joint g s ((get >>= k₁).run r₁) ((get >>= k₂).run r₂) Q := h

end Rules

end Winnow.Regex
