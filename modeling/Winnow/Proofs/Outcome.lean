import Mathlib.Tactic

/-!
# Steps that may fail

A sequence of steps comes through exactly if each of them does.
-/

namespace Winnow

variable {ε α β : Type}

theorem bind_eq_ok {x : Except ε α} {f : α → Except ε β} {b : β} :
    (x >>= f) = .ok b ↔ ∃ a, x = .ok a ∧ f a = .ok b := by
  cases x with
  | error e =>
      constructor
      · rintro ⟨⟩
      · rintro ⟨a, ⟨⟩, _⟩
  | ok a =>
      constructor
      · intro h
        exact ⟨a, rfl, h⟩
      · rintro ⟨a', ha, h⟩
        cases ha
        exact h

/-- A check comes before what it guards. -/
theorem then_eq_ok {x : Except ε Unit} {y : Except ε β} {b : β} :
    (x >>= fun _ => y) = .ok b ↔ x = .ok () ∧ y = .ok b := by
  rw [bind_eq_ok]
  constructor
  · rintro ⟨⟨⟩, hx, hy⟩
    exact ⟨hx, hy⟩
  · rintro ⟨hx, hy⟩
    exact ⟨(), hx, hy⟩

/-- Checks come through exactly if each of them does. -/
theorem forM_eq_ok_iff {f : α → Except ε Unit} {xs : List α} :
    xs.forM f = .ok () ↔ ∀ x ∈ xs, f x = .ok () := by
  induction xs with
  | nil => exact ⟨fun _ => by simp, fun _ => rfl⟩
  | cons x xs ih =>
      show (f x >>= fun _ => xs.forM f) = .ok () ↔ _
      rw [then_eq_ok, List.forall_mem_cons, ih]

theorem mapError_eq_ok {δ : Type} {f : ε → δ} {x : Except ε α} {a : α} :
    x.mapError f = .ok a ↔ x = .ok a := by
  cases x with
  | error e =>
      constructor <;> rintro ⟨⟩
  | ok a' =>
      constructor <;> intro h <;> cases h <;> rfl

theorem eq_ok_of_toOption {x : Except ε α} {a : α} (h : x.toOption = some a) : x = .ok a := by
  cases x with
  | error e => cases h
  | ok a' => exact congrArg Except.ok (Option.some.inj h)

/-- A result that is known as far as `f` shows it. -/
theorem exists_ok_of_toOption_map {f : α → β} {x : Except ε α} {b : β}
    (h : x.toOption.map f = some b) : ∃ a, x = .ok a ∧ f a = b := by
  cases x with
  | error e => cases h
  | ok a => exact ⟨a, rfl, Option.some.inj h⟩

/-- A list of steps that all come through. -/
theorem mapM_eq_ok_map {f : α → Except ε β} {g : α → β} {xs : List α}
    (h : ∀ x ∈ xs, f x = .ok (g x)) : xs.mapM f = .ok (xs.map g) := by
  induction xs with
  | nil => rfl
  | cons x xs ih =>
      rw [List.mapM_cons, h x List.mem_cons_self, ih fun y hy => h y (List.mem_cons_of_mem _ hy)]
      rfl

theorem mapM_congr {f g : α → Except ε β} {xs : List α} (h : ∀ x ∈ xs, f x = g x) :
    xs.mapM f = xs.mapM g := by
  induction xs with
  | nil => rfl
  | cons x xs ih =>
      rw [List.mapM_cons, List.mapM_cons, h x List.mem_cons_self,
        ih fun y hy => h y (List.mem_cons_of_mem _ hy)]

/-- A list of steps comes through exactly if each step does. -/
theorem exists_mapM_eq_ok_iff {f : α → Except ε β} {xs : List α} :
    (∃ ys, xs.mapM f = .ok ys) ↔ ∀ x ∈ xs, ∃ y, f x = .ok y := by
  induction xs with
  | nil => exact ⟨fun _ => by simp, fun _ => ⟨[], rfl⟩⟩
  | cons x xs ih =>
      rw [List.forall_mem_cons, ← ih]
      constructor
      · rintro ⟨ys, hys⟩
        rw [List.mapM_cons] at hys
        obtain ⟨y, hy, hys⟩ := bind_eq_ok.1 hys
        obtain ⟨ys', hys', -⟩ := bind_eq_ok.1 hys
        exact ⟨⟨y, hy⟩, ys', hys'⟩
      · rintro ⟨⟨y, hy⟩, ys, hys⟩
        refine ⟨y :: ys, ?_⟩
        rw [List.mapM_cons, hy, hys]
        rfl

/-- Whether two steps are taken phase by phase or element by element only matters for errors. -/
theorem mapM_bind_mapM_eq_ok_iff {γ : Type} {f : α → Except ε β} {g : β → Except ε γ} {xs : List α}
    {zs : List γ} :
    (xs.mapM f >>= fun ys => ys.mapM g) = .ok zs ↔ xs.mapM (fun x => f x >>= g) = .ok zs := by
  induction xs generalizing zs with
  | nil => exact Iff.rfl
  | cons x xs ih =>
      simp only [List.mapM_cons, bind_eq_ok] at ih ⊢
      constructor
      · rintro ⟨_, ⟨y, hy, ys, hys, ⟨⟩⟩, hzs⟩
        rw [List.mapM_cons] at hzs
        obtain ⟨z, hz, hzs⟩ := bind_eq_ok.1 hzs
        obtain ⟨zs', hzs', hcons⟩ := bind_eq_ok.1 hzs
        exact ⟨z, ⟨y, hy, hz⟩, zs', ih.1 ⟨ys, hys, hzs'⟩, hcons⟩
      · rintro ⟨z, ⟨y, hy, hz⟩, zs', hzs', hcons⟩
        obtain ⟨ys, hys, hzs'⟩ := ih.2 hzs'
        refine ⟨y :: ys, ⟨y, hy, ys, hys, rfl⟩, ?_⟩
        rw [List.mapM_cons, hz, hzs']
        exact hcons

/-! ## Lists side by side -/

theorem exists_of_forall₂ {R : α → β → Prop} {xs : List α} {ys : List β}
    (h : List.Forall₂ R xs ys) {x : α} (hx : x ∈ xs) : ∃ y ∈ ys, R x y := by
  induction h with
  | nil => cases hx
  | @cons x' y' _ _ hxy _ ih =>
      rcases List.mem_cons.1 hx with rfl | hx
      · exact ⟨y', List.mem_cons_self, hxy⟩
      · obtain ⟨y, hy, hxy⟩ := ih hx
        exact ⟨y, List.mem_cons_of_mem _ hy, hxy⟩

/-! ## What a step comes to -/

/-- A step comes to a value of one kind or to an error of another. -/
def Yields (x : Except ε α) (value : α → Prop) (error : ε → Prop) : Prop :=
  match x with
  | .ok a => value a
  | .error e => error e

namespace Yields

variable {x : Except ε α} {value : α → Prop} {result : β → Prop} {error : ε → Prop}

theorem bind {f : α → Except ε β} (hx : Yields x value error)
    (hf : ∀ a, value a → Yields (f a) result error) : Yields (x >>= f) result error := by
  cases x with
  | error e => exact hx
  | ok a => exact hf a hx

theorem mono {value' : α → Prop} (hx : Yields x value error) (h : ∀ a, value a → value' a) :
    Yields x value' error := by
  cases x with
  | error e => exact hx
  | ok a => exact h a hx

theorem weaken {error' : ε → Prop} (hx : Yields x value error) (h : ∀ e, error e → error' e) :
    Yields x value error' := by
  cases x with
  | error e => exact h e hx
  | ok a => exact hx

theorem mapM {f : α → Except ε β} {xs : List α}
    (h : ∀ x ∈ xs, Yields (f x) result error) :
    Yields (xs.mapM f) (fun ys => ∀ y ∈ ys, result y) error := by
  induction xs with
  | nil => exact fun y hy => absurd hy List.not_mem_nil
  | cons x xs ih =>
      obtain ⟨hx, hxs⟩ := List.forall_mem_cons.1 h
      rw [List.mapM_cons]
      refine hx.bind fun y hy => (ih hxs).bind fun ys hys => ?_
      exact List.forall_mem_cons.2 ⟨hy, hys⟩

theorem ne_error {e : ε} (hx : Yields x value error) (he : ¬ error e) : x ≠ .error e := by
  rintro rfl
  exact he hx

end Yields

end Winnow
