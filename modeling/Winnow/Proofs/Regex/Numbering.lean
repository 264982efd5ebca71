import Winnow.Proofs.Outcome
import Winnow.Proofs.Regex.Abreast
import Winnow.Proofs.Regex.Locality

/-!
# Reading in place and reading alone

A constraint is read twice: alone, when its pattern is cut into tokens, and in place, when the
pattern becomes one expression. In place its groups are numbered behind those that were read before.
Both readings go abreast over the same text, and the two expressions differ in nothing but numbers
(`readInto_alike`); the groups read in place get the numbers from the first free one on.

References go along with the groups if they are made by name. What is referred to by number is one
group in place and another one alone; so a text that speaks of its groups by name only can even be
read behind so many other groups that no number in it is in reach (`NamesGroups`). All readings of
such a text differ by a shift of its groups and references together (`renumber_of_namesGroups`).

The readers call each other with less and less fuel, so what holds of them is shown for all three at
once, by induction on the fuel (`readersAlike`).
-/

namespace Winnow.Regex

open Read

/-! ## Expressions that differ in numbers -/

/-- The expression with other numbers for its groups. -/
def Node.renumber (f : Nat → Nat) : Node → Node
  | .seq a b => .seq (a.renumber f) (b.renumber f)
  | .alt a b => .alt (a.renumber f) (b.renumber f)
  | .group i a => .group (f i) (a.renumber f)
  | .reference m i => .reference m (f i)
  | .condition i a b => .condition (f i) (a.renumber f) (b.renumber f)
  | .ahead negated a => .ahead negated (a.renumber f)
  | .behind negated w a => .behind negated w (a.renumber f)
  | .atomic a => .atomic (a.renumber f)
  | .loop greed least most a => .loop greed least most (a.renumber f)
  | n => n

theorem renumber_renumber (f f' : Nat → Nat) (n : Node) :
    (n.renumber f).renumber f' = n.renumber (f' ∘ f) := by
  induction n with
  | seq a b iha ihb => simp only [Node.renumber, iha, ihb]
  | alt a b iha ihb => simp only [Node.renumber, iha, ihb]
  | condition i a b iha ihb => simp only [Node.renumber, iha, ihb, Function.comp_apply]
  | group i a ih => simp only [Node.renumber, ih, Function.comp_apply]
  | ahead negated a ih => simp only [Node.renumber, ih]
  | behind negated w a ih => simp only [Node.renumber, ih]
  | atomic a ih => simp only [Node.renumber, ih]
  | loop greed least most a ih => simp only [Node.renumber, ih]
  | _ => rfl

theorem renumber_id (n : Node) : n.renumber id = n := by
  induction n with
  | seq a b iha ihb => simp only [Node.renumber, iha, ihb]
  | alt a b iha ihb => simp only [Node.renumber, iha, ihb]
  | condition i a b iha ihb => simp only [Node.renumber, iha, ihb, id_eq]
  | group i a ih => simp only [Node.renumber, ih, id_eq]
  | ahead negated a ih => simp only [Node.renumber, ih]
  | behind negated w a ih => simp only [Node.renumber, ih]
  | atomic a ih => simp only [Node.renumber, ih]
  | loop greed least most a ih => simp only [Node.renumber, ih]
  | _ => rfl

theorem renumber_add_zero (n : Node) : n.renumber (· + 0) = n := renumber_id n

/-- The numbers of the groups that an expression refers to. -/
def Node.references : Node → List Nat
  | .seq a b => a.references ++ b.references
  | .alt a b => a.references ++ b.references
  | .group _ a => a.references
  | .reference _ i => [i]
  | .condition _ a b => a.references ++ b.references
  | .ahead _ a => a.references
  | .behind _ _ a => a.references
  | .atomic a => a.references
  | .loop _ _ _ a => a.references
  | _ => []

/-- The width depends on the widths of the groups that are referred to, whatever their numbers. -/
theorem width_renumber {f : Nat → Nat} {groups groups' : Nat → Width} {n : Node}
    (h : ∀ i ∈ n.references, groups' (f i) = groups i) :
    (n.renumber f).width groups' = n.width groups := by
  induction n with
  | seq a b iha ihb =>
      simp only [Node.references, List.mem_append] at h
      rw [Node.renumber, Node.width, Node.width, iha fun i hi => h i (.inl hi),
        ihb fun i hi => h i (.inr hi)]
  | alt a b iha ihb =>
      simp only [Node.references, List.mem_append] at h
      rw [Node.renumber, Node.width, Node.width, iha fun i hi => h i (.inl hi),
        ihb fun i hi => h i (.inr hi)]
  | condition i a b iha ihb =>
      simp only [Node.references, List.mem_append] at h
      rw [Node.renumber, Node.width, Node.width, iha fun i hi => h i (.inl hi),
        ihb fun i hi => h i (.inr hi)]
  | reference m i => exact h i List.mem_cons_self
  | group i a ih => exact ih h
  | atomic a ih => exact ih h
  | loop greed least most a ih => rw [Node.renumber, Node.width, Node.width, ih h]
  | _ => rfl

/-- The expressions differ in numbers only. The groups of the first one are numbered from `lo` on
and known in the scope, and while only names are used, its numbers determine those of the second. -/
structure Node.Alike (g : Pairing) (lo : Nat) (s : Scope) (n₁ n₂ : Node) : Prop where
  shape : n₁.unnumbered = n₂.unnumbered
  numbers : ∀ j ∈ n₁.groupNumbers, lo ≤ j ∧ j < s.next
  known : ∀ j ∈ n₁.references, s.isClosed j = true
  moved : g.Tracks s → n₂ = n₁.renumber g.other

/-- Elements of sequences with expressions that differ in numbers. -/
structure Item.Alike (g : Pairing) (lo : Nat) (s : Scope) (i₁ i₂ : Item) : Prop where
  node : i₁.node.Alike g lo s i₂.node
  operand : i₁.operand = i₂.operand

section Alike

variable {g : Pairing} {lo lo' : Nat} {s s' : Scope}

theorem Node.Alike.widen {n₁ n₂ : Node} (h : n₁.Alike g lo s n₂) (hlo : lo' ≤ lo)
    (hg : s.Grows s') : n₁.Alike g lo' s' n₂ := by
  refine ⟨h.shape, fun j hj => ?_, fun j hj => hg.closed j (h.known j hj),
    fun ht => h.moved (ht.of_grows hg)⟩
  have hj := h.numbers j hj
  have hnext := hg.next
  omega

/-- An expression that speaks of no groups is the same in all readings. -/
theorem Node.Alike.rfl_of {n : Node} (hnumbers : n.groupNumbers = [])
    (hreferences : n.references = []) (hsame : n.renumber g.other = n) : n.Alike g lo s n :=
  ⟨rfl, by simp [hnumbers], by simp [hreferences], fun _ => hsame.symm⟩

theorem Node.Alike.seq {a₁ a₂ b₁ b₂ : Node} (ha : a₁.Alike g lo s a₂) (hb : b₁.Alike g lo s b₂) :
    (Node.seq a₁ b₁).Alike g lo s (.seq a₂ b₂) := by
  refine ⟨?_, fun j hj => ?_, fun j hj => ?_, fun ht => ?_⟩
  · rw [Node.unnumbered, Node.unnumbered, ha.shape, hb.shape]
  · exact (List.mem_append.1 hj).elim (ha.numbers j) (hb.numbers j)
  · exact (List.mem_append.1 hj).elim (ha.known j) (hb.known j)
  · rw [Node.renumber, ha.moved ht, hb.moved ht]

theorem Node.Alike.alt {a₁ a₂ b₁ b₂ : Node} (ha : a₁.Alike g lo s a₂) (hb : b₁.Alike g lo s b₂) :
    (Node.alt a₁ b₁).Alike g lo s (.alt a₂ b₂) := by
  refine ⟨?_, fun j hj => ?_, fun j hj => ?_, fun ht => ?_⟩
  · rw [Node.unnumbered, Node.unnumbered, ha.shape, hb.shape]
  · exact (List.mem_append.1 hj).elim (ha.numbers j) (hb.numbers j)
  · exact (List.mem_append.1 hj).elim (ha.known j) (hb.known j)
  · rw [Node.renumber, ha.moved ht, hb.moved ht]

theorem Node.Alike.condition {a₁ a₂ b₁ b₂ : Node} {i₁ i₂ : Nat}
    (hi : g.Tracks s → i₂ = g.other i₁) (ha : a₁.Alike g lo s a₂) (hb : b₁.Alike g lo s b₂) :
    (Node.condition i₁ a₁ b₁).Alike g lo s (.condition i₂ a₂ b₂) := by
  refine ⟨?_, fun j hj => ?_, fun j hj => ?_, fun ht => ?_⟩
  · rw [Node.unnumbered, Node.unnumbered, ha.shape, hb.shape]
  · exact (List.mem_append.1 hj).elim (ha.numbers j) (hb.numbers j)
  · exact (List.mem_append.1 hj).elim (ha.known j) (hb.known j)
  · rw [Node.renumber, hi ht, ha.moved ht, hb.moved ht]

theorem Node.Alike.group {a₁ a₂ : Node} {i₁ i₂ : Nat} (hi₁ : lo ≤ i₁ ∧ i₁ < s.next)
    (hi₂ : i₂ = g.other i₁) (ha : a₁.Alike g lo s a₂) :
    (Node.group i₁ a₁).Alike g lo s (.group i₂ a₂) := by
  refine ⟨?_, fun j hj => ?_, ha.known, fun ht => ?_⟩
  · rw [Node.unnumbered, Node.unnumbered, ha.shape]
  · rcases List.mem_cons.1 hj with rfl | hj
    · exact hi₁
    · exact ha.numbers j hj
  · rw [Node.renumber, hi₂, ha.moved ht]

theorem Node.Alike.reference (m : Mode) {i₁ i₂ : Nat} (hi₁ : s.isClosed i₁ = true)
    (hi₂ : g.Tracks s → i₂ = g.other i₁) :
    (Node.reference m i₁).Alike g lo s (.reference m i₂) :=
  ⟨rfl, by rintro j ⟨⟩, fun j hj => List.mem_singleton.1 hj ▸ hi₁,
    fun ht => by rw [Node.renumber, hi₂ ht]⟩

theorem Node.Alike.atomic {a₁ a₂ : Node} (ha : a₁.Alike g lo s a₂) :
    (Node.atomic a₁).Alike g lo s (.atomic a₂) :=
  ⟨by rw [Node.unnumbered, Node.unnumbered, ha.shape], ha.numbers, ha.known,
    fun ht => by rw [Node.renumber, ha.moved ht]⟩

theorem Node.Alike.ahead {a₁ a₂ : Node} (negated : Bool) (ha : a₁.Alike g lo s a₂) :
    (Node.ahead negated a₁).Alike g lo s (.ahead negated a₂) :=
  ⟨by rw [Node.unnumbered, Node.unnumbered, ha.shape], ha.numbers, ha.known,
    fun ht => by rw [Node.renumber, ha.moved ht]⟩

theorem Node.Alike.behind {a₁ a₂ : Node} (negated : Bool) {w₁ w₂ : Nat}
    (hw : g.Tracks s → w₂ = w₁) (ha : a₁.Alike g lo s a₂) :
    (Node.behind negated w₁ a₁).Alike g lo s (.behind negated w₂ a₂) :=
  ⟨by rw [Node.unnumbered, Node.unnumbered, ha.shape], ha.numbers, ha.known,
    fun ht => by rw [Node.renumber, hw ht, ha.moved ht]⟩

theorem Node.Alike.loop {a₁ a₂ : Node} (greed : Greed) (least : Nat) (most : Option Nat)
    (ha : a₁.Alike g lo s a₂) :
    (Node.loop greed least most a₁).Alike g lo s (.loop greed least most a₂) :=
  ⟨by rw [Node.unnumbered, Node.unnumbered, ha.shape], ha.numbers, ha.known,
    fun ht => by rw [Node.renumber, ha.moved ht]⟩

theorem Node.Alike.join {ns ms : List Node} (h : List.Forall₂ (Node.Alike g lo s) ns ms) :
    (Node.join ns).Alike g lo s (Node.join ms) := by
  induction h with
  | nil => exact .rfl_of rfl rfl rfl
  | cons h hs ih =>
      cases hs with
      | nil => exact h
      | cons h' hs => exact h.seq ih

/-- Both readings see the same width. -/
theorem Node.Alike.width_eq {s₂ : Scope} {n₁ n₂ : Node} (h : n₁.Alike g lo s n₂)
    (hpaired : s.Paired g s₂) (ht : g.Tracks s) : s₂.width n₂ = s.width n₁ := by
  rw [Scope.width, Scope.width, h.moved ht]
  refine width_renumber fun i hi => ?_
  obtain ⟨w, hw⟩ := Option.isSome_iff_exists.1 (h.known i hi)
  rw [hw, (hpaired.closed ht i w hw).2]

theorem Item.Alike.widen {i₁ i₂ : Item} (h : i₁.Alike g lo s i₂) (hlo : lo' ≤ lo)
    (hg : s.Grows s') : i₁.Alike g lo' s' i₂ :=
  ⟨h.node.widen hlo hg, h.operand⟩

theorem Node.Alike.item {n₁ n₂ : Node} (h : n₁.Alike g lo s n₂) :
    (Item.plain n₁).Alike g lo s (.plain n₂) :=
  ⟨h, rfl⟩

theorem alike_literal (f : Flags) (n : Nat) : (f.literal n).Alike g lo s (f.literal n) := by
  rw [Flags.literal]
  split
  · exact .rfl_of rfl rfl rfl
  · split <;> exact .rfl_of rfl rfl rfl

theorem alike_atomNode (f : Flags) (a : Atom) : (a.node f).Alike g lo s (a.node f) := by
  cases a with
  | code n => exact alike_literal f n
  | named k negated => exact .rfl_of rfl rfl rfl

end Alike

/-! ## Readers that look at the scope -/

section Readers

variable {g : Pairing}

theorem checkLookbehind_eq_ok {i : Nat} {r r' : Reader} {u : Unit}
    (h : (checkLookbehind i).run r = .ok (u, r')) : r' = r := by
  unfold checkLookbehind at h
  simp only [StateT.run_bind, StateT.run_get, pure_bind] at h
  split at h
  · cases h
    rfl
  · split at h
    · cases h
    · cases h
      rfl

theorem joint_checkLookbehind {r₁ r₂ : Reader} {i j : Nat} (hr : r₁.Abreast g r₂) :
    Joint g r₁.scope ((checkLookbehind i).run r₁) ((checkLookbehind j).run r₂)
      fun _ s _ => s = r₁.scope := by
  intro a r₁' b r₂' h₁ h₂
  cases checkLookbehind_eq_ok h₁
  cases checkLookbehind_eq_ok h₂
  exact ⟨hr, .refl _, rfl⟩

theorem joint_readReference {γ δ : Type} {r₁ r₂ : Reader} {s : Scope} (lo : Nat) (f : Flags)
    {i j : Nat} {k₁ : Node → Read γ} {k₂ : Node → Read δ} {Q : γ → Scope → δ → Prop}
    (hr : r₁.Abreast g r₂) (hs : r₁.scope = s)
    (hij : g.Tracks s → s.isClosed i = true → j = g.other i)
    (hk : ∀ n r₁' m r₂', r₁'.Abreast g r₂' → r₁'.scope = s → n.Alike g lo s m →
      Joint g s ((k₁ n).run r₁') ((k₂ m).run r₂') Q) :
    Joint g s ((readReference f i >>= k₁).run r₁) ((readReference f j >>= k₂).run r₂) Q := by
  have hrun : ∀ (r : Reader) (i : Nat), (readReference f i).run r =
      (if i ≥ r.scope.next || !r.scope.isClosed i then
        (fail : Read PUnit) >>= fun _ => checkLookbehind i >>= fun _ => pure (.reference f.mode i)
      else checkLookbehind i >>= fun _ => pure (.reference f.mode i)).run r := fun r i => rfl
  have hnode : Joint g s ((readReference f i).run r₁) ((readReference f j).run r₂)
      fun n t m => t = s ∧ n.Alike g lo s m := by
    intro n r₁' m r₂' h₁ h₂
    rw [hrun] at h₁ h₂
    subst hs
    split at h₁
    · cases h₁
    next hknown =>
      split at h₂
      · cases h₂
      next =>
        have hclosed : r₁.scope.isClosed i = true := by simp_all
        refine joint_bind (Q := fun n t m => t = r₁.scope ∧ n.Alike g lo r₁.scope m)
          (joint_checkLookbehind hr) ?_ n r₁' m r₂' h₁ h₂
        intro _ r₁' _ r₂' hr' _ ht
        refine joint_return hr' ht ⟨rfl, .reference f.mode hclosed fun ht => hij ht hclosed⟩
  refine joint_bind hnode ?_
  rintro n r₁' m r₂' hr' - ⟨ht, hnm⟩
  exact hk n r₁' m r₂' hr' ht hnm

/-! ### Numbers in the text -/

theorem all_of_takeWhile {ok : Char → Bool} {n : Nat} {r r' : Reader} {ds : List Char}
    (h : (takeWhile ok n).run r = .ok (ds, r')) : ∀ c ∈ ds, ok c = true := by
  induction n generalizing r r' ds with
  | zero =>
      cases h
      simp
  | succ n ih =>
      rw [takeWhile, StateT.run_bind] at h
      obtain ⟨⟨t, r₀⟩, -, h⟩ := bind_eq_ok.1 h
      dsimp only at h
      split at h
      next c =>
        split at h
        next hc =>
          rw [StateT.run_bind] at h
          obtain ⟨⟨u, r₀'⟩, -, h⟩ := bind_eq_ok.1 h
          rw [StateT.run_bind] at h
          obtain ⟨⟨cs, r₀''⟩, hcs, h⟩ := bind_eq_ok.1 h
          cases h
          intro d hd
          rcases List.mem_cons.1 hd with rfl | hd
          · exact hc
          · exact ih hcs d hd
        next =>
          cases h
          simp
      next =>
          cases h
          simp

theorem hexValue_lt {c : Char} (h : c.isDigit = true) : hexValue c < 10 := by
  rw [hexValue, if_pos h]
  simp only [Char.isDigit, Bool.and_eq_true, decide_eq_true_eq] at h
  have h9 : c.val.toNat ≤ 57 := UInt32.le_iff_toNat_le.1 h.2
  have : c.toNat = c.val.toNat := rfl
  omega


theorem digitsValue_lt {c d : Char} (hc : c.isDigit = true) (hd : d.isDigit = true) :
    digitsValue 10 [c, d] < 100 := by
  have hc := hexValue_lt hc
  have hd := hexValue_lt hd
  simp only [digitsValue, List.foldl_cons, List.foldl_nil]
  omega

theorem digitsValue_singleton_lt {c : Char} (hc : c.isDigit = true) : digitsValue 10 [c] < 100 := by
  have hc := hexValue_lt hc
  simp only [digitsValue, List.foldl_cons, List.foldl_nil]
  omega

theorem joint_bind_takeWhile {γ δ : Type} {r₁ r₂ : Reader} {s : Scope} (ok : Char → Bool) (n : Nat)
    {k₁ : List Char → Read γ} {k₂ : List Char → Read δ} {Q : γ → Scope → δ → Prop}
    (hr : r₁.Abreast g r₂) (hs : r₁.scope = s)
    (hk : ∀ ds r₁' r₂', (∀ c ∈ ds, ok c = true) → r₁'.Abreast g r₂' → r₁'.scope = s →
      Joint g s ((k₁ ds).run r₁') ((k₂ ds).run r₂') Q) :
    Joint g s ((takeWhile ok n >>= k₁).run r₁) ((takeWhile ok n >>= k₂).run r₂) Q := by
  subst hs
  have htake : Joint g r₁.scope ((takeWhile ok n).run r₁) ((takeWhile ok n).run r₂)
      fun ds s ds' => s = r₁.scope ∧ ds = ds' ∧ ∀ c ∈ ds, ok c = true := by
    intro ds r₁' ds' r₂' h₁ h₂
    obtain ⟨hr', hg, hs, hds⟩ := joint_of_blind (blind_takeWhile ok n) hr ds r₁' ds' r₂' h₁ h₂
    exact ⟨hr', hg, hs, hds, all_of_takeWhile h₁⟩
  refine joint_bind htake ?_
  rintro ds r₁' _ r₂' hr' - ⟨hs, rfl, hds⟩
  exact hk ds r₁' r₂' hds hr' hs

/-- No group has a number that can be written as a reference, if all that is known is far away. -/
theorem Scope.Paired.other_eq {s₁ s₂ : Scope} {i : Nat} (h : s₁.Paired g s₂) (hi : i < 100)
    (ht : g.Tracks s₁) (hclosed : s₁.isClosed i = true) : i = g.other i := by
  obtain ⟨w, hw⟩ := Option.isSome_iff_exists.1 hclosed
  have hfirst := (h.closed ht i w hw).1
  have hfar := g.far ht.1
  omega

/-- Escapes leave the scope as it is. -/
theorem joint_readEscape {r₁ r₂ : Reader} {s : Scope} (lo : Nat) (f : Flags) (c : Char)
    (hr : r₁.Abreast g r₂) (hs : r₁.scope = s) :
    Joint g s ((readEscape f c).run r₁) ((readEscape f c).run r₂)
      fun i t j => t = s ∧ i.Alike g lo s j := by
  have hatom : ∀ (m : Read Atom), Blind m → ∀ r₁ r₂, r₁.Abreast g r₂ → r₁.scope = s →
      Joint g s ((m >>= fun a => pure (Item.plain (a.node f))).run r₁)
        ((m >>= fun a => pure (Item.plain (a.node f))).run r₂)
        fun i t j => t = s ∧ i.Alike g lo s j := fun m hm r₁ r₂ hr hs =>
    joint_bind_blind hm hr hs fun a r₁' r₂' hr' hs' =>
      joint_return hr' hs' ⟨rfl, (alike_atomNode f a).item⟩
  have hreference : ∀ i r₁ r₂, i < 100 → r₁.Abreast g r₂ → r₁.scope = s →
      Joint g s ((readReference f i >>= fun n => pure (Item.plain n)).run r₁)
        ((readReference f i >>= fun n => pure (Item.plain n)).run r₂)
        fun i t j => t = s ∧ i.Alike g lo s j := by
    intro i r₁ r₂ hi hr hs
    refine joint_readReference lo f hr hs (hs ▸ hr.scopes.other_eq hi) ?_
    exact fun n r₁' m r₂' hr' hs' hnm => joint_return hr' hs' ⟨rfl, hnm.item⟩
  rw [readEscape.eq_def]
  split
  iterate 4 exact joint_return hr hs ⟨rfl, .rfl_of rfl rfl rfl, rfl⟩
  split
  · exact joint_return hr hs ⟨rfl, (alike_atomNode f _).item⟩
  · exact joint_return hr hs ⟨rfl, (alike_literal f _).item⟩
  · refine joint_ite (fun _ => ?_) fun _ => joint_ite (fun hc => ?_) fun _ => ?_
    · refine joint_bind_blind (blind_takeWhile isOctal 2) hr hs fun ds r₁ r₂ hr hs => ?_
      exact hatom _ (blind_octalEscape _) _ _ hr hs
    · refine joint_bind_takeWhile Char.isDigit 1 hr hs fun ds r₁ r₂ hds hr hs => ?_
      have hone := digitsValue_singleton_lt hc
      split
      next d =>
          have htwo := digitsValue_lt hc (hds d List.mem_cons_self)
          refine joint_ite (fun _ => ?_) fun _ => ?_
          · refine joint_bind_blind (blind_takeWhile isOctal 1) hr hs fun third r₁ r₂ hr hs => ?_
            exact joint_ite (fun _ => hreference _ _ _ htwo hr hs)
              fun _ => hatom _ (blind_octalEscape _) _ _ hr hs
          · exact hreference _ _ _ htwo hr hs
      next => exact hreference _ _ _ hone hr hs
    · exact hatom _ (blind_plainEscape c) _ _ hr hs

/-- Openings of groups that the readings may meet in the same place. -/
inductive Opening.Alike (g : Pairing) (lo : Nat) (s : Scope) : Opening → Opening → Prop
  | group (name : Option String) : Alike g lo s (.group name) (.group name)
  | plain (on off : List Char) : Alike g lo s (.plain on off) (.plain on off)
  | atomic : Alike g lo s .atomic .atomic
  | look (back negated : Bool) : Alike g lo s (.look back negated) (.look back negated)
  | condition {i j : Nat} (hij : g.Tracks s → j = g.other i) :
    Alike g lo s (.condition i) (.condition j)
  | skipped : Alike g lo s (.done none) (.done none)
  | item {i j : Item} (h : i.Alike g lo s j) : Alike g lo s (.done (some i)) (.done (some j))
  | globalFlags (on : List Char) : Alike g lo s (.globalFlags on) (.globalFlags on)

/-- Names may stand for different groups, but no reading goes on without one. -/
theorem joint_known {α β : Type} {r₁ r₂ : Reader} {s : Scope} {x y : Option Nat}
    (k₁ : Nat → Read α) (k₂ : Nat → Read β) {Q : α → Scope → β → Prop}
    (hk : ∀ i j, x = some i → y = some j → Joint g s ((k₁ i).run r₁) ((k₂ j).run r₂) Q) :
    Joint g s ((match x with | none => (fail : Read α) | some i => k₁ i).run r₁)
      ((match y with | none => (fail : Read β) | some i => k₂ i).run r₂) Q := by
  cases x with
  | none => exact joint_fail_left
  | some i =>
      cases y with
      | none => rintro a r b r' h₁ ⟨⟩
      | some j => exact hk i j rfl rfl

/-- A name that both readings know stands for the same group in both. -/
theorem Scope.Paired.other_of_name {s₁ s₂ : Scope} {name : String} {i j : Nat}
    (h : s₁.Paired g s₂) (hi : s₁.names.get? name = some i) (hj : s₂.names.get? name = some j)
    (ht : g.Tracks s₁) : j = g.other i := by
  rw [h.names ht name i hi] at hj
  exact (Option.some.inj hj).symm

theorem joint_readConditionIndex {r₁ r₂ : Reader} {s : Scope} (hr : r₁.Abreast g r₂)
    (hs : r₁.scope = s) :
    Joint g s (readConditionIndex.run r₁) (readConditionIndex.run r₂)
      fun i s j => g.Tracks s → j = g.other i := by
  refine joint_bind_blind (blind_takeUntil ')') hr hs fun name r₁ r₂ hr hs => ?_
  refine joint_ite (fun _ => ?_) fun _ => ?_
  · refine joint_known pure pure fun i j hi hj => joint_return hr hs ?_
    exact hs ▸ hr.scopes.other_of_name hi hj
  · split
    · exact joint_fail_left
    refine joint_check ?_
    subst hs
    -- A group that is awaited by its number ends all tracking.
    have hlost : ∀ i, ¬ g.Tracks { r₁.scope with awaited := i :: r₁.scope.awaited } :=
      fun i ht => List.cons_ne_nil _ _ ht.2
    refine joint_bind (joint_modifyScope hr
      ⟨Nat.le_refl _, fun _ _ h => h, fun _ h => h, fun _ h => List.mem_cons_of_mem _ h⟩
      ⟨hr.scopes.first, hr.scopes.next, fun ht => absurd ht (hlost _),
        fun ht => absurd ht (hlost _)⟩) ?_
    rintro _ r₁' _ r₂' hr' hg hs
    exact joint_pure hr' hg fun ht => absurd (hs ▸ ht) (hlost _)

theorem joint_readOpening {r₁ r₂ : Reader} {s : Scope} (lo : Nat) (f : Flags)
    (hr : r₁.Abreast g r₂) (hs : r₁.scope = s) :
    Joint g s ((readOpening f).run r₁) ((readOpening f).run r₂)
      fun o s o' => o.Alike g lo s o' := by
  refine joint_bind_blind (blind_accept '?') hr hs fun marked r₁ r₂ hr hs => ?_
  refine joint_ite (fun _ => joint_return hr hs (.group none)) fun _ => ?_
  refine joint_bind_blind blind_next hr hs fun t r₁ r₂ hr hs => joint_check ?_
  split
  · -- a name
    refine joint_bind_blind (blind_accept '<') hr hs fun _ r₁ r₂ hr hs =>
      joint_ite (fun _ => ?_) fun _ => ?_
    · refine joint_bind_blind (blind_takeUntil '>') hr hs fun name r₁ r₂ hr hs => joint_check ?_
      exact joint_return hr hs (.group _)
    · refine joint_bind_blind (blind_accept '=') hr hs fun _ r₁ r₂ hr hs =>
        joint_ite (fun _ => ?_) fun _ => joint_fail_left
      refine joint_bind_blind (blind_takeUntil ')') hr hs fun name r₁ r₂ hr hs => joint_check ?_
      refine joint_known _ _ fun i j hi hj => ?_
      have hij : g.Tracks s → j = g.other i := hs ▸ hr.scopes.other_of_name hi hj
      exact joint_readReference lo f hr hs (fun ht _ => hij ht) fun n r₁ m r₂ hr hs hnm =>
        joint_return hr hs (.item hnm.item)
  · exact joint_return hr hs (.plain [] [])
  · exact joint_return hr hs .atomic
  · exact joint_return hr hs (.look false false)
  · exact joint_return hr hs (.look false true)
  · -- looking behind
    refine joint_bind_blind blind_next hr hs fun t r₁ r₂ hr hs => ?_
    refine joint_ite (fun _ => joint_return hr hs (.look true false)) fun _ => ?_
    exact joint_ite (fun _ => joint_return hr hs (.look true true)) fun _ => joint_fail_left
  · obtain ⟨rest, scope, global⟩ := r₁
    obtain ⟨rest', scope', global'⟩ := r₂
    cases hr.rest
    refine joint_get (joint_check ?_)
    exact joint_return ⟨rfl, hr.global, hr.scopes⟩ hs .skipped
  · -- a condition
    refine joint_bind (joint_readConditionIndex hr hs) ?_
    intro i r₁ j r₂ hr hg hij
    refine joint_bind ((joint_checkLookbehind hr).grow hg) ?_
    exact fun _ r₁' _ r₂' hr' hg' hs => joint_pure hr' hg' (.condition (hs ▸ hij))
  · obtain ⟨rest, scope, global⟩ := r₁
    obtain ⟨rest', scope', global'⟩ := r₂
    cases hr.rest
    refine joint_get (joint_ite (fun _ => ?_) fun _ => joint_check ?_)
    · refine joint_bind_blind (blind_readFlagsOff _ _) hr hs fun off r₁ r₂ hr hs => joint_check ?_
      exact joint_return hr hs (.plain [] off)
    · refine joint_bind_blind (blind_readFlags _ _) hr hs fun flags r₁ r₂ hr hs => ?_
      refine joint_ite (fun _ => joint_return hr hs (.globalFlags _)) fun _ => joint_check ?_
      refine joint_ite (fun _ => ?_) fun _ => joint_check (joint_return hr hs (.plain _ _))
      refine joint_bind_blind (blind_readFlagsOff _ _) hr hs fun off r₁ r₂ hr hs => joint_check ?_
      exact joint_return hr hs (.plain _ off)

theorem joint_repeatLast {lo : Nat} {r₁ r₂ : Reader} {s : Scope} {items₁ items₂ : List Item}
    (least : Nat) (most : Option Nat) (hitems : List.Forall₂ (Item.Alike g lo s) items₁ items₂)
    (hr : r₁.Abreast g r₂) (hs : r₁.scope = s) :
    Joint g s ((repeatLast least most items₁).run r₁) ((repeatLast least most items₂).run r₂)
      fun l t l' => t = s ∧ List.Forall₂ (Item.Alike g lo s) l l' := by
  cases hitems with
  | nil => exact joint_fail_left
  | @cons i j is js hij hrest =>
      obtain ⟨n, o⟩ := i
      obtain ⟨m, o'⟩ := j
      obtain ⟨hnm, ho⟩ := hij
      cases ho
      cases o with
      | anchor => exact joint_fail_left
      | repeated => exact joint_fail_left
      | plain =>
          refine joint_bind_blind blind_readGreed hr hs fun greed r₁ r₂ hr hs => ?_
          exact joint_return hr hs ⟨rfl, .cons ⟨hnm.loop greed least most, rfl⟩ hrest⟩

/-- A new name hides none of the old ones. -/
theorem Scope.grows_insert {s : Scope} {name : String} (h : s.names.contains name = false)
    (next : Nat) (hnext : s.next ≤ next) (i : Nat) :
    s.Grows { s with next := next, names := s.names.insert name i } := by
  refine ⟨hnext, fun other j hj => ?_, fun _ h => h, fun _ h => h⟩
  have hne : other ≠ name := by
    rintro rfl
    rw [Assoc.contains, hj] at h
    cases h
  exact (Assoc.get?_insert_of_ne hne i s.names).trans hj

theorem Scope.grows_close (s : Scope) (i : Nat) (w : Width) :
    s.Grows { s with closed := s.closed.insert i w } := by
  refine ⟨Nat.le_refl _, fun _ _ h => h, fun j hj => ?_, fun _ h => h⟩
  by_cases hij : j = i
  · simp [Scope.isClosed, Assoc.contains, hij]
  · rw [Scope.isClosed, Assoc.contains, Assoc.get?_insert_of_ne hij]
    exact hj

/-- Both readings give a name to the next group. -/
theorem Scope.Paired.insert {s₁ s₂ : Scope} (h : s₁.Paired g s₂) (name : String) :
    Scope.Paired g { s₁ with next := s₁.next + 1, names := s₁.names.insert name s₁.next }
      { s₂ with next := s₂.next + 1, names := s₂.names.insert name s₂.next } := by
  refine ⟨Nat.le_succ_of_le h.first, ?_, fun ht other i hi => ?_, h.closed⟩
  · rw [Pairing.other_succ h.first, h.next]
  · by_cases hname : other = name
    · subst hname
      rw [Assoc.get?_insert_self] at hi ⊢
      rw [h.next, Option.some.inj hi]
    · dsimp only at hi ⊢
      rw [Assoc.get?_insert_of_ne hname] at hi ⊢
      exact h.names ht other i hi

theorem Scope.Paired.succ {s₁ s₂ : Scope} (h : s₁.Paired g s₂) :
    Scope.Paired g { s₁ with next := s₁.next + 1 } { s₂ with next := s₂.next + 1 } := by
  refine ⟨Nat.le_succ_of_le h.first, ?_, h.names, h.closed⟩
  rw [Pairing.other_succ h.first, h.next]

/-- Both readings close a group, with the same width. -/
theorem Scope.Paired.close {s₁ s₂ : Scope} (h : s₁.Paired g s₂) {i : Nat} (hi : g.first ≤ i)
    {w₁ w₂ : Width} (hw : g.Tracks s₁ → w₂ = w₁) :
    Scope.Paired g { s₁ with closed := s₁.closed.insert i w₁ }
      { s₂ with closed := s₂.closed.insert (g.other i) w₂ } := by
  refine ⟨h.first, h.next, h.names, fun ht j w hj => ?_⟩
  dsimp only at hj ⊢
  by_cases hij : j = i
  · subst hij
    rw [Assoc.get?_insert_self] at hj ⊢
    exact ⟨hi, by rw [hw ht, hj]⟩
  · rw [Assoc.get?_insert_of_ne hij] at hj
    obtain ⟨hfirst, hj⟩ := h.closed ht j w hj
    refine ⟨hfirst, ?_⟩
    rw [Assoc.get?_insert_of_ne fun he => hij (Pairing.eq_of_other_eq hfirst hi he)]
    exact hj

theorem joint_openGroup {r₁ r₂ : Reader} (name : Option String) (hr : r₁.Abreast g r₂) :
    Joint g r₁.scope ((openGroup name).run r₁) ((openGroup name).run r₂)
      fun i s j => i = r₁.scope.next ∧ j = g.other i ∧ s.next = r₁.scope.next + 1 := by
  cases name with
  | none =>
      refine joint_get (joint_bind (joint_modifyScope hr
        ⟨Nat.le_succ _, fun _ _ h => h, fun _ h => h, fun _ h => h⟩ hr.scopes.succ) ?_)
      rintro _ r₁' _ r₂' hr' hg hs
      exact joint_pure hr' hg ⟨rfl, hr.scopes.next, congrArg Scope.next hs⟩
  | some name =>
      refine joint_get (joint_checks fun hname => ?_)
      refine joint_bind (joint_modifyScope hr
        (Scope.grows_insert (Bool.not_eq_true _ ▸ hname) _ (Nat.le_succ _) _)
        (hr.scopes.insert name)) ?_
      rintro _ r₁' _ r₂' hr' hg hs
      exact joint_pure hr' hg ⟨rfl, hr.scopes.next, congrArg Scope.next hs⟩

theorem joint_closeGroup {lo : Nat} {r₁ r₂ : Reader} {i j : Nat} {n m : Node}
    (hi : g.first ≤ i) (hj : j = g.other i) (hnm : n.Alike g lo r₁.scope m)
    (hr : r₁.Abreast g r₂) :
    Joint g r₁.scope ((closeGroup i n).run r₁) ((closeGroup j m).run r₂)
      fun _ s _ => s.next = r₁.scope.next := by
  subst hj
  refine (joint_modifyScope hr (Scope.grows_close _ i _)
    (hr.scopes.close hi (hnm.width_eq hr.scopes))).imp fun _ s _ _ hs => ?_
  rw [hs]

/-- The readers of alternatives do the same in place and alone, where the flags for the whole
expression are looked up again and again but are never given. -/
def AlternativesAlike (g : Pairing) (fuel : Nat) : Prop :=
  ∀ (f : Flags) (top first₁ first₂ : Bool) (r₁ r₂ : Reader), r₁.Abreast g r₂ →
    (top = true → f.verbose = false) →
    Joint g r₁.scope ((readAlternatives fuel f false first₁).run r₁)
      ((readAlternatives fuel f top first₂).run r₂)
      fun n s m => n.Alike g r₁.scope.next s m

def SequencesAlike (g : Pairing) (fuel : Nat) : Prop :=
  ∀ (f : Flags) (first : Bool) (lo : Nat) (items₁ items₂ : List Item) (r₁ r₂ : Reader),
    r₁.Abreast g r₂ → lo ≤ r₁.scope.next →
    List.Forall₂ (Item.Alike g lo r₁.scope) items₁ items₂ →
    Joint g r₁.scope ((readSequence fuel f false items₁).run r₁)
      ((readSequence fuel f first items₂).run r₂)
      fun n s m => n.Alike g lo s m

def GroupsAlike (g : Pairing) (fuel : Nat) : Prop :=
  ∀ (f : Flags) (lo : Nat) (o₁ o₂ : Opening) (r₁ r₂ : Reader), r₁.Abreast g r₂ →
    o₁.Alike g lo r₁.scope o₂ →
    Joint g r₁.scope ((readGroup fuel f o₁).run r₁) ((readGroup fuel f o₂).run r₂)
      fun i s j => i.Alike g r₁.scope.next s j

theorem alternativesAlike_succ {fuel : Nat} (hs : SequencesAlike g fuel)
    (ha : AlternativesAlike g fuel) : AlternativesAlike g (fuel + 1) := by
  intro f top first₁ first₂ r₁ r₂ hr hf
  rw [readAlternatives, readAlternatives]
  refine joint_bind (hs f _ r₁.scope.next [] [] r₁ r₂ hr (Nat.le_refl _) .nil) ?_
  intro left₁ r₁ left₂ r₂ hr hg hleft
  refine joint_bind ((joint_of_blind (blind_accept '|') hr).grow hg) ?_
  rintro bar r₁ _ r₂ hr hg ⟨hs, rfl⟩
  rw [← hs] at hleft
  refine joint_ite (fun _ => joint_get ?_) fun _ => joint_pure hr hg hleft
  have hflags : (if top = true then { f with verbose := r₂.global.contains 'x' } else f) = f := by
    cases top with
    | false => rfl
    | true =>
        rw [hr.global]
        obtain ⟨caseless, multiline, dotAll, ascii, verbose⟩ := f
        cases hf rfl
        rfl
  dsimp only
  rw [hflags]
  refine (joint_bind (ha f top false false r₁ r₂ hr hf) ?_).grow hg
  intro right₁ r₁ right₂ r₂ hr hg' hright
  exact joint_pure hr hg' (.alt (hleft.widen (Nat.le_refl _) hg') (hright.widen hg.next (.refl _)))

theorem joint_enterLookbehind {r₁ r₂ : Reader} (hr : r₁.Abreast g r₂) :
    Joint g r₁.scope (enterLookbehind.run r₁) (enterLookbehind.run r₂)
      fun _ s _ => s.next = r₁.scope.next := by
  have hscopes := hr.scopes
  refine joint_get (joint_bind (joint_modifyScope hr
    ⟨Nat.le_refl _, fun _ _ h => h, fun _ h => h, fun _ h => h⟩
    ⟨hscopes.first, hscopes.next, hscopes.names, hscopes.closed⟩) ?_)
  rintro _ r₁' _ r₂' hr' hg hs
  exact joint_pure hr' hg (by rw [hs])

theorem joint_leaveLookbehind {lo : Nat} {r₁ r₂ : Reader} {n m : Node}
    (outer₁ outer₂ : Option Nat) (negated : Bool) (hnm : n.Alike g lo r₁.scope m)
    (hr : r₁.Abreast g r₂) :
    Joint g r₁.scope ((leaveLookbehind outer₁ negated n).run r₁)
      ((leaveLookbehind outer₂ negated m).run r₂) fun i s j => i.Alike g lo s j := by
  have hscopes := hr.scopes
  refine joint_get (joint_bind (joint_modifyScope hr
    ⟨Nat.le_refl _, fun _ _ h => h, fun _ h => h, fun _ h => h⟩
    ⟨hscopes.first, hscopes.next, hscopes.names, hscopes.closed⟩) ?_)
  rintro _ r₁' _ r₂' hr' hg -
  refine joint_pure hr' hg (Node.Alike.behind negated (fun ht => ?_)
    (hnm.widen (Nat.le_refl _) hg)).item
  rw [hnm.width_eq hscopes (ht.of_grows hg)]

theorem groupsAlike_succ {fuel : Nat} (hs : SequencesAlike g fuel) (ha : AlternativesAlike g fuel) :
    GroupsAlike g (fuel + 1) := by
  intro f lo o₁ o₂ r₁ r₂ hr ho
  have hbody : ∀ (f : Flags) r₁ r₂, r₁.Abreast g r₂ →
      Joint g r₁.scope ((readAlternatives fuel f false false).run r₁)
        ((readAlternatives fuel f false false).run r₂)
        fun n s m => n.Alike g r₁.scope.next s m := fun f r₁ r₂ hr =>
    ha f false false false r₁ r₂ hr (by rintro ⟨⟩)
  -- A group that adds nothing but a node around its body.
  have hwrapped : ∀ (f : Flags) (wrap : Node → Node),
      (∀ (lo : Nat) s n m, n.Alike g lo s m → (wrap n).Alike g lo s (wrap m)) →
      Joint g r₁.scope
        ((readAlternatives fuel f false false >>= fun n => pure (Item.plain (wrap n))).run r₁)
        ((readAlternatives fuel f false false >>= fun n => pure (Item.plain (wrap n))).run r₂)
        fun i s j => i.Alike g r₁.scope.next s j := fun f wrap hwrap =>
    joint_bind (hbody f r₁ r₂ hr) fun n r₁' m r₂' hr' hg hnm =>
      joint_pure hr' hg (hwrap _ _ _ _ hnm).item
  rw [readGroup.eq_def, readGroup.eq_def]
  cases ho with
  | group name =>
      have hfirst := hr.scopes.first
      refine joint_bind (joint_openGroup name hr) ?_
      rintro i r₁' j r₂' hr' hg ⟨rfl, hj, hnext⟩
      refine (joint_bind (hbody f r₁' r₂' hr') ?_).grow hg
      intro n r₁'' m r₂'' hr'' hg' hnm
      refine (joint_bind_blind blind_peek hr'' rfl fun t r₁ r₂ hr hs => joint_check ?_).grow hg'
      rw [← hs]
      rw [← hs] at hnm hg'
      refine joint_bind (joint_closeGroup hfirst hj hnm hr) ?_
      intro _ r₁ _ r₂ hr hg'' hnext'
      have hlast := hg'.next
      exact joint_pure hr hg'' (Node.Alike.group ⟨Nat.le_refl _, by omega⟩ hj
        (hnm.widen (by omega) hg'')).item
  | plain on off => exact hwrapped _ id fun _ _ _ _ h => h
  | atomic => exact hwrapped _ .atomic fun _ _ _ _ h => h.atomic
  | look back negated =>
      cases back with
      | false => exact hwrapped _ (.ahead negated) fun _ _ _ _ h => h.ahead negated
      | true =>
          refine joint_bind (joint_enterLookbehind hr) ?_
          rintro outer₁ r₁' outer₂ r₂' hr' hg hnext
          refine (joint_bind (hbody f r₁' r₂' hr') ?_).grow hg
          intro n r₁'' m r₂'' hr'' hg' hnm
          refine ((joint_leaveLookbehind outer₁ outer₂ negated hnm hr'').imp ?_).grow hg'
          intro i s j hg'' hij
          exact hij.widen (Nat.le_of_eq hnext.symm) (.refl _)
  | @condition i j hij =>
      refine joint_bind (hs f _ r₁.scope.next [] [] r₁ r₂ hr (Nat.le_refl _) .nil) ?_
      intro yes₁ r₁ yes₂ r₂ hr hg hyes
      refine joint_bind ((joint_of_blind (blind_accept '|') hr).grow hg) ?_
      rintro bar r₁ _ r₂ hr hg ⟨hs', rfl⟩
      rw [← hs'] at hyes
      refine joint_ite (fun _ => ?_) fun _ => ?_
      · refine (joint_bind (hs f _ r₁.scope.next [] [] r₁ r₂ hr (Nat.le_refl _) .nil) ?_).grow hg
        intro no₁ r₁ no₂ r₂ hr hg' hno
        exact joint_pure hr hg' (Node.Alike.condition (fun ht => hij (ht.of_grows (hg.trans hg')))
          (hyes.widen (Nat.le_refl _) hg') (hno.widen hg.next (.refl _))).item
      · exact joint_pure hr hg (Node.Alike.condition (fun ht => hij (ht.of_grows hg)) hyes
          (.rfl_of rfl rfl rfl)).item
  -- These openings begin no group, and both readings fail.
  | skipped => exact joint_fail_left
  | item h => exact joint_fail_left
  | globalFlags on => exact joint_fail_left

theorem joint_readSet {r₁ r₂ : Reader} {s : Scope} (lo : Nat) (f : Flags) (hr : r₁.Abreast g r₂)
    (hs : r₁.scope = s) :
    Joint g s ((readSet f).run r₁) ((readSet f).run r₂) fun n t m => t = s ∧ n.Alike g lo s m := by
  refine joint_bind_blind (blind_accept '^') hr hs fun negated r₁ r₂ hr hs => joint_get ?_
  rw [hr.rest]
  refine joint_bind_blind (blind_setItems _ []) hr hs fun items r₁ r₂ hr hs => ?_
  exact joint_return hr hs ⟨rfl, .rfl_of rfl rfl rfl⟩

/-- A group, its closing parenthesis, and the rest of the sequence. -/
theorem joint_enclosed {fuel : Nat} (hs : SequencesAlike g fuel) (hgroup : GroupsAlike g fuel)
    (f : Flags) (first : Bool) {lo : Nat} {items₁ items₂ : List Item} {o₁ o₂ : Opening}
    {r₁ r₂ : Reader} (hr : r₁.Abreast g r₂) (ho : o₁.Alike g lo r₁.scope o₂)
    (hlo : lo ≤ r₁.scope.next) (hitems : List.Forall₂ (Item.Alike g lo r₁.scope) items₁ items₂) :
    Joint g r₁.scope
      ((readGroup fuel f o₁ >>= fun item => expect ')' >>= fun _ =>
        readSequence fuel f false (item :: items₁)).run r₁)
      ((readGroup fuel f o₂ >>= fun item => expect ')' >>= fun _ =>
        readSequence fuel f first (item :: items₂)).run r₂)
      fun n s m => n.Alike g lo s m := by
  refine joint_bind (hgroup f lo o₁ o₂ r₁ r₂ hr ho) ?_
  intro i r₁' j r₂' hr' hg hij
  refine (joint_bind (joint_of_blind (blind_expect ')') hr') ?_).grow hg
  rintro _ r₁'' _ r₂'' hr'' hg' ⟨hscope, -⟩
  rw [← hscope] at hg hij hg' ⊢
  have hold := hitems.imp fun _ _ h => h.widen (Nat.le_refl _) hg
  exact hs f first lo _ _ r₁'' r₂'' hr'' (Nat.le_trans hlo hg.next)
    (.cons (hij.widen hlo (.refl _)) hold)

theorem alike_join_reverse {lo : Nat} {s : Scope} {items₁ items₂ : List Item}
    (h : List.Forall₂ (Item.Alike g lo s) items₁ items₂) :
    (Node.join (items₁.reverse.map Item.node)).Alike g lo s
      (Node.join (items₂.reverse.map Item.node)) := by
  refine .join (List.forall₂_map_left_iff.2 (List.forall₂_map_right_iff.2 ?_))
  exact (List.rel_reverse h).imp fun _ _ hij => hij.node

theorem sequencesAlike_succ {fuel : Nat} (hs : SequencesAlike g fuel)
    (hgroup : GroupsAlike g fuel) : SequencesAlike g (fuel + 1) := by
  intro f first lo items₁ items₂ r₁ r₂ hr hlo hitems
  -- What comes after an element, which may have let the scope grow.
  have hmore : ∀ r₁' r₂' is₁ is₂, r₁'.Abreast g r₂' → r₁.scope.Grows r₁'.scope →
      List.Forall₂ (Item.Alike g lo r₁'.scope) is₁ is₂ →
      Joint g r₁.scope ((readSequence fuel f false is₁).run r₁')
        ((readSequence fuel f first is₂).run r₂')
        fun n s m => n.Alike g lo s m := fun r₁' r₂' is₁ is₂ hr' hg his =>
    (hs f first lo is₁ is₂ r₁' r₂' hr' (Nat.le_trans hlo hg.next) his).grow hg
  have hnext : ∀ i₁ i₂ r₁' r₂', r₁'.Abreast g r₂' → r₁'.scope = r₁.scope →
      i₁.Alike g lo r₁.scope i₂ →
      Joint g r₁.scope ((readSequence fuel f false (i₁ :: items₁)).run r₁')
        ((readSequence fuel f first (i₂ :: items₂)).run r₂')
        fun n s m => n.Alike g lo s m := fun i₁ i₂ r₁' r₂' hr' hscope hi =>
    hmore r₁' r₂' _ _ hr' (hscope ▸ .refl _) (hscope ▸ .cons hi hitems)
  have hsame : ∀ r₁' r₂', r₁'.Abreast g r₂' → r₁'.scope = r₁.scope →
      Joint g r₁.scope ((readSequence fuel f false items₁).run r₁')
        ((readSequence fuel f first items₂).run r₂')
        fun n s m => n.Alike g lo s m := fun r₁' r₂' hr' hscope =>
    hmore r₁' r₂' _ _ hr' (hscope ▸ .refl _) (hscope ▸ hitems)
  have hold : ∀ s, r₁.scope.Grows s → List.Forall₂ (Item.Alike g lo s) items₁ items₂ :=
    fun s hg => hitems.imp fun _ _ h => h.widen (Nat.le_refl _) hg
  have hrepeat : ∀ least most r₁' r₂', r₁'.Abreast g r₂' → r₁'.scope = r₁.scope →
      Joint g r₁.scope
        ((repeatLast least most items₁ >>= fun is => readSequence fuel f false is).run r₁')
        ((repeatLast least most items₂ >>= fun is => readSequence fuel f first is).run r₂')
        fun n s m => n.Alike g lo s m := by
    intro least most r₁' r₂' hr' hscope
    refine joint_bind (joint_repeatLast least most hitems hr' hscope) ?_
    rintro is₁ r₁' is₂ r₂' hr' hg ⟨hscope, his⟩
    exact hmore _ _ _ _ hr' hg (hscope ▸ his)
  have hfinished := alike_join_reverse hitems
  -- From here on the branches of the reader are gone through, and each ends in a fact from above.
  rw [readSequence, readSequence]
  refine joint_bind_blind blind_peek hr rfl fun t r₁' r₂' hr' hscope => ?_
  cases t with
  | none => exact joint_return hr' hscope hfinished
  | some t =>
      obtain ⟨escaped, c⟩ := t
      cases escaped with
      | true =>
          refine joint_bind_blind blind_advance hr' hscope fun _ r₁' r₂' hr' hscope => ?_
          refine joint_bind (joint_readEscape lo f c hr' hscope) ?_
          rintro i r₁' j r₂' hr' - ⟨hscope, hij⟩
          exact hnext i j r₁' r₂' hr' hscope hij
      | false =>
          refine joint_ite (fun _ => joint_return hr' hscope hfinished) fun _ => ?_
          refine joint_bind_blind blind_advance hr' hscope fun _ r₁' r₂' hr' hscope => ?_
          refine joint_ite (fun _ => ?_) fun _ => joint_ite (fun _ => ?_) fun _ => ?_
          · exact hsame _ _ hr' hscope
          · obtain ⟨rest, scope, global⟩ := r₁'
            obtain ⟨rest', scope', global'⟩ := r₂'
            cases hr'.rest
            exact hsame _ _ ⟨rfl, hr'.global, hr'.scopes⟩ hscope
          · split
            · refine joint_bind (joint_readSet lo f hr' hscope) ?_
              rintro n r₁' m r₂' hr' - ⟨hscope, hnm⟩
              exact hnext _ _ _ _ hr' hscope hnm.item
            · refine hnext _ _ _ _ hr' hscope (Node.Alike.item ?_)
              split <;> exact .rfl_of rfl rfl rfl
            · refine hnext _ _ _ _ hr' hscope ⟨?_, rfl⟩
              exact .rfl_of rfl rfl rfl
            · refine hnext _ _ _ _ hr' hscope ⟨?_, rfl⟩
              exact .rfl_of rfl rfl rfl
            · exact hrepeat _ _ _ _ hr' hscope
            · exact hrepeat _ _ _ _ hr' hscope
            · exact hrepeat _ _ _ _ hr' hscope
            · refine joint_bind_blind blind_readBounds hr' hscope
                fun bounds r₁' r₂' hr' hscope => ?_
              cases bounds with
              | none => exact hnext _ _ _ _ hr' hscope (alike_literal f '\x7b'.toNat).item
              | some bounds => exact hrepeat _ _ _ _ hr' hscope
            · refine joint_bind (joint_readOpening lo f hr' hscope) ?_
              rintro o₁ r₁' o₂ r₂' hr' hg ho
              have hfollow := (joint_enclosed hs hgroup f first hr' ho (Nat.le_trans hlo hg.next)
                (hold _ hg)).grow hg
              cases ho with
              | skipped => exact hmore _ _ _ _ hr' hg (hold _ hg)
              | item h => exact hmore _ _ _ _ hr' hg (.cons h (hold _ hg))
              | globalFlags on => exact joint_throw_left
              | _ => exact hfollow
            · exact hnext _ _ _ _ hr' hscope (alike_literal f _).item

theorem readersAlike (g : Pairing) (fuel : Nat) :
    AlternativesAlike g fuel ∧ SequencesAlike g fuel ∧ GroupsAlike g fuel := by
  induction fuel with
  | zero =>
      refine ⟨fun f top first₁ first₂ r₁ r₂ hr hf => ?_,
        fun f first lo items₁ items₂ r₁ r₂ hr hlo hitems => ?_, fun f lo o₁ o₂ r₁ r₂ hr ho => ?_⟩
      · rw [readAlternatives]
        exact joint_fail_left
      · rw [readSequence]
        exact joint_fail_left
      · rw [readGroup.eq_def]
        exact joint_fail_left
  | succ fuel ih =>
      obtain ⟨ha, hs, hg⟩ := ih
      exact ⟨alternativesAlike_succ hs ha, sequencesAlike_succ hs hg, groupsAlike_succ hs ha⟩

end Readers

/-! ## Whole texts -/

theorem readInto_eq_ok {s s' : Scope} {text : List Char} {node : Node}
    (h : readInto s text = .ok (node, s')) :
    ∃ tokens r, Token.ofChars? text = some tokens ∧ r.scope = s' ∧
      (readAlternatives (3 * tokens.length + 3) .none false false).run ⟨tokens, s, []⟩ =
        .ok (node, r) := by
  rw [readInto] at h
  split at h
  · cases h
  next tokens htokens =>
    obtain ⟨⟨n, r⟩, hr, h⟩ := bind_eq_ok.1 h
    dsimp only at h
    split at h
    · cases h
      exact ⟨tokens, r, htokens, rfl, hr⟩
    · cases h

theorem read_eq_ok {text : List Char} {node : Node} (h : read text = .ok node) :
    ∃ tokens r, Token.ofChars? text = some tokens ∧
      (readAlternatives (3 * tokens.length + 3) .none true true).run ⟨tokens, .initial, []⟩ =
        .ok (node, r) := by
  rw [read] at h
  split at h
  · cases h
  next tokens htokens =>
    obtain ⟨⟨n, r⟩, hr, h⟩ := bind_eq_ok.1 h
    dsimp only at h
    split at h
    · cases h
    · split at h
      · cases h
      · obtain ⟨-, -, h⟩ := bind_eq_ok.1 h
        split at h
        · cases h
        · cases h
          exact ⟨tokens, r, htokens, hr⟩

/-- A reading in a scope and one that starts abreast of it, in a scope or alone. -/
theorem readInto_joint {g : Pairing} {s₁ s₂ s' : Scope} {text : List Char} {tokens : List Token}
    {top : Bool} {n m : Node} {r : Reader} (hpaired : s₁.Paired g s₂)
    (h₁ : readInto s₁ text = .ok (n, s')) (htokens : Token.ofChars? text = some tokens)
    (h₂ : (readAlternatives (3 * tokens.length + 3) .none top top).run ⟨tokens, s₂, []⟩ =
      .ok (m, r)) : s₁.Grows s' ∧ n.Alike g s₁.next s' m := by
  obtain ⟨tokens', r₁, htokens', rfl, h₁⟩ := readInto_eq_ok h₁
  rw [htokens] at htokens'
  cases htokens'
  have hjoint := (readersAlike g (3 * tokens.length + 3)).1 .none top false top
    ⟨tokens, s₁, []⟩ ⟨tokens, s₂, []⟩ ⟨rfl, rfl, hpaired⟩ fun _ => rfl
  exact (hjoint n r₁ m r h₁ h₂).2

/-- A pairing that says nothing about references. -/
def Pairing.loose (first second : Nat) : Pairing := ⟨first, second, False, False.elim⟩

/-- **A constraint in place is the constraint alone**, with groups numbered behind those that were
read before it. -/
theorem readInto_alike {s s' : Scope} {text : List Char} {node alone : Node}
    (h : readInto s text = .ok (node, s')) (halone : read text = .ok alone) :
    s.Grows s' ∧ node.Alike (.loose s.next 1) s.next s' alone := by
  obtain ⟨tokens, r, htokens, hr⟩ := read_eq_ok halone
  refine readInto_joint ⟨Nat.le_refl _, ?_, fun ht => ht.1.elim, fun ht => ht.1.elim⟩ h htokens hr
  simp [Pairing.other, Pairing.loose, Scope.initial]

/-! ## References by name -/

/-- A scope behind so many groups that no number of one or two digits is that of a new group. -/
def Scope.remote : Scope := { Scope.initial with next := 100 }

/-- Whether an expression speaks of its groups by name only: nothing in it depends on how many
groups there are before it, so it can still be read when none of its numbers is in reach. -/
def namesGroups (text : List Char) : Bool :=
  match readInto .remote text with
  | .ok (_, s) => s.awaited.isEmpty
  | .error _ => false

def Pairing.behindRemote (second : Nat) : Pairing := ⟨100, second, True, fun _ => Nat.le_refl _⟩

theorem paired_remote (s : Scope) : Scope.remote.Paired (.behindRemote s.next) s := by
  refine ⟨Nat.le_refl _, ?_, fun _ name i hi => ?_, fun _ i w hi => ?_⟩
  · simp [Pairing.other, Pairing.behindRemote, Scope.remote]
  · cases hi
  · cases hi

/-- **References by name go along with their groups**: behind `d` other groups an expression that
speaks of its groups by name is read as it is alone, with all numbers greater by `d`. -/
theorem renumber_of_namesGroups {s s' : Scope} {text : List Char} {node alone : Node} {d : Nat}
    (hnames : namesGroups text = true) (h : readInto s text = .ok (node, s'))
    (halone : read text = .ok alone) (hd : s.next = d + 1) : node = alone.renumber (· + d) := by
  rw [namesGroups] at hnames
  split at hnames
  next n t hremote =>
    -- Reading at a distance is abreast of both readings.
    have hawaited : t.awaited = [] := List.isEmpty_iff.1 hnames
    obtain ⟨tokens, r, htokens, -, hr⟩ := readInto_eq_ok h
    have hin := (readInto_joint (paired_remote s) hremote htokens hr).2.moved ⟨trivial, hawaited⟩
    obtain ⟨tokens', r', htokens', hr'⟩ := read_eq_ok halone
    have hout := (readInto_joint (paired_remote .initial) hremote htokens' hr').2.moved
      ⟨trivial, hawaited⟩
    have hshift : (Pairing.behindRemote s.next).other =
        (· + d) ∘ (Pairing.behindRemote Scope.initial.next).other := by
      funext i
      simp only [Pairing.other, Pairing.behindRemote, Scope.initial, Function.comp_apply]
      omega
    rw [hin, hout, renumber_renumber, hshift]
  next => cases hnames

end Winnow.Regex
