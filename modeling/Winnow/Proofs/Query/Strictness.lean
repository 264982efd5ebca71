import Mathlib
import Winnow.Query.Plan
import Winnow.Proofs.Query.Rows

/-!
# Strict equality at every depth

A filter asks for a value of the same shape with the same leaves (`SameLeaf`): numbers by value,
whether they are integers or floats, everything else within its type. So it is between two values
that hold no others. Below that, values are compared as the keys of mappings are, to which a truth
value is the number that it counts as (`Mixed`). What a filter takes is therefore a value of the
same shape with leaves that are the same or mixed, and the two notions differ by the places within
lists and mappings where leaves are mixed (`strictEq_iff_alike`).
-/

namespace Winnow

/-! ## Numbers -/

namespace Binary64

/-- The value of a finite number. -/
def rat? (x : Binary64) : Option ℚ := x.dyadic?.map fun (m, e) => (m : ℚ) * 2 ^ e

/-- A number in units of a smaller power of two. -/
theorem mul_zpow_eq {m e low : Int} (h : low ≤ e) :
    (m : ℚ) * 2 ^ e = ((m * twoTo (e - low).toNat : Int) : ℚ) * 2 ^ low := by
  obtain ⟨k, rfl⟩ := Int.le.dest h
  have hk : (low + k - low).toNat = k := by omega
  have hpower : ((twoTo k : Nat) : ℚ) = 2 ^ k := Nat.cast_pow 2 k
  rw [hk, zpow_add₀ two_ne_zero, zpow_natCast, Int.cast_mul, Int.cast_natCast, hpower]
  ring

theorem compareExact_eq_iff {a b : Int × Int} :
    compareExact a b = .eq ↔ (a.1 : ℚ) * 2 ^ a.2 = b.1 * 2 ^ b.2 := by
  have hpower : (2 : ℚ) ^ min a.2 b.2 ≠ 0 := zpow_ne_zero _ two_ne_zero
  rw [compareExact, Std.compare_eq_iff_eq, mul_zpow_eq (Int.min_le_left a.2 b.2),
    mul_zpow_eq (Int.min_le_right a.2 b.2), mul_left_inj' hpower, Int.cast_inj]

theorem exists_rat?_iff {x : Binary64} : x.isFinite = true ↔ ∃ q, x.rat? = some q := by
  rw [isFinite, rat?, dyadic?]
  cases x.view <;> simp

theorem eq_iff {x y : Binary64} {q : ℚ} (hx : x.rat? = some q) :
    x.eq y = true ↔ y.rat? = some q := by
  rw [rat?, dyadic?] at hx
  rw [eq, compare?, rat?, dyadic?]
  cases hxview : x.view with
  | finite a m e =>
      rw [hxview] at hx
      cases hx
      cases y.view with
      | finite b n f => simpa [compareExact_eq_iff] using eq_comm
      | _ => simp
  | _ =>
      rw [hxview] at hx
      cases hx

theorem eqInt_iff {i : Int} {x : Binary64} : eqInt i x = true ↔ x.rat? = some (i : ℚ) := by
  rw [eqInt, compareInt?, rat?, dyadic?]
  cases x.view with
  | finite a m e => simpa [compareExact_eq_iff] using eq_comm
  | _ => simp

end Binary64

namespace Value

/-- The number that a value is. -/
def number? : Value → Option ℚ
  | .int i => some i
  | .float x => x.rat?
  | _ => none

/-! ## Values of filters -/

/-- What a filter can ask for and metadata can hold: no not-a-number, infinity, bytes, tuples or
sets, and only texts as keys, each once. -/
inductive Filterable : Value → Prop
  | null : Filterable .null
  | bool (b : Bool) : Filterable (.bool b)
  | int (i : Int) : Filterable (.int i)
  | float {x : Binary64} (h : x.isFinite = true) : Filterable (.float x)
  | text (s : String) : Filterable (.text s)
  | date (d : Date) : Filterable (.date d)
  | moment (t : Moment) : Filterable (.moment t)
  | list {items : List Value} (h : ∀ v ∈ items, Filterable v) : Filterable (.list items)
  | map {entries : List (Value × Value)} (htexts : ∀ e ∈ entries, ∃ name, e.1 = .text name)
      (hkeys : (Assoc.keys entries).Nodup) (h : ∀ e ∈ entries, Filterable e.2) :
      Filterable (.map entries)

/-- Leaves of one type with equal values, where integers and floats are one type. -/
inductive SameLeaf : Value → Value → Prop
  | null : SameLeaf .null .null
  | bool (b : Bool) : SameLeaf (.bool b) (.bool b)
  | text (s : String) : SameLeaf (.text s) (.text s)
  | date (d : Date) : SameLeaf (.date d) (.date d)
  | moment {s t : Moment} (hoffset : s.offset.isSome = t.offset.isSome)
      (hinstant : s.instant = t.instant) : SameLeaf (.moment s) (.moment t)
  | number {a b : Value} {q : ℚ} (ha : a.number? = some q) (hb : b.number? = some q) :
      SameLeaf a b

/-- A truth value and the number that it counts as. -/
inductive Mixed : Value → Value → Prop
  | left {b : Bool} {v : Value} (h : v.number? = some (b.toNat : ℚ)) : Mixed (.bool b) v
  | right {b : Bool} {v : Value} (h : v.number? = some (b.toNat : ℚ)) : Mixed v (.bool b)

/-- Values of one shape whose leaves are related: lists position by position, mappings key by key
in any order. -/
inductive Alike (R : Value → Value → Prop) : Value → Value → Prop
  | leaf {a b : Value} (h : R a b) : Alike R a b
  | list {xs ys : List Value} (hlength : xs.length = ys.length)
      (h : ∀ p ∈ xs.zip ys, Alike R p.1 p.2) : Alike R (.list xs) (.list ys)
  | map {xs ys : List (Value × Value)} (hkeys : (Assoc.keys xs).Perm (Assoc.keys ys))
      (h : ∀ k v w, (k, v) ∈ xs → (k, w) ∈ ys → Alike R v w) : Alike R (.map xs) (.map ys)

/-- Two values have related values at some position or under some key, however deep. -/
inductive Somewhere (R : Value → Value → Prop) : Value → Value → Prop
  | here {a b : Value} (h : R a b) : Somewhere R a b
  | list {xs ys : List Value} {p : Value × Value} (hp : p ∈ xs.zip ys)
      (h : Somewhere R p.1 p.2) : Somewhere R (.list xs) (.list ys)
  | map {xs ys : List (Value × Value)} {k v w : Value} (hv : (k, v) ∈ xs) (hw : (k, w) ∈ ys)
      (h : Somewhere R v w) : Somewhere R (.map xs) (.map ys)

/-! ## Loose equality -/

theorem eqItems_iff {xs ys : List Value} : eqItems xs ys = true ↔
    xs.length = ys.length ∧ ∀ p ∈ xs.zip ys, p.1.eq p.2 = true := by
  induction xs generalizing ys with
  | nil => cases ys <;> simp [eqItems]
  | cons x xs ih =>
      cases ys with
      | nil => simp [eqItems]
      | cons y ys =>
          simp only [eqItems, Bool.and_eq_true, ih, List.length_cons, List.zip_cons_cons,
            List.forall_mem_cons, Nat.add_right_cancel_iff]
          exact and_left_comm

theorem entriesWithin_iff {xs ys : List (Value × Value)} : entriesWithin xs ys = true ↔
    ∀ e ∈ xs, ∃ f ∈ ys, e.1.eq f.1 = true ∧ e.2.eq f.2 = true := by
  induction xs with
  | nil => simp [entriesWithin]
  | cons e xs ih =>
      obtain ⟨k, v⟩ := e
      simp only [entriesWithin, Bool.and_eq_true, ih, List.forall_mem_cons, List.any_eq_true]

/-! ## Leaves -/

theorem number?_eq_some {v : Value} {q : ℚ} :
    v.number? = some q ↔ (∃ i : Int, v = .int i ∧ q = i) ∨ ∃ x, v = .float x ∧ x.rat? = some q := by
  cases v <;> simp [number?, eq_comm]

theorem eqScalar_of_sameLeaf {a b : Value} (h : SameLeaf a b) : eqScalar a b = true := by
  cases h with
  | null => rfl
  | bool b => exact beq_self_eq_true b
  | text s => exact beq_self_eq_true s
  | date d => exact beq_self_eq_true d
  | moment hoffset hinstant => simp [eqScalar, Moment.eq, hoffset, hinstant]
  | number ha hb =>
      rcases number?_eq_some.1 ha with ⟨i, rfl, rfl⟩ | ⟨x, rfl, hx⟩ <;>
        rcases number?_eq_some.1 hb with ⟨j, rfl, hj⟩ | ⟨y, rfl, hy⟩
      · exact beq_iff_eq.2 (Int.cast_injective hj)
      · exact Binary64.eqInt_iff.2 hy
      · exact Binary64.eqInt_iff.2 (hj ▸ hx)
      · exact (Binary64.eq_iff hx).2 hy

theorem eqScalar_of_mixed {a b : Value} (h : Mixed a b) : eqScalar a b = true := by
  cases h with
  | left h =>
      rcases number?_eq_some.1 h with ⟨i, rfl, hi⟩ | ⟨x, rfl, hx⟩
      · exact beq_iff_eq.2 (by exact_mod_cast hi)
      · exact Binary64.eqInt_iff.2 (by exact_mod_cast hx)
  | right h =>
      rcases number?_eq_some.1 h with ⟨i, rfl, hi⟩ | ⟨x, rfl, hx⟩
      · exact beq_iff_eq.2 (by exact_mod_cast hi.symm)
      · exact Binary64.eqInt_iff.2 (by exact_mod_cast hx)

/-- Loosely equal leaves are the same or mixed. -/
theorem eqScalar_iff {a b : Value} (ha : Filterable a) (hb : Filterable b) :
    eqScalar a b = true ↔ SameLeaf a b ∨ Mixed a b := by
  refine ⟨fun h => ?_, fun h => h.elim eqScalar_of_sameLeaf eqScalar_of_mixed⟩
  rw [eqScalar.eq_def] at h
  split at h
  next => exact .inl .null
  next b c =>
    cases beq_iff_eq.1 h
    exact .inl (.bool b)
  next b j => exact .inr (.left (by simp [number?, ← beq_iff_eq.1 h]))
  next i b => exact .inr (.right (by simp [number?, beq_iff_eq.1 h]))
  next b y => exact .inr (.left (by exact_mod_cast Binary64.eqInt_iff.1 h))
  next x b => exact .inr (.right (by exact_mod_cast Binary64.eqInt_iff.1 h))
  next i j =>
    cases beq_iff_eq.1 h
    exact .inl (.number rfl rfl)
  next i y => exact .inl (.number rfl (Binary64.eqInt_iff.1 h))
  next x j => exact .inl (.number (Binary64.eqInt_iff.1 h) rfl)
  next x y =>
    cases ha with
    | float hx =>
        obtain ⟨q, hq⟩ := Binary64.exists_rat?_iff.1 hx
        exact .inl (.number hq ((Binary64.eq_iff hq).1 h))
  next s t =>
    cases beq_iff_eq.1 h
    exact .inl (.text s)
  next => cases ha
  next d e =>
    cases beq_iff_eq.1 h
    exact .inl (.date d)
  next s t =>
    have hsame : s.offset.isSome = t.offset.isSome ∧ s.instant = t.instant := by
      simpa [Moment.eq] using h
    exact .inl (.moment hsame.1 hsame.2)
  next => cases h

/-! ## Shapes -/

/-- Leaves as loose equality has them. -/
def LooseLeaf (a b : Value) : Prop := SameLeaf a b ∨ Mixed a b

theorem alike_list_iff {xs ys : List Value} : Alike LooseLeaf (.list xs) (.list ys) ↔
    xs.length = ys.length ∧ ∀ p ∈ xs.zip ys, Alike LooseLeaf p.1 p.2 := by
  refine ⟨fun h => ?_, fun h => .list h.1 h.2⟩
  cases h with
  | leaf h => cases h.elim eqScalar_of_sameLeaf eqScalar_of_mixed
  | list hlength h => exact ⟨hlength, h⟩

theorem alike_map_iff {xs ys : List (Value × Value)} : Alike LooseLeaf (.map xs) (.map ys) ↔
    (Assoc.keys xs).Perm (Assoc.keys ys) ∧
      ∀ k v w, (k, v) ∈ xs → (k, w) ∈ ys → Alike LooseLeaf v w := by
  refine ⟨fun h => ?_, fun h => .map h.1 h.2⟩
  cases h with
  | leaf h => cases h.elim eqScalar_of_sameLeaf eqScalar_of_mixed
  | map hkeys h => exact ⟨hkeys, h⟩

/-- Mappings with texts as keys are equal if they have the same keys with equal values. -/
theorem eq_map_iff {xs ys : List (Value × Value)} (hx : ∀ e ∈ xs, ∃ name, e.1 = .text name)
    (hxkeys : (Assoc.keys xs).Nodup) (hykeys : (Assoc.keys ys).Nodup) :
    (Value.map xs).eq (.map ys) = true ↔ (Assoc.keys xs).Perm (Assoc.keys ys) ∧
      ∀ k v w, (k, v) ∈ xs → (k, w) ∈ ys → v.eq w = true := by
  have hkey : ∀ e ∈ xs, ∀ k, e.1.eq k = true ↔ k = e.1 := by
    rintro e he k
    obtain ⟨name, hname⟩ := hx e he
    rw [hname]
    exact ⟨text_beq_eq_true, fun h => h ▸ (text_beq name name).trans (beq_self_eq_true name)⟩
  rw [Value.eq, Bool.and_eq_true, beq_iff_eq, entriesWithin_iff]
  constructor
  · rintro ⟨hlength, hwithin⟩
    have hsubset : Assoc.keys xs ⊆ Assoc.keys ys := by
      intro k hk
      obtain ⟨e, he, rfl⟩ := List.mem_map.1 hk
      obtain ⟨f, hf, hfkey, -⟩ := hwithin e he
      exact List.mem_map.2 ⟨f, hf, (hkey e he f.1).1 hfkey⟩
    refine ⟨(List.subperm_of_subset hxkeys hsubset).perm_of_length_le ?_, fun k v w hv hw => ?_⟩
    · rw [Assoc.keys, Assoc.keys, List.length_map, List.length_map, hlength]
    · obtain ⟨f, hf, hfkey, hfv⟩ := hwithin _ hv
      have hfw : f = (k, w) :=
        List.inj_on_of_nodup_map hykeys hf hw ((hkey _ hv f.1).1 hfkey)
      rwa [hfw] at hfv
  · rintro ⟨hperm, hvalues⟩
    refine ⟨by simpa [Assoc.keys] using hperm.length_eq, fun e he => ?_⟩
    obtain ⟨f, hf, hfkey⟩ := List.mem_map.1 (hperm.subset (List.mem_map_of_mem he))
    refine ⟨f, hf, (hkey e he f.1).2 hfkey, hvalues e.1 e.2 f.2 he ?_⟩
    rw [← hfkey]
    exact hf

/-- Where not both are lists or mappings, values are compared as leaves. -/
theorem eq_iff_alike_of_apart {a b : Value} (ha : Filterable a) (hb : Filterable b)
    (hlist : ∀ xs ys, a = .list xs → b ≠ .list ys) (hmap : ∀ xs ys, a = .map xs → b ≠ .map ys) :
    a.eq b = true ↔ Alike LooseLeaf a b := by
  have hscalar : a.eq b = eqScalar a b := by
    rw [Value.eq]
    · exact hlist
    · rintro xs ys rfl
      cases ha
    · rintro xs ys rfl
      cases ha
    · exact hmap
  rw [hscalar, eqScalar_iff ha hb]
  refine ⟨fun h => .leaf h, fun h => ?_⟩
  cases h with
  | leaf h => exact h
  | list => exact absurd rfl (hlist _ _ rfl)
  | map => exact absurd rfl (hmap _ _ rfl)

/-- **Loose equality is to be alike with loose leaves.** -/
theorem eq_iff_alike {a b : Value} (ha : Filterable a) (hb : Filterable b) :
    a.eq b = true ↔ Alike LooseLeaf a b := by
  induction ha generalizing b with
  | @list xs hxs ih =>
      by_cases hlist : ∃ ys, b = .list ys
      · obtain ⟨ys, rfl⟩ := hlist
        cases hb with
        | list hys =>
            rw [Value.eq, eqItems_iff, alike_list_iff]
            refine and_congr_right fun _ => forall₂_congr fun p hp => ?_
            obtain ⟨hpx, hpy⟩ := List.of_mem_zip hp
            exact ih p.1 hpx (hys p.2 hpy)
      · exact eq_iff_alike_of_apart (.list hxs) hb (fun _ ys _ hys => hlist ⟨ys, hys⟩) (by simp)
  | @map xs hx hxkeys hxs ih =>
      by_cases hmap : ∃ ys, b = .map ys
      · obtain ⟨ys, rfl⟩ := hmap
        cases hb with
        | map hy hykeys hys =>
            rw [eq_map_iff hx hxkeys hykeys, alike_map_iff]
            refine and_congr_right fun _ => forall₃_congr fun k v w => ?_
            exact forall₂_congr fun hv hw => ih _ hv (hys _ hw)
      · exact eq_iff_alike_of_apart (.map hx hxkeys hxs) hb (by simp)
          fun _ ys _ hys => hmap ⟨ys, hys⟩
  | float hx => exact eq_iff_alike_of_apart (.float hx) hb (by simp) (by simp)
  | _ => exact eq_iff_alike_of_apart (by constructor) hb (by simp) (by simp)

/-! ## Strictness -/

theorem Alike.mono {R S : Value → Value → Prop} (hRS : ∀ a b, R a b → S a b) {a b : Value}
    (h : Alike R a b) : Alike S a b := by
  induction h with
  | leaf h => exact .leaf (hRS _ _ h)
  | list hlength _ ih => exact .list hlength ih
  | map hkeys _ ih => exact .map hkeys ih

theorem not_mixed_of_sameLeaf {a b : Value} (h : SameLeaf a b) : ¬ Mixed a b := by
  rintro (hmixed | hmixed) <;> cases h <;> simp_all [number?]

/-- To have the same leaves is to have loose leaves of which none are mixed. -/
theorem alike_sameLeaf_iff {a b : Value} :
    Alike SameLeaf a b ↔ Alike LooseLeaf a b ∧ ¬ Somewhere Mixed a b := by
  constructor
  · intro h
    refine ⟨h.mono fun _ _ => .inl, fun hmixed => ?_⟩
    induction hmixed with
    | here hmixed =>
        cases h with
        | leaf h => exact not_mixed_of_sameLeaf h hmixed
        | list => cases hmixed
        | map => cases hmixed
    | list hp _ ih =>
        cases h with
        | leaf h => cases eqScalar_of_sameLeaf h
        | list _ h => exact ih (h _ hp)
    | map hv hw _ ih =>
        cases h with
        | leaf h => cases eqScalar_of_sameLeaf h
        | map _ h => exact ih (h _ _ _ hv hw)
  · rintro ⟨h, hnone⟩
    induction h with
    | leaf h => exact .leaf (h.resolve_right fun hmixed => hnone (.here hmixed))
    | list hlength _ ih => exact .list hlength fun p hp => ih p hp fun hsome => hnone (.list hp hsome)
    | map hkeys _ ih =>
        exact .map hkeys fun k v w hv hw => ih k v w hv hw fun hsome => hnone (.map hv hw hsome)

theorem typeName_eq_bool {v : Value} (h : v.typeName = "bool") : ∃ b, v = .bool b := by
  cases v with
  | bool b => exact ⟨b, rfl⟩
  | _ => simp [typeName] at h

/-- Two values that are alike and not mixed are of one type, or they are two numbers. -/
theorem typeName_of_alike {a b : Value} (h : Alike LooseLeaf a b) (hmixed : ¬ Mixed a b) :
    a.typeName = b.typeName ∨ (a.number?.isSome = true ∧ b.number?.isSome = true) := by
  cases h with
  | leaf h =>
      cases h.resolve_right hmixed with
      | number ha hb => exact .inr (by simp [ha, hb])
      | _ => exact .inl rfl
  | list => exact .inl rfl
  | map => exact .inl rfl

end Value

open Value

/-- **Strict equality is loose equality of values that are not mixed themselves.** -/
theorem strictEq_iff {a b : Value} (ha : Filterable a) (hb : Filterable b) :
    strictEq a b = true ↔ Alike LooseLeaf a b ∧ ¬ Mixed a b := by
  rw [strictEq.eq_def]
  -- Two truth values, a truth value on one side, an integer and a float, and everything else.
  split
  next b c =>
    have hnot : ¬ Mixed (.bool b) (.bool c) := by
      rintro (hmixed | hmixed) <;> cases hmixed
    have heq : (Value.bool b).eq (.bool c) = (b == c) := by
      rw [Value.eq] <;> simp [eqScalar]
    rw [← eq_iff_alike ha hb, heq]
    exact (and_iff_left hnot).symm
  next hb =>
    constructor
    · rintro ⟨⟩
    · rintro ⟨halike, hmixed⟩
      rcases typeName_of_alike halike hmixed with htype | ⟨⟨⟩, -⟩
      obtain ⟨c, hc⟩ := typeName_eq_bool htype.symm
      exact absurd hc (hb c)
  next ha =>
    constructor
    · rintro ⟨⟩
    · rintro ⟨halike, hmixed⟩
      rcases typeName_of_alike halike hmixed with htype | ⟨-, ⟨⟩⟩
      obtain ⟨c, hc⟩ := typeName_eq_bool htype
      exact absurd hc (ha c)
  next i x =>
    rw [eq_iff_alike ha hb]
    exact (and_iff_left (by rintro ⟨⟩)).symm
  next x i =>
    rw [eq_iff_alike ha hb]
    exact (and_iff_left (by rintro ⟨⟩)).symm
  next hleft hright _ hintfloat hfloatint =>
    rw [Bool.and_eq_true, beq_iff_eq, eq_iff_alike ha hb]
    constructor
    · rintro ⟨-, halike⟩
      refine ⟨halike, ?_⟩
      rintro (hmixed | hmixed)
      · exact hleft _ rfl
      · exact hright _ rfl
    · rintro ⟨halike, hmixed⟩
      refine ⟨?_, halike⟩
      -- Alike and not mixed, they have one type or are both numbers.
      rcases typeName_of_alike halike hmixed with htype | ⟨hx, hy⟩
      · exact htype
      · obtain ⟨q, hq⟩ := Option.isSome_iff_exists.1 hx
        obtain ⟨r, hr⟩ := Option.isSome_iff_exists.1 hy
        rcases number?_eq_some.1 hq with ⟨i, rfl, -⟩ | ⟨x, rfl, -⟩ <;>
          rcases number?_eq_some.1 hr with ⟨j, rfl, -⟩ | ⟨y, rfl, -⟩
        · rfl
        · exact (hintfloat i y rfl rfl).elim
        · exact (hfloatint x j rfl rfl).elim
        · rfl

/-- **Filters are strict at every depth, but for truth values within lists and mappings.** Two
values with the same leaves in the same shape are taken for equal; and two that are taken for equal
have the same leaves, unless somewhere within them a truth value stands where the other has the
number that it counts as. That is so since only the values themselves are kept from being mixed. -/
theorem strictEq_iff_alike {a b : Value} (ha : Filterable a) (hb : Filterable b) :
    (Alike SameLeaf a b ↔ strictEq a b = true ∧ ¬ Somewhere Mixed a b) ∧
      (strictEq a b = true ↔ Alike LooseLeaf a b ∧ ¬ Mixed a b) := by
  refine ⟨?_, strictEq_iff ha hb⟩
  rw [alike_sameLeaf_iff, strictEq_iff ha hb, and_assoc]
  exact and_congr_right fun _ => (and_iff_right_of_imp fun h hmixed => h (.here hmixed)).symm

/-- Mappings with lists in them; the keys are in another order, and an integer is for a float. -/
theorem strictEq_iff_alike_reordered :
    let half : Binary64 := ⟨0x3FE0000000000000⟩
    let two : Binary64 := ⟨0x4000000000000000⟩
    let a : Value := .map [(.text "x", .list [.int 2, .float half]), (.text "y", .bool true)]
    let b : Value := .map [(.text "y", .bool true), (.text "x", .list [.float two, .float half])]
    (Filterable a ∧ Filterable b) ∧ Alike SameLeaf a b ∧ strictEq a b = true ∧
      ¬ Somewhere Mixed a b := by
  intro half two a b
  have hhalf : half.isFinite = true := by decide +kernel
  have htwo : two.isFinite = true := by decide +kernel
  have hequal : Binary64.eqInt 2 two = true := by decide +kernel
  have ha : Filterable a := by
    refine .map (by simp) (by simp [Assoc.keys]) ?_
    simp only [List.forall_mem_cons]
    exact ⟨.list (by simp [Filterable.int, Filterable.float hhalf]), .bool true, by simp⟩
  have hb : Filterable b := by
    refine .map (by simp) (by simp [Assoc.keys]) ?_
    simp only [List.forall_mem_cons]
    exact ⟨.bool true, .list (by simp [Filterable.float htwo, Filterable.float hhalf]), by simp⟩
  have hlist : Alike SameLeaf (.list [.int 2, .float half]) (.list [.float two, .float half]) := by
    obtain ⟨q, hq⟩ := Binary64.exists_rat?_iff.1 hhalf
    refine .list rfl ?_
    simp only [List.zip_cons_cons, List.zip_nil_right, List.forall_mem_cons]
    exact ⟨.leaf (.number rfl (Binary64.eqInt_iff.1 hequal)), .leaf (.number hq hq), by simp⟩
  have halike : Alike SameLeaf a b := by
    refine .map (.swap _ _ _) fun k v w hv hw => ?_
    rcases List.mem_pair.1 hv with hv | hv <;> obtain ⟨rfl, rfl⟩ := Prod.mk.inj hv
    · have hw : w = .list [.float two, .float half] := by simpa using hw
      rw [hw]
      exact hlist
    · have hw : w = .bool true := by simpa using hw
      rw [hw]
      exact .leaf (.bool true)
  exact ⟨⟨ha, hb⟩, halike, (strictEq_iff_alike ha hb).1.1 halike⟩

/-- Within a list or a mapping a truth value is taken for a number. -/
theorem strictEq_within_mixed :
    (strictEq (.list [.int 1]) (.list [.bool true]) = true ∧
      ¬ Alike SameLeaf (.list [.int 1]) (.list [.bool true])) ∧
    strictEq (.map [(.text "a", .bool false)]) (.map [(.text "a", .int 0)]) = true ∧
      ¬ Alike SameLeaf (.map [(.text "a", .bool false)]) (.map [(.text "a", .int 0)]) := by
  have hnot : ∀ {a b : Value}, Somewhere Mixed a b → ¬ Alike SameLeaf a b :=
    fun hmixed h => (alike_sameLeaf_iff.1 h).2 hmixed
  refine ⟨⟨by decide +kernel, hnot (.list (List.mem_singleton_self _) (.here (.right ?_)))⟩,
    by decide +kernel, hnot (.map (List.mem_singleton_self _) (List.mem_singleton_self _)
      (.here (.left ?_)))⟩
  · simp [number?]
  · simp [number?]

end Winnow
