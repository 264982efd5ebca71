/-!
# Ordered associations

Lists of keyed entries in the order in which their keys first came. Writing a key that is there
keeps its place and replaces its value.
-/

namespace Winnow

/-- Entries in the order of their keys' first appearance. -/
abbrev Assoc (κ : Type u) (α : Type v) := List (κ × α)

/-! ## Distinct elements -/

theorem nodup_eraseDups {α : Type u} [BEq α] [LawfulBEq α] (xs : List α) :
    xs.eraseDups.Nodup := by
  cases xs with
  | nil => exact List.nodup_nil
  | cons x xs =>
      rw [List.eraseDups_cons, List.nodup_cons, List.mem_eraseDups]
      exact ⟨by simp, nodup_eraseDups _⟩
termination_by xs.length
decreasing_by exact Nat.lt_succ_of_le (List.length_filter_le ..)

theorem eraseDups_sublist {α : Type u} [BEq α] (xs : List α) : xs.eraseDups.Sublist xs := by
  cases xs with
  | nil => exact .slnil
  | cons x xs =>
      rw [List.eraseDups_cons]
      exact .cons_cons _ ((eraseDups_sublist _).trans List.filter_sublist)
termination_by xs.length
decreasing_by exact Nat.lt_succ_of_le (List.length_filter_le ..)

namespace Assoc

variable {κ : Type u} {α : Type v} [BEq κ]

/-- The value of the first entry under a key. -/
def get? (k : κ) : Assoc κ α → Option α
  | [] => none
  | (k', v) :: rest => if k == k' then some v else get? k rest

def contains (k : κ) (m : Assoc κ α) : Bool := (get? k m).isSome

/-- Replaces the value under a key in place, or adds an entry at the end. -/
def insert (m : Assoc κ α) (k : κ) (v : α) : Assoc κ α :=
  match m with
  | [] => [(k, v)]
  | (k', v') :: rest => if k == k' then (k', v) :: rest else (k', v') :: insert rest k v

/-- Writes the entries of `n` one by one. -/
def merge (m n : Assoc κ α) : Assoc κ α := n.foldl (fun acc (k, v) => insert acc k v) m

/-- The association that results from writing entries that may repeat a key. -/
def ofList (entries : List (κ × α)) : Assoc κ α := merge [] entries

def keys (m : Assoc κ α) : List κ := m.map Prod.fst

/-! ## Reading what was written -/

theorem get?_map {β : Type w} (f : α → β) (k : κ) (m : Assoc κ α) :
    get? k (m.map fun e => (e.1, f e.2)) = (get? k m).map f := by
  induction m with
  | nil => rfl
  | cons e m ih =>
      obtain ⟨k', v⟩ := e
      simp only [List.map_cons, get?, ih]
      split <;> rfl

/-- Writing an entry brings in no other values. -/
theorem mem_insert {m : Assoc κ α} {k : κ} {v : α} {e : κ × α} (h : e ∈ insert m k v) :
    e ∈ m ∨ e.2 = v := by
  induction m with
  | nil =>
      rw [insert, List.mem_singleton] at h
      exact .inr (congrArg Prod.snd h)
  | cons d m ih =>
      obtain ⟨k', v'⟩ := d
      rw [insert] at h
      split at h
      · rcases List.mem_cons.1 h with he | h
        · exact .inr (congrArg Prod.snd he)
        · exact .inl (List.mem_cons_of_mem _ h)
      · rcases List.mem_cons.1 h with he | h
        · exact .inl (he ▸ List.mem_cons_self)
        · rcases ih h with h | h
          · exact .inl (List.mem_cons_of_mem _ h)
          · exact .inr h

/-- The values of merged associations come from one of the two. -/
theorem mem_merge {m n : Assoc κ α} {e : κ × α} (h : e ∈ merge m n) :
    e ∈ m ∨ e.2 ∈ n.map Prod.snd := by
  induction n generalizing m with
  | nil => exact .inl h
  | cons d n ih =>
      rcases ih h with h | h
      · rcases mem_insert h with h | h
        · exact .inl h
        · exact .inr (h ▸ List.mem_cons_self)
      · exact .inr (List.mem_cons_of_mem _ h)

theorem snd_mem_of_mem_ofList {entries : Assoc κ α} {e : κ × α} (h : e ∈ ofList entries) :
    e.2 ∈ entries.map Prod.snd := by
  rcases mem_merge h with h | h
  · cases h
  · exact h

/-- Writing an entry brings in no other keys. -/
theorem fst_of_mem_insert {m : Assoc κ α} {k : κ} {v : α} {e : κ × α} (h : e ∈ insert m k v) :
    e.1 ∈ keys m ∨ e.1 = k := by
  induction m with
  | nil =>
      rw [insert, List.mem_singleton] at h
      exact .inr (congrArg Prod.fst h)
  | cons d m ih =>
      obtain ⟨k', v'⟩ := d
      rw [keys, List.map_cons, List.mem_cons]
      rw [insert] at h
      split at h
      · rcases List.mem_cons.1 h with rfl | h
        · exact .inl (.inl rfl)
        · exact .inl (.inr (List.mem_map_of_mem h))
      · rcases List.mem_cons.1 h with rfl | h
        · exact .inl (.inl rfl)
        · exact (ih h).imp_left .inr

theorem fst_of_mem_merge {m n : Assoc κ α} {e : κ × α} (h : e ∈ merge m n) :
    e.1 ∈ keys m ∨ e.1 ∈ keys n := by
  induction n generalizing m with
  | nil => exact .inl (List.mem_map_of_mem h)
  | cons d n ih =>
      rcases ih h with h | h
      · obtain ⟨d', hd', hkey⟩ := List.mem_map.1 h
        rcases fst_of_mem_insert hd' with h | h
        · exact .inl (hkey ▸ h)
        · exact .inr (hkey ▸ h ▸ List.mem_cons_self)
      · exact .inr (List.mem_cons_of_mem _ h)

theorem fst_mem_of_mem_ofList {entries : Assoc κ α} {e : κ × α} (h : e ∈ ofList entries) :
    e.1 ∈ entries.keys := by
  rcases fst_of_mem_merge h with h | h
  · cases h
  · exact h

section Lawful

variable [LawfulBEq κ]

@[simp] theorem get?_cons_self (k : κ) (v : α) (m : Assoc κ α) :
    get? k ((k, v) :: m) = some v := by
  simp [get?]

theorem get?_cons_of_ne {k k' : κ} (h : k ≠ k') (v : α) (m : Assoc κ α) :
    get? k ((k', v) :: m) = get? k m := by
  simp [get?, h]

@[simp] theorem get?_insert_self (k : κ) (v : α) (m : Assoc κ α) :
    get? k (insert m k v) = some v := by
  induction m with
  | nil => simp [insert]
  | cons e m ih =>
      obtain ⟨k', v'⟩ := e
      rw [insert]
      split
      next h => simp [get?, h]
      next h => simp [get?, h, ih]

theorem get?_insert_of_ne {k k' : κ} (h : k ≠ k') (v : α) (m : Assoc κ α) :
    get? k (insert m k' v) = get? k m := by
  induction m with
  | nil => simp [insert, get?, h]
  | cons e m ih =>
      obtain ⟨k'', v''⟩ := e
      rw [insert]
      split
      next hk =>
          have hk' : k' = k'' := by simpa using hk
          subst hk'
          rw [get?_cons_of_ne h, get?_cons_of_ne h]
      next hk => simp only [get?, ih]

theorem get?_eq_none_iff {k : κ} {m : Assoc κ α} : get? k m = none ↔ k ∉ keys m := by
  induction m with
  | nil => simp [get?, keys]
  | cons e m ih =>
      obtain ⟨k', v'⟩ := e
      by_cases h : k = k'
      · simp [get?, keys, h]
      · rw [get?_cons_of_ne h, ih]
        simp [keys, h]

theorem mem_of_get?_eq_some {k : κ} {v : α} {m : Assoc κ α} (h : get? k m = some v) :
    (k, v) ∈ m := by
  induction m with
  | nil => simp [get?] at h
  | cons e m ih =>
      obtain ⟨k', v'⟩ := e
      by_cases hk : k = k'
      · subst hk
        rw [get?_cons_self] at h
        cases h
        exact List.mem_cons_self
      · rw [get?_cons_of_ne hk] at h
        exact List.mem_cons_of_mem _ (ih h)

theorem get?_eq_some_iff_mem {k : κ} {v : α} {m : Assoc κ α} (hm : (keys m).Nodup) :
    get? k m = some v ↔ (k, v) ∈ m := by
  refine ⟨mem_of_get?_eq_some, fun h => ?_⟩
  induction m with
  | nil => simp at h
  | cons e m ih =>
      obtain ⟨k', v'⟩ := e
      rw [keys, List.map_cons, List.nodup_cons] at hm
      rcases List.mem_cons.1 h with he | ht
      · cases he
        exact get?_cons_self ..
      · have hk : k ≠ k' := fun e => hm.1 (e ▸ List.mem_map.2 ⟨(k, v), ht, rfl⟩)
        rw [get?_cons_of_ne hk]
        exact ih hm.2 ht

/-- A value that is read from written entries is that of one of them. -/
theorem mem_of_get?_merge {m n : Assoc κ α} {k : κ} {v : α} (h : get? k (merge m n) = some v) :
    get? k m = some v ∨ (k, v) ∈ n := by
  induction n generalizing m with
  | nil => exact .inl h
  | cons e n ih =>
      rcases ih h with h | h
      · by_cases hk : k = e.1
        · rw [hk, get?_insert_self] at h
          cases h
          exact .inr (hk ▸ List.mem_cons_self)
        · rw [get?_insert_of_ne hk] at h
          exact .inl h
      · exact .inr (List.mem_cons_of_mem _ h)

theorem mem_of_get?_ofList {entries : Assoc κ α} {k : κ} {v : α}
    (h : get? k (ofList entries) = some v) : (k, v) ∈ entries := by
  rcases mem_of_get?_merge h with h | h
  · cases h
  · exact h

theorem mem_keys_insert {m : Assoc κ α} {k k' : κ} {v : α} :
    k ∈ keys (insert m k' v) ↔ k ∈ keys m ∨ k = k' := by
  induction m with
  | nil => simp [insert, keys]
  | cons e m ih =>
      obtain ⟨k'', v'⟩ := e
      rw [insert]
      split
      next h =>
          have hk : k' = k'' := by simpa using h
          simp only [keys, List.map_cons, List.mem_cons, hk]
          grind
      next h =>
          simp only [keys, List.map_cons, List.mem_cons] at ih ⊢
          rw [ih]
          exact or_assoc.symm

theorem keys_insert_of_mem {m : Assoc κ α} {k : κ} (v : α) (h : k ∈ keys m) :
    keys (insert m k v) = keys m := by
  induction m with
  | nil => simp [keys] at h
  | cons e m ih =>
      obtain ⟨k', v'⟩ := e
      by_cases hk : k = k'
      · simp [insert, keys, hk]
      · have hrest : k ∈ keys m := by simpa [keys, hk] using h
        simpa [insert, keys, hk] using ih hrest

theorem keys_insert_of_not_mem {m : Assoc κ α} {k : κ} (v : α) (h : k ∉ keys m) :
    keys (insert m k v) = keys m ++ [k] := by
  induction m with
  | nil => rfl
  | cons e m ih =>
      obtain ⟨k', v'⟩ := e
      have hk : k ≠ k' ∧ k ∉ keys m := by simpa [keys] using h
      simpa [insert, keys, hk.1] using ih hk.2

theorem insert_of_not_mem {m : Assoc κ α} {k : κ} (v : α) (h : k ∉ keys m) :
    insert m k v = m ++ [(k, v)] := by
  induction m with
  | nil => rfl
  | cons e m ih =>
      obtain ⟨k', v'⟩ := e
      have hk : k ≠ k' ∧ k ∉ keys m := by simpa [keys] using h
      simpa [insert, hk.1] using ih hk.2

theorem merge_of_nodup {m n : Assoc κ α} (h : (keys (m ++ n)).Nodup) : merge m n = m ++ n := by
  induction n generalizing m with
  | nil => exact (List.append_nil m).symm
  | cons e n ih =>
      have hsplit : m ++ e :: n = m ++ [(e.1, e.2)] ++ n := by simp
      have hstep : merge m (e :: n) = merge (insert m e.1 e.2) n := rfl
      have hnew : e.1 ∉ keys m := by
        intro hmem
        rw [keys, List.map_append, List.map_cons, List.nodup_append] at h
        exact h.2.2 _ hmem _ List.mem_cons_self rfl
      rw [hstep, insert_of_not_mem _ hnew, ih (hsplit ▸ h), hsplit]

/-- Entries of which no two have the same key are written as they are. -/
theorem ofList_of_nodup {m : Assoc κ α} (h : (keys m).Nodup) : ofList m = m := merge_of_nodup h

/-- Keys that are new come behind the ones that are there, in the order in which they first come. -/
theorem keys_merge (m n : Assoc κ α) :
    keys (merge m n) = keys m ++ ((keys n).filter fun k => !(keys m).contains k).eraseDups := by
  induction n generalizing m with
  | nil => simp [merge, keys]
  | cons e n ih =>
      obtain ⟨k, v⟩ := e
      have hstep : merge m ((k, v) :: n) = merge (insert m k v) n := rfl
      have hkeys : keys ((k, v) :: n) = k :: keys n := rfl
      rw [hstep, ih, hkeys]
      by_cases hk : k ∈ keys m
      · rw [keys_insert_of_mem v hk, List.filter_cons_of_neg (by simpa using hk)]
      · rw [keys_insert_of_not_mem v hk, List.filter_cons_of_pos (by simpa using hk),
          List.eraseDups_cons, List.filter_filter, List.append_assoc, List.singleton_append]
        congr 3
        refine List.filter_congr fun j _ => ?_
        by_cases hj : j = k <;> simp [hj]

/-- Written entries keep the order in which their keys first came. -/
theorem keys_ofList (entries : Assoc κ α) : keys (ofList entries) = (keys entries).eraseDups := by
  have hnew : (keys entries).filter (fun k => !(keys ([] : Assoc κ α)).contains k) = keys entries :=
    List.filter_eq_self.2 fun _ _ => rfl
  rw [ofList, keys_merge, hnew]
  rfl

theorem mem_keys_merge {m n : Assoc κ α} {k : κ} :
    k ∈ keys (merge m n) ↔ k ∈ keys m ∨ k ∈ keys n := by
  induction n generalizing m with
  | nil => simp [merge, keys]
  | cons e n ih =>
      have hstep : merge m (e :: n) = merge (insert m e.1 e.2) n := rfl
      rw [hstep, ih, mem_keys_insert]
      simp only [keys, List.map_cons, List.mem_cons]
      exact or_assoc

/-! ## Writing one after the other -/

theorem insert_insert_self (m : Assoc κ α) (k : κ) (v w : α) :
    insert (insert m k v) k w = insert m k w := by
  induction m with
  | nil => simp [insert]
  | cons e m ih =>
      obtain ⟨k', v'⟩ := e
      by_cases hk : k = k'
      · simp [insert, hk]
      · simp [insert, hk, ih]

/-- A key that is there keeps its place, so it does not matter when its value is replaced. -/
theorem insert_insert_comm {m : Assoc κ α} {j k : κ} (hk : k ∈ keys m) (hjk : j ≠ k) (v w : α) :
    insert (insert m j w) k v = insert (insert m k v) j w := by
  induction m with
  | nil => simp [keys] at hk
  | cons e m ih =>
      obtain ⟨k', v'⟩ := e
      by_cases hj : j = k'
      · subst hj
        simp [insert, Ne.symm hjk]
      · by_cases hkk : k = k'
        · subst hkk
          simp [insert, hjk]
        · have hrest : k ∈ keys m := by simpa [keys, hkk] using hk
          simp [insert, hj, hkk, ih hrest]

theorem insert_merge {m n : Assoc κ α} {k : κ} (hk : k ∈ keys m) (hn : k ∉ keys n) (v : α) :
    insert (merge m n) k v = merge (insert m k v) n := by
  induction n generalizing m with
  | nil => rfl
  | cons e n ih =>
      obtain ⟨j, w⟩ := e
      have hne : k ≠ j ∧ k ∉ keys n := by simpa [keys] using hn
      show insert (merge (insert m j w) n) k v = merge (insert (insert m k v) j w) n
      rw [ih (mem_keys_insert.2 (.inl hk)) hne.2, insert_insert_comm hk hne.1.symm]

theorem merge_insert (m : Assoc κ α) {n : Assoc κ α} (hn : (keys n).Nodup) (k : κ) (v : α) :
    merge m (insert n k v) = insert (merge m n) k v := by
  induction n generalizing m with
  | nil => rfl
  | cons e n ih =>
      obtain ⟨k', v'⟩ := e
      obtain ⟨hnew, hrest⟩ := List.nodup_cons.1 hn
      by_cases hk : k = k'
      · -- The value is replaced in place, before or after the rest is written.
        subst hk
        have hfirst : insert ((k, v') :: n) k v = (k, v) :: n := by simp [insert]
        have hkey : k ∈ keys (insert m k v') := mem_keys_insert.2 (.inr rfl)
        rw [hfirst]
        show merge (insert m k v) n = insert (merge (insert m k v') n) k v
        rw [insert_merge hkey hnew, insert_insert_self]
      · have hfirst : insert ((k', v') :: n) k v = (k', v') :: insert n k v := by
          simp [insert, hk]
        rw [hfirst]
        exact ih _ hrest

theorem nodup_keys_insert {m : Assoc κ α} (hm : (keys m).Nodup) (k : κ) (v : α) :
    (keys (insert m k v)).Nodup := by
  by_cases hk : k ∈ keys m
  · rwa [keys_insert_of_mem v hk]
  · rw [keys_insert_of_not_mem v hk]
    refine List.nodup_append.2 ⟨hm, by simp, ?_⟩
    intro j hj j' hj' he
    rw [he, List.mem_singleton.1 hj'] at hj
    exact hk hj

theorem nodup_keys_merge {m : Assoc κ α} (hm : (keys m).Nodup) (n : Assoc κ α) :
    (keys (merge m n)).Nodup := by
  induction n generalizing m with
  | nil => exact hm
  | cons e n ih => exact ih (nodup_keys_insert hm e.1 e.2)

/-- Entries may be written one after the other or together. -/
theorem merge_merge (m : Assoc κ α) {n : Assoc κ α} (hn : (keys n).Nodup) (l : Assoc κ α) :
    merge m (merge n l) = merge (merge m n) l := by
  induction l generalizing n with
  | nil => rfl
  | cons e l ih =>
      obtain ⟨k, v⟩ := e
      show merge m (merge (insert n k v) l) = merge (insert (merge m n) k v) l
      rw [ih (nodup_keys_insert hn k v), merge_insert m hn]

end Lawful

end Assoc

end Winnow
