import Winnow.Proofs.Files.Ordering

/-!
# The order of entries in a directory does not matter

A directory gives its entries in no particular order. Where a tree is read with its entries in
another order (`Entry.Shuffled`), paths lead to the same places (`follow_alike`), and directories
are read as the same, since their entries are sorted by name (`Spot.scan_alike`). So a search lists
the same files in the same order, which is the one that `FileSearch.Precedes` tells
(`FileSearch.listing_canonical`).

Directories that cannot be read are the exception (`FileSearch.listing_stopped_by_order`). A
directory is read up to the first entry that stops it: a link through a file makes it look empty,
any other link that cannot be followed ends the search. In a directory with links of both kinds
(`Place.Torn`) the order tells which of them it is. What was listed until then is the same either
way (`Agrees`).
-/

namespace Winnow.Files

open Pattern

/-! ## Trees in another order -/

/-- The same tree with the entries of its directories in another order. -/
inductive Entry.Shuffled : Entry → Entry → Prop
  | file (content : List UInt8) : Shuffled (.file content) (.file content)
  | link (target : String) : Shuffled (.link target) (.link target)
  | dir {es es' : Entries} (hnodup : es.keys.Nodup) (hkeys : es.keys.Perm es'.keys)
      (hentries : ∀ name e e', (name, e) ∈ es → (name, e') ∈ es' → Shuffled e e') :
      Shuffled (.dir es) (.dir es')

/-- The same entries in another order. -/
def Entries.Shuffled (es es' : Entries) : Prop := Entry.Shuffled (.dir es) (.dir es')

namespace Entries.Shuffled

variable {es es' : Entries} {name : String} {e e' : Entry}

theorem nodup (h : Entries.Shuffled es es') : es.keys.Nodup := by
  cases h with
  | dir hnodup => exact hnodup

theorem keys_perm (h : Entries.Shuffled es es') : es.keys.Perm es'.keys := by
  cases h with
  | dir _ hkeys => exact hkeys

theorem entry (h : Entries.Shuffled es es') (he : (name, e) ∈ es) (he' : (name, e') ∈ es') :
    e.Shuffled e' := by
  cases h with
  | dir _ _ hentries => exact hentries _ _ _ he he'

theorem exists_mem (h : Entries.Shuffled es es') (he : (name, e) ∈ es) :
    ∃ e', (name, e') ∈ es' ∧ e.Shuffled e' := by
  obtain ⟨⟨_, e'⟩, he', rfl⟩ := List.mem_map.1 (h.keys_perm.subset (List.mem_map_of_mem he))
  exact ⟨e', he', h.entry he he'⟩

theorem exists_mem_left (h : Entries.Shuffled es es') (he' : (name, e') ∈ es') :
    ∃ e, (name, e) ∈ es ∧ e.Shuffled e' := by
  obtain ⟨⟨_, e⟩, he, rfl⟩ := List.mem_map.1 (h.keys_perm.symm.subset (List.mem_map_of_mem he'))
  exact ⟨e, he, h.entry he he'⟩

theorem get?_none (h : Entries.Shuffled es es') (hget : Assoc.get? name es = none) :
    Assoc.get? name es' = none :=
  Assoc.get?_eq_none_iff.2 fun hmem =>
    Assoc.get?_eq_none_iff.1 hget (h.keys_perm.mem_iff.2 hmem)

theorem exists_get? (h : Entries.Shuffled es es') (hget : Assoc.get? name es = some e) :
    ∃ e', Assoc.get? name es' = some e' ∧ e.Shuffled e' := by
  obtain ⟨e', he', hshuffled⟩ := h.exists_mem (Assoc.mem_of_get?_eq_some hget)
  exact ⟨e', (Assoc.get?_eq_some_iff_mem (h.keys_perm.nodup_iff.1 h.nodup)).2 he', hshuffled⟩

/-- Entries in another order that have themselves kept theirs. -/
theorem of_perm (hnodup : es.keys.Nodup) (h : es.Perm es')
    (hself : ∀ entry ∈ es, entry.2.Shuffled entry.2) : Entries.Shuffled es es' := by
  refine .dir hnodup (h.map _) fun name e e' he he' => ?_
  have hget := (Assoc.get?_eq_some_iff_mem hnodup).2 he
  rw [(Assoc.get?_eq_some_iff_mem hnodup).2 (h.symm.subset he')] at hget
  cases hget
  exact hself _ he

end Entries.Shuffled

/-- The same place of a tree with its entries in another order. -/
structure Place.Shuffled (p p' : Place) : Prop where
  here : Entries.Shuffled p.here p'.here
  around : List.Forall₂ Entries.Shuffled p.around p'.around

namespace Place.Shuffled

variable {p p' : Place}

theorem enter {es es' : Entries} (h : p.Shuffled p') (hes : Entries.Shuffled es es') :
    (p.enter es).Shuffled (p'.enter es') :=
  ⟨hes, .cons h.here h.around⟩

theorem up (h : p.Shuffled p') : p.up.Shuffled p'.up := by
  obtain ⟨here, around⟩ := p
  obtain ⟨here', around'⟩ := p'
  obtain ⟨hhere, haround⟩ := h
  cases haround with
  | nil => exact ⟨hhere, .nil⟩
  | cons hes hrest => exact ⟨hes, hrest⟩

theorem top (h : p.Shuffled p') : p.top.Shuffled p'.top := by
  obtain ⟨here, around⟩ := p
  obtain ⟨here', around'⟩ := p'
  obtain ⟨hhere, haround⟩ := h
  refine ⟨?_, .nil⟩
  dsimp only [Place.top] at hhere haround ⊢
  induction haround generalizing here here' with
  | nil => exact hhere
  | cons hes _ ih =>
      rw [List.getLastD_cons, List.getLastD_cons]
      exact ih _ _ hes

theorem origin (h : p.Shuffled p') (target : String) :
    (p.origin target).Shuffled (p'.origin target) := by
  rw [Place.origin, Place.origin]
  split
  · exact h.top
  · exact h

end Place.Shuffled

/-! ## Paths lead to the same places -/

/-- The same outcome of following a path, up to the order of entries. -/
inductive FollowsAlike : Except FileFault Found → Except FileFault Found → Prop
  | error (f : FileFault) : FollowsAlike (.error f) (.error f)
  | file (content : List UInt8) : FollowsAlike (.ok (.file content)) (.ok (.file content))
  | dir {p p' : Place} (h : p.Shuffled p') : FollowsAlike (.ok (.dir p)) (.ok (.dir p'))

theorem follow_alike {links : Nat} {p p' : Place} {names : List String} (h : p.Shuffled p') :
    FollowsAlike (follow links p names) (follow links p' names) := by
  -- Names are unique in a directory, so looking one up does not depend on the order of entries.
  fun_induction follow links p names generalizing p' with
  | case1 =>
      rw [follow]
      exact .dir h
  | case2 _ _ _ _ hname ih =>
      rw [follow, if_pos hname]
      exact ih h
  | case3 _ _ _ hname ih =>
      rw [follow, if_neg hname, if_pos rfl]
      exact ih h.up
  | case4 _ _ _ _ hname hdots hlong =>
      rw [follow, if_neg hname, if_neg hdots, if_pos hlong]
      exact .error _
  | case5 _ _ _ _ hname hdots hlong hget =>
      rw [follow, if_neg hname, if_neg hdots, if_neg hlong, h.here.get?_none hget]
      exact .error _
  | case6 _ _ _ _ hname hdots hlong _ hget ih =>
      obtain ⟨e', hget', he⟩ := h.here.exists_get? hget
      cases he' : e' with
      | dir es' =>
          subst he'
          rw [follow, if_neg hname, if_neg hdots, if_neg hlong, hget']
          exact ih (h.enter he)
      | _ => subst he'; cases he
  | case7 _ _ _ hname hdots hlong _ hget =>
      obtain ⟨_, hget', ⟨⟩⟩ := h.here.exists_get? hget
      rw [follow, if_neg hname, if_neg hdots, if_neg hlong, hget']
      exact .file _
  | case8 _ _ _ _ hname hdots hlong _ hget hrest =>
      obtain ⟨_, hget', ⟨⟩⟩ := h.here.exists_get? hget
      rw [follow, if_neg hname, if_neg hdots, if_neg hlong, hget']
      dsimp only
      rw [if_neg hrest]
      exact .error _
  | case9 _ _ _ hname hdots hlong _ hget =>
      obtain ⟨_, hget', ⟨⟩⟩ := h.here.exists_get? hget
      rw [follow, if_neg hname, if_neg hdots, if_neg hlong, hget']
      exact .error _
  | case10 _ _ _ hname hdots hlong _ hget _ ih =>
      obtain ⟨_, hget', ⟨⟩⟩ := h.here.exists_get? hget
      rw [follow, if_neg hname, if_neg hdots, if_neg hlong, hget']
      exact ih (h.origin _)

theorem kind_eq {p p' : Place} {e e' : Entry} (h : p.Shuffled p') (he : e.Shuffled e') :
    p.kind e = p'.kind e' := by
  cases he with
  | file => rfl
  | dir => rfl
  | link target =>
      have hfollow : FollowsAlike (follow (maxLinks - 1) (p.origin target) (pieces target))
          (follow (maxLinks - 1) (p'.origin target) (pieces target)) :=
        follow_alike (h.origin target)
      rw [Place.kind, Place.kind]
      generalize follow (maxLinks - 1) (p.origin target) (pieces target) = r at hfollow ⊢
      generalize follow (maxLinks - 1) (p'.origin target) (pieces target) = r' at hfollow ⊢
      cases hfollow <;> rfl

/-! ## Directories are read as the same -/

theorem sortByName_eq_of_perm {α : Type} {xs ys : List (String × α)} (h : xs.Perm ys)
    (hnodup : (xs.map Prod.fst).Nodup) : sortByName xs = sortByName ys := by
  refine List.Perm.eq_of_pairwise (fun a b _ _ hab hba => absurd hab hba.asymm)
    (pairwise_sortByName hnodup) (pairwise_sortByName ((h.map Prod.fst).nodup_iff.1 hnodup)) ?_
  exact (sortByName_perm xs).trans (h.trans (sortByName_perm ys).symm)

/-- Sorted by name, entries of the same names stand in the same places. -/
theorem map_fst_sortByName {α β : Type} {xs : List (String × α)} {ys : List (String × β)}
    (h : (xs.map Prod.fst).Perm (ys.map Prod.fst)) (hnodup : (xs.map Prod.fst).Nodup) :
    (sortByName xs).map Prod.fst = (sortByName ys).map Prod.fst := by
  refine List.Perm.eq_of_pairwise (fun a b _ _ hab hba => absurd hab hba.asymm)
    (List.pairwise_map.2 (pairwise_sortByName hnodup))
    (List.pairwise_map.2 (pairwise_sortByName (h.nodup_iff.1 hnodup))) ?_
  exact ((sortByName_perm xs).map _).trans (h.trans ((sortByName_perm ys).map _).symm)

/-- The same directory of a tree with its entries in another order. The paths that begin there are
the same. -/
structure Spot.Shuffled (root : Entries) (s s' : Spot) : Prop where
  below : Place.Below ⟨root, []⟩ s.place
  place : s.place.Shuffled s'.place
  head : s.head = s'.head

/-- Whether some directory below a place has both a link through a file and a link that cannot be
followed for another reason. -/
def Place.Torn (p : Place) : Prop :=
  ∃ q, p.Below q ∧ ∃ e ∈ q.here, ∃ e' ∈ q.here, q.kind e.2 = .error .notDirectory ∧
    ∃ f, f ≠ .notDirectory ∧ q.kind e'.2 = .error f

/-- What reading a directory in another order may change. One order may come across a link through a
file, which makes the directory look empty, and the other one across an error. -/
inductive ReadsAlike (torn : Prop) :
    Except Error (List (String × Kind)) → Except Error (List (String × Kind)) → Prop
  | read (ks : List (String × Kind)) : ReadsAlike torn (.ok ks) (.ok ks)
  | failed (e e' : Error) : ReadsAlike torn (.error e) (.error e')
  | left (h : torn) (e : Error) : ReadsAlike torn (.error e) (.ok [])
  | right (h : torn) (e : Error) : ReadsAlike torn (.ok []) (.error e)

theorem Place.Shuffled.kinds_perm {p p' : Place} (h : p.Shuffled p') :
    (p.here.map fun e => (e.1, p.kind e.2)).Perm (p'.here.map fun e => (e.1, p'.kind e.2)) := by
  have hnodup : (p.here.map fun e => (e.1, p.kind e.2)).Nodup := by
    refine List.Nodup.of_map Prod.fst ?_
    rw [List.map_map]
    exact h.here.nodup
  have hnodup' : (p'.here.map fun e => (e.1, p'.kind e.2)).Nodup := by
    refine List.Nodup.of_map Prod.fst ?_
    rw [List.map_map]
    exact h.here.keys_perm.nodup_iff.1 h.here.nodup
  refine (List.perm_ext_iff_of_nodup hnodup hnodup').2 fun k => ?_
  constructor
  · intro hk
    obtain ⟨⟨name, e⟩, he, rfl⟩ := List.mem_map.1 hk
    obtain ⟨e', he', hshuffled⟩ := h.here.exists_mem he
    rw [kind_eq h hshuffled]
    exact List.mem_map_of_mem (f := fun e => (e.1, p'.kind e.2)) he'
  · intro hk
    obtain ⟨⟨name, e'⟩, he', rfl⟩ := List.mem_map.1 hk
    obtain ⟨e, he, hshuffled⟩ := h.here.exists_mem_left he'
    rw [← kind_eq h hshuffled]
    exact List.mem_map_of_mem (f := fun e => (e.1, p.kind e.2)) he

namespace Spot

variable {s s' : Spot} {root : Entries}

/-- Entries that can be read in some order can be read in every order. -/
theorem exists_kinds_of_perm {es es' : Entries}
    (hperm : (es.map fun e => (e.1, s.place.kind e.2)).Perm
      (es'.map fun e => (e.1, s'.place.kind e.2)))
    {ks : List (String × Kind)} (h : s.kinds es = .ok ks) :
    ∃ ks', s'.kinds es' = .ok ks' ∧ ks.Perm ks' := by
  rw [kinds_eq_ok_iff.1 h] at hperm
  have hall : es'.map (fun e => (e.1, s'.place.kind e.2)) ∈
      Set.range (List.map fun k : String × Kind => (k.1, Except.ok k.2)) := by
    rw [Set.range_list_map]
    intro k hk
    obtain ⟨k, -, rfl⟩ := List.mem_map.1 (hperm.mem_iff.2 hk)
    exact ⟨k, rfl⟩
  obtain ⟨ks', hks'⟩ := hall
  rw [← hks'] at hperm
  exact ⟨ks', kinds_eq_ok_iff.2 hks'.symm, (List.map_perm_map_iff injective_read).1 hperm⟩

theorem scan_alike (h : s.Shuffled root s') :
    ReadsAlike (Place.Torn ⟨root, []⟩) s.scan s'.scan := by
  have hperm := h.place.kinds_perm
  cases hkinds : s.kinds s.place.here with
  | ok ks =>
      obtain ⟨ks', hkinds', hks⟩ := exists_kinds_of_perm hperm hkinds
      have hnodup : (ks.map Prod.fst).Nodup := map_fst_kinds hkinds ▸ h.place.here.nodup
      have hscan : s.scan = .ok (sortByName ks) := by rw [scan, hkinds]
      have hscan' : s'.scan = .ok (sortByName ks) := by
        rw [scan, hkinds', sortByName_eq_of_perm hks hnodup]
      rw [hscan, hscan']
      exact .read _
  | error d =>
      obtain ⟨f, path⟩ := d
      cases hkinds' : s'.kinds s'.place.here with
      | ok ks' =>
          obtain ⟨ks, hks, -⟩ := exists_kinds_of_perm hperm.symm hkinds'
          rw [hkinds] at hks
          cases hks
      | error d' =>
          obtain ⟨f', path'⟩ := d'
          obtain ⟨e, he, hkind⟩ := exists_of_kinds_eq_error hkinds
          -- The entry that stops the reading in the other order is here as well.
          obtain ⟨⟨name, d'⟩, hd', hkind'⟩ := exists_of_kinds_eq_error hkinds'
          obtain ⟨d, hd, hshuffled⟩ := h.place.here.exists_mem_left hd'
          rw [← kind_eq h.place hshuffled] at hkind'
          rcases scan_of_kinds_error hkinds with ⟨rfl, hscan⟩ | ⟨hf, hscan⟩ <;>
            rcases scan_of_kinds_error hkinds' with ⟨rfl, hscan'⟩ | ⟨hf', hscan'⟩ <;>
            rw [hscan, hscan']
          · exact .read []
          · exact .right ⟨s.place, h.below, e, he, _, hd, hkind, f', hf', hkind'⟩ _
          · exact .left ⟨s.place, h.below, _, hd, e, he, hkind', f, hf, hkind⟩ _
          · exact .failed _ _

end Spot

/-! ## Listings that agree -/

/-- What reading a tree in another order may change about a listing. It has the same identifiers,
and comes to its end either way or neither; or it ends in an error where the other one goes on. -/
inductive Agrees (torn : Prop) (a b : Listing) : Prop
  | same (hids : a.ids = b.ids) (hend : a.fault = none ↔ b.fault = none)
  | left (h : torn) (hfault : a.fault ≠ none) (hids : a.ids <+: b.ids)
  | right (h : torn) (hfault : b.fault ≠ none) (hids : b.ids <+: a.ids)

theorem andThen_of_end {a : Listing} (h : a.fault = none) (b : Listing) :
    andThen a b = ⟨a.ids ++ b.ids, b.fault⟩ := by
  rw [andThen, h]

theorem andThen_of_fault {a : Listing} (h : a.fault ≠ none) (b : Listing) : andThen a b = a := by
  obtain ⟨e, he⟩ := Option.ne_none_iff_exists'.1 h
  obtain ⟨ids, fault⟩ := a
  cases he
  rfl

theorem isPrefix_andThen (a b : Listing) : a.ids <+: (andThen a b).ids := by
  rw [andThen]
  split
  · exact List.prefix_rfl
  · exact List.prefix_append _ _

namespace Agrees

variable {torn : Prop} {a a' b b' : Listing}

theorem refl (a : Listing) : Agrees torn a a := .same rfl Iff.rfl

theorem symm (h : Agrees torn a b) : Agrees torn b a := by
  cases h with
  | same hids hend => exact .same hids.symm hend.symm
  | left h hfault hids => exact .right h hfault hids
  | right h hfault hids => exact .left h hfault hids

theorem andThen (h : Agrees torn a b) (h' : Agrees torn a' b') :
    Agrees torn (andThen a a') (andThen b b') := by
  cases h with
  | same hids hend =>
      by_cases ha : a.fault = none
      · rw [andThen_of_end ha, andThen_of_end (hend.1 ha), hids]
        cases h' with
        | same hids' hend' => exact .same (by rw [hids']) hend'
        | left h hfault hids' => exact .left h hfault ((List.prefix_append_right_inj _).2 hids')
        | right h hfault hids' => exact .right h hfault ((List.prefix_append_right_inj _).2 hids')
      · rw [andThen_of_fault ha, andThen_of_fault (mt hend.2 ha)]
        exact .same hids hend
  | left h hfault hids =>
      rw [andThen_of_fault hfault]
      exact .left h hfault (hids.trans (isPrefix_andThen b b'))
  | right h hfault hids =>
      rw [andThen_of_fault hfault]
      exact .right h hfault (hids.trans (isPrefix_andThen a a'))

theorem concat {ls ls' : List Listing} (h : List.Forall₂ (Agrees torn) ls ls') :
    Agrees torn (concat ls) (Files.concat ls') := by
  induction h with
  | nil => exact .refl _
  | cons hl _ ih => exact hl.andThen ih

/-- Listings still agree after what takes beginnings to beginnings. -/
theorem map {f : List String → List String} (hf : ∀ {xs ys}, xs <+: ys → f xs <+: f ys)
    (h : Agrees torn a b) : Agrees torn ⟨f a.ids, a.fault⟩ ⟨f b.ids, b.fault⟩ := by
  cases h with
  | same hids hend => exact .same (congrArg f hids) hend
  | left h hfault hids => exact .left h hfault (hf hids)
  | right h hfault hids => exact .right h hfault (hf hids)

/-- Listings that both come to their end are the same. -/
theorem eq_of_end (h : Agrees torn a b) (ha : a.fault = none) (hb : b.fault = none) : a = b := by
  cases h with
  | same hids =>
      obtain ⟨ids, fault⟩ := a
      obtain ⟨ids', fault'⟩ := b
      cases ha
      cases hb
      exact congrArg (Listing.mk · none) hids
  | left _ hfault => exact absurd ha hfault
  | right _ hfault => exact absurd hb hfault

/-- A listing that is stopped has the beginning of one that comes to its end. -/
theorem isPrefix (h : Agrees torn a b) (hb : b.fault = none) : a.ids <+: b.ids := by
  cases h with
  | same hids => exact hids ▸ List.prefix_rfl
  | left _ _ hids => exact hids
  | right _ hfault => exact absurd hb hfault

theorem failed (e e' : Error) : Agrees torn ⟨[], some e⟩ ⟨[], some e'⟩ :=
  .same rfl (by simp)

theorem stopped_left (h : torn) (e : Error) (b : Listing) : Agrees torn ⟨[], some e⟩ b :=
  .left h (by simp) List.nil_prefix

theorem stopped_right (h : torn) (e : Error) (a : Listing) : Agrees torn a ⟨[], some e⟩ :=
  .right h (by simp) List.nil_prefix

end Agrees

/-! ## Walks list the same -/

theorem forall₂_snd {α : Type} {r : α → α → Prop} {xs ys : List (String × α)}
    (hnames : xs.map Prod.fst = ys.map Prod.fst)
    (h : ∀ name a b, (name, a) ∈ xs → (name, b) ∈ ys → r a b) :
    List.Forall₂ r (xs.map Prod.snd) (ys.map Prod.snd) := by
  induction xs generalizing ys with
  | nil =>
      cases ys with
      | nil => exact .nil
      | cons => cases hnames
  | cons x xs ih =>
      cases ys with
      | nil => cases hnames
      | cons y ys =>
          obtain ⟨name, a⟩ := x
          obtain ⟨name', b⟩ := y
          obtain ⟨rfl, hrest⟩ := List.cons.inj hnames
          refine .cons (h name a b List.mem_cons_self List.mem_cons_self) (ih hrest ?_)
          exact fun n a b ha hb => h n a b (List.mem_cons_of_mem _ ha) (List.mem_cons_of_mem _ hb)

theorem descendEntries_eq_map (f : Spot → Listing) (s : Spot) (entries : Entries) :
    descendEntries f s entries = entries.map fun e =>
      (e.1, descendEntry f (s.place.here :: s.place.around) (s.pathOf e.1)
        (s.head ++ e.1 ++ "/") e.2) := by
  induction entries with
  | nil => rfl
  | cons e entries ih =>
      obtain ⟨name, e⟩ := e
      rw [descendEntries, ih, List.map_cons]

section Walks

variable {root : Entries} {s s' : Spot} {f : Spot → Listing}

theorem Spot.Shuffled.enter (h : s.Shuffled root s') {name : String} {es es' : Entries}
    (he : (name, .dir es) ∈ s.place.here) (hes : Entries.Shuffled es es') :
    (s.enter name (s.place.enter es)).Shuffled root (s'.enter name (s'.place.enter es')) :=
  ⟨h.below.enter_of_mem he, h.place.enter hes, by rw [Spot.enter, Spot.enter, h.head]⟩

theorem fileName_agrees {torn : Prop} (h : s.Shuffled root s') (n : String) :
    Agrees torn (fileName n s) (fileName n s') := by
  have hfollow : FollowsAlike (follow maxLinks s.place [n]) (follow maxLinks s'.place [n]) :=
    follow_alike h.place
  rw [fileName, fileName, h.head]
  generalize follow maxLinks s.place [n] = r at hfollow ⊢
  generalize follow maxLinks s'.place [n] = r' at hfollow ⊢
  cases hfollow with
  | error f => cases f <;> first | exact .refl _ | exact .failed _ _
  | file => exact .refl _
  | dir => exact .refl _

variable (hf : ∀ s s', Spot.Shuffled root s s' →
  Agrees (Place.Torn ⟨root, []⟩) (f s) (f s'))
include hf

/-- Going on in a directory of a name. -/
theorem enter_agrees (h : s.Shuffled root s') (n : String) :
    Agrees (Place.Torn ⟨root, []⟩)
      (match Assoc.get? n s.place.here with
        | some (.dir entries) => f (s.enter n (s.place.enter entries))
        | _ => nothing)
      (match Assoc.get? n s'.place.here with
        | some (.dir entries) => f (s'.enter n (s'.place.enter entries))
        | _ => nothing) := by
  cases hget : Assoc.get? n s.place.here with
  | none =>
      rw [h.place.here.get?_none hget]
      exact .refl _
  | some e =>
      obtain ⟨e', hget', he⟩ := h.place.here.exists_get? hget
      rw [hget']
      cases he with
      | file => exact .refl _
      | link => exact .refl _
      | dir hnodup hkeys hentries =>
          exact hf _ _ (h.enter (Assoc.mem_of_get?_eq_some hget) (.dir hnodup hkeys hentries))

theorem enterName_agrees (h : s.Shuffled root s') (n : String) :
    Agrees (Place.Torn ⟨root, []⟩) (enterName f n s) (enterName f n s') := by
  rw [enterName, enterName]
  split
  · exact hf _ _ ⟨h.below, h.place, by rw [h.head]⟩
  · split
    · exact hf _ _ ⟨h.below.up, h.place.up, by rw [Spot.enter, Spot.enter, h.head]⟩
    · have hfollow : FollowsAlike (follow maxLinks s.place [n]) (follow maxLinks s'.place [n]) :=
        follow_alike h.place
      have hgo := enter_agrees hf h n
      generalize follow maxLinks s.place [n] = r at hfollow ⊢
      generalize follow maxLinks s'.place [n] = r' at hfollow ⊢
      cases hfollow with
      | error f => cases f <;> first | exact hgo | exact .failed _ _
      | file => exact hgo
      | dir => exact hgo

theorem enterFitting_agrees (h : s.Shuffled root s') (g : Glob) :
    Agrees (Place.Torn ⟨root, []⟩) (enterFitting f g s) (enterFitting f g s') := by
  rw [enterFitting, enterFitting, Spot.fitting, Spot.fitting]
  have hscan := Spot.scan_alike h
  generalize s.scan = r at hscan ⊢
  generalize s'.scan = r' at hscan ⊢
  cases hscan with
  | read ks =>
      refine Agrees.concat ?_
      rw [List.forall₂_map_left_iff, List.forall₂_map_right_iff, List.forall₂_same]
      rintro ⟨name, k⟩ -
      cases k with
      | dir =>
          have hgo := enter_agrees hf h name
          dsimp only
          generalize Assoc.get? name s.place.here = e at hgo ⊢
          generalize Assoc.get? name s'.place.here = e' at hgo ⊢
          rcases e with _ | _ | _ | _ <;> rcases e' with _ | _ | _ | _ <;> exact hgo
      | _ => exact .refl _
  | failed => exact .failed _ _
  | left htorn => exact .stopped_left htorn _ _
  | right htorn => exact .stopped_right htorn _ _

theorem descend_agrees (h : s.Shuffled root s') :
    Agrees (Place.Torn ⟨root, []⟩) (descend f s) (descend f s') := by
  -- The directories below are smaller than the one that holds them.
  induction hn : sizeOf s.place.here using Nat.strongRecOn generalizing s s' with
  | ind n ih =>
      have hbelow : List.Forall₂ (Agrees (Place.Torn ⟨root, []⟩))
          ((sortByName (descendEntries f s s.place.here)).map Prod.snd)
          ((sortByName (descendEntries f s' s'.place.here)).map Prod.snd) := by
        have hkeys : (descendEntries f s s.place.here).map Prod.fst = s.place.here.keys := by
          rw [descendEntries_eq_map, List.map_map]
          rfl
        have hkeys' : (descendEntries f s' s'.place.here).map Prod.fst = s'.place.here.keys := by
          rw [descendEntries_eq_map, List.map_map]
          rfl
        refine forall₂_snd (map_fst_sortByName ?_ ?_) fun name a b ha hb => ?_
        · rw [hkeys, hkeys']
          exact h.place.here.keys_perm
        · rw [hkeys]
          exact h.place.here.nodup
        · rw [sortByName, List.mem_mergeSort, descendEntries_eq_map] at ha hb
          obtain ⟨⟨_, e⟩, he, ha⟩ := List.mem_map.1 ha
          obtain ⟨⟨_, e'⟩, he', hb⟩ := List.mem_map.1 hb
          cases ha
          cases hb
          have hshuffled := h.place.here.entry he he'
          cases hshuffled with
          | file => exact .refl _
          | link => exact .refl _
          | dir hnodup hkeys hentries =>
              exact ih _ (hn ▸ sizeOf_entries_lt he) (h.enter he (.dir hnodup hkeys hentries)) rfl
      rw [descend_eq, descend_eq]
      refine (hf _ _ h).andThen ?_
      have hscan := Spot.scan_alike h
      generalize s.scan = r at hscan ⊢
      generalize s'.scan = r' at hscan ⊢
      cases hscan with
      | read ks =>
          cases ks with
          | nil => exact .refl _
          | cons => exact .concat hbelow
      | failed => exact .failed _ _
      | left htorn => exact .stopped_left htorn _ _
      | right htorn => exact .stopped_right htorn _ _

omit hf in
theorem filesFitting_agrees (h : s.Shuffled root s') (g : Glob) :
    Agrees (Place.Torn ⟨root, []⟩) (filesFitting g s) (filesFitting g s') := by
  rw [filesFitting, filesFitting, Spot.fitting, Spot.fitting, h.head]
  have hscan := Spot.scan_alike h
  generalize s.scan = r at hscan ⊢
  generalize s'.scan = r' at hscan ⊢
  cases hscan with
  | read => exact .refl _
  | failed => exact .failed _ _
  | left htorn => exact .stopped_left htorn _ _
  | right htorn => exact .stopped_right htorn _ _

omit hf in
/-- **A walk lists the same**, whatever the order of entries. -/
theorem walk_agrees (segments : List Segment) (h : s.Shuffled root s') :
    Agrees (Place.Torn ⟨root, []⟩) (walk segments s) (walk segments s') := by
  induction segments generalizing s s' with
  | nil => exact .refl _
  | cons seg rest ih =>
      have hrest : ∀ s s', Spot.Shuffled root s s' →
          Agrees (Place.Torn ⟨root, []⟩) (walk rest s) (walk rest s') :=
        fun _ _ => ih
      cases seg with
      | anyDepth => exact descend_agrees hrest h
      | name n =>
          cases rest with
          | nil => exact fileName_agrees h n
          | cons => exact enterName_agrees hrest h n
      | glob g =>
          cases rest with
          | nil => exact filesFitting_agrees h g
          | cons => exact enterFitting_agrees hrest h g

end Walks

/-! ## Searches list the same -/

/-- The same files on a disk whose directories have their entries in another order. -/
structure Disk.Shuffled (d d' : Disk) : Prop where
  root : Entries.Shuffled d.root d'.root
  current : d.current = d'.current

namespace Disk.Shuffled

variable {d d' : Disk}

theorem find_alike (h : d.Shuffled d') (path : String) :
    FollowsAlike (d.find path) (d'.find path) := by
  rw [Disk.find, Disk.find, Disk.absolute, Disk.absolute, h.current]
  split
  · exact .error _
  · split
    · exact .error _
    · exact follow_alike ⟨h.root, .nil⟩

theorem walk_agrees (h : d.Shuffled d') (path : String) (segments : List Segment) :
    Agrees (Place.Torn ⟨d.root, []⟩) (d.walk path segments)
      (d'.walk path segments) := by
  have hfind := h.find_alike path
  rw [Disk.walk, Disk.walk]
  generalize hd : d.find path = r at hfind ⊢
  generalize d'.find path = r' at hfind ⊢
  cases hfind with
  | error => exact .refl _
  | file => exact .refl _
  | dir hp => exact Files.walk_agrees segments ⟨below_of_find hd, hp, rfl⟩

end Disk.Shuffled

theorem select_isPrefix {p : Pattern} {expected : Assoc String String}
    (h : ∀ id, ∃ params?, p.extract id = .ok params?) {xs ys : List String} (hxs : xs <+: ys) :
    (select p expected xs).ids <+: (select p expected ys).ids := by
  obtain ⟨more, rfl⟩ := hxs
  induction xs with
  | nil => exact List.nil_prefix
  | cons id xs ih =>
      obtain ⟨params?, hparams⟩ := h id
      rw [List.cons_append, select, select, hparams]
      dsimp only
      split
      · exact (List.prefix_cons_inj id).2 ih
      · exact ih

namespace FileSearch

variable {s : FileSearch} {source : String} {tokens : List Token} {nodes : List Regex.Node}
  {scope : Regex.Scope} {constraints : Assoc String Value} {disk : Disk}

theorem candidates_agree (h : s.disk.Shuffled disk) (template : Template) :
    Agrees (Place.Torn ⟨s.disk.root, []⟩) (s.candidates template)
      (candidates ⟨disk, s.root, s.pattern⟩ template) := by
  refine Agrees.map distinct_isPrefix (Agrees.concat ?_)
  rw [List.forall₂_map_left_iff, List.forall₂_map_right_iff, List.forall₂_same]
  exact fun a _ => h.walk_agrees _ _

theorem paths_agree (hmade : Made s.pattern tokens nodes scope) (h : s.disk.Shuffled disk) :
    Agrees (Place.Torn ⟨s.disk.root, []⟩) (s.paths constraints)
      (paths ⟨disk, s.root, s.pattern⟩ constraints) := by
  have hextract := fun id => (⟨_, hmade.extract_eq id⟩ : ∃ params?, _ = Except.ok params?)
  have hcandidates := candidates_agree h (s.pattern.template (knownValues constraints))
  have hpinned : pinnedPath? ⟨disk, s.root, s.pattern⟩ (knownValues constraints) =
      s.pinnedPath? (knownValues constraints) := rfl
  rw [paths, paths]
  dsimp only
  rw [hpinned]
  split
  · split
    · exact .refl _
    · exact .refl _
    · exact hcandidates.map fun hxs => hxs.filter _
  · rw [select_fault hextract, select_fault hextract]
    exact hcandidates.map (select_isPrefix hextract)

/-- **Files are listed in an order of their own, whatever the order in which directories are read.**
None is listed twice. What an earlier alternative of the template is the first to lead to comes
first; where the alternative has no segment of any depth, the rest is in the order of names. Nothing
that an alternative leads to and that meets the constraints is left out of a listing that comes to
its end, unless all values are known and only one path is looked for.

A disk whose directories have their entries in another order lists the same, as long as both
listings come to their end. If one of them is stopped, it has the beginning of the other one; and
unless a directory has links that stop it in different ways, they stop both or neither. -/
theorem listing_canonical (hp : compile source = .ok s.pattern)
    (horderly : ∀ q, Place.Below ⟨s.disk.root, []⟩ q → q.Orderly) :
    let template := s.pattern.template (knownValues constraints)
    let l := s.search.listing constraints
    l.ids.Nodup ∧
    (∃ rels : List String, l.ids = rels.map (s.head ++ ·) ∧ rels.Pairwise (s.Precedes template) ∧
      (∀ rel ∈ rels, s.alternativeOf template rel < template.alternatives.length) ∧
      (l.fault = none → template.pinned = false → ∀ a ∈ template.alternatives,
        ∀ rel ∈ (s.reached a).ids, ∀ params, s.pattern.extract rel = .ok (some params) →
          meets (expectedTexts constraints) params = true → rel ∈ rels)) ∧
    ∀ disk, s.disk.Shuffled disk →
      let l' := (search ⟨disk, s.root, s.pattern⟩).listing constraints
      (l.fault = none → l'.fault = none → l = l') ∧
      (l'.fault = none → l.ids <+: l'.ids) ∧ (l.fault = none → l'.ids <+: l.ids) ∧
      (¬ Place.Torn ⟨s.disk.root, []⟩ →
        l.ids = l'.ids ∧ (l.fault = none ↔ l'.fault = none)) := by
  intro template l
  obtain ⟨-, tokens, nodes, scope, hmade⟩ := made_of_compile hp
  have hinjective : Function.Injective (s.head ++ ·) := fun _ _ => String.append_right_inj _ |>.1
  refine ⟨nodup_paths.map hinjective, ⟨(s.paths constraints).ids, rfl, ?_, ?_, ?_⟩, ?_⟩
  · exact (pairwise_candidates horderly).sublist paths_sublist
  · exact fun rel hrel => alternativeOf_lt (paths_sublist.subset hrel)
  · intro hend hpinned a ha rel hrel params hparams hmeets
    exact mem_paths_of_reached hmade hpinned hend ha hrel hparams hmeets
  · intro disk hdisk l'
    have hagrees : Agrees (Place.Torn ⟨s.disk.root, []⟩) l l' :=
      (paths_agree hmade hdisk).map fun hxs => hxs.map _
    refine ⟨hagrees.eq_of_end, hagrees.isPrefix, hagrees.symm.isPrefix, fun htorn => ?_⟩
    cases hagrees with
    | same hids hend => exact ⟨hids, hend⟩
    | left h => exact absurd h htorn
    | right h => exact absurd h htorn

/-- Notes with and without a year, in two orders. -/
theorem listing_canonical_notes :
    let year : Entries := [("b.md", .file []), ("a.md", .file [])]
    let notes : Entries := [("x.md", .file []), ("2024", .dir year), ("a.md", .file [])]
    let disk : Disk := ⟨[("r", .dir notes)], "/"⟩
    let disk' : Disk :=
      ⟨[("r", .dir [("2024", .dir year.reverse), ("a.md", .file []), ("x.md", .file [])])], "/"⟩
    ∃ p, compile "\x7b?year\x7d/\x7bslug\x7d.md" = .ok p ∧ disk.Shuffled disk' ∧
      let l := (search ⟨disk, "/r", p⟩).listing []
      l.ids = ["/r/a.md", "/r/x.md", "/r/2024/a.md", "/r/2024/b.md"] ∧ l.ids.Nodup ∧
      l = (search ⟨disk', "/r", p⟩).listing [] := by
  intro year notes disk disk'
  have hfacts : (compile "\x7b?year\x7d/\x7bslug\x7d.md").toOption.map (fun p =>
      (((search ⟨disk, "/r", p⟩).listing []).ids, ((search ⟨disk, "/r", p⟩).listing []).fault,
        ((search ⟨disk', "/r", p⟩).listing []).fault)) =
      some (["/r/a.md", "/r/x.md", "/r/2024/a.md", "/r/2024/b.md"], none, none) := by cbv
  obtain ⟨p, hp, hfacts⟩ := exists_ok_of_toOption_map hfacts
  simp only [Prod.mk.injEq] at hfacts
  obtain ⟨hids, hend, hend'⟩ := hfacts
  have hbelow : ∀ q, Place.Below ⟨disk.root, []⟩ q →
      q.here = disk.root ∨ q.here = notes ∨ q.here = year := by
    intro q hq
    cases hq with
    | refl => exact .inl rfl
    | enter he hq =>
        cases List.mem_singleton.1 he
        cases hq with
        | refl => exact .inr (.inl rfl)
        | @enter _ _ name es he hq =>
            obtain ⟨rfl, rfl⟩ : name = "2024" ∧ es = year := by
              simpa [Place.enter, notes] using he
            cases hq with
            | refl => exact .inr (.inr rfl)
            | enter he => simp [Place.enter, year] at he
  have horderly : ∀ q, Place.Below ⟨disk.root, []⟩ q → q.Orderly := by
    intro q hq
    rcases hbelow q hq with h | h | h <;> constructor <;> rw [h] <;> decide
  have hyear : Entries.Shuffled year year.reverse := by
    refine .of_perm (by decide) year.reverse_perm.symm ?_
    simp only [year, List.forall_mem_cons]
    exact ⟨.file [], .file [], by simp⟩
  have hnotes : Entries.Shuffled notes
      [("2024", .dir year.reverse), ("a.md", .file []), ("x.md", .file [])] := by
    refine .dir (by decide) (by decide) fun name e e' he he' => ?_
    simp only [notes, List.mem_cons, List.not_mem_nil, or_false, Prod.mk.injEq] at he he'
    rcases he with ⟨rfl, rfl⟩ | ⟨rfl, rfl⟩ | ⟨rfl, rfl⟩ <;>
      rcases he' with ⟨h, rfl⟩ | ⟨h, rfl⟩ | ⟨h, rfl⟩ <;>
      first | exact .file [] | exact hyear | exact absurd h (by decide)
  have hdisk : disk.Shuffled disk' := by
    refine ⟨.dir (by decide) (by decide) fun name e e' he he' => ?_, rfl⟩
    cases List.mem_singleton.1 he
    cases List.mem_singleton.1 he'
    exact hnotes
  refine ⟨p, hp, hdisk, hids, ?_, ?_⟩
  · exact (listing_canonical (s := ⟨disk, "/r", p⟩) hp horderly).1
  · exact ((listing_canonical (s := ⟨disk, "/r", p⟩) hp horderly).2.2 disk' hdisk).1 hend hend'

/-- The order of entries tells what stops a listing: of two links that lead to themselves it is the
first one; where one of them leads through a file, nothing stops the listing if that one comes
first. -/
theorem listing_stopped_by_order :
    let disk (entries : Entries) : Disk := ⟨[("r", .dir entries)], "/"⟩
    let loops : Entries := [("a.md", .file []), ("y", .link "y"), ("z", .link "z")]
    let torn : Entries := [("a.md", .file []), ("y", .link "a.md/y"), ("z", .link "z")]
    (disk loops).Shuffled (disk loops.reverse) ∧ (disk torn).Shuffled (disk torn.reverse) ∧
    ∃ p, compile "\x7bx\x7d.md" = .ok p ∧
      let list (entries : Entries) := (search ⟨disk entries, "/r", p⟩).listing []
      list loops = ⟨[], some (.file .tooManyLinks "/r/y")⟩ ∧
      list loops.reverse = ⟨[], some (.file .tooManyLinks "/r/z")⟩ ∧
      list torn = ⟨[], none⟩ ∧ list torn.reverse = ⟨[], some (.file .tooManyLinks "/r/z")⟩ := by
  intro disk loops torn
  have hdisk : ∀ es : Entries, es.keys.Nodup → (∀ entry ∈ es, entry.2.Shuffled entry.2) →
      (disk es).Shuffled (disk es.reverse) := by
    intro es hnodup hself
    refine ⟨.dir (List.nodup_singleton _) (.refl _) fun name e e' he he' => ?_, rfl⟩
    cases List.mem_singleton.1 he
    cases List.mem_singleton.1 he'
    exact Entries.Shuffled.of_perm hnodup es.reverse_perm.symm hself
  refine ⟨hdisk loops (by decide) ?_, hdisk torn (by decide) ?_, ?_⟩
  · simp only [loops, List.forall_mem_cons]
    exact ⟨.file [], .link _, .link _, by simp⟩
  · simp only [torn, List.forall_mem_cons]
    exact ⟨.file [], .link _, .link _, by simp⟩
  · have hfacts : (compile "\x7bx\x7d.md").toOption.map (fun p =>
        [loops, loops.reverse, torn, torn.reverse].map fun entries =>
          (search ⟨disk entries, "/r", p⟩).listing []) =
        some [⟨[], some (.file .tooManyLinks "/r/y")⟩, ⟨[], some (.file .tooManyLinks "/r/z")⟩,
          ⟨[], none⟩, ⟨[], some (.file .tooManyLinks "/r/z")⟩] := by cbv
    obtain ⟨p, hp, hfacts⟩ := exists_ok_of_toOption_map hfacts
    simp only [List.map_cons, List.map_nil, List.cons.injEq, and_true] at hfacts
    exact ⟨p, hp, hfacts⟩

end FileSearch

end Winnow.Files
