import Winnow.Proofs.Files.Searching

/-!
# The order of what is found

A search lists its files in an order that its template and the names tell (`FileSearch.Precedes`):
what an earlier alternative reaches comes first, and among what the same alternative is the first to
reach the names decide, from the first one on (`Ascending`). Only any depth is free of that, since
it lists a directory before the directories in it.

A double dot and the target of a link may lead out of the root of a search, but never out of the
tree, whose directories are all orderly.
-/

namespace Winnow.Files

open Pattern

/-! ## Places of a tree -/

namespace Place

/-- A place below another one is that one itself, or inside of a directory below it. -/
theorem Below.eq_or_exists {p q : Place} (h : p.Below q) :
    q = p ∨ ∃ r name es, p.Below r ∧ (name, .dir es) ∈ r.here ∧ q = r.enter es := by
  induction h with
  | refl => exact .inl rfl
  | @enter p q name es he _ ih =>
      right
      rcases ih with rfl | ⟨r, name', es', hr, he', rfl⟩
      · exact ⟨p, name, es, .refl p, he, rfl⟩
      · exact ⟨r, name', es', .enter he hr, he', rfl⟩

theorem Below.enter_of_mem {p q : Place} {name : String} {es : Entries} (h : p.Below q)
    (he : (name, .dir es) ∈ q.here) : p.Below (q.enter es) :=
  h.trans (.enter he (.refl _))

theorem Below.top_eq {p q : Place} (h : p.Below q) : q.top = p.top := by
  induction h with
  | refl => rfl
  | enter _ _ ih =>
      rw [ih, top, Place.enter, List.getLastD_cons]
      rfl

variable {root : Entries} {p : Place}

theorem Below.up (h : Below ⟨root, []⟩ p) : Below ⟨root, []⟩ p.up := by
  rcases h.eq_or_exists with rfl | ⟨r, _, _, hr, _, rfl⟩
  · exact h
  · exact hr

theorem Below.origin (h : Below ⟨root, []⟩ p) (target : String) :
    Below ⟨root, []⟩ (p.origin target) := by
  rw [Place.origin]
  split
  · rw [h.top_eq]
    exact .refl _
  · exact h

end Place

section Tree

variable {root : Entries}

/-- No path leads out of a tree. -/
theorem below_of_follow {links : Nat} {p q : Place} {names : List String}
    (hp : Place.Below ⟨root, []⟩ p) (h : follow links p names = .ok (.dir q)) :
    Place.Below ⟨root, []⟩ q := by
  fun_induction follow links p names with
  | case1 =>
      cases h
      exact hp
  | case2 _ _ _ _ _ ih => exact ih hp h
  | case3 _ _ _ _ ih => exact ih hp.up h
  | case6 _ _ _ _ _ _ _ _ hget ih =>
      exact ih (hp.enter_of_mem (Assoc.mem_of_get?_eq_some hget)) h
  | case10 _ _ _ _ _ _ _ _ _ ih => exact ih (hp.origin _) h
  | _ => cases h

theorem below_of_find {d : Disk} {path : String} {q : Place} (h : d.find path = .ok (.dir q)) :
    Place.Below ⟨d.root, []⟩ q := by
  rw [Disk.find] at h
  split at h
  · cases h
  · split at h
    · cases h
    · exact below_of_follow (.refl _) h

end Tree

/-! ## Directories in the order of names -/

section Sorting

variable {α : Type}

theorem sortByName_perm (xs : List (String × α)) : (sortByName xs).Perm xs :=
  List.mergeSort_perm xs _

theorem pairwise_sortByName {xs : List (String × α)} (h : (xs.map Prod.fst).Nodup) :
    (sortByName xs).Pairwise fun a b => a.1 < b.1 := by
  have hsorted : (sortByName xs).Pairwise fun a b => decide (a.1 ≤ b.1) = true := by
    refine List.pairwise_mergeSort (fun a b c hab hbc => ?_) (fun a b => ?_) xs
    · exact decide_eq_true (le_trans (of_decide_eq_true hab) (of_decide_eq_true hbc))
    · simpa using le_total a.1 b.1
  have hnodup : ((sortByName xs).map Prod.fst).Nodup :=
    ((sortByName_perm xs).map Prod.fst).nodup_iff.2 h
  refine hsorted.imp₂ (fun _ _ hle hne => ?_) (List.pairwise_map.1 hnodup)
  exact lt_of_le_of_ne (of_decide_eq_true hle) hne

end Sorting

namespace Spot

variable {s : Spot}

theorem pairwise_scan {ks : List (String × Kind)} (hs : s.place.Orderly) (h : s.scan = .ok ks) :
    ks.Pairwise fun a b => a.1 < b.1 := by
  rcases kinds_of_scan h with ⟨read, hkinds, rfl⟩ | ⟨path, -, rfl⟩
  · refine pairwise_sortByName ?_
    rw [map_fst_kinds hkinds]
    exact hs.nodup
  · exact .nil

end Spot

/-! ## Walks in the order of names -/

/-- What comes before a spot in a path is cut into these names. -/
def Spot.At (s : Spot) (names : List String) : Prop :=
  ∀ rest, pieces (s.head ++ rest) = names ++ pieces rest

/-- Paths below a directory, each of them after the ones before it. Paths are compared name by
name. -/
structure Ascending (names ids : List String) : Prop where
  pairwise : ids.Pairwise fun x y => pieces x < pieces y
  below : ∀ id ∈ ids, ∃ rest, pieces id = names ++ rest

namespace Spot

variable {s : Spot} {names : List String} {n : String}

theorem At.pieces (hs : s.At names) (hn : '/' ∉ n.toList) :
    Files.pieces (s.head ++ n) = names ++ [n] := by
  rw [hs, Files.pieces, Text.pieces_of_not_mem hn]

theorem At.step (hs : s.At names) (hn : '/' ∉ n.toList) (p : Place) (path : String) :
    At ⟨p, path, s.head ++ n ++ "/"⟩ (names ++ [n]) := by
  intro rest
  have hcut : Files.pieces (n ++ ("/" ++ rest)) = n :: Files.pieces rest := by
    refine Text.pieces_append_cons hn ?_
    simp
  dsimp only
  rw [String.append_assoc, String.append_assoc, hs, hcut, List.append_assoc, List.singleton_append]

end Spot

namespace Ascending

variable {names ids : List String}

theorem nil : Ascending names [] := ⟨.nil, by simp⟩

theorem sublist {ids' : List String} (h : Ascending names ids) (hsub : ids'.Sublist ids) :
    Ascending names ids' :=
  ⟨h.pairwise.sublist hsub, fun id hid => h.below id (hsub.subset hid)⟩

theorem outside {n : String} (h : Ascending (names ++ [n]) ids) : Ascending names ids := by
  refine ⟨h.pairwise, fun id hid => ?_⟩
  obtain ⟨rest, hrest⟩ := h.below id hid
  exact ⟨n :: rest, by rw [hrest, List.append_assoc, List.singleton_append]⟩

/-- Names side by side decide, whatever follows. -/
theorem append_lt {n n' : String} (h : n < n') (rest rest' : List String) :
    names ++ n :: rest < names ++ n' :: rest' :=
  List.append_left_lt (List.cons_lt_cons_iff.2 (.inl h))

theorem flatMap {α : Type} {xs : List (String × α)} {f : String × α → List String}
    (hsorted : xs.Pairwise fun a b => a.1 < b.1)
    (h : ∀ x ∈ xs, Ascending (names ++ [x.1]) (f x)) : Ascending names (xs.flatMap f) := by
  constructor
  · refine List.pairwise_flatMap.2 ⟨fun x hx => (h x hx).pairwise, ?_⟩
    refine hsorted.imp_of_mem fun {x y} hx hy hxy id hid id' hid' => ?_
    obtain ⟨rest, hrest⟩ := (h x hx).below id hid
    obtain ⟨rest', hrest'⟩ := (h y hy).below id' hid'
    rw [hrest, hrest', List.append_assoc, List.append_assoc]
    exact append_lt hxy rest rest'
  · intro id hid
    obtain ⟨x, hx, hid⟩ := List.mem_flatMap.1 hid
    exact (h x hx).outside.below id hid

end Ascending

/-- Listings one after the other have what all of them have, up to the first error. -/
theorem concat_isPrefix (ls : List Listing) : (concat ls).ids <+: ls.flatMap Listing.ids := by
  induction ls with
  | nil => exact List.prefix_rfl
  | cons l ls ih =>
      show (andThen l (concat ls)).ids <+: l.ids ++ ls.flatMap Listing.ids
      rw [andThen]
      split
      · exact List.prefix_append _ _
      · exact (List.prefix_append_right_inj _).2 ih

section Walks

variable {root : Entries} {s : Spot} {names : List String} {f : Spot → Listing}
  (horderly : ∀ q, Place.Below ⟨root, []⟩ q → q.Orderly)

theorem ascending_fileName {n : String} (hn : '/' ∉ n.toList) (hs : s.At names) :
    Ascending names (fileName n s).ids := by
  rw [fileName]
  split
  · refine ⟨List.pairwise_singleton _ _, fun id hid => ?_⟩
    rw [List.mem_singleton.1 hid]
    exact ⟨[n], hs.pieces hn⟩
  · exact .nil
  · exact .nil

theorem ascending_enterName {n : String} (hn : '/' ∉ n.toList)
    (hs : s.At names) (hbelow : Place.Below ⟨root, []⟩ s.place)
    (hf : ∀ s', s'.At (names ++ [n]) → Place.Below ⟨root, []⟩ s'.place →
      Ascending (names ++ [n]) (f s').ids) :
    Ascending names (enterName f n s).ids := by
  rw [enterName]
  split
  next hdot =>
      subst hdot
      refine (hf ⟨s.place, s.path, s.head ++ "./"⟩ ?_ hbelow).outside
      have hstep := hs.step (n := ".") hn s.place s.path
      rwa [String.append_assoc] at hstep
  next =>
      split
      next hdots =>
          -- A double dot is a name of the path like any other, wherever it leads.
          subst hdots
          exact (hf _ (hs.step hn _ _) hbelow.up).outside
      next =>
          split
          · exact .nil
          · split
            next es hget =>
                exact (hf _ (hs.step hn _ _)
                  (hbelow.enter_of_mem (Assoc.mem_of_get?_eq_some hget))).outside
            next => exact .nil

include horderly

/-- The entries of a directory that fit have names, in ascending order. -/
theorem pairwise_fitting {g : Glob} (hbelow : Place.Below ⟨root, []⟩ s.place)
    {ks : List (String × Kind)} (h : s.fitting g = .ok ks) :
    (ks.Pairwise fun a b => a.1 < b.1) ∧ ∀ k ∈ ks, '/' ∉ k.1.toList := by
  have hs := horderly _ hbelow
  rw [Spot.fitting] at h
  cases hscan : s.scan with
  | error e =>
      rw [hscan] at h
      cases h
  | ok all =>
      rw [hscan] at h
      cases h
      refine ⟨(Spot.pairwise_scan hs hscan).filter _, fun k hk => ?_⟩
      obtain ⟨e, he, -⟩ := Spot.exists_of_mem_scan hscan (List.mem_of_mem_filter hk)
      exact (hs.isName _ he).noSeparator

theorem ascending_filesFitting {g : Glob} (hs : s.At names)
    (hbelow : Place.Below ⟨root, []⟩ s.place) : Ascending names (filesFitting g s).ids := by
  rw [filesFitting]
  split
  · exact .nil
  next ks hfitting =>
      obtain ⟨hsorted, hfree⟩ := pairwise_fitting horderly hbelow hfitting
      constructor
      · refine List.pairwise_map.2 ((hsorted.filter _).imp_of_mem fun {a b} ha hb hab => ?_)
        rw [hs.pieces (hfree a (List.mem_of_mem_filter ha)),
          hs.pieces (hfree b (List.mem_of_mem_filter hb))]
        exact Ascending.append_lt hab [] []
      · intro id hid
        obtain ⟨k, hk, rfl⟩ := List.mem_map.1 hid
        exact ⟨[k.1], hs.pieces (hfree k (List.mem_of_mem_filter hk))⟩

theorem ascending_enterFitting {g : Glob} (hs : s.At names)
    (hbelow : Place.Below ⟨root, []⟩ s.place)
    (hf : ∀ n s', s'.At (names ++ [n]) → Place.Below ⟨root, []⟩ s'.place →
      Ascending (names ++ [n]) (f s').ids) :
    Ascending names (enterFitting f g s).ids := by
  rw [enterFitting]
  split
  · exact .nil
  next ks hfitting =>
      obtain ⟨hsorted, hfree⟩ := pairwise_fitting horderly hbelow hfitting
      refine Ascending.sublist ?_ (concat_isPrefix _).sublist
      rw [List.flatMap_map]
      refine .flatMap hsorted fun k hk => ?_
      dsimp only
      split
      next es hget =>
          exact hf k.1 _ (hs.step (hfree k hk) _ _)
            (hbelow.enter_of_mem (Assoc.mem_of_get?_eq_some hget))
      next => exact .nil

/-- **A walk without any depth goes through the tree in the order of names.** -/
theorem ascending_walk {segments : List Segment} (hdepth : .anyDepth ∉ segments)
    (hfree : ∀ n, .name n ∈ segments → '/' ∉ n.toList) (hs : s.At names)
    (hbelow : Place.Below ⟨root, []⟩ s.place) : Ascending names (walk segments s).ids := by
  -- Each segment adds its name to those that stand before all that the rest of the walk lists.
  induction segments generalizing s names with
  | nil => exact .nil
  | cons seg rest ih =>
      have ih := fun {s names} => @ih s names (fun h => hdepth (List.mem_cons_of_mem _ h))
        (fun n hn => hfree n (List.mem_cons_of_mem _ hn))
      cases seg with
      | anyDepth => exact absurd List.mem_cons_self hdepth
      | name n =>
          have hn := hfree n List.mem_cons_self
          cases rest with
          | nil => exact ascending_fileName hn hs
          | cons => exact ascending_enterName hn hs hbelow fun s' => ih
      | glob g =>
          cases rest with
          | nil => exact ascending_filesFitting horderly hs hbelow
          | cons => exact ascending_enterFitting horderly hs hbelow fun n s' => ih

end Walks

/-! ## Alternatives -/

section Blocks

variable {α β : Type} [BEq β] [LawfulBEq β] {f : α → List β} {x y : β}

/-- What appears first in blocks one after the other appears in an earlier block, or first in the
same one. -/
theorem findIdx_of_idxOf_lt {xs : List α} (hx : x ∈ xs.flatMap f) (hy : y ∈ xs.flatMap f)
    (h : (xs.flatMap f).idxOf x < (xs.flatMap f).idxOf y) :
    xs.findIdx (fun a => (f a).contains x) < xs.findIdx (fun a => (f a).contains y) ∨
      xs.findIdx (fun a => (f a).contains x) = xs.findIdx (fun a => (f a).contains y) ∧
        ∃ a, xs[xs.findIdx fun a => (f a).contains x]? = some a ∧ x ∈ f a ∧ y ∈ f a ∧
          (f a).idxOf x < (f a).idxOf y := by
  induction xs with
  | nil => cases hx
  | cons a xs ih =>
      rw [List.flatMap_cons] at hx hy h
      by_cases hxa : x ∈ f a
      · rw [List.idxOf_append_of_mem hxa] at h
        by_cases hya : y ∈ f a
        · rw [List.idxOf_append_of_mem hya] at h
          right
          simp [List.findIdx_cons, hxa, hya, h]
        · left
          simp [List.findIdx_cons, hxa, hya]
      · rw [List.idxOf_append_of_notMem hxa] at h
        by_cases hya : y ∈ f a
        · rw [List.idxOf_append_of_mem hya] at h
          have := List.idxOf_lt_length_of_mem hya
          omega
        · rw [List.idxOf_append_of_notMem hya] at h
          have hrest := ih ((List.mem_append.1 hx).resolve_left hxa)
            ((List.mem_append.1 hy).resolve_left hya) (by omega)
          simpa [List.findIdx_cons, hxa, hya] using hrest

theorem rel_of_idxOf_lt {r : β → β → Prop} {ys : List β} (hr : ys.Pairwise r) (hx : x ∈ ys)
    (hy : y ∈ ys) (h : ys.idxOf x < ys.idxOf y) : r x y := by
  have hlt := List.pairwise_iff_getElem.1 hr _ _ (List.idxOf_lt_length_of_mem hx)
    (List.idxOf_lt_length_of_mem hy) h
  rwa [List.getElem_idxOf, List.getElem_idxOf] at hlt

end Blocks

namespace FileSearch

theorem name_mem_pieces_free {a n : String} (h : .name n ∈ Segment.ofPattern (pieces a)) :
    '/' ∉ n.toList := by
  obtain ⟨hn, -⟩ := mem_of_name_mem_ofPattern h
  obtain ⟨piece, hpiece, rfl⟩ := List.mem_map.1 hn
  rw [String.toList_ofList]
  exact Text.not_mem_of_mem_splitOn hpiece

theorem anyDepth_mem_ofPattern {segments : List String}
    (h : .anyDepth ∈ Segment.ofPattern segments) : "**" ∈ segments := by
  obtain ⟨x, hx, htext⟩ := List.mem_map.1 h
  rw [Segment.ofText] at htext
  split at htext
  next hstars => exact hstars ▸ List.mem_of_mem_filter hx
  next => split at htext <;> cases htext

variable {s : FileSearch} {template : Template} {constraints : Assoc String Value} {rel : String}

/-- The files that an alternative of a template leads to. -/
def reached (s : FileSearch) (a : String) : Listing :=
  s.disk.walk s.root (Segment.ofPattern (pieces a))

/-- The first alternative that leads to a path, by its index. -/
def alternativeOf (s : FileSearch) (template : Template) (rel : String) : Nat :=
  template.alternatives.findIdx fun a => (s.reached a).ids.contains rel

/-- Whether a path belongs before another one. An earlier alternative leads to it, or the same one
does; the names decide then, unless the alternative has a segment of any depth. -/
def Precedes (s : FileSearch) (template : Template) (x y : String) : Prop :=
  s.alternativeOf template x < s.alternativeOf template y ∨
    s.alternativeOf template x = s.alternativeOf template y ∧
      ∀ a, template.alternatives[s.alternativeOf template x]? = some a → "**" ∉ pieces a →
        pieces x < pieces y

theorem candidates_ids : (s.candidates template).ids =
    distinct (concat (template.alternatives.map s.reached)).ids := rfl

theorem reached_isPrefix (s : FileSearch) (template : Template) :
    (concat (template.alternatives.map s.reached)).ids <+:
      template.alternatives.flatMap fun a => (s.reached a).ids := by
  have h := concat_isPrefix (template.alternatives.map s.reached)
  rwa [List.flatMap_map] at h

theorem alternativeOf_lt (h : rel ∈ (s.candidates template).ids) :
    s.alternativeOf template rel < template.alternatives.length := by
  have hrel := (s.reached_isPrefix template).subset (mem_distinct.1 h)
  obtain ⟨a, ha, hrel⟩ := List.mem_flatMap.1 hrel
  exact List.findIdx_lt_length.2 ⟨a, ha, by simpa using hrel⟩

section Orderly

variable (horderly : ∀ q, Place.Below ⟨s.disk.root, []⟩ q → q.Orderly)
include horderly

theorem ascending_reached {a : String} (h : "**" ∉ pieces a) : Ascending [] (s.reached a).ids := by
  rw [reached, Disk.walk]
  split
  next place hroot =>
      refine ascending_walk horderly (fun hdepth => h (anyDepth_mem_ofPattern hdepth))
        (fun n => name_mem_pieces_free) (fun rest => ?_) (below_of_find hroot)
      rw [String.empty_append, List.nil_append]
  next => split <;> exact .nil
  next => exact .nil

/-- What alternatives lead to stands in their order. -/
theorem pairwise_candidates : (s.candidates template).ids.Pairwise (s.Precedes template) := by
  rw [candidates_ids]
  refine (pairwise_distinct _).imp_of_mem fun {x y} hx hy hxy => ?_
  have hfront := s.reached_isPrefix template
  have hfirst : ∀ rel ∈ (concat (template.alternatives.map s.reached)).ids,
      (concat (template.alternatives.map s.reached)).ids.idxOf rel =
        (template.alternatives.flatMap fun a => (s.reached a).ids).idxOf rel := by
    obtain ⟨more, hmore⟩ := hfront
    intro rel hrel
    rw [← hmore, List.idxOf_append_of_mem hrel]
  have hx := mem_distinct.1 hx
  have hy := mem_distinct.1 hy
  rw [hfirst x hx, hfirst y hy] at hxy
  rcases findIdx_of_idxOf_lt (hfront.subset hx) (hfront.subset hy) hxy with
    hlt | ⟨heq, a, ha, hxa, hya, hlt⟩
  · exact .inl hlt
  · refine .inr ⟨heq, fun a' ha' hdepth => ?_⟩
    obtain rfl := Option.some.inj (ha.symm.trans ha')
    exact rel_of_idxOf_lt (r := fun x y => pieces x < pieces y)
      (ascending_reached horderly hdepth).pairwise hxa hya hlt

end Orderly

/-- Searching only leaves candidates out. -/
theorem paths_sublist : (s.paths constraints).ids.Sublist
    (s.candidates (s.pattern.template (knownValues constraints))).ids := by
  rw [paths]
  dsimp only
  split
  · split
    · exact List.nil_sublist _
    · exact List.nil_sublist _
    · exact List.filter_sublist
  · exact select_sublist

/-- A search that comes to its end, and does not know the only path that can fit, leaves nothing out
that an alternative leads to and that meets the constraints. -/
theorem mem_paths_of_reached {tokens : List Token} {nodes : List Regex.Node} {scope : Regex.Scope}
    (hmade : Made s.pattern tokens nodes scope)
    (hpinned : (s.pattern.template (knownValues constraints)).pinned = false)
    (hend : (s.paths constraints).fault = none) {a : String}
    (ha : a ∈ (s.pattern.template (knownValues constraints)).alternatives)
    (hrel : rel ∈ (s.reached a).ids) {params : Assoc String String}
    (hparams : s.pattern.extract rel = .ok (some params))
    (hmeets : meets (expectedTexts constraints) params = true) :
    rel ∈ (s.paths constraints).ids := by
  have hextract := fun id => (⟨_, hmade.extract_eq id⟩ : ∃ params?, _ = Except.ok params?)
  rw [paths] at hend ⊢
  dsimp only at hend ⊢
  rw [hpinned, if_neg Bool.false_ne_true] at hend ⊢
  rw [select_fault hextract] at hend
  have hfault : (concat ((s.pattern.template (knownValues constraints)).alternatives.map
      s.reached)).fault = none := hend
  have hcandidate := (of_fault_concat_eq_none hfault _ (List.mem_map_of_mem ha)).2 rel hrel
  refine (mem_select hextract).2 ⟨mem_distinct.2 hcandidate, params, hparams, ?_⟩
  rw [expectedTexts_knownValues]
  exact hmeets

end FileSearch

end Winnow.Files
