import Winnow.Proofs.Files.Shuffling

/-!
# Walks are exact

A walk follows a recursion over its segments and over the tree (`walkStep`), in which any depth is
no directory at all, or one of any name and any depth again. The recursion comes to an end: in a
tree the walk is its only solution (`solves_walk`, `eq_walk`). What it lists are the files whose
names match the segments as they are written (`Matches`), and nothing else (`walk_lists_exactly`).

A name without wildcards is looked up and not searched for among the entries. This makes no
difference in a directory that can be read (`walk_name_eq`), but a link that leads to itself stops a
search there, and a name that is too long stops only the look-up (`walk_stopped`).
-/

namespace Winnow.Files

open Pattern

/-! ## Any depth -/

section Depth

variable {f f' : Spot → Listing} {s : Spot} {g : Glob} {n : String}

theorem andThen_nothing (l : Listing) : andThen l nothing = l := by
  obtain ⟨ids, fault⟩ := l
  cases fault with
  | none => exact congrArg (Listing.mk · none) (List.append_nil ids)
  | some e => rfl

theorem fitting_star (s : Spot) : s.fitting [.star] = s.scan := by
  rw [Spot.fitting]
  cases s.scan with
  | error e => rfl
  | ok ks => exact congrArg Except.ok (List.filter_eq_self.2 fun k _ => fits_star k.1.toList)

/-- What `f` lists in the directory of an entry that is one. -/
def inEntry (f : Spot → Listing) (s : Spot) (k : String × Kind) : Listing :=
  match k.2, Assoc.get? k.1 s.place.here with
  | .dir, some (.dir entries) => f (s.enter k.1 (s.place.enter entries))
  | _, _ => nothing

theorem enterFitting_eq (f : Spot → Listing) (g : Glob) (s : Spot) :
    enterFitting f g s = match s.fitting g with
      | .error e => ⟨[], some e⟩
      | .ok ks => concat (ks.map (inEntry f s)) := rfl

/-- Directory by directory, in the order of names, is entry by entry. -/
theorem map_snd_descendEntries (hs : s.place.Orderly) {read : List (String × Kind)}
    (hread : s.kinds s.place.here = .ok read) :
    (sortByName (descendEntries f s s.place.here)).map Prod.snd =
      (sortByName read).map (inEntry (descend f) s) := by
  have hkeys : (descendEntries f s s.place.here).map Prod.fst = s.place.here.keys := by
    rw [descendEntries_eq_map, List.map_map]
    rfl
  have hnames : (sortByName (descendEntries f s s.place.here)).map Prod.fst =
      ((sortByName read).map fun k => (k.1, inEntry (descend f) s k)).map Prod.fst := by
    rw [List.map_map]
    refine map_fst_sortByName ?_ ?_
    · rw [hkeys, ← Spot.map_fst_kinds hread]
    · rw [hkeys]
      exact hs.nodup
  have hsame := forall₂_snd (r := Eq) hnames fun name a b ha hb => by
    rw [sortByName, List.mem_mergeSort, descendEntries_eq_map] at ha
    obtain ⟨⟨_, e⟩, he, ha⟩ := List.mem_map.1 ha
    cases ha
    obtain ⟨⟨_, k⟩, hk, hb⟩ := List.mem_map.1 hb
    cases hb
    rw [sortByName, List.mem_mergeSort, Spot.mem_kinds hread] at hk
    obtain ⟨e', he', hkind⟩ := hk
    have hget := (Assoc.get?_eq_some_iff_mem hs.nodup).2 he
    have hget' := (Assoc.get?_eq_some_iff_mem hs.nodup).2 he'
    rw [hget] at hget'
    cases hget'
    rw [inEntry, hget]
    cases e with
    | file =>
        cases hkind
        rfl
    | dir =>
        cases hkind
        rfl
    | link => cases k <;> rfl
  rw [List.forall₂_eq_eq_eq, List.map_map] at hsame
  exact hsame

/-- Any depth is no directory at all, or one of any name and any depth again. -/
theorem descend_eq_andThen (hs : s.place.Orderly) :
    descend f s = andThen (f s) (enterFitting (descend f) [.star] s) := by
  rw [descend_eq, enterFitting_eq, fitting_star]
  congr 1
  cases hscan : s.scan with
  | error e => rfl
  | ok ks =>
      rcases Spot.kinds_of_scan hscan with ⟨read, hread, rfl⟩ | ⟨path, -, rfl⟩
      · have hentries := map_snd_descendEntries (f := f) hs hread
        cases hks : sortByName read with
        | nil => rfl
        | cons k ks =>
            rw [hks] at hentries
            exact congrArg concat hentries
      · rfl

theorem enterFitting_congr (h : ∀ name es, (name, .dir es) ∈ s.place.here →
    f (s.enter name (s.place.enter es)) = f' (s.enter name (s.place.enter es))) :
    enterFitting f g s = enterFitting f' g s := by
  rw [enterFitting_eq, enterFitting_eq]
  cases s.fitting g with
  | error e => rfl
  | ok ks =>
      refine congrArg concat (List.map_congr_left fun k _ => ?_)
      rw [inEntry, inEntry]
      split
      next es _ hget => exact h _ _ (Assoc.mem_of_get?_eq_some hget)
      next => rfl

theorem enterName_congr (hn : IsPlain n) (h : ∀ name es, (name, .dir es) ∈ s.place.here →
    f (s.enter name (s.place.enter es)) = f' (s.enter name (s.place.enter es))) :
    enterName f n s = enterName f' n s := by
  rw [enterName, enterName, if_neg hn.ne_dot, if_neg hn.ne_dots, if_neg hn.ne_dot,
    if_neg hn.ne_dots]
  split
  · rfl
  · split
    next es hget => exact h _ _ (Assoc.mem_of_get?_eq_some hget)
    next => rfl

end Depth

/-! ## The recursion of a walk -/

/-- How a walk goes on, where `go` stands for the walk itself. -/
def walkStep (go : List Segment → Spot → Listing) : List Segment → Spot → Listing
  | [], _ => nothing
  | .anyDepth :: rest, s =>
    andThen (go rest s) (enterFitting (go (.anyDepth :: rest)) [.star] s)
  | [.name n], s => fileName n s
  | .name n :: rest, s => enterName (go rest) n s
  | [.glob g], s => filesFitting g s
  | .glob g :: rest, s => enterFitting (go rest) g s

/-- Whether `go` follows the recursion of a walk in all directories below a place. -/
def Solves (p : Place) (go : List Segment → Spot → Listing) : Prop :=
  ∀ segments s, p.Below s.place → go segments s = walkStep go segments s

section Recursion

variable {p : Place} {s : Spot} {segments : List Segment}

theorem solves_walk (horderly : ∀ q, p.Below q → q.Orderly) : Solves p walk := by
  intro segments s hs
  rcases segments with _ | ⟨seg, rest⟩
  · rfl
  · cases seg with
    | anyDepth => exact descend_eq_andThen (horderly _ hs)
    | name n => cases rest <;> rfl
    | glob g => cases rest <;> rfl

variable {go : List Segment → Spot → Listing}

/-- Under any depth the segments stay and the tree gets smaller. -/
theorem eq_walk_anyDepth {rest : List Segment} (horderly : ∀ q, s.place.Below q → q.Orderly)
    (h : ∀ s', s.place.Below s'.place →
      go (.anyDepth :: rest) s' = walkStep go (.anyDepth :: rest) s')
    (hrest : ∀ s', s.place.Below s'.place → go rest s' = walk rest s') :
    go (.anyDepth :: rest) s = walk (.anyDepth :: rest) s := by
  induction hn : sizeOf s.place.here using Nat.strongRecOn generalizing s with
  | ind n ih =>
      rw [h s (.refl _), solves_walk horderly _ s (.refl _), walkStep, walkStep,
        hrest s (.refl _)]
      refine congrArg (andThen _) (enterFitting_congr fun name es he => ?_)
      exact ih _ (hn ▸ sizeOf_entries_lt he) (fun q hq => horderly q (.enter he hq))
        (fun s' hs' => h s' (.enter he hs')) (fun s' hs' => hrest s' (.enter he hs')) rfl

/-- **A walk is the only solution of its recursion.** From call to call the segments get fewer, or
they stay and the tree gets smaller. -/
theorem eq_walk (go : List Segment → Spot → Listing)
    (horderly : ∀ q, s.place.Below q → q.Orderly) (hplain : ∀ n, .name n ∈ segments → IsPlain n)
    (h : ∀ rest, rest <:+ segments → ∀ s', s.place.Below s'.place →
      go rest s' = walkStep go rest s') : go segments s = walk segments s := by
  induction segments generalizing s with
  | nil => exact h [] List.suffix_rfl s (.refl _)
  | cons seg rest ih =>
      have hrest : ∀ s', s.place.Below s'.place → go rest s' = walk rest s' := by
        intro s' hs'
        refine ih (fun q hq => horderly q (hs'.trans hq))
          (fun n hn => hplain n (List.mem_cons_of_mem _ hn)) fun rest' hrest' s'' hs'' => ?_
        exact h rest' (hrest'.trans (List.suffix_cons _ _)) s'' (hs'.trans hs'')
      have hentries : ∀ name es, (name, .dir es) ∈ s.place.here →
          go rest (s.enter name (s.place.enter es)) =
            walk rest (s.enter name (s.place.enter es)) :=
        fun name es he => hrest _ (.enter he (.refl _))
      have hgo := h (seg :: rest) List.suffix_rfl s (.refl _)
      cases seg with
      | anyDepth => exact eq_walk_anyDepth horderly (h _ List.suffix_rfl) hrest
      | name n =>
          cases rest with
          | nil => exact hgo
          | cons => exact hgo.trans (enterName_congr (hplain n List.mem_cons_self) hentries)
      | glob g =>
          cases rest with
          | nil => exact hgo
          | cons => exact hgo.trans (enterFitting_congr hentries)

end Recursion

/-! ## Looking up and searching -/

/-- A directory whose links each lead somewhere, or nowhere at all. -/
def Place.Readable (p : Place) : Prop := ∀ e ∈ p.here, ∃ k, p.kind e.2 = .ok k

/-- In a tree of directories that can be read no link is broken. -/
theorem Place.not_broken {p : Place} (hread : ∀ q, p.Below q → q.Readable) (f : FileFault) :
    ¬ p.Broken f := by
  rintro ⟨q, hq, e, he, hfault⟩
  obtain ⟨k, hkind⟩ := hread q hq e he
  rw [hkind] at hfault
  cases hfault

/-- In such a tree nothing stops a walk but a name that is too long. -/
theorem walk_ends {segments : List Segment} {s : Spot}
    (hplain : ∀ n, .name n ∈ segments → IsPlain n) (hread : ∀ q, s.place.Below q → q.Readable)
    (hshort : ∀ n, .name n ∈ segments → n.utf8ByteSize ≤ maxNameSize) :
    (walk segments s).fault = none := by
  by_contra hfault
  obtain ⟨e, he⟩ := Option.ne_none_iff_exists'.1 hfault
  cases blocked_of_fault hplain he with
  | link hlink => exact Place.not_broken hread _ hlink
  | name hn hlong => exact absurd (hshort _ hn) (Nat.not_le.2 hlong)

/-- A pattern that fits one name only. -/
def Glob.Fixes (g : Glob) (n : String) : Prop :=
  ∀ name : String, g.fits name.toList = true ↔ name = n

section Lookup

variable {f : Spot → Listing} {s : Spot} {g : Glob} {n : String} {e : Entry} {k : Kind}

theorem filter_eq_singleton {α : Type} {xs : List (String × α)} {a : α} {p : String × α → Bool}
    (hnodup : (xs.map Prod.fst).Nodup) (hp : ∀ x, p x = true ↔ x.1 = n) (ha : (n, a) ∈ xs) :
    xs.filter p = [(n, a)] := by
  induction xs with
  | nil => cases ha
  | cons x xs ih =>
      obtain ⟨hx, hnodup⟩ := List.nodup_cons.1 hnodup
      rcases List.mem_cons.1 ha with rfl | ha
      · have hnone : xs.filter p = [] := by
          refine List.filter_eq_nil_iff.2 fun y hy hpy => hx ?_
          have hmem := List.mem_map_of_mem (f := Prod.fst) hy
          rwa [(hp y).1 hpy] at hmem
        rw [List.filter_cons_of_pos ((hp _).2 rfl), hnone]
      · have hother : ¬ p x = true := by
          intro hpx
          rw [(hp x).1 hpx] at hx
          exact hx (List.mem_map_of_mem (f := Prod.fst) ha)
        rw [List.filter_cons_of_neg hother, ih hnodup ha]

/-- In a directory that can be read everything is seen. -/
theorem exists_scan (hread : s.place.Readable) : ∃ ks, s.scan = .ok ks ∧
    ∀ name k, (name, k) ∈ ks ↔ ∃ e, (name, e) ∈ s.place.here ∧ s.place.kind e = .ok k := by
  cases hkinds : s.kinds s.place.here with
  | error d =>
      obtain ⟨e, he, hf⟩ := Spot.exists_of_kinds_eq_error hkinds
      obtain ⟨k, hk⟩ := hread e he
      rw [hk] at hf
      cases hf
  | ok read =>
      refine ⟨sortByName read, by rw [Spot.scan, hkinds], fun name k => ?_⟩
      rw [sortByName, List.mem_mergeSort, Spot.mem_kinds hkinds]

theorem fitting_of_none (hread : s.place.Readable) (hg : g.Fixes n)
    (hget : Assoc.get? n s.place.here = none) : s.fitting g = .ok [] := by
  obtain ⟨ks, hscan, hks⟩ := exists_scan hread
  rw [Spot.fitting, hscan]
  refine congrArg Except.ok (List.filter_eq_nil_iff.2 fun x hx hfits => ?_)
  obtain ⟨e, he, -⟩ := (hks x.1 x.2).1 hx
  rw [(hg x.1).1 hfits] at he
  exact Assoc.get?_eq_none_iff.1 hget (List.mem_map_of_mem (f := Prod.fst) he)

theorem fitting_of_some (hs : s.place.Orderly) (hread : s.place.Readable) (hg : g.Fixes n)
    (hget : Assoc.get? n s.place.here = some e) (hkind : s.place.kind e = .ok k) :
    s.fitting g = .ok [(n, k)] := by
  obtain ⟨ks, hscan, hks⟩ := exists_scan hread
  rw [Spot.fitting, hscan]
  have hnodup : (ks.map Prod.fst).Nodup :=
    List.pairwise_map.2 ((Spot.pairwise_scan hs hscan).imp fun h => ne_of_lt h)
  refine congrArg Except.ok (filter_eq_singleton hnodup (fun x => hg x.1) ?_)
  exact (hks n k).2 ⟨e, Assoc.mem_of_get?_eq_some hget, hkind⟩

variable (hs : s.place.Orderly) (hread : s.place.Readable) (hn : IsPlain n)
  (hshort : n.utf8ByteSize ≤ maxNameSize) (hg : g.Fixes n)
include hs hread hn hshort hg

theorem fileName_eq_filesFitting : fileName n s = filesFitting g s := by
  rw [fileName, filesFitting, follow_name hn hshort]
  cases hget : Assoc.get? n s.place.here with
  | none =>
      rw [fitting_of_none hread hg hget]
      rfl
  | some e =>
      obtain ⟨k, hkind⟩ := hread _ (Assoc.mem_of_get?_eq_some hget)
      rw [fitting_of_some hs hread hg hget hkind]
      cases e with
      | file =>
          cases hkind
          rfl
      | dir =>
          cases hkind
          rfl
      | link target =>
          rw [Place.kind] at hkind
          dsimp only
          split at hkind
          all_goals
            cases hkind
          next hfollow => rw [hfollow]; rfl
          next hfollow => rw [hfollow]; rfl
          next hfollow => rw [hfollow]; rfl

theorem enterName_eq_enterFitting : enterName f n s = enterFitting f g s := by
  rw [enterName, if_neg hn.ne_dot, if_neg hn.ne_dots, enterFitting_eq, follow_name hn hshort]
  cases hget : Assoc.get? n s.place.here with
  | none =>
      rw [fitting_of_none hread hg hget]
      rfl
  | some e =>
      obtain ⟨k, hkind⟩ := hread _ (Assoc.mem_of_get?_eq_some hget)
      rw [fitting_of_some hs hread hg hget hkind]
      dsimp only
      rw [List.map_singleton, concat, List.foldr_cons, List.foldr_nil, andThen_nothing, inEntry,
        hget]
      cases e with
      | file =>
          cases hkind
          rfl
      | dir =>
          cases hkind
          rfl
      | link target =>
          -- A link is not entered, wherever it leads, if it can be followed.
          have hlong : follow (maxLinks - 1) (s.place.origin target) (pieces target) ≠
              .error .nameTooLong := by
            intro hfollow
            rw [Place.kind, hfollow] at hkind
            cases hkind
          dsimp only
          split
          next hfollow => exact absurd hfollow hlong
          next => cases k <;> rfl

/-- **A name that is looked up is found as if it were searched for**, in a directory that can be
read. -/
theorem walk_name_eq (rest : List Segment) :
    walk (.name n :: rest) s = walk (.glob g :: rest) s := by
  cases rest with
  | nil => exact fileName_eq_filesFitting hs hread hn hshort hg
  | cons => exact enterName_eq_enterFitting hs hread hn hshort hg

end Lookup

/-- A segment for which names are searched, in place of one that is looked up. -/
def Segment.searched : Segment → Segment
  | .name n => .glob (.ofText n.toList)
  | seg => seg

/-- **Searching for all names changes nothing**, in a tree whose directories can all be read. -/
theorem walk_map_searched {segments : List Segment} {s : Spot}
    (horderly : ∀ q, s.place.Below q → q.Orderly) (hread : ∀ q, s.place.Below q → q.Readable)
    (hnames : ∀ n, .name n ∈ segments → IsPlain n ∧ n.utf8ByteSize ≤ maxNameSize ∧
      Glob.Fixes (.ofText n.toList) n) :
    walk (segments.map Segment.searched) s = walk segments s := by
  refine eq_walk (fun segments s => walk (segments.map Segment.searched) s) horderly
    (fun n hn => (hnames n hn).1) fun rest hrest s' hs' => ?_
  have hsolves := solves_walk horderly (rest.map Segment.searched) s' hs'
  rcases rest with _ | ⟨seg, rest⟩
  · rfl
  · cases seg with
    | anyDepth => exact hsolves
    | name n =>
        obtain ⟨hplain, hshort, hfixes⟩ := hnames n (hrest.subset List.mem_cons_self)
        have heq := walk_name_eq (horderly _ hs') (hread _ hs') hplain hshort hfixes
          (rest.map Segment.searched)
        cases rest <;> exact heq.symm
    | glob g => cases rest <;> exact hsolves

/-! ## Written segments -/

section Written

variable {seg name : String} {segs names : List String}

theorem fits_read_self {fuel : Nat} {t : List Char} (h : ∀ c ∈ t, ¬ IsMagic c)
    (hfuel : t.length ≤ fuel) : Glob.fits (GlobPart.read fuel t) t = true := by
  induction t generalizing fuel with
  | nil =>
      have hread : GlobPart.read fuel [] = [] := by cases fuel <;> rfl
      rw [hread, Glob.fits]
      rfl
  | cons c t ih =>
      obtain ⟨fuel, rfl⟩ := Nat.exists_eq_add_one_of_ne_zero (by grind : fuel ≠ 0)
      obtain ⟨hc, ht⟩ := List.forall_mem_cons.1 h
      rw [read_char hc, Glob.fits, ih ht (Nat.le_of_succ_le_succ hfuel)]
      · simp [GlobPart.accepts]
      · simp

/-- A segment without wildcards is a pattern that fits its own name only. -/
theorem fixes_of_not_magic (h : ∀ c ∈ seg.toList, ¬ IsMagic c) :
    Glob.Fixes (.ofText seg.toList) seg := by
  intro name
  constructor
  · exact fun hfits => String.toList_inj.1 (eq_of_fits_read h (Nat.le_refl _) hfits)
  · rintro rfl
    exact fits_read_self h (Nat.le_refl _)

theorem ofText_of_not_magic (h : ∀ c ∈ seg.toList, ¬ IsMagic c) :
    Segment.ofText seg = .name seg := by
  have hdepth : seg ≠ "**" := by
    rintro rfl
    exact h '*' (by decide) (.inl rfl)
  have hmagic : ¬ (seg.toList.any fun c => c == '*' || c == '?' || c == '[') = true := by
    intro hany
    obtain ⟨c, hc, hm⟩ := List.any_eq_true.1 hany
    exact h c hc (by simpa [IsMagic, or_assoc] using hm)
  rw [Segment.ofText, if_neg hdepth, if_neg hmagic]

theorem ofText_of_magic (hdepth : seg ≠ "**") {c : Char} (hc : c ∈ seg.toList) (hm : IsMagic c) :
    Segment.ofText seg = .glob (.ofText seg.toList) := by
  have hmagic : (seg.toList.any fun c => c == '*' || c == '?' || c == '[') = true :=
    List.any_eq_true.2 ⟨c, hc, by simpa [IsMagic, or_assoc] using hm⟩
  rw [Segment.ofText, if_neg hdepth, if_pos hmagic]

/-- A segment takes the names that fit it as it is written. -/
theorem takes_ofText_iff (hdepth : seg ≠ "**") :
    (Segment.ofText seg).Takes name ↔ Glob.fits (.ofText seg.toList) name.toList = true := by
  refine ⟨fun h => ?_, takes_of_fits hdepth⟩
  by_cases hmagic : ∃ c ∈ seg.toList, IsMagic c
  · obtain ⟨c, hc, hm⟩ := hmagic
    rw [ofText_of_magic hdepth hc hm] at h
    exact h
  · have hplain : ∀ c ∈ seg.toList, ¬ IsMagic c := fun c hc hm => hmagic ⟨c, hc, hm⟩
    rw [ofText_of_not_magic hplain] at h
    exact (fixes_of_not_magic hplain name).2 h

/-- Whether names match written segments. The last of these stands for the name of a file, and so it
is not any depth. -/
def Matches (segs names : List String) : Prop := segs.getLast? ≠ some "**" ∧ Reaches segs names

theorem ofPattern_eq_map (h : "" ∉ segs) : Segment.ofPattern segs = segs.map Segment.ofText := by
  rw [Segment.ofPattern, List.filter_eq_self.2]
  intro seg hseg
  exact decide_eq_true fun hempty => h (hempty ▸ hseg)

theorem matches_of_fits (h : Fits (segs.map Segment.ofText) names) : Matches segs names := by
  induction segs generalizing names with
  | nil => cases h
  | cons seg segs ih =>
      rw [List.map_cons] at h
      generalize hrest : segs.map Segment.ofText = rest at h
      by_cases hdepth : seg = "**"
      · subst hdepth
        have h : Fits (.anyDepth :: rest) names := h
        cases h with
        | last htakes => exact htakes.elim
        | next htakes => exact htakes.elim
        | skip skipped hfits =>
            subst hrest
            have hne : segs ≠ [] := by
              rintro rfl
              cases hfits
            obtain ⟨hlast, hreaches⟩ := ih hfits
            exact ⟨by rwa [List.getLast?_cons_of_ne_nil hne], .skip skipped hreaches⟩
      · have htakes : ∀ {name}, (Segment.ofText seg).Takes name →
            Glob.fits (.ofText seg.toList) name.toList = true := (takes_ofText_iff hdepth).1
        generalize hseg : Segment.ofText seg = seg' at h htakes
        cases h with
        | last h =>
            obtain rfl := List.map_eq_nil_iff.1 hrest
            exact ⟨by simpa using hdepth, .next hdepth (htakes h) .nil⟩
        | next h hfits =>
            subst hrest
            have hne : segs ≠ [] := by
              rintro rfl
              cases hfits
            obtain ⟨hlast, hreaches⟩ := ih hfits
            exact ⟨by rwa [List.getLast?_cons_of_ne_nil hne], .next hdepth (htakes h) hreaches⟩
        | skip =>
            rw [Segment.ofText, if_neg hdepth] at hseg
            split at hseg <;> cases hseg

/-- Names fit segments in a walk if they match the segments as they are written. -/
theorem fits_ofPattern_iff (hsegs : "" ∉ segs) (hne : names ≠ []) (hnames : "" ∉ names) :
    Fits (Segment.ofPattern segs) names ↔ Matches segs names := by
  constructor
  · rw [ofPattern_eq_map hsegs]
    exact matches_of_fits
  · rintro ⟨hlast, hreaches⟩
    refine hreaches.fits ?_ hlast hnames
    rintro rfl
    cases hreaches
    exact hne rfl

end Written

section Exact

variable {segs : List String} {s : Spot}

theorem magic_free_of_name_mem {n : String} (h : .name n ∈ Segment.ofPattern segs) :
    ∀ c ∈ n.toList, ¬ IsMagic c := by
  intro c hc hm
  obtain ⟨seg, hseg, htext⟩ := List.mem_map.1 h
  by_cases hdepth : seg = "**"
  · subst hdepth
    cases htext
  · have hfree : ∀ c ∈ seg.toList, ¬ IsMagic c := fun c hc hm => by
      rw [ofText_of_magic hdepth hc hm] at htext
      cases htext
    rw [ofText_of_not_magic hfree] at htext
    cases htext
    exact hfree c hc hm

/-- **A walk lists the files whose names match, and nothing else.** It is the only solution of its
recursion. What it lists is right, and a walk that comes to its end has everything, where no link
leads through a file. What stops it is a link that cannot be followed or a name that is too long.
Other names that are looked up are found as if they were searched for in a directory that can be
read. In a tree of such directories nothing stops a walk, and it is as if all names were searched
for. -/
theorem walk_lists_exactly (hsegs : ∀ seg ∈ segs, IsPlain seg)
    (horderly : ∀ q, s.place.Below q → q.Orderly) :
    (Solves s.place walk ∧ ∀ go, Solves s.place go →
      go (Segment.ofPattern segs) s = walk (Segment.ofPattern segs) s) ∧
    (∀ id ∈ (walk (Segment.ofPattern segs) s).ids, ∃ names, s.place.FileAt names ∧
      Matches segs names ∧ id = s.head ++ "/".intercalate names) ∧
    ((walk (Segment.ofPattern segs) s).fault = none → ¬ s.place.Broken .notDirectory →
      ∀ names, s.place.FileAt names → Matches segs names →
        s.head ++ "/".intercalate names ∈ (walk (Segment.ofPattern segs) s).ids) ∧
    (∀ e, (walk (Segment.ofPattern segs) s).fault = some e →
      Blocked s.place (Segment.ofPattern segs) e) ∧
    (∀ seg ∈ segs, (∀ c ∈ seg.toList, ¬ IsMagic c) → seg.utf8ByteSize ≤ maxNameSize →
      ∀ rest s', s.place.Below s'.place → s'.place.Readable →
        walk (Segment.ofText seg :: rest) s' = walk (.glob (.ofText seg.toList) :: rest) s') ∧
    ((∀ q, s.place.Below q → q.Readable) →
      (∀ n, .name n ∈ Segment.ofPattern segs → n.utf8ByteSize ≤ maxNameSize) →
      (walk (Segment.ofPattern segs) s).fault = none ∧
      (∀ id, id ∈ (walk (Segment.ofPattern segs) s).ids ↔
        ∃ names, s.place.FileAt names ∧ Matches segs names ∧ id = s.head ++ "/".intercalate names) ∧
      walk ((Segment.ofPattern segs).map Segment.searched) s =
        walk (Segment.ofPattern segs) s) := by
  have hplain : ∀ n, .name n ∈ Segment.ofPattern segs → IsPlain n :=
    fun n hn => hsegs n (FileSearch.mem_of_name_mem_ofPattern hn).1
  have hempty : "" ∉ segs := fun h => (hsegs "" h).ne_empty rfl
  have hfits : ∀ names, s.place.FileAt names →
      (Fits (Segment.ofPattern segs) names ↔ Matches segs names) := by
    intro names hat
    exact fits_ofPattern_iff hempty hat.ne_nil fun h => (hat.isName horderly "" h).ne_empty rfl
  have hsound : ∀ id ∈ (walk (Segment.ofPattern segs) s).ids, ∃ names, s.place.FileAt names ∧
      Matches segs names ∧ id = s.head ++ "/".intercalate names := by
    intro id hid
    obtain ⟨names, hat, hnames, rfl⟩ := exists_of_mem_walk hplain hid
    exact ⟨names, hat, (hfits names hat).1 hnames, rfl⟩
  have hcomplete : (walk (Segment.ofPattern segs) s).fault = none →
      ¬ s.place.Broken .notDirectory → ∀ names, s.place.FileAt names → Matches segs names →
        s.head ++ "/".intercalate names ∈ (walk (Segment.ofPattern segs) s).ids := by
    intro hend hlinks names hat hmatches
    exact mem_walk horderly hlinks hend hat ((hfits names hat).2 hmatches)
  refine ⟨⟨solves_walk horderly, fun go hgo => ?_⟩, hsound, hcomplete, ?_, ?_, ?_⟩
  · exact eq_walk go horderly hplain fun rest _ s' hs' => hgo rest s' hs'
  · exact fun e => blocked_of_fault hplain
  · intro seg hseg hfree hshort rest s' hs' hread
    rw [ofText_of_not_magic hfree]
    exact walk_name_eq (horderly _ hs') hread (hsegs seg hseg) hshort (fixes_of_not_magic hfree)
      rest
  · intro hread hshort
    -- Nothing stops this walk, so that it lists everything needs no condition on its end.
    have hend := walk_ends hplain hread hshort
    refine ⟨hend, fun id => ⟨hsound id, ?_⟩, walk_map_searched horderly hread fun n hn => ?_⟩
    · rintro ⟨names, hat, hmatches, rfl⟩
      exact hcomplete hend (Place.not_broken hread _) names hat hmatches
    · exact ⟨hplain n hn, hshort n hn, fixes_of_not_magic (magic_free_of_name_mem hn)⟩

/-- A link to a file is listed at any depth; what a link to a directory leads to is not. -/
theorem walk_lists_exactly_link :
    let entries : Entries := [("a", .file []),
      ("d", .dir [("b", .link "../a"), ("x", .link "y")]), ("l", .link "d")]
    let s : Spot := ⟨⟨entries, []⟩, "/r", ""⟩
    let l := walk (Segment.ofPattern ["**", "b"]) s
    l.fault = none ∧ s.head ++ "/".intercalate ["d", "b"] ∈ l.ids ∧ "l/b" ∉ l.ids ∧
      walk ((Segment.ofPattern ["**", "b"]).map Segment.searched) s = l := by
  intro entries s l
  let inner : Entries := [("b", .link "../a"), ("x", .link "y")]
  have hdir : ∀ {name es}, (name, .dir es) ∈ entries → name = "d" ∧ es = inner := by
    intro name es he
    rcases List.mem_cons.1 he with he | he
    · cases he
    · rcases List.mem_pair.1 he with he | he
      · cases he
        exact ⟨rfl, rfl⟩
      · cases he
  have hinner : ∀ {name es}, (name, .dir es) ∉ inner := by
    intro name es he
    rcases List.mem_pair.1 he with he | he <;> cases he
  -- The tree has two directories, since the link beside them is not entered.
  have hbelow : ∀ q, s.place.Below q → q = ⟨entries, []⟩ ∨ q = ⟨inner, [entries]⟩ := by
    intro q hq
    cases hq with
    | refl => exact .inl rfl
    | enter he hq =>
        obtain ⟨rfl, rfl⟩ := hdir he
        cases hq with
        | refl => exact .inr rfl
        | enter he => exact absurd he hinner
  have horderly : ∀ q, s.place.Below q → q.Orderly := by
    intro q hq
    rcases hbelow q hq with rfl | rfl <;> constructor <;> decide
  have hlink : Place.kind ⟨inner, [entries]⟩ (.link "../a") = .ok .file := by cbv
  have hdangling : Place.kind ⟨inner, [entries]⟩ (.link "y") = .ok .other := by cbv
  have hread : ∀ q, s.place.Below q → q.Readable := by
    intro q hq e he
    rcases hbelow q hq with rfl | rfl
    · rcases List.mem_cons.1 he with rfl | he
      · exact ⟨.file, rfl⟩
      · rcases List.mem_pair.1 he with rfl | rfl
        · exact ⟨.dir, rfl⟩
        · exact ⟨.other, by cbv⟩
    · rcases List.mem_pair.1 he with rfl | rfl
      · exact ⟨.file, hlink⟩
      · exact ⟨.other, hdangling⟩
  have hsegs : ∀ seg ∈ ["**", "b"], IsPlain seg := by
    intro seg hseg
    rcases List.mem_pair.1 hseg with rfl | rfl <;> constructor <;> decide
  have hshort : ∀ n, .name n ∈ Segment.ofPattern ["**", "b"] →
      n.utf8ByteSize ≤ maxNameSize := by
    intro n hn
    rcases List.mem_pair.1 (FileSearch.mem_of_name_mem_ofPattern hn).1 with rfl | rfl <;> decide
  have hat : s.place.FileAt ["d", "b"] := by
    have he : ("d", .dir inner) ∈ s.place.here := List.mem_cons_of_mem _ List.mem_cons_self
    have hfile : (s.place.enter inner).FileAt ["b"] := .file List.mem_cons_self hlink
    exact .enter he hfile
  have hmatches : Matches ["**", "b"] ["d", "b"] :=
    ⟨by decide, .skip ["d"] (.next (by decide) (by cbv) .nil)⟩
  obtain ⟨hend, hexact, hsearched⟩ :=
    (walk_lists_exactly hsegs horderly).2.2.2.2.2 hread hshort
  refine ⟨hend, (hexact _).2 ⟨_, hat, hmatches, rfl⟩, fun hid => ?_, hsearched⟩
  -- What is listed is a file of one of the two directories, and none of these has this path.
  obtain ⟨names, hfile, hnames, hid⟩ := (hexact _).1 hid
  cases hfile with
  | file he =>
      revert hid
      rcases List.mem_cons.1 he with he | he
      · cases he
        decide
      · rcases List.mem_pair.1 he with he | he <;> cases he <;> decide
  | enter he hfile =>
      obtain ⟨rfl, rfl⟩ := hdir he
      cases hfile with
      | file he =>
          revert hid
          rcases List.mem_pair.1 he with he | he <;> cases he <;> decide
      | enter he => exact absurd he hinner

/-- A link that leads to itself stops the search for a name and not its look-up, a name that is too
long stops its look-up and not the search. And a link through a file hides what is beside it from a
search. -/
theorem walk_stopped :
    (let s : Spot := ⟨⟨[("a", .file []), ("z", .link "z")], []⟩, "/r", ""⟩
     s.place.FileAt ["a"] ∧ Matches ["*"] ["a"] ∧
       walk (Segment.ofPattern ["*"]) s = ⟨[], some (.file .tooManyLinks "/r/z")⟩ ∧
       walk ((Segment.ofPattern ["a"]).map Segment.searched) s =
         ⟨[], some (.file .tooManyLinks "/r/z")⟩ ∧
       walk (Segment.ofPattern ["a"]) s = ⟨["a"], none⟩) ∧
    (let s : Spot := ⟨⟨[], []⟩, "/r", ""⟩
     let long := String.ofList (List.replicate 256 'a')
     walk (Segment.ofPattern [long]) s = ⟨[], some (.file .nameTooLong (s.pathOf long))⟩ ∧
       walk ((Segment.ofPattern [long]).map Segment.searched) s = ⟨[], none⟩) ∧
    let s : Spot := ⟨⟨[("a", .file []), ("z", .link "a/z")], []⟩, "/r", ""⟩
    s.place.FileAt ["a"] ∧ Matches ["*"] ["a"] ∧
      walk (Segment.ofPattern ["*"]) s = ⟨[], none⟩ ∧
      walk (Segment.ofPattern ["a"]) s = ⟨["a"], none⟩ := by
  have hmatches : Matches ["*"] ["a"] := ⟨by decide, .next (by decide) (by cbv) .nil⟩
  refine ⟨⟨.file List.mem_cons_self rfl, hmatches, by cbv, by cbv, by cbv⟩, ?_,
    .file List.mem_cons_self rfl, hmatches, by cbv, by cbv⟩
  intro s long
  have hplain : IsPlain long := by constructor <;> decide +kernel
  have hlong : maxNameSize < long.utf8ByteSize := by decide +kernel
  have hfree : ∀ c ∈ long.toList, ¬ IsMagic c := by
    intro c hc
    rw [String.toList_ofList] at hc
    rw [List.eq_of_mem_replicate hc]
    decide
  have hpattern : Segment.ofPattern [long] = [.name long] := by
    rw [ofPattern_eq_map (by simpa using hplain.ne_empty.symm), List.map_singleton,
      ofText_of_not_magic hfree]
  rw [hpattern]
  constructor
  · rw [walk, fileName, follow_long hplain hlong]
  · have hread : s.place.Readable := by rintro e ⟨⟩
    show filesFitting (.ofText long.toList) s = _
    rw [filesFitting, fitting_of_none hread (fixes_of_not_magic hfree) rfl]
    rfl

end Exact

end Winnow.Files
