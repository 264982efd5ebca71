import Winnow.Proofs.Files.Scanning

/-!
# Walks list the files that fit

A walk lists the files under a directory whose path fits its segments (`mem_walk_iff`): the names on
the way fit the segments one by one, where any depth may skip some of them (`Fits`). This holds as
long as the walk comes to its end. What stops it is a link that cannot be followed or a name that is
too long (`blocked_of_fault`).
-/

namespace Winnow.Files

/-! ## Any depth -/

namespace Spot

/-- The directory that names lead to, going into directories. -/
inductive Descends : Spot → List String → Spot → Prop
  | here (s : Spot) : Descends s [] s
  | enter {s s' : Spot} {name : String} {entries : Entries} {names : List String}
      (h : (name, .dir entries) ∈ s.place.here)
      (hs : Descends (s.enter name (s.place.enter entries)) names s') :
      Descends s (name :: names) s'

theorem head_enter (s : Spot) (name : String) (p : Place) {names : List String} (h : names ≠ []) :
    (s.enter name p).head ++ "/".intercalate names = s.head ++ "/".intercalate (name :: names) := by
  rw [String.intercalate_cons_of_ne_nil h, enter, String.append_assoc, String.append_assoc,
    String.append_assoc]

theorem Descends.place_below {s s' : Spot} {names : List String} (h : Descends s names s') :
    s.place.Below s'.place := by
  induction h with
  | here => exact .refl _
  | enter h _ ih => exact .enter h ih

theorem Descends.head {s s' : Spot} {skipped names : List String} (h : Descends s skipped s')
    (hne : names ≠ []) :
    s'.head ++ "/".intercalate names = s.head ++ "/".intercalate (skipped ++ names) := by
  induction h with
  | here => rfl
  | @enter s s' name entries skipped _ _ ih =>
      rw [ih, head_enter _ _ _ (by simp [hne])]
      rfl

theorem Descends.fileAt {s s' : Spot} {skipped names : List String} (h : Descends s skipped s')
    (hfile : s'.place.FileAt names) : s.place.FileAt (skipped ++ names) := by
  induction h with
  | here => exact hfile
  | enter h _ ih => exact .enter h (ih hfile)

theorem exists_descends {s : Spot} {skipped names : List String} (hne : names ≠ [])
    (h : s.place.FileAt (skipped ++ names)) :
    ∃ s', Descends s skipped s' ∧ s'.place.FileAt names := by
  induction skipped generalizing s with
  | nil => exact ⟨s, .here s, h⟩
  | cons name skipped ih =>
      generalize hall : name :: skipped ++ names = all at h
      cases h with
      | file => exact absurd (List.append_eq_nil_iff.1 (List.cons.inj hall).2).2 hne
      | @enter _ _ entries _ he hfile =>
          obtain ⟨rfl, rfl⟩ := List.cons.inj hall
          obtain ⟨s', hs', hfile'⟩ := ih (s := s.enter name (s.place.enter entries)) hfile
          exact ⟨s', .enter he hs', hfile'⟩

end Spot

theorem descend_eq (f : Spot → Listing) (s : Spot) :
    descend f s = andThen (f s) (match s.scan with
      | .error e => ⟨[], some e⟩
      | .ok [] => nothing
      | .ok _ => concat ((sortByName (descendEntries f s s.place.here)).map Prod.snd)) := rfl

theorem mem_descendEntries {f : Spot → Listing} {s : Spot} {entries : Entries}
    {d : String × Listing} :
    d ∈ descendEntries f s entries → d.2 = nothing ∨ ∃ name es, (name, .dir es) ∈ entries ∧
      d.2 = descend f (s.enter name (s.place.enter es)) := by
  induction entries with
  | nil => rintro ⟨⟩
  | cons e entries ih =>
      obtain ⟨name, e⟩ := e
      rw [descendEntries]
      intro hd
      rcases List.mem_cons.1 hd with rfl | hd
      · cases e with
        | dir es => exact .inr ⟨name, es, List.mem_cons_self, rfl⟩
        | _ => exact .inl rfl
      · rcases ih hd with hd | ⟨name', es, he, hd⟩
        · exact .inl hd
        · exact .inr ⟨name', es, List.mem_cons_of_mem _ he, hd⟩

theorem descend_mem_descendEntries {f : Spot → Listing} {s : Spot} {entries : Entries}
    {name : String} {es : Entries} (h : (name, .dir es) ∈ entries) :
    (name, descend f (s.enter name (s.place.enter es))) ∈ descendEntries f s entries := by
  induction entries with
  | nil => cases h
  | cons e entries ih =>
      obtain ⟨name', e⟩ := e
      rw [descendEntries]
      rcases List.mem_cons.1 h with he | h
      · cases he
        exact List.mem_cons_self
      · exact List.mem_cons_of_mem _ (ih h)

theorem sizeOf_entries_lt {s : Spot} {name : String} {es : Entries}
    (h : (name, .dir es) ∈ s.place.here) : sizeOf es < sizeOf s.place.here := by
  have := List.sizeOf_lt_of_mem h
  simp only [Prod.mk.sizeOf_spec, Entry.dir.sizeOf_spec] at this
  omega

/-- What is listed at any depth is listed at some directory. -/
theorem exists_of_mem_descend {f : Spot → Listing} {s : Spot} {id : String}
    (h : id ∈ (descend f s).ids) : ∃ skipped s', s.Descends skipped s' ∧ id ∈ (f s').ids := by
  -- The directories below are smaller than the one that holds them.
  induction hn : sizeOf s.place.here using Nat.strongRecOn generalizing s with
  | ind n ih =>
      rw [descend_eq] at h
      rcases mem_andThen.1 h with h | ⟨-, h⟩
      · exact ⟨[], s, .here s, h⟩
      · split at h
        · cases h
        · cases h
        · obtain ⟨l, hl, hid⟩ := exists_of_mem_concat h
          obtain ⟨d, hd, rfl⟩ := List.mem_map.1 hl
          rw [sortByName, List.mem_mergeSort] at hd
          rcases mem_descendEntries hd with hd | ⟨name, es, he, hd⟩
          · rw [hd] at hid
            cases hid
          · rw [hd] at hid
            obtain ⟨skipped, s', hs', hid⟩ := ih _ (hn ▸ sizeOf_entries_lt he) hid rfl
            exact ⟨name :: skipped, s', .enter he hs', hid⟩

/-- What stops a walk at any depth stops it at some directory. -/
theorem exists_of_fault_descend {f : Spot → Listing} {s : Spot} {e : Error}
    (h : (descend f s).fault = some e) :
    ∃ skipped s', s.Descends skipped s' ∧ ((f s').fault = some e ∨ s'.scan = .error e) := by
  induction hn : sizeOf s.place.here using Nat.strongRecOn generalizing s with
  | ind n ih =>
      rw [descend_eq] at h
      rcases fault_andThen.1 h with h | ⟨-, h⟩
      · exact ⟨[], s, .here s, .inl h⟩
      · split at h
        next hscan =>
            cases h
            exact ⟨[], s, .here s, .inr hscan⟩
        · cases h
        · obtain ⟨l, hl, hfault⟩ := exists_of_fault_concat h
          obtain ⟨d, hd, rfl⟩ := List.mem_map.1 hl
          rw [sortByName, List.mem_mergeSort] at hd
          rcases mem_descendEntries hd with hd | ⟨name, es, he, hd⟩
          · rw [hd] at hfault
            cases hfault
          · rw [hd] at hfault
            obtain ⟨skipped, s', hs', hfault⟩ := ih _ (hn ▸ sizeOf_entries_lt he) hfault rfl
            exact ⟨name :: skipped, s', .enter he hs', hfault⟩

/-- A walk at any depth that comes to its end has been at every directory. -/
theorem mem_descend {f : Spot → Listing} {s s' : Spot} {skipped : List String}
    (hs : s.Descends skipped s') (hlinks : ¬ s.place.Broken .notDirectory)
    (h : (descend f s).fault = none) :
    (f s').fault = none ∧ ∀ id ∈ (f s').ids, id ∈ (descend f s).ids := by
  induction hs with
  | here s =>
      rw [descend_eq] at h ⊢
      exact ⟨(fault_andThen_eq_none.1 h).1, fun id hid => mem_andThen.2 (.inl hid)⟩
  | @enter s s' name entries skipped he hs ih =>
      rw [descend_eq] at h ⊢
      obtain ⟨hhere, hrest⟩ := fault_andThen_eq_none.1 h
      split at hrest
      · cases hrest
      next hscan =>
          -- A directory that holds another one is not read as empty.
          have hmem := Spot.mem_scan hscan hlinks he (k := .dir) rfl
          cases hmem
      next hscan =>
          have hin : descend f (s.enter name (s.place.enter entries)) ∈
              (sortByName (descendEntries f s s.place.here)).map Prod.snd := by
            rw [sortByName]
            exact List.mem_map_of_mem (List.mem_mergeSort.2 (descend_mem_descendEntries he))
          obtain ⟨hfault, hids⟩ := of_fault_concat_eq_none hrest _ hin
          obtain ⟨hfault', hids'⟩ :=
            ih (fun hb => hlinks (.of_below (.enter he (.refl _)) hb)) hfault
          exact ⟨hfault', fun id hid => mem_andThen.2 (.inr ⟨hhere, hids id (hids' id hid)⟩)⟩

/-! ## What stops a walk -/

/-- The errors that a walk under a place can end in. -/
inductive Blocked (p : Place) (segments : List Segment) : Error → Prop
  | link {f : FileFault} (h : p.Broken f) (path : String) : Blocked p segments (.file f path)
  | name {n : String} (hn : .name n ∈ segments) (hlong : maxNameSize < n.utf8ByteSize)
      (path : String) : Blocked p segments (.file .nameTooLong path)

theorem Blocked.mono {p q : Place} {segments segments' : List Segment} {e : Error}
    (h : Blocked q segments e) (hq : p.Below q) (hsub : segments ⊆ segments') :
    Blocked p segments' e := by
  cases h with
  | link h path => exact .link (.of_below hq h) path
  | name hn hlong path => exact .name (hsub hn) hlong path

/-! ## Single segments -/

section Single

variable {f : Spot → Listing} {s : Spot} {n : String} {g : Glob} {e : Error}

theorem follow_long {p : Place} (hn : IsPlain n) (hlong : maxNameSize < n.utf8ByteSize) :
    follow maxLinks p [n] = .error .nameTooLong := by
  rw [follow, if_neg (not_or.2 ⟨hn.ne_empty, hn.ne_dot⟩), if_neg hn.ne_dots, if_pos hlong]

/-- What is looked up as a file is a file of the directory. -/
theorem exists_of_follow_file {p : Place} {content : List UInt8} (hn : IsPlain n)
    (h : follow maxLinks p [n] = .ok (.file content)) :
    ∃ e, (n, e) ∈ p.here ∧ p.kind e = .ok .file := by
  by_cases hshort : n.utf8ByteSize ≤ maxNameSize
  · rw [follow_name hn hshort] at h
    cases hget : Assoc.get? n p.here with
    | none =>
        rw [hget] at h
        cases h
    | some e =>
        refine ⟨e, Assoc.mem_of_get?_eq_some hget, ?_⟩
        rw [hget] at h
        cases e with
        | file => rfl
        | dir => cases h
        | link target =>
            rw [Place.kind]
            dsimp only at h
            rw [h]
  · rw [follow_long hn (Nat.lt_of_not_le hshort)] at h
    cases h

theorem exists_follow_file {p : Place} {e : Entry} (hn : IsName n)
    (hget : Assoc.get? n p.here = some e) (hkind : p.kind e = .ok .file) :
    ∃ content, follow maxLinks p [n] = .ok (.file content) := by
  rw [follow_name hn.toIsPlain hn.short, hget]
  cases e with
  | file content => exact ⟨content, rfl⟩
  | dir => cases hkind
  | link target =>
      rw [Place.kind] at hkind
      dsimp only
      split at hkind
      next content hfollow => exact ⟨content, hfollow⟩
      all_goals cases hkind

/-- A name that cannot be looked up is too long, or it is that of a link with such a name in it. -/
theorem blocked_of_follow {p : Place} (hn : IsPlain n)
    (h : follow maxLinks p [n] = .error .nameTooLong) (path : String) :
    Blocked p [.name n] (.file .nameTooLong path) := by
  by_cases hshort : n.utf8ByteSize ≤ maxNameSize
  · rw [follow_name hn hshort] at h
    cases hget : Assoc.get? n p.here with
    | none =>
        rw [hget] at h
        cases h
    | some e =>
        rw [hget] at h
        cases e with
        | file => cases h
        | dir => cases h
        | link target =>
            refine .link ⟨p, .refl p, _, Assoc.mem_of_get?_eq_some hget, ?_⟩ path
            rw [Place.kind]
            dsimp only at h
            rw [h]
  · exact .name (List.mem_singleton_self _) (Nat.lt_of_not_le hshort) path

theorem of_mem_fileName {id : String} (hn : IsPlain n) (h : id ∈ (fileName n s).ids) :
    s.place.FileAt [n] ∧ id = s.head ++ n := by
  rw [fileName] at h
  split at h
  next content hfollow =>
      obtain ⟨e, he, hkind⟩ := exists_of_follow_file hn hfollow
      exact ⟨.file he hkind, List.mem_singleton.1 h⟩
  next => cases h
  next => cases h

theorem mem_fileName {e : Entry} (hn : IsName n) (hget : Assoc.get? n s.place.here = some e)
    (hkind : s.place.kind e = .ok .file) : s.head ++ n ∈ (fileName n s).ids := by
  obtain ⟨content, hfollow⟩ := exists_follow_file hn hget hkind
  rw [fileName, hfollow]
  exact List.mem_singleton_self _

theorem blocked_of_fault_fileName (hn : IsPlain n) (h : (fileName n s).fault = some e) :
    Blocked s.place [.name n] e := by
  rw [fileName] at h
  split at h
  · cases h
  next hfollow =>
      cases h
      exact blocked_of_follow hn hfollow _
  · cases h

theorem of_mem_enterName {id : String} (hn : IsPlain n) (h : id ∈ (enterName f n s).ids) :
    ∃ es, (n, .dir es) ∈ s.place.here ∧ id ∈ (f (s.enter n (s.place.enter es))).ids := by
  rw [enterName, if_neg hn.ne_dot, if_neg hn.ne_dots] at h
  split at h
  · cases h
  · split at h
    next es hget => exact ⟨es, Assoc.mem_of_get?_eq_some hget, h⟩
    next => cases h

theorem enterName_eq {es : Entries} (hn : IsName n)
    (hget : Assoc.get? n s.place.here = some (.dir es)) :
    enterName f n s = f (s.enter n (s.place.enter es)) := by
  have hfollow : follow maxLinks s.place [n] = .ok (.dir (s.place.enter es)) := by
    rw [follow_name hn.toIsPlain hn.short, hget]
  rw [enterName, if_neg hn.ne_dot, if_neg hn.ne_dots, hfollow, hget]

theorem blocked_of_fault_enterName (hn : IsPlain n) (h : (enterName f n s).fault = some e) :
    Blocked s.place [.name n] e ∨
      ∃ es, (n, .dir es) ∈ s.place.here ∧ (f (s.enter n (s.place.enter es))).fault = some e := by
  rw [enterName, if_neg hn.ne_dot, if_neg hn.ne_dots] at h
  split at h
  next hfollow =>
      cases h
      exact .inl (blocked_of_follow hn hfollow _)
  · split at h
    next es hget => exact .inr ⟨es, Assoc.mem_of_get?_eq_some hget, h⟩
    next => cases h

/-- The entries of a directory that fit, as far as the directory can be read. -/
theorem exists_of_fitting {ks : List (String × Kind)} (h : s.fitting g = .ok ks) :
    ∃ all, s.scan = .ok all ∧
      ∀ name k, (name, k) ∈ ks ↔ (name, k) ∈ all ∧ g.fits name.toList = true := by
  rw [Spot.fitting] at h
  cases hscan : s.scan with
  | error e =>
      rw [hscan] at h
      cases h
  | ok all =>
      rw [hscan] at h
      cases h
      exact ⟨all, rfl, fun name k => List.mem_filter⟩

theorem blocked_of_fitting (h : s.fitting g = .error e) : Blocked s.place [.glob g] e := by
  rw [Spot.fitting] at h
  cases hscan : s.scan with
  | error e' =>
      rw [hscan] at h
      cases h
      obtain ⟨f, path, rfl, hb⟩ := Spot.exists_of_scan_eq_error hscan
      exact .link hb path
  | ok all =>
      rw [hscan] at h
      cases h

theorem of_mem_filesFitting {id : String} (h : id ∈ (filesFitting g s).ids) :
    ∃ name, s.place.FileAt [name] ∧ g.fits name.toList = true ∧ id = s.head ++ name := by
  rw [filesFitting] at h
  split at h
  · cases h
  next ks hfitting =>
      obtain ⟨all, hscan, hks⟩ := exists_of_fitting hfitting
      obtain ⟨⟨name, k⟩, hk, rfl⟩ := List.mem_map.1 h
      obtain ⟨hk, hfile⟩ := List.mem_filter.1 hk
      obtain ⟨hall, hfits⟩ := (hks name k).1 hk
      obtain ⟨e, he, hkind⟩ := Spot.exists_of_mem_scan hscan hall
      have hk : k = .file := of_decide_eq_true hfile
      subst hk
      exact ⟨name, .file he hkind, hfits, rfl⟩

theorem mem_filesFitting {name : String} {e : Entry} (hlinks : ¬ s.place.Broken .notDirectory)
    (h : (filesFitting g s).fault = none) (he : (name, e) ∈ s.place.here)
    (hkind : s.place.kind e = .ok .file) (hfits : g.fits name.toList = true) :
    s.head ++ name ∈ (filesFitting g s).ids := by
  rw [filesFitting] at h ⊢
  cases hfitting : s.fitting g with
  | error e =>
      rw [hfitting] at h
      cases h
  | ok ks =>
      obtain ⟨all, hscan, hks⟩ := exists_of_fitting hfitting
      have hk : (name, Kind.file) ∈ ks :=
        (hks name .file).2 ⟨Spot.mem_scan hscan hlinks he hkind, hfits⟩
      exact List.mem_map.2 ⟨(name, .file), List.mem_filter.2 ⟨hk, rfl⟩, rfl⟩

theorem blocked_of_fault_filesFitting (h : (filesFitting g s).fault = some e) :
    Blocked s.place [.glob g] e := by
  rw [filesFitting] at h
  split at h
  next hfitting =>
      cases h
      exact blocked_of_fitting hfitting
  · cases h

theorem of_mem_enterFitting {id : String} (h : id ∈ (enterFitting f g s).ids) :
    ∃ name es, (name, .dir es) ∈ s.place.here ∧ g.fits name.toList = true ∧
      id ∈ (f (s.enter name (s.place.enter es))).ids := by
  rw [enterFitting] at h
  split at h
  · cases h
  next ks hfitting =>
      obtain ⟨all, -, hks⟩ := exists_of_fitting hfitting
      obtain ⟨l, hl, hid⟩ := exists_of_mem_concat h
      obtain ⟨⟨name, k⟩, hk, rfl⟩ := List.mem_map.1 hl
      dsimp only at hid
      split at hid
      next es hget =>
          exact ⟨name, es, Assoc.mem_of_get?_eq_some hget, ((hks _ _).1 hk).2, hid⟩
      next => cases hid

theorem mem_enterFitting {name : String} {es : Entries} (hlinks : ¬ s.place.Broken .notDirectory)
    (h : (enterFitting f g s).fault = none) (hget : Assoc.get? name s.place.here = some (.dir es))
    (hfits : g.fits name.toList = true) :
    (f (s.enter name (s.place.enter es))).fault = none ∧
      ∀ id ∈ (f (s.enter name (s.place.enter es))).ids, id ∈ (enterFitting f g s).ids := by
  rw [enterFitting] at h ⊢
  cases hfitting : s.fitting g with
  | error e =>
      rw [hfitting] at h
      cases h
  | ok ks =>
      rw [hfitting] at h
      obtain ⟨all, hscan, hks⟩ := exists_of_fitting hfitting
      have hk : (name, Kind.dir) ∈ ks :=
        (hks name .dir).2 ⟨Spot.mem_scan hscan hlinks (Assoc.mem_of_get?_eq_some hget) rfl, hfits⟩
      have hl := of_fault_concat_eq_none h _ (List.mem_map_of_mem hk)
      simp only [hget] at hl
      exact hl

theorem blocked_of_fault_enterFitting (h : (enterFitting f g s).fault = some e) :
    Blocked s.place [.glob g] e ∨ ∃ name es, (name, .dir es) ∈ s.place.here ∧
      (f (s.enter name (s.place.enter es))).fault = some e := by
  rw [enterFitting] at h
  split at h
  next hfitting =>
      cases h
      exact .inl (blocked_of_fitting hfitting)
  · obtain ⟨l, hl, hfault⟩ := exists_of_fault_concat h
    obtain ⟨⟨name, k⟩, -, rfl⟩ := List.mem_map.1 hl
    dsimp only at hfault
    split at hfault
    next es hget => exact .inr ⟨name, es, Assoc.mem_of_get?_eq_some hget, hfault⟩
    next => cases hfault

end Single

/-! ## Walks -/

/-- Whether a segment stands for this name. -/
def Segment.Takes : Segment → String → Prop
  | .anyDepth, _ => False
  | .name n, s => s = n
  | .glob g, s => g.fits s.toList = true

/-- Whether names fit segments. Any depth stands for any number of names, and some segment for a
name has to follow it. -/
inductive Fits : List Segment → List String → Prop
  | last {seg : Segment} {name : String} (h : seg.Takes name) : Fits [seg] [name]
  | next {seg : Segment} {name : String} {rest : List Segment} {names : List String}
      (h : seg.Takes name) (hrest : Fits rest names) : Fits (seg :: rest) (name :: names)
  | skip {rest : List Segment} {names : List String} (skipped : List String)
      (hrest : Fits rest names) : Fits (.anyDepth :: rest) (skipped ++ names)

theorem Fits.ne_nil {segments : List Segment} {names : List String} (h : Fits segments names) :
    names ≠ [] := by
  induction h with
  | last => simp
  | next => simp
  | skip _ _ ih => simp [ih]

section Walks

variable {segments : List Segment} {s : Spot}

/-- What is listed is a file that fits. -/
theorem exists_of_mem_walk (hplain : ∀ n, .name n ∈ segments → IsPlain n) {id : String}
    (h : id ∈ (walk segments s).ids) :
    ∃ names, s.place.FileAt names ∧ Fits segments names ∧ id = s.head ++ "/".intercalate names := by
  induction segments generalizing s id with
  | nil => cases h
  | cons seg rest ih =>
      have ih := fun {s} {id} => @ih s (fun n hn => hplain n (List.mem_cons_of_mem _ hn)) id
      -- Going on in a directory of a name that fits.
      have hgo : ∀ {name es id}, (name, .dir es) ∈ s.place.here → seg.Takes name →
          id ∈ (walk rest (s.enter name (s.place.enter es))).ids →
          ∃ names, s.place.FileAt names ∧ Fits (seg :: rest) names ∧
            id = s.head ++ "/".intercalate names := by
        intro name es id he htakes hid
        obtain ⟨names, hfile, hfits, rfl⟩ := ih hid
        exact ⟨name :: names, .enter he hfile, .next htakes hfits,
          Spot.head_enter _ _ _ hfits.ne_nil⟩
      cases seg with
      | anyDepth =>
          obtain ⟨skipped, s', hs', hid⟩ := exists_of_mem_descend h
          obtain ⟨names, hfile, hfits, rfl⟩ := ih hid
          exact ⟨skipped ++ names, hs'.fileAt hfile, .skip skipped hfits, hs'.head hfits.ne_nil⟩
      | name n =>
          have hn := hplain n List.mem_cons_self
          cases rest with
          | nil =>
              obtain ⟨hfile, rfl⟩ := of_mem_fileName hn h
              exact ⟨[n], hfile, .last rfl, by rw [String.intercalate_singleton]⟩
          | cons =>
              obtain ⟨es, he, hid⟩ := of_mem_enterName hn h
              exact hgo he rfl hid
      | glob g =>
          cases rest with
          | nil =>
              obtain ⟨name, hfile, hfits, rfl⟩ := of_mem_filesFitting h
              exact ⟨[name], hfile, .last hfits, by rw [String.intercalate_singleton]⟩
          | cons =>
              obtain ⟨name, es, he, hfits, hid⟩ := of_mem_enterFitting h
              exact hgo he hfits hid

/-- A file of the directory is listed by the last segment, if this takes its name. -/
theorem mem_walk_single {seg : Segment} {name : String} {e : Entry} (hs : s.place.Orderly)
    (hlinks : ¬ s.place.Broken .notDirectory) (h : (walk [seg] s).fault = none)
    (he : (name, e) ∈ s.place.here) (hkind : s.place.kind e = .ok .file) (htakes : seg.Takes name) :
    s.head ++ name ∈ (walk [seg] s).ids := by
  cases seg with
  | anyDepth => exact htakes.elim
  | name n =>
      have hn : name = n := htakes
      subst hn
      exact mem_fileName (hs.isName _ he) ((Assoc.get?_eq_some_iff_mem hs.nodup).2 he) hkind
  | glob g => exact mem_filesFitting hlinks h he hkind htakes

/-- A walk goes on in every directory whose name its first segment takes. -/
theorem mem_walk_enter {seg : Segment} {rest : List Segment} {name : String} {es : Entries}
    (hs : s.place.Orderly) (hlinks : ¬ s.place.Broken .notDirectory) (hrest : rest ≠ [])
    (h : (walk (seg :: rest) s).fault = none) (he : (name, .dir es) ∈ s.place.here)
    (htakes : seg.Takes name) :
    (walk rest (s.enter name (s.place.enter es))).fault = none ∧
      ∀ id ∈ (walk rest (s.enter name (s.place.enter es))).ids,
        id ∈ (walk (seg :: rest) s).ids := by
  have hget := (Assoc.get?_eq_some_iff_mem hs.nodup).2 he
  obtain ⟨seg', rest', rfl⟩ := List.exists_cons_of_ne_nil hrest
  cases seg with
  | anyDepth => exact htakes.elim
  | name n =>
      have hn : name = n := htakes
      subst hn
      have heq : walk (.name name :: seg' :: rest') s =
          walk (seg' :: rest') (s.enter name (s.place.enter es)) :=
        enterName_eq (hs.isName _ he) hget
      rw [heq] at h ⊢
      exact ⟨h, fun _ hid => hid⟩
  | glob g => exact mem_enterFitting hlinks h hget htakes

/-- In an orderly tree every file that fits is listed by a walk that comes to its end. -/
theorem mem_walk (horderly : ∀ q, s.place.Below q → q.Orderly)
    (hlinks : ¬ s.place.Broken .notDirectory) (h : (walk segments s).fault = none)
    {names : List String} (hfile : s.place.FileAt names) (hfits : Fits segments names) :
    s.head ++ "/".intercalate names ∈ (walk segments s).ids := by
  induction hfits generalizing s with
  | @last seg name htakes =>
      rw [String.intercalate_singleton]
      generalize hnames : [name] = names at hfile
      cases hfile with
      | enter _ hrest =>
          exact absurd (List.cons.inj hnames).2.symm hrest.ne_nil
      | file he hkind =>
          obtain ⟨rfl, -⟩ := List.cons.inj hnames
          exact mem_walk_single (horderly _ (.refl _)) hlinks h he hkind htakes
  | @next seg name rest names htakes hfits ih =>
      have hrestne : rest ≠ [] := by
        cases hfits <;> simp
      generalize hnames : name :: names = all at hfile
      cases hfile with
      | file => exact absurd (List.cons.inj hnames).2 hfits.ne_nil
      | @enter _ _ es _ he hrest =>
          obtain ⟨rfl, rfl⟩ := List.cons.inj hnames
          obtain ⟨hfault, hids⟩ :=
            mem_walk_enter (horderly _ (.refl _)) hlinks hrestne h he htakes
          have hwalk := ih (s := s.enter name (s.place.enter es))
            (fun q hq => horderly q (.enter he hq))
            (fun hb => hlinks (.of_below (.enter he (.refl _)) hb)) hfault hrest
          rw [Spot.head_enter _ _ _ hfits.ne_nil] at hwalk
          exact hids _ hwalk
  | skip skipped hfits ih =>
      obtain ⟨s', hs', hfile'⟩ := Spot.exists_descends hfits.ne_nil hfile
      obtain ⟨hfault, hids⟩ := mem_descend hs' hlinks h
      have hwalk := ih (fun q hq => horderly q (hs'.place_below.trans hq))
        (fun hb => hlinks (.of_below hs'.place_below hb)) hfault hfile'
      rw [hs'.head hfits.ne_nil] at hwalk
      exact hids _ hwalk

/-- **A walk that comes to its end lists the files that fit, and nothing else.** -/
theorem mem_walk_iff (horderly : ∀ q, s.place.Below q → q.Orderly)
    (hlinks : ¬ s.place.Broken .notDirectory) (hplain : ∀ n, .name n ∈ segments → IsPlain n)
    (h : (walk segments s).fault = none) {id : String} :
    id ∈ (walk segments s).ids ↔ ∃ names, s.place.FileAt names ∧ Fits segments names ∧
      id = s.head ++ "/".intercalate names := by
  constructor
  · exact exists_of_mem_walk hplain
  · rintro ⟨names, hfile, hfits, rfl⟩
    exact mem_walk horderly hlinks h hfile hfits

/-- **What stops a walk** is a link that cannot be followed or a name that is too long. -/
theorem blocked_of_fault (hplain : ∀ n, .name n ∈ segments → IsPlain n) {e : Error}
    (h : (walk segments s).fault = some e) : Blocked s.place segments e := by
  induction segments generalizing s with
  | nil => cases h
  | cons seg rest ih =>
      -- What stops the rest of the walk in some directory below stops the whole.
      have hgo : ∀ {s' : Spot}, s.place.Below s'.place → (walk rest s').fault = some e →
          Blocked s.place (seg :: rest) e := by
        intro s' hs' hfault
        have hblocked := ih (fun n hn => hplain n (List.mem_cons_of_mem _ hn)) hfault
        exact hblocked.mono hs' (List.subset_cons_self _ _)
      have hhere : Blocked s.place [seg] e → Blocked s.place (seg :: rest) e :=
        fun hblocked => hblocked.mono (.refl _) (by simp)
      cases seg with
      | anyDepth =>
          obtain ⟨skipped, s', hs', hfault | hscan⟩ := exists_of_fault_descend h
          · exact hgo hs'.place_below hfault
          · obtain ⟨f, path, rfl, hb⟩ := Spot.exists_of_scan_eq_error hscan
            exact .link (.of_below hs'.place_below hb) path
      | name n =>
          have hn := hplain n List.mem_cons_self
          cases rest with
          | nil => exact hhere (blocked_of_fault_fileName hn h)
          | cons =>
              rcases blocked_of_fault_enterName hn h with h | ⟨es, he, hfault⟩
              · exact hhere h
              · exact hgo (.enter he (.refl _)) hfault
      | glob g =>
          cases rest with
          | nil => exact hhere (blocked_of_fault_filesFitting h)
          | cons =>
              rcases blocked_of_fault_enterFitting h with h | ⟨name, es, he, hfault⟩
              · exact hhere h
              · exact hgo (.enter he (.refl _)) hfault

end Walks

end Winnow.Files
