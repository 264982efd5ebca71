import Mathlib.Tactic
import Winnow.Files.Walk

/-!
# What a walk sees of a directory

A file is reached through directories only (`Place.FileAt`), in a tree whose directories give each
of their entries a name of its own (`Place.Orderly`). Reading a directory shows all its entries
(`Spot.mem_scan`); what prevents it is a link that cannot be followed (`Place.Broken`). A link that
leads through a file as if it were a directory makes the directory look empty instead.
-/

namespace Winnow.Files

/-! ## Listings -/

theorem mem_andThen {id : String} {a b : Listing} :
    id ∈ (andThen a b).ids ↔ id ∈ a.ids ∨ a.fault = none ∧ id ∈ b.ids := by
  obtain ⟨ids, fault⟩ := a
  cases fault <;> simp [andThen]

theorem fault_andThen {a b : Listing} {e : Error} :
    (andThen a b).fault = some e ↔ a.fault = some e ∨ a.fault = none ∧ b.fault = some e := by
  obtain ⟨ids, fault⟩ := a
  cases fault <;> simp [andThen]

theorem fault_andThen_eq_none {a b : Listing} :
    (andThen a b).fault = none ↔ a.fault = none ∧ b.fault = none := by
  obtain ⟨ids, fault⟩ := a
  cases fault <;> simp [andThen]

theorem exists_of_mem_concat {id : String} {ls : List Listing} (h : id ∈ (concat ls).ids) :
    ∃ l ∈ ls, id ∈ l.ids := by
  induction ls with
  | nil => cases h
  | cons l ls ih =>
      rcases mem_andThen.1 h with h | ⟨-, h⟩
      · exact ⟨l, List.mem_cons_self, h⟩
      · obtain ⟨l', hl', hid⟩ := ih h
        exact ⟨l', List.mem_cons_of_mem _ hl', hid⟩

theorem exists_of_fault_concat {e : Error} {ls : List Listing} (h : (concat ls).fault = some e) :
    ∃ l ∈ ls, l.fault = some e := by
  induction ls with
  | nil => cases h
  | cons l ls ih =>
      rcases fault_andThen.1 h with h | ⟨-, h⟩
      · exact ⟨l, List.mem_cons_self, h⟩
      · obtain ⟨l', hl', hfault⟩ := ih h
        exact ⟨l', List.mem_cons_of_mem _ hl', hfault⟩

/-- A listing that comes to its end has everything. -/
theorem of_fault_concat_eq_none {ls : List Listing} (h : (concat ls).fault = none) :
    ∀ l ∈ ls, l.fault = none ∧ ∀ id ∈ l.ids, id ∈ (concat ls).ids := by
  induction ls with
  | nil => simp
  | cons l ls ih =>
      obtain ⟨hl, hls⟩ := fault_andThen_eq_none.1 h
      intro l' hl'
      rcases List.mem_cons.1 hl' with rfl | hl'
      · exact ⟨hl, fun id hid => mem_andThen.2 (.inl hid)⟩
      · obtain ⟨hfault, hmem⟩ := ih hls l' hl'
        exact ⟨hfault, fun id hid => mem_andThen.2 (.inr ⟨hl, hmem id hid⟩)⟩

/-! ## Trees -/

/-- A name that names something in the directory itself. -/
structure IsPlain (name : String) : Prop where
  ne_empty : name ≠ ""
  ne_dot : name ≠ "."
  ne_dots : name ≠ ".."

/-- What can be the name of an entry. -/
structure IsName (name : String) : Prop extends IsPlain name where
  noSeparator : '/' ∉ name.toList
  short : name.utf8ByteSize ≤ maxNameSize

instance (name : String) : Decidable (IsName name) :=
  decidable_of_iff (name ≠ "" ∧ name ≠ "." ∧ name ≠ ".." ∧ '/' ∉ name.toList ∧
      name.utf8ByteSize ≤ maxNameSize)
    ⟨fun ⟨hempty, hdot, hdots, hfree, hshort⟩ => ⟨⟨hempty, hdot, hdots⟩, hfree, hshort⟩,
      fun h => ⟨h.ne_empty, h.ne_dot, h.ne_dots, h.noSeparator, h.short⟩⟩

namespace Place

/-- A place that is reached by going into directories. -/
inductive Below : Place → Place → Prop
  | refl (p : Place) : Below p p
  | enter {p q : Place} {name : String} {entries : Entries} (h : (name, .dir entries) ∈ p.here)
      (hq : Below (p.enter entries) q) : Below p q

/-- The names of the directories that lead to a file, and its own. A link to a file is a file, a
link to a directory leads nowhere. -/
inductive FileAt : Place → List String → Prop
  | file {p : Place} {name : String} {e : Entry} (h : (name, e) ∈ p.here)
      (hkind : p.kind e = .ok .file) : FileAt p [name]
  | enter {p : Place} {name : String} {entries : Entries} {names : List String}
      (h : (name, .dir entries) ∈ p.here) (hnames : FileAt (p.enter entries) names) :
      FileAt p (name :: names)

/-- A directory whose entries have names, each another one. -/
structure Orderly (p : Place) : Prop where
  nodup : (Assoc.keys p.here).Nodup
  isName : ∀ e ∈ p.here, IsName e.1

/-- Whether some link below a place leads to a fault. -/
def Broken (p : Place) (f : FileFault) : Prop :=
  ∃ q, p.Below q ∧ ∃ e ∈ q.here, q.kind e.2 = .error f

theorem Below.trans {p q r : Place} (h : p.Below q) (h' : q.Below r) : p.Below r := by
  induction h with
  | refl => exact h'
  | enter h _ ih => exact .enter h (ih h')

theorem Broken.of_below {p q : Place} {f : FileFault} (h : p.Below q) (hq : q.Broken f) :
    p.Broken f := by
  obtain ⟨r, hr, he⟩ := hq
  exact ⟨r, h.trans hr, he⟩

theorem FileAt.ne_nil {p : Place} {names : List String} (h : p.FileAt names) : names ≠ [] := by
  cases h <;> simp

theorem FileAt.isName {p : Place} {names : List String} (h : p.FileAt names)
    (hp : ∀ q, p.Below q → q.Orderly) : ∀ name ∈ names, IsName name := by
  induction h with
  | @file p name e he _ =>
      intro name' hname
      rw [List.mem_singleton.1 hname]
      exact (hp p (.refl p)).isName _ he
  | @enter p name entries names he _ ih =>
      intro name' hname
      rcases List.mem_cons.1 hname with rfl | hname
      · exact (hp p (.refl p)).isName _ he
      · exact ih (fun q hq => hp q (.enter he hq)) name' hname

end Place

/-- Following a single name. -/
theorem follow_name {p : Place} {name : String} (hn : IsPlain name)
    (hshort : name.utf8ByteSize ≤ maxNameSize) :
    follow maxLinks p [name] = match Assoc.get? name p.here with
      | none => .error .notFound
      | some (.dir entries) => .ok (.dir (p.enter entries))
      | some (.file content) => .ok (.file content)
      | some (.link target) => follow (maxLinks - 1) (p.origin target) (pieces target) := by
  rw [follow, if_neg (not_or.2 ⟨hn.ne_empty, hn.ne_dot⟩), if_neg hn.ne_dots,
    if_neg (Nat.not_lt.2 hshort)]
  cases hget : Assoc.get? name p.here with
  | none => rfl
  | some e =>
      cases e with
      | file content => rfl
      | dir entries =>
          show follow maxLinks (p.enter entries) [] = _
          rw [follow]
      | link target =>
          show follow 39 (p.origin target) (pieces target ++ []) = _
          rw [List.append_nil]
          rfl

/-! ## Reading a directory -/

namespace Spot

variable {s : Spot}

/-- Entries are read one by one, until some entry cannot be. -/
theorem kinds_eq_ok_iff {entries : Entries} {ks : List (String × Kind)} :
    s.kinds entries = .ok ks ↔
      entries.map (fun e => (e.1, s.place.kind e.2)) = ks.map fun k => (k.1, .ok k.2) := by
  induction entries generalizing ks with
  | nil =>
      cases ks with
      | nil => exact iff_of_true rfl rfl
      | cons => exact iff_of_false (by rintro ⟨⟩) (by rintro ⟨⟩)
  | cons e entries ih =>
      obtain ⟨name, e⟩ := e
      rw [kinds, List.map_cons]
      cases s.place.kind e with
      | error f =>
          refine iff_of_false (by rintro ⟨⟩) fun h => ?_
          cases ks with
          | nil => cases h
          | cons k ks => cases (List.cons.inj h).1
      | ok k =>
          constructor
          · intro h
            cases hrest : s.kinds entries with
            | error f =>
                rw [hrest] at h
                cases h
            | ok ks' =>
                rw [hrest] at h
                cases h
                rw [List.map_cons, ih.1 hrest]
          · intro h
            cases ks with
            | nil => cases h
            | cons k' ks =>
                obtain ⟨hk, hrest⟩ := List.cons.inj h
                obtain ⟨rfl, hk⟩ := Prod.mk.inj hk
                cases hk
                dsimp only
                rw [ih.2 hrest]
                rfl

theorem map_fst_kinds {entries : Entries} {ks : List (String × Kind)}
    (h : s.kinds entries = .ok ks) : ks.map Prod.fst = Assoc.keys entries := by
  have hnames := congrArg (List.map Prod.fst) (kinds_eq_ok_iff.1 h)
  rw [List.map_map, List.map_map] at hnames
  exact hnames.symm

theorem injective_read :
    Function.Injective fun k : String × Kind => (k.1, (.ok k.2 : Except FileFault Kind)) := by
  rintro ⟨name, k⟩ ⟨name', k'⟩ h
  cases h
  rfl

theorem mem_kinds {entries : Entries} {ks : List (String × Kind)} (h : s.kinds entries = .ok ks)
    {name : String} {k : Kind} :
    (name, k) ∈ ks ↔ ∃ e, (name, e) ∈ entries ∧ s.place.kind e = .ok k := by
  rw [← List.mem_map_of_injective injective_read, ← kinds_eq_ok_iff.1 h, List.mem_map]
  constructor
  · rintro ⟨⟨name, e⟩, he, hk⟩
    obtain ⟨rfl, hk⟩ := Prod.mk.inj hk
    exact ⟨e, he, hk⟩
  · rintro ⟨e, he, hk⟩
    exact ⟨(name, e), he, by rw [hk]⟩

theorem exists_of_kinds_eq_error {entries : Entries} {f : FileFault} {path : String}
    (h : s.kinds entries = .error (f, path)) : ∃ e ∈ entries, s.place.kind e.2 = .error f := by
  induction entries with
  | nil => cases h
  | cons d entries ih =>
      obtain ⟨name', e'⟩ := d
      rw [kinds] at h
      cases hkind : s.place.kind e' with
      | error f =>
          rw [hkind] at h
          cases h
          exact ⟨_, List.mem_cons_self, hkind⟩
      | ok k' =>
          rw [hkind] at h
          cases hrest : s.kinds entries with
          | error f =>
              rw [hrest] at h
              cases h
              obtain ⟨e, he, hf⟩ := ih hrest
              exact ⟨e, List.mem_cons_of_mem _ he, hf⟩
          | ok ks' =>
              rw [hrest] at h
              cases h

/-- What is read of a directory: its entries in the order of names, or nothing if a link through a
file makes it unreadable. -/
theorem kinds_of_scan {ks : List (String × Kind)} (h : s.scan = .ok ks) :
    (∃ read, s.kinds s.place.here = .ok read ∧ ks = sortByName read) ∨
      ∃ path, s.kinds s.place.here = .error (.notDirectory, path) ∧ ks = [] := by
  rw [scan] at h
  cases hkinds : s.kinds s.place.here with
  | ok read =>
      rw [hkinds] at h
      cases h
      exact .inl ⟨read, rfl, rfl⟩
  | error d =>
      obtain ⟨f, path⟩ := d
      rw [hkinds] at h
      cases f with
      | notDirectory =>
          cases h
          exact .inr ⟨path, rfl, rfl⟩
      | _ => cases h

theorem scan_of_kinds_error {f : FileFault} {path : String}
    (h : s.kinds s.place.here = .error (f, path)) :
    f = .notDirectory ∧ s.scan = .ok [] ∨ f ≠ .notDirectory ∧ s.scan = .error (.file f path) := by
  rw [scan, h]
  cases f with
  | notDirectory => exact .inl ⟨rfl, rfl⟩
  | _ => exact .inr ⟨by simp, rfl⟩

theorem exists_of_mem_scan {ks : List (String × Kind)} (h : s.scan = .ok ks) {name : String}
    {k : Kind} (hk : (name, k) ∈ ks) :
    ∃ e, (name, e) ∈ s.place.here ∧ s.place.kind e = .ok k := by
  rcases kinds_of_scan h with ⟨read, hkinds, rfl⟩ | ⟨path, -, rfl⟩
  · rw [sortByName, List.mem_mergeSort] at hk
    exact (mem_kinds hkinds).1 hk
  · cases hk

/-- Everything is read of a directory, unless a link through a file makes it unreadable. -/
theorem mem_scan {ks : List (String × Kind)} (h : s.scan = .ok ks)
    (hlinks : ¬ s.place.Broken .notDirectory) {name : String} {e : Entry} {k : Kind}
    (he : (name, e) ∈ s.place.here) (hkind : s.place.kind e = .ok k) : (name, k) ∈ ks := by
  rcases kinds_of_scan h with ⟨read, hkinds, rfl⟩ | ⟨path, hkinds, -⟩
  · rw [sortByName, List.mem_mergeSort]
    exact (mem_kinds hkinds).2 ⟨e, he, hkind⟩
  · obtain ⟨d, hd, hf⟩ := exists_of_kinds_eq_error hkinds
    exact absurd ⟨s.place, .refl _, d, hd, hf⟩ hlinks

theorem exists_of_scan_eq_error {e : Error} (h : s.scan = .error e) :
    ∃ f path, e = .file f path ∧ s.place.Broken f := by
  cases hkinds : s.kinds s.place.here with
  | ok ks =>
      rw [scan, hkinds] at h
      cases h
  | error d =>
      obtain ⟨f, path⟩ := d
      obtain ⟨d, hd, hf⟩ := exists_of_kinds_eq_error hkinds
      rcases scan_of_kinds_error hkinds with ⟨-, hscan⟩ | ⟨-, hscan⟩
      · rw [hscan] at h
        cases h
      · rw [hscan] at h
        cases h
        exact ⟨f, path, rfl, s.place, .refl _, d, hd, hf⟩

end Spot

end Winnow.Files
