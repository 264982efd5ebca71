import Winnow.Proofs.Files.Searching

/-!
# Searching below a root

Known values narrow a search among files down: what is listed under constraints is a file below the
root, at the names of real entries, and is listed without constraints too
(`listing_within_root`). This is so as long as the values make no segment of a single or a double
dot. A value is put into the wildcards without a look at its segments, and is looked up as a path
and not in the directory if it holds no wildcard itself; so a double dot leads out of the root, to
files that no search without it finds (`listing_leaves_root`).
-/

namespace Winnow.Files.FileSearch

open Pattern

variable {s : FileSearch} {source : String} {tokens : List Token} {nodes : List Regex.Node}
  {scope : Regex.Scope} {place : Files.Place} {constraints : Assoc String Value}

/-- Without values there is nothing to build a path from, unless there are no parameters. -/
theorem constraints_eq_nil_of_pinned (hmade : Made s.pattern tokens nodes scope)
    (h : (s.pattern.template []).pinned = true) : s.pattern.constraints = [] := by
  rw [hmade.constraints]
  cases hparams : s.pattern.params with
  | nil => rfl
  | cons q qs =>
      have hq := List.all_eq_true.1 h q (hparams ▸ List.mem_cons_self)
      cases hq

/-- **Constraints only narrow a search, and it stays below its root**, as long as they make no
segment of dots: what is listed is at the names of real entries, of which all but the last are
directories, and is listed without constraints if such a listing comes to its end and no link leads
through a file. -/
theorem listing_within_root (hp : compile source = .ok s.pattern)
    (hroot : s.disk.find s.root = .ok (.dir place)) (hc : constraints.keys.Nodup)
    (hdots : ∀ a ∈ (s.pattern.template (knownValues constraints)).alternatives,
      "." ∉ pieces a ∧ ".." ∉ pieces a) :
    (∀ id ∈ (s.search.listing constraints).ids,
      ∃ names, place.FileAt names ∧ id = s.head ++ "/".intercalate names) ∧
    ((∀ q, place.Below q → q.Orderly) → ¬ place.Broken .notDirectory →
      (s.search.listing []).fault = none →
      (s.search.listing constraints).ids ⊆ (s.search.listing []).ids) := by
  obtain ⟨-, tokens, nodes, scope, hmade⟩ := made_of_compile hp
  have hfile : ∀ rel ∈ (s.paths constraints).ids, ∃ names, place.FileAt names ∧
      rel = "/".intercalate names ∧ ∃ params, s.pattern.extract rel = .ok (some params) := by
    intro rel hrel
    obtain ⟨hcandidate, params, hparams, -⟩ := of_mem_paths hmade hc hrel
    obtain ⟨names, hat, rfl⟩ := exists_of_mem_candidates hroot hdots hcandidate
    exact ⟨names, hat, rfl, params, hparams⟩
  constructor
  · intro id hid
    obtain ⟨rel, hrel, rfl⟩ := List.mem_map.1 hid
    obtain ⟨names, hat, rfl, -⟩ := hfile rel hrel
    exact ⟨names, hat, rfl⟩
  · intro horderly hlinks hend id hid
    obtain ⟨rel, hrel, rfl⟩ := List.mem_map.1 hid
    obtain ⟨names, hat, rfl, params, hparams⟩ := hfile rel hrel
    have hkeys : (Assoc.keys ([] : Assoc String Value)).Nodup := List.nodup_nil
    refine List.mem_map_of_mem (mem_paths_of_fileAt hmade hroot horderly hlinks hkeys
      (fun h => ?_) hend hat hparams rfl)
    -- A pattern without parameters is one file, and there is nothing to be told of constraints.
    rw [constraints_eq_nil_of_pinned hmade h]
    simp

/-- The only note of a directory, by its name. -/
theorem listing_within_root_note :
    let entries : Entries := [("a.md", .file []), ("b.txt", .file [])]
    let place : Files.Place := ⟨entries, [[("r", .dir entries)]]⟩
    ∃ p, compile "\x7bx\x7d.md" = .ok p ∧
      let s : FileSearch := ⟨⟨[("r", .dir entries)], "/"⟩, "/r", p⟩
      (s.search.listing [("x", .text "a")]).ids = ["/r/a.md"] ∧
      (∃ names, place.FileAt names ∧ "/r/a.md" = s.head ++ "/".intercalate names) ∧
      "/r/a.md" ∈ (s.search.listing []).ids := by
  intro entries place
  have hfacts : (compile "\x7bx\x7d.md").toOption.map (fun p =>
      let s : FileSearch := ⟨⟨[("r", .dir entries)], "/"⟩, "/r", p⟩
      ((p.template (knownValues [("x", .text "a")])).alternatives,
        (s.search.listing [("x", .text "a")]).ids, (s.search.listing []).fault)) =
      some (["a.md"], ["/r/a.md"], none) := by cbv
  obtain ⟨p, hp, hfacts⟩ := exists_ok_of_toOption_map hfacts
  simp only [Prod.mk.injEq] at hfacts
  obtain ⟨halternatives, hlisted, hend⟩ := hfacts
  let s : FileSearch := ⟨⟨[("r", .dir entries)], "/"⟩, "/r", p⟩
  have hroot : s.disk.find s.root = .ok (.dir place) := by cbv
  have hbelow : ∀ q, place.Below q → q.here = entries := by
    intro q hq
    cases hq with
    | refl => rfl
    | enter he => rcases List.mem_pair.1 he with he | he <;> cases he
  have horderly : ∀ q, place.Below q → q.Orderly := by
    intro q hq
    constructor <;> rw [hbelow q hq] <;> decide
  have hlinks : ¬ place.Broken .notDirectory := by
    rintro ⟨q, hq, e, he, hkind⟩
    rw [hbelow q hq] at he
    rcases List.mem_pair.1 he with rfl | rfl <;> cases hkind
  have hdots : ∀ a ∈ (s.pattern.template (knownValues [("x", .text "a")])).alternatives,
      "." ∉ pieces a ∧ ".." ∉ pieces a := by
    rw [halternatives]
    decide
  obtain ⟨hinside, hnarrow⟩ := listing_within_root (s := s) hp hroot (by decide) hdots
  have hmem : "/r/a.md" ∈ (s.search.listing [("x", .text "a")]).ids := by
    rw [hlisted]
    exact List.mem_singleton_self _
  exact ⟨p, hp, hlisted, hinside _ hmem, hnarrow horderly hlinks hend hmem⟩

/-- A double dot leads out of the root, to a file that is not below it. And a link through a file
hides what is beside it from a search that reads the directory, while a value finds it. -/
theorem listing_leaves_root :
    (∃ p, compile "\x7bx\x7d/\x7by\x7d.md" = .ok p ∧
      let entries : Entries := [("a.md", .file [])]
      let place : Files.Place := ⟨entries, [[("r", .dir entries), ("b.md", .file [])]]⟩
      let s : FileSearch := ⟨⟨[("r", .dir entries), ("b.md", .file [])], "/"⟩, "/r", p⟩
      s.disk.find s.root = .ok (.dir place) ∧
      (s.search.listing [("x", .text "..")]).ids = ["/r/../b.md"] ∧
      ((s.search.listing []).ids = [] ∧ (s.search.listing []).fault = none) ∧
      ¬ ∃ names, place.FileAt names ∧ "/r/../b.md" = s.head ++ "/".intercalate names) ∧
    ∃ p, compile "\x7bx\x7d.md" = .ok p ∧
      let entries : Entries := [("a.md", .file []), ("z", .link "a.md/z")]
      let s : FileSearch := ⟨⟨[("r", .dir entries)], "/"⟩, "/r", p⟩
      (s.search.listing [("x", .text "a")]).ids = ["/r/a.md"] ∧
      (s.search.listing []).ids = [] ∧ (s.search.listing []).fault = none := by
  constructor
  · have hfacts : (compile "\x7bx\x7d/\x7by\x7d.md").toOption.map (fun p =>
        let s : FileSearch :=
          ⟨⟨[("r", .dir [("a.md", .file [])]), ("b.md", .file [])], "/"⟩, "/r", p⟩
        ((s.search.listing [("x", .text "..")]).ids, (s.search.listing []).ids,
          (s.search.listing []).fault)) = some (["/r/../b.md"], [], none) := by cbv
    obtain ⟨p, hp, hfacts⟩ := exists_ok_of_toOption_map hfacts
    simp only [Prod.mk.injEq] at hfacts
    obtain ⟨hdots, hempty⟩ := hfacts
    refine ⟨p, hp, by cbv, hdots, hempty, ?_⟩
    rintro ⟨names, hat, hpath⟩
    have hhead : ∀ disk, FileSearch.head ⟨disk, "/r", p⟩ = "/r/" := fun _ => by cbv
    rw [hhead] at hpath
    cases hat with
    | file he =>
        cases List.mem_singleton.1 he
        revert hpath
        decide
    | enter he => cases List.mem_singleton.1 he
  · have hfacts : (compile "\x7bx\x7d.md").toOption.map (fun p =>
        let s : FileSearch :=
          ⟨⟨[("r", .dir [("a.md", .file []), ("z", .link "a.md/z")])], "/"⟩, "/r", p⟩
        ((s.search.listing [("x", .text "a")]).ids, (s.search.listing []).ids,
          (s.search.listing []).fault)) = some (["/r/a.md"], [], none) := by cbv
    obtain ⟨p, hp, hfacts⟩ := exists_ok_of_toOption_map hfacts
    simp only [Prod.mk.injEq] at hfacts
    exact ⟨p, hp, hfacts⟩

end Winnow.Files.FileSearch
