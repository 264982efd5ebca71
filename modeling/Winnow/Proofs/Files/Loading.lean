import Winnow.Proofs.Files.Faults
import Winnow.Proofs.Files.RealPaths

/-!
# What a catalog that loads is good for

The entries of a document are checked one after the other, and what a collection says is what its
entry gave (`Collection.Gives`). Of the steps that lead from a collection to a query over it, two
were taken when it was read, so they succeed again: its pattern was compiled, and its root is a real
path. The third is new: how many bytes a first read may ask for is looked at only now, so a
collection that loads may still be of no use (`Catalog.query_of_ofDocument`).
-/

namespace Winnow

namespace Collection

variable {place : String → Except Error String} {done cs : List Collection} {entry : Value}
  {entries : List Value} {document : Value} {c : Collection}

/-! ## Entries -/

/-- A collection is what an entry gives. -/
structure Gives (place : String → Except Error String) (entry : Value) (c : Collection) : Prop where
  isNamed : (entry.field? "name").isSome = true
  name : nameOf entry = .ok c.name
  name_ne : c.name ≠ ""
  pattern : ∃ v, entry.field? "pattern" = some v ∧ v.isTruthy = true ∧
    written Value.plain v = .ok c.pattern
  compiles : ∃ p, Pattern.compile c.pattern = .ok p
  root : ∃ v, entry.field? "root" = some v ∧ v.isTruthy = true ∧
    ∃ text, written Value.plain v = .ok text ∧ place text = .ok c.root
  settings : readMeta c.name ((entry.field? "meta").getD .null) =
    .ok (c.hasMeta, c.metaFields, c.budget)
  hasBody : ((entry.field? "body").getD (.bool true)).isTruthy = c.hasBody
  description : written Value.plain ((entry.field? "description").getD (.text "")) =
    .ok c.description

theorem exists_of_isTruthy_getD {v? : Option Value} (h : (v?.getD .null).isTruthy = true) :
    ∃ v, v? = some v ∧ v.isTruthy = true := by
  cases v? with
  | none => cases h
  | some v => exact ⟨v, rfl, h⟩

theorem nameOf_of_none (h : entry.field? "name" = none) : nameOf entry = .ok "" := by
  rw [nameOf, h]
  exact congrArg Except.ok (by decide +kernel)

/-- Null is written as a word, and a word can be a name. -/
theorem nameOf_of_null (h : entry.field? "name" = some .null) : nameOf entry = .ok "None" := by
  rw [nameOf, h]
  exact congrArg Except.ok (by decide +kernel)

/-- Pattern and root are not null, and the name only seems not to be. -/
theorem Gives.ne_null (h : Gives place entry c) : entry.field? "pattern" ≠ some .null ∧
    entry.field? "root" ≠ some .null ∧ (entry.field? "name" = some .null → c.name = "None") := by
  refine ⟨fun hnull => ?_, fun hnull => ?_, fun hnull => ?_⟩
  · obtain ⟨v, hv, htrue, -⟩ := h.pattern
    cases hnull.symm.trans hv
    cases htrue
  · obtain ⟨v, hv, htrue, -⟩ := h.root
    cases hnull.symm.trans hv
    cases htrue
  · exact Except.ok.inj (h.name.symm.trans (nameOf_of_null hnull))

/-- The steps in which an entry is read. -/
theorem ofEntry_map (place : String → Except Error String) (done : List Collection)
    (fields : List (Value × Value)) : ofEntry place done (.map fields) = (do
      let name ← nameOf (.map fields)
      if name.isEmpty || !((Value.field? "pattern" (.map fields)).getD .null).isTruthy ||
          !((Value.field? "root" (.map fields)).getD .null).isTruthy then do
        let shown ← written Value.quoted (.map fields)
        .error (.setup (.incompleteCollection shown))
      else if done.any (·.name == name) then .error (.setup (.duplicateCollection name))
      else do
        let pattern ← written Value.plain ((Value.field? "pattern" (.map fields)).getD .null)
        let _ ← Pattern.compile pattern
        let settings ← readMeta name ((Value.field? "meta" (.map fields)).getD .null)
        let text ← written Value.plain ((Value.field? "root" (.map fields)).getD .null)
        let root ← place text
        let description ←
          written Value.plain ((Value.field? "description" (.map fields)).getD (.text ""))
        return {
          name := name
          root := root
          pattern := pattern
          hasMeta := settings.1
          metaFields := settings.2.1
          budget := settings.2.2
          hasBody := ((Value.field? "body" (.map fields)).getD (.bool true)).isTruthy
          description := description }) :=
  rfl

/-- **When an entry is read**: it gives a collection, and no collection before it has the name. -/
theorem ofEntry_eq_ok_iff : ofEntry place done entry = .ok c ↔
    Gives place entry c ∧ ∀ d ∈ done, d.name ≠ c.name := by
  cases entry with
  | map fields =>
      rw [ofEntry_map]
      generalize Value.map fields = entry
      constructor
      · intro h
        obtain ⟨name, hname, h⟩ := bind_eq_ok.1 h
        split at h
        next =>
            obtain ⟨shown, -, h⟩ := bind_eq_ok.1 h
            cases h
        next hcomplete =>
            split at h
            next => cases h
            next hfresh =>
                -- The checks that were passed are the conditions of giving a collection.
                simp only [Bool.or_eq_true, not_or, Bool.not_eq_true', Bool.not_eq_true,
                  Bool.not_eq_false, String.isEmpty_eq_false_iff] at hcomplete
                obtain ⟨⟨hnamed, htruep⟩, htruer⟩ := hcomplete
                obtain ⟨pattern, hpattern, h⟩ := bind_eq_ok.1 h
                obtain ⟨p, hp, h⟩ := bind_eq_ok.1 h
                obtain ⟨settings, hsettings, h⟩ := bind_eq_ok.1 h
                obtain ⟨text, htext, h⟩ := bind_eq_ok.1 h
                obtain ⟨root, hroot, h⟩ := bind_eq_ok.1 h
                obtain ⟨description, hdescription, h⟩ := bind_eq_ok.1 h
                cases h
                obtain ⟨vp, hvp, htruep⟩ := exists_of_isTruthy_getD htruep
                obtain ⟨vr, hvr, htruer⟩ := exists_of_isTruthy_getD htruer
                rw [hvp] at hpattern
                rw [hvr] at htext
                refine ⟨⟨?_, hname, hnamed, ⟨vp, hvp, htruep, hpattern⟩, ⟨p, hp⟩,
                  ⟨vr, hvr, htruer, text, htext, hroot⟩, hsettings, rfl, hdescription⟩, ?_⟩
                · rw [Option.isSome_iff_ne_none]
                  rintro hnone
                  cases hname.symm.trans (nameOf_of_none hnone)
                  exact hnamed rfl
                · simpa using hfresh
      · rintro ⟨h, hfresh⟩
        obtain ⟨vp, hvp, htruep, hpattern⟩ := h.pattern
        obtain ⟨vr, hvr, htruer, text, htext, hroot⟩ := h.root
        obtain ⟨p, hp⟩ := h.compiles
        have hcomplete : ¬ (c.name.isEmpty || !vp.isTruthy || !vr.isTruthy) = true := by
          simp [h.name_ne, htruep, htruer]
        have hfresh : ¬ done.any (·.name == c.name) = true := by simpa using hfresh
        refine bind_eq_ok.2 ⟨c.name, h.name, ?_⟩
        rw [hvp, hvr, Option.getD_some, Option.getD_some, if_neg hcomplete, if_neg hfresh]
        refine bind_eq_ok.2 ⟨c.pattern, hpattern, bind_eq_ok.2 ⟨p, hp, ?_⟩⟩
        refine bind_eq_ok.2 ⟨_, h.settings, bind_eq_ok.2 ⟨text, htext, ?_⟩⟩
        refine bind_eq_ok.2 ⟨c.root, hroot, bind_eq_ok.2 ⟨c.description, h.description, ?_⟩⟩
        rw [h.hasBody]
        rfl
  | _ =>
      constructor
      · rintro ⟨⟩
      · rintro ⟨⟨⟨⟩⟩, -⟩

/-! ## Documents -/

/-- Entries are read in their order, and each name is new. -/
theorem of_ofEntries (h : ofEntries place done entries = .ok cs)
    (hdone : (done.map Collection.name).Nodup) :
    ∃ more, cs = done ++ more ∧ List.Forall₂ (Gives place) entries more ∧
      (cs.map Collection.name).Nodup := by
  induction entries generalizing done with
  | nil =>
      cases h
      exact ⟨[], (List.append_nil _).symm, .nil, hdone⟩
  | cons entry entries ih =>
      rw [ofEntries] at h
      split at h
      next => cases h
      next c hc =>
          obtain ⟨hgives, hfresh⟩ := ofEntry_eq_ok_iff.1 hc
          have hnames : ((done ++ [c]).map Collection.name).Nodup := by
            rw [List.map_append, List.map_singleton, List.nodup_append]
            refine ⟨hdone, List.nodup_singleton _, ?_⟩
            rintro name hname name' hname'
            obtain ⟨d, hd, rfl⟩ := List.mem_map.1 hname
            rw [List.mem_singleton.1 hname']
            exact hfresh d hd
          obtain ⟨more, rfl, hmore, hnodup⟩ := ih h hnames
          exact ⟨c :: more, by simp, .cons hgives hmore, hnodup⟩

/-- The entries that a document lists. -/
def entriesOf (document : Value) : List Value :=
  match document.field? "collections" with
  | some (.list items) => items
  | _ => []

/-- A document that can be read defines what its entries give. -/
theorem ofEntries_of_ofDocument (h : ofDocument place document = .ok cs) :
    ofEntries place [] (entriesOf document) = .ok cs := by
  rw [entriesOf]
  cases document with
  | map fields =>
      show ofEntries place []
        (match Record.field? "collections" fields with | some (.list items) => items | _ => []) = _
      cases fields with
      | nil => exact h
      | cons field fields =>
          rw [ofDocument, if_neg (by simp [Value.isTruthy])] at h
          dsimp only at h
          cases hlisted : Record.field? "collections" (field :: fields) with
          | none =>
              rw [hlisted] at h
              exact h
          | some listed =>
              rw [hlisted, Option.getD_some] at h
              split at h
              next hfalse =>
                  cases listed with
                  | list items =>
                      cases items with
                      | nil => exact h
                      | cons => cases hfalse
                  | _ => exact h
              next =>
                  cases listed with
                  | list items => exact h
                  | _ => cases h
  | _ =>
      unfold ofDocument at h
      split at h
      · exact h
      · cases h

end Collection

namespace Files.Catalog

/-! ## Queries over what was loaded -/

theorem find?_name_eq_self {cs : List Collection} (h : (cs.map Collection.name).Nodup)
    {c : Collection} (hc : c ∈ cs) : cs.find? (·.name == c.name) = some c := by
  induction cs with
  | nil => cases hc
  | cons d cs ih =>
      rw [List.map_cons, List.nodup_cons] at h
      rcases List.mem_cons.1 hc with rfl | hc
      · exact List.find?_cons_of_pos (beq_self_eq_true _)
      · have hne : d.name ≠ c.name := by
          intro hname
          rw [hname] at h
          exact h.1 (List.mem_map_of_mem hc)
        rw [List.find?_cons_of_neg (by simpa using hne)]
        exact ih h.2 hc

/-- A name finds the collection that has it. -/
theorem get_of_nodup {catalog : Catalog} (h : catalog.names.Nodup) {c : Collection}
    (hc : c ∈ catalog.collections) : catalog.get c.name = .ok c := by
  rw [get, find?_name_eq_self h hc]

/-- A query over a collection whose pattern and root are in order can only be refused for the bytes
of a first read. -/
theorem query_cases {catalog : Catalog} {c : Collection} (hget : catalog.get c.name = .ok c)
    (hpattern : ∃ p, Pattern.compile c.pattern = .ok p)
    (hroot : catalog.disk.realPath c.root = .ok c.root) :
    if c.hasMeta = true ∧ c.budget < 1 then catalog.query c.name none none .null =
      .error (.argument (.budgetNotPositive (toString c.budget)))
    else ∃ q, catalog.query c.name none none .null = .ok q := by
  obtain ⟨p, hp⟩ := hpattern
  have hquery : catalog.query c.name none none .null = factsOf catalog.disk c >>= fun facts =>
      Query.new (FileSearch.mk catalog.disk c.root p).search facts (bodyOf catalog.disk c)
        .null := by
    rw [query_eq, hget]
    show (Pattern.compile c.pattern >>= _) = _
    rw [hp]
    show (FileSearch.make catalog.disk c.root p >>= _) = _
    rw [FileSearch.make, hroot]
    rfl
  rw [hquery, factsOf, MetadataSource.make]
  cases hmeta : c.hasMeta with
  | false => exact ⟨_, rfl⟩
  | true =>
      by_cases hbudget : c.budget < 1
      · rw [dif_pos hbudget, if_pos ⟨rfl, hbudget⟩]
        rfl
      · rw [dif_neg hbudget, if_neg fun h => hbudget h.2]
        exact ⟨_, rfl⟩

/-- **What a catalog that loads is good for.** Its names are distinct, and its collections are what
the entries of the document gave, in their order: each entry gave a pattern and a root that are not
null, and a name, for which null counts as a word. A name finds its collection. A query over it can
be had, unless its metadata is read and the bytes of a first read are less than one: that is refused
as an argument only then. -/
theorem query_of_ofDocument (disk : Disk) (directory : Path) {document : Value}
    {cs : List Collection}
    (h : Collection.ofDocument (fun root => disk.realPath (directory.join (.ofText root)).text)
      document = .ok cs) :
    let catalog : Catalog := ⟨disk, cs⟩
    catalog.names.Nodup ∧
    List.Forall₂ (fun entry c =>
        Collection.Gives (fun root => disk.realPath (directory.join (.ofText root)).text) entry c ∧
        entry.field? "pattern" ≠ some .null ∧ entry.field? "root" ≠ some .null ∧
        (entry.field? "name" = some .null → c.name = "None"))
      (Collection.entriesOf document) cs ∧
    ∀ c ∈ cs, catalog.get c.name = .ok c ∧
      if c.hasMeta = true ∧ c.budget < 1 then catalog.query c.name none none .null =
        .error (.argument (.budgetNotPositive (toString c.budget)))
      else ∃ q, catalog.query c.name none none .null = .ok q := by
  intro catalog
  obtain ⟨more, rfl, hgives, hnames⟩ :=
    Collection.of_ofEntries (Collection.ofEntries_of_ofDocument h) List.nodup_nil
  refine ⟨hnames, hgives.imp fun entry c hc => ⟨hc, hc.ne_null⟩, fun c hc => ?_⟩
  obtain ⟨entry, -, hentry⟩ := exists_of_forall₂ hgives.flip hc
  obtain ⟨v, -, -, _, -, hplace⟩ := hentry.root
  have hnodup : catalog.names.Nodup := hnames
  have hget : catalog.get c.name = .ok c := get_of_nodup hnodup hc
  exact ⟨hget, query_cases hget hentry.compiles (Disk.realPath_of_realPath hplace)⟩

/-- An entry for the notes in a directory. -/
def notesEntry (name settings : Value) : Value :=
  .map [(.text "name", name), (.text "root", .text "r"), (.text "pattern", .text "\x7bx\x7d"),
    (.text "meta", settings)]

section Notes

variable {place : String → Except Error String} (hplace : place "r" = .ok "/r")
  {name settings : Value} {shown : String} {hasMeta : Bool} {metaFields : Option (List String)}
  {budget : Int} (hwritable : name.isWritable = true)
  (hname : String.ofList (Text.strip name.plain.toList) = shown) (hne : shown ≠ "")
  (hsettings : Collection.readMeta shown settings = .ok (hasMeta, metaFields, budget))
include hplace hwritable hname hne hsettings

theorem gives_notesEntry : Collection.Gives place (notesEntry name settings)
    ⟨shown, "/r", "\x7bx\x7d", hasMeta, metaFields, budget, true, ""⟩ := by
  have hgiven : (notesEntry name settings).field? "name" = some name := by cbv
  have hmeta : (notesEntry name settings).field? "meta" = some settings := by cbv
  have hcompiles : (Pattern.compile "\x7bx\x7d").toOption.map Pattern.paramNames = some ["x"] := by
    cbv
  obtain ⟨p, hp, -⟩ := exists_ok_of_toOption_map hcompiles
  refine ⟨?_, ?_, hne, ⟨.text "\x7bx\x7d", by cbv, rfl, rfl⟩, ⟨p, hp⟩,
    ⟨.text "r", by cbv, rfl, "r", rfl, hplace⟩, ?_, by cbv, by cbv⟩
  · rw [hgiven]
    rfl
  · rw [Collection.nameOf, hgiven, Option.getD_some, Collection.written, if_pos hwritable]
    exact congrArg Except.ok hname
  · rw [hmeta]
    exact hsettings

/-- A document with nothing but the notes defines nothing but them. -/
theorem ofDocument_notes : Collection.ofDocument place
    (.map [(.text "collections", .list [notesEntry name settings])]) =
      .ok [⟨shown, "/r", "\x7bx\x7d", hasMeta, metaFields, budget, true, ""⟩] := by
  have hgives := gives_notesEntry hplace hwritable hname hne hsettings
  generalize notesEntry name settings = entry at hgives
  have hlisted : Record.field? "collections" [(.text "collections", .list [entry])] =
      some (.list [entry]) := by cbv
  rw [Collection.ofDocument, if_neg (by simp [Value.isTruthy])]
  dsimp only
  rw [hlisted, Option.getD_some, if_neg (by simp [Value.isTruthy])]
  dsimp only
  rw [Collection.ofEntries, Collection.ofEntry_eq_ok_iff.2 ⟨hgives, by simp⟩]
  rfl

end Notes

theorem strip_notes : String.ofList (Text.strip (Value.plain (.text "n")).toList) = "n" := by
  decide +kernel

/-- A disk without files. -/
def emptyDisk : Disk := ⟨[], "/"⟩

/-- Where the entries of a catalog at the root of it place a directory. -/
def atRoot (root : String) : Except Error String :=
  emptyDisk.realPath ((Path.mk true []).join (.ofText root)).text

theorem atRoot_notes : atRoot "r" = .ok "/r" := by cbv

/-- The notes can be queried. -/
theorem query_of_ofDocument_notes :
    let c : Collection := ⟨"n", "/r", "\x7bx\x7d", true, none, 4096, true, ""⟩
    Collection.ofDocument atRoot
        (.map [(.text "collections", .list [notesEntry (.text "n") .null])]) = .ok [c] ∧
      ∃ q, Catalog.query ⟨emptyDisk, [c]⟩ "n" none none .null = .ok q := by
  intro c
  have hload := ofDocument_notes atRoot_notes rfl strip_notes (by decide)
    (rfl : Collection.readMeta "n" .null = .ok (true, none, 4096))
  obtain ⟨-, -, huse⟩ := query_of_ofDocument emptyDisk ⟨true, []⟩ hload
  exact ⟨hload, (huse c (List.mem_singleton_self c)).2⟩

/-- A collection that loads, with no bytes for a first read, of which no query can be had; and one
that loads although its name is null. -/
theorem ofDocument_unusable :
    (∃ cs, Collection.ofDocument atRoot (.map [(.text "collections", .list
        [notesEntry (.text "n") (.map [(.text "max_bytes", .int 0)])])]) = .ok cs ∧
      Catalog.names ⟨emptyDisk, cs⟩ = ["n"] ∧
      Catalog.query ⟨emptyDisk, cs⟩ "n" none none .null =
        .error (.argument (.budgetNotPositive "0"))) ∧
    ∃ cs, Collection.ofDocument atRoot (.map [(.text "collections", .list
        [notesEntry .null .null])]) = .ok cs ∧
      (notesEntry .null .null).field? "name" = some .null ∧
      Catalog.names ⟨emptyDisk, cs⟩ = ["None"] := by
  constructor
  · have hsettings : Collection.readMeta "n" (.map [(.text "max_bytes", .int 0)]) =
        .ok (true, none, 0) := by cbv
    refine ⟨_, ofDocument_notes atRoot_notes rfl strip_notes (by decide) hsettings, rfl, ?_⟩
    have hgives := gives_notesEntry atRoot_notes rfl strip_notes (by decide) hsettings
    have hreal : emptyDisk.realPath "/r" = .ok "/r" := Disk.realPath_of_realPath atRoot_notes
    have hget : Catalog.get ⟨emptyDisk, [⟨"n", "/r", "\x7bx\x7d", true, none, 0, true, ""⟩]⟩ "n" =
        .ok ⟨"n", "/r", "\x7bx\x7d", true, none, 0, true, ""⟩ := rfl
    exact query_cases hget hgives.compiles hreal
  · have hname : String.ofList (Text.strip (Value.plain .null).toList) = "None" := by
      decide +kernel
    exact ⟨_, ofDocument_notes atRoot_notes rfl hname (by decide) rfl, by cbv, rfl⟩

end Files.Catalog

end Winnow
