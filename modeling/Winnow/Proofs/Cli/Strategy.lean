import Winnow.Proofs.Cli.Endings
import Winnow.Proofs.Files.Loading
import Winnow.Proofs.Query.Taking

/-!
# Whole or as a stream

A query can be gone through whole or as a stream. With one slot, the stream gives the rows of the
whole, cut at the limit (`Query.stream_one_eq_upTo`). Rows that are printed are cut at the limit
again, so nothing of the difference is seen (`printRows_upTo`). Values that are counted are counted
in the rows that are there: as a whole in all of them, as a stream in the rows up to the limit.
-/

namespace Winnow.Cli

/-! ## Quiet runs -/

/-- A run that ends with a code and logs no error. -/
def Outcome.Quiet (o : Outcome) : Prop :=
  (∃ code, o.ending = .exit code) ∧ ∀ m ∈ o.log, m.level ≠ .error

section Quiet

variable {threshold : Level}

theorem not_quiet_failed (code : Nat) (text : String) :
    ¬ ((Outcome.failed code text).restrict threshold).Quiet := by
  rintro ⟨-, hlog⟩
  refine hlog ⟨.error, text⟩ (List.mem_filter.2 ⟨List.mem_singleton_self _, ?_⟩) rfl
  cases threshold <;> rfl

theorem not_quiet_escaped (e : Error) : ¬ ((Outcome.escaped e).restrict threshold).Quiet := by
  rintro ⟨⟨code, hending⟩, -⟩
  cases hending

theorem not_quiet_failure (e : Error) :
    ¬ ((QueryCommand.failure e).restrict threshold).Quiet := by
  unfold QueryCommand.failure
  split
  · exact not_quiet_failed _ _
  · exact not_quiet_failed _ _
  · split
    · exact not_quiet_failed _ _
    · split
      · exact not_quiet_failed _ _
      · exact not_quiet_escaped _

/-- A message more does not make a run quiet. -/
theorem Outcome.Quiet.of_after {m : Message} {o : Outcome}
    (h : ((o.after m).restrict threshold).Quiet) : (o.restrict threshold).Quiet := by
  obtain ⟨hending, hlog⟩ := h
  refine ⟨hending, fun m' hm' => hlog m' ?_⟩
  obtain ⟨hmem, hrank⟩ := List.mem_filter.1 hm'
  exact List.mem_filter.2 ⟨List.mem_cons_of_mem m hmem, hrank⟩

end Quiet

namespace QueryCommand

variable {c : QueryCommand} {disk : Files.Disk} {q : Query} {rows : List Row} {threshold : Level}

/-! ## Reports -/

/-- A report that is quiet did not fail, and ends as what was made ends. -/
theorem ending_ofExcept {x : Except Error Outcome} {ending : Ending}
    (h : ∀ o, x = .ok o → (o.restrict threshold).Quiet → o.ending = ending)
    (hquiet : ((Outcome.ofExcept x).restrict threshold).Quiet) :
    (Outcome.ofExcept x).ending = ending := by
  cases x with
  | error e => exact absurd hquiet (not_quiet_escaped e)
  | ok o => exact h o rfl hquiet

theorem ending_of_printCounts {field : String} {o : Outcome}
    (h : printCounts rows field = .ok o) : o.ending = .exit (codeFor rows) := by
  obtain ⟨counts, -, h⟩ := bind_eq_ok.1 h
  obtain ⟨text, -, h⟩ := bind_eq_ok.1 h
  cases h
  rfl

theorem ending_of_printRows {o : Outcome} (h : c.printRows rows = .ok o)
    (hquiet : (o.restrict threshold).Quiet) : o.ending = .exit (codeFor rows) := by
  obtain ⟨payload, -, h⟩ := bind_eq_ok.1 h
  cases payload with
  | tooLarge n =>
      cases h
      exact absurd hquiet (not_quiet_failed _ _)
  | json page =>
      obtain ⟨text, -, h⟩ := bind_eq_ok.1 h
      cases h
      rfl
  | csv text n =>
      cases h
      rfl

/-- A report that is quiet ends with the code for its rows. -/
theorem ending_report (h : ((c.report rows).restrict threshold).Quiet) :
    (c.report rows).ending = .exit (codeFor rows) := by
  have hrows : ((Outcome.ofExcept (c.printRows rows)).restrict threshold).Quiet →
      (Outcome.ofExcept (c.printRows rows)).ending = .exit (codeFor rows) :=
    ending_ofExcept fun _ => ending_of_printRows
  have hquiet := h.of_after
  rw [report]
  cases hdistinct : c.distinct with
  | none =>
      rw [hdistinct] at hquiet
      exact hrows hquiet
  | some field =>
      rw [hdistinct] at hquiet
      dsimp only at hquiet ⊢
      split at hquiet
      next hempty =>
          rw [if_pos hempty]
          exact hrows hquiet
      next hfield =>
          rw [if_neg hfield]
          exact ending_ofExcept (fun _ hprint _ => ending_of_printCounts hprint) hquiet

/-! ## Rows up to a limit -/

/-- The code tells whether there is a row, and the first one is within every limit. -/
theorem codeFor_upTo {wanted : Option Nat} (h : ∀ n, wanted = some n → 1 ≤ n) (rows : List Row) :
    codeFor (upTo wanted rows) = codeFor rows := by
  cases wanted with
  | none => rfl
  | some n =>
      obtain ⟨n, rfl⟩ := Nat.exists_eq_succ_of_ne_zero (Nat.ne_of_gt (h n rfl))
      cases rows <;> rfl

/-- A page of the rows up to its limit is that page of all of them. -/
theorem pageRows_upTo {α : Type} {wanted : Option Nat} (h : ∀ n, wanted = some n → 1 ≤ n)
    (xs : List α) :
    Output.Page.rows { limit := wanted.map Int.ofNat } (upTo wanted xs) =
      Output.Page.rows { limit := wanted.map Int.ofNat } xs := by
  cases wanted with
  | none => rfl
  | some n =>
      have hn : (n : Int) ≠ 0 := by
        have hone := h n rfl
        omega
      show (if (n : Int) = 0 then _ else (xs.take n).take n) =
        if (n : Int) = 0 then _ else xs.take n
      rw [if_neg hn, if_neg hn, List.take_take, Nat.min_self]

theorem printRows_upTo (h : ∀ n, c.limit = some n → 1 ≤ n) (rows : List Row) :
    c.printRows (upTo c.limit rows) = c.printRows rows := by
  unfold printRows Output.Payload.make
  rw [pageRows_upTo h, codeFor_upTo h]

/-- Unless values are counted, what is printed does not tell rows behind the limit. -/
theorem output_report_upTo (h : ∀ n, c.limit = some n → 1 ≤ n)
    (hcounts : c.distinct.getD "" = "") (rows : List Row) :
    (c.report (upTo c.limit rows)).output = (c.report rows).output := by
  show (Outcome.ofExcept _).output = (Outcome.ofExcept _).output
  rw [printRows_upTo h]
  cases hdistinct : c.distinct with
  | none => rfl
  | some field =>
      rw [hdistinct] at hcounts
      obtain rfl : field = "" := hcounts
      rfl

/-! ## Runs -/

/-- A quiet run of a query as a whole has found its rows. -/
theorem exists_rows_of_quiet (hmode : c.mode = .whole)
    (h : ((c.run disk).restrict threshold).Quiet) :
    ∃ q rows, c.prepare disk = .ok q ∧ q.exec.outcome = .ok rows ∧ c.run disk = c.report rows := by
  unfold run at h ⊢
  cases hprepare : c.prepare disk with
  | error e =>
      rw [hprepare] at h
      dsimp only at h
      split at h
      · exact absurd h (not_quiet_failed _ _)
      · exact absurd h (not_quiet_escaped _)
  | ok q =>
      rw [hprepare] at h
      dsimp only at h ⊢
      rw [answer, hmode] at h ⊢
      dsimp only at h ⊢
      cases hexec : q.exec.outcome with
      | error e =>
          rw [hexec] at h
          exact absurd h (not_quiet_failure e)
      | ok rows => exact ⟨q, rows, rfl, hexec, rfl⟩

theorem run_whole (hmode : c.mode = .whole) (hprepare : c.prepare disk = .ok q)
    (hexec : q.exec.outcome = .ok rows) : c.run disk = c.report rows := by
  unfold run
  rw [hprepare]
  dsimp only
  rw [answer, hmode]
  dsimp only
  rw [hexec]

/-- A stream with one slot gives the rows up to its limit, which has to be an index. -/
theorem streamedRows_streamed (hexec : q.exec.outcome = .ok rows) :
    c.streamed.streamedRows q =
      if c.limit.any (maxIndex < ·) then .error (.type (.unconvertible .beyondIndex))
      else .ok (upTo c.limit rows) := by
  obtain ⟨plan, hplan⟩ := Query.exists_plan_of_exec hexec
  have hstream : (q.stream (countValue c.streamed.concurrency) c.streamed.limit).outcome =
      .ok (upTo c.limit rows) :=
    Query.stream_one_eq_upTo hexec c.limit
  unfold streamedRows
  rw [hplan, hstream]
  show (if c.limit.any (maxIndex < ·) then throw _ >>= _ else _) = _
  split <;> rfl

theorem run_streamed_eq (hprepare : c.prepare disk = .ok q) (hexec : q.exec.outcome = .ok rows) :
    c.streamed.run disk = if c.limit.any (maxIndex < ·) then
      .escaped (.type (.unconvertible .beyondIndex)) else c.report (upTo c.limit rows) := by
  have hsame : c.streamed.prepare disk = .ok q := hprepare
  have hmode : c.streamed.mode = .stream := rfl
  unfold run
  rw [hsame]
  dsimp only
  rw [answer, hmode]
  dsimp only
  rw [streamedRows_streamed hexec]
  cases c.limit.any (maxIndex < ·) <;> rfl

/-- As a stream with one slot the query reports the rows up to its limit, if it is quiet. -/
theorem run_streamed (hprepare : c.prepare disk = .ok q) (hexec : q.exec.outcome = .ok rows)
    (hquiet : ((c.streamed.run disk).restrict threshold).Quiet) :
    c.streamed.run disk = c.report (upTo c.limit rows) := by
  rw [run_streamed_eq hprepare hexec] at hquiet ⊢
  split at hquiet
  next => exact absurd hquiet (not_quiet_escaped _)
  next hindex => exact if_neg hindex

end QueryCommand

theorem run_query {disk : Files.Disk} {line : List String} {threshold : Level} {c : QueryCommand}
    (h : Invocation.read line = .ok ⟨threshold, .query c⟩) :
    run disk line = (c.run disk).restrict threshold := by
  rw [run, h]
  rfl

/-- **What it means to ask for a stream with one slot.** At the end of a line that asks for a whole
query it makes that query a stream, unless behind a double dash, where it is refused. Where a line
and one that asks for the same query as a stream both run without an error, they end alike. The
first reports all rows, the second the rows up to the limit. They print the same unless there is a
limit below the number of rows and values are counted. -/
theorem run_streaming (disk : Files.Disk) {line : List String} {threshold : Level}
    {c : QueryCommand} (h : Invocation.read line = .ok ⟨threshold, .query c⟩)
    (hmode : c.mode = .whole) :
    (Invocation.read (line ++ streaming) =
      if "--" ∈ line then .error .usage else .ok ⟨threshold, .query c.streamed⟩) ∧
    ∀ line', Invocation.read line' = .ok ⟨threshold, .query c.streamed⟩ →
      (run disk line).Quiet → (run disk line').Quiet →
      (run disk line').ending = (run disk line).ending ∧
      ∃ q rows, c.prepare disk = .ok q ∧ q.exec.outcome = .ok rows ∧
        (run disk line).output = (c.report rows).output ∧
        (run disk line').output = (c.report (upTo c.limit rows)).output ∧
        ((∀ n, c.limit = some n → rows.length ≤ n) ∨ c.distinct.getD "" = "" →
          (run disk line').output = (run disk line).output) := by
  constructor
  · exact read_streaming h hmode
  · intro line' h' hquiet hquiet'
    have hlimit := one_le_limit_of_read h
    rw [run_query h] at hquiet ⊢
    rw [run_query h'] at hquiet' ⊢
    -- The first run is quiet, so it did not fail, and there are rows for both to report.
    obtain ⟨q, rows, hprepare, hexec, hrun⟩ :=
      QueryCommand.exists_rows_of_quiet hmode hquiet
    have hrun' := QueryCommand.run_streamed hprepare hexec hquiet'
    rw [hrun] at hquiet ⊢
    rw [hrun'] at hquiet' ⊢
    refine ⟨?_, q, rows, hprepare, hexec, rfl, rfl, ?_⟩
    · show (c.report _).ending = (c.report rows).ending
      rw [QueryCommand.ending_report hquiet, QueryCommand.ending_report hquiet',
        QueryCommand.codeFor_upTo hlimit]
    · show _ → (c.report _).output = (c.report rows).output
      rintro (hshort | hcounts)
      · have hall : upTo c.limit rows = rows := by
          cases hwanted : c.limit with
          | none => rfl
          | some n => exact List.take_of_length_le (hshort n hwanted)
        rw [hall]
      · exact QueryCommand.output_report_upTo hlimit hcounts rows

/-! ## Two notes -/

section Notes

open Files (Disk FileSearch BodySource MetadataSource Catalog)

/-- A catalog of notes. -/
def notesText : List Char :=
  ("\x7b'collections': [\x7b'name': 'n', 'root': 'r', 'pattern': '\x7bx\x7d', 'meta': \x7d]\x7d" :
    String).toList

def notes : Collection := ⟨"n", "/r", "\x7bx\x7d", true, none, 4096, true, ""⟩

/-- Two notes, and a catalog of them. -/
def shelf (catalog : List UInt8) : Disk :=
  ⟨[("c", .file catalog), ("r", .dir [("a", .file []), ("b", .file [])])], "/"⟩

theorem read_notesText : Yaml.read notesText =
    .ok (.map [(.text "collections", .list [Catalog.notesEntry (.text "n") .null])]) := by
  let word (s : String) : Yaml.Node := .scalar .text s.toList
  have hnodes : Yaml.Node.ofTokens (Yaml.tokens notesText) = .ok (some (.mapping .map
      [(word "collections", .sequence .list [.mapping .map [(word "name", word "n"),
        (word "root", word "r"), (word "pattern", word "\x7bx\x7d"),
        (word "meta", .absent)]])])) := by rfl
  rw [Yaml.read, hnodes]
  cbv

theorem load_shelf {catalog : List UInt8} (hcatalog : Text.Utf8.decode catalog = .ok notesText) :
    Catalog.load (shelf catalog) "c" = .ok ⟨shelf catalog, [notes]⟩ := by
  have hpath : (Files.Path.ofText "c").text = "c" := by decide +kernel
  have hexists : (shelf catalog).exists? "c" = .ok true := by cbv
  have hread : (shelf catalog).read "c" = .ok catalog := by cbv
  have hreal : (shelf catalog).realPath "c" = .ok "/c" := by cbv
  have hroot : (shelf catalog).realPath
      ((Files.Path.ofText "/c").parent.join (.ofText "r")).text = .ok "/r" := by cbv
  unfold Catalog.load
  dsimp only
  rw [hpath]
  refine bind_eq_ok.2 ⟨true, hexists, bind_eq_ok.2 ⟨catalog, hread, ?_⟩⟩
  rw [hcatalog]
  refine bind_eq_ok.2 ⟨_, rfl, bind_eq_ok.2 ⟨_, mapError_eq_ok.2 read_notesText, ?_⟩⟩
  exact bind_eq_ok.2 ⟨"/c", hreal, bind_eq_ok.2
    ⟨[notes], Catalog.ofDocument_notes hroot rfl Catalog.strip_notes (by decide) rfl, rfl⟩⟩

/-- The path of a parameter can be selected where there is that parameter. -/
theorem checkSelection_param {q : Query} (hnames : q.search.names = ["x"]) :
    q.checkSelection (.paths ["params.x"]) = .ok () := by
  have hsplit : splitPath "params.x" = .ok ("params", some "x") :=
    eq_ok_of_toOption (by decide +kernel)
  have hspaces : Selection.spaces (.paths ["params.x"]) = ["params"] := by decide +kernel
  have hknown : q.knownFields "params" = some ["x"] := by
    rw [Query.knownFields, if_pos rfl, hnames]
  have hpath : q.checkPath "params.x" = .ok () := by
    refine bind_eq_ok.2 ⟨_, hsplit, ?_⟩
    dsimp only
    rw [hknown]
    rfl
  have hshape : q.shape (.paths ["params.x"]) =
      [(.text "params", .map (Assoc.ofList [(.text "x", .null)]))] := by
    rw [Query.shape, hspaces, List.filterMap_cons, hknown]
    rfl
  obtain ⟨row, hrow, -⟩ : ∃ row, Selection.flatten (.paths ["params.x"])
      [(.text "params", .map (Assoc.ofList [(.text "x", .null)]))] = .ok row ∧ row.length = 1 :=
    exists_ok_of_toOption_map (by decide +kernel)
  refine bind_eq_ok.2 ⟨(), ?_, bind_eq_ok.2 ⟨row, hshape ▸ hrow, rfl⟩⟩
  show (q.checkPath "params.x" >>= fun _ => Except.ok ()) = .ok ()
  rw [hpath]
  rfl

theorem flatten_param (v : String) : Selection.flatten (.paths ["params.x"])
    [(.text "params", .map [(.text "x", .text v)])] = .ok [("x", .text v)] := by cbv

/-- The rows of a query for a parameter. -/
theorem exec_param {q : Query} (hselected : q.selected = some (.paths ["params.x"]))
    (hfiltered : q.filtered = []) {ids : List String} (value : String → String)
    (hlisting : q.search.listing q.scanned = ⟨ids, none⟩)
    (hextract : ∀ id ∈ ids, q.search.extract id = .ok [("x", value id)]) :
    q.exec.outcome = .ok (ids.map fun id => [("x", .text (value id))]) := by
  obtain ⟨plan, hmake, hneeds⟩ : ∃ plan, Plan.make (.paths ["params.x"]) [] = .ok plan ∧
      (plan.selection, plan.filters.isEmpty, plan.needsParams, plan.needsMeta, plan.needsBody) =
        (.paths ["params.x"], true, true, false, false) :=
    exists_ok_of_toOption_map (by decide +kernel)
  simp only [Prod.mk.injEq] at hneeds
  obtain ⟨hselection, hempty, hparams, hfacts, hbody⟩ := hneeds
  have hplan : q.plan = .ok plan := by
    rw [Query.plan, hselected, hfiltered]
    exact hmake
  have hitem : ∀ id ∈ ids,
      (q.resolveOne plan id).outcome = .ok (some [("x", .text (value id))]) := by
    intro id hid
    have hrow : (q.buildRow plan id none).outcome =
        .ok ⟨some [(.text "x", .text (value id))], none, none⟩ := by
      unfold Query.buildRow Query.resolveParams
      rw [hparams, hfacts, hbody, hextract id hid]
      rfl
    have hflat : q.flatRow plan id = .ok [("x", .text (value id))] := by
      refine bind_eq_ok.2 ⟨_, hrow, ?_⟩
      rw [hselection]
      exact flatten_param (value id)
    have hfilter : plan.hasFilter = false := by
      rw [Plan.hasFilter, hempty]
      rfl
    rw [Query.outcome_resolveOne_unfiltered hfilter, hflat]
    rfl
  rw [Query.exec_eq_ok_iff hplan, hlisting]
  refine ⟨rfl, fun id hid => ⟨_, hitem id hid⟩, ?_⟩
  rw [← List.filterMap_eq_map]
  refine (List.filterMap_congr fun id hid => ?_).symm
  rw [Stream.rowOf, hitem id hid]
  rfl

/-- A query for the names of the notes that has one row for its limit. -/
def firstNote (distinct : Option String) : QueryCommand :=
  { name := "n", catalog := "c", select := ["params.x"], limit := some 1, distinct := distinct }

/-- Both notes are found. -/
theorem exists_prepare_shelf {catalog : List UInt8}
    (hcatalog : Text.Utf8.decode catalog = .ok notesText) (distinct : Option String) :
    ∃ q, (firstNote distinct).prepare (shelf catalog) = .ok q ∧
      q.exec.outcome = .ok [[("x", .text "a")], [("x", .text "b")]] := by
  have hfacts : (Pattern.compile "\x7bx\x7d").toOption.map (fun p =>
      let s : FileSearch := ⟨shelf catalog, "/r", p⟩
      (p.paramNames, (s.search.listing []).ids, (s.search.listing []).fault,
        (s.search.extract "/r/a").toOption, (s.search.extract "/r/b").toOption)) =
      some (["x"], ["/r/a", "/r/b"], none, some [("x", "a")], some [("x", "b")]) := by cbv
  obtain ⟨p, hp, hfacts⟩ := exists_ok_of_toOption_map hfacts
  simp only [Prod.mk.injEq] at hfacts
  obtain ⟨hnames, hids, hfault, ha, hb⟩ := hfacts
  have hroot : (shelf catalog).realPath "/r" = .ok "/r" := by cbv
  let s : FileSearch := ⟨shelf catalog, "/r", p⟩
  let source : MetadataSource := ⟨shelf catalog, none, 4096, by decide⟩
  let q : Query := ⟨s.search, some source.facet, some (BodySource.mk (shelf catalog) none).facet,
    8, [], [], some (.paths ["params.x"])⟩
  refine ⟨q, ?_, ?_⟩
  · rw [QueryCommand.prepare_eq]
    have hquery : Catalog.query ⟨shelf catalog, [notes]⟩ "n" none none .null =
        .ok { q with selected := none } := by
      rw [Catalog.query_eq]
      refine bind_eq_ok.2 ⟨notes, rfl, bind_eq_ok.2 ⟨p, hp, bind_eq_ok.2 ⟨s, ?_, rfl⟩⟩⟩
      exact bind_eq_ok.2 ⟨"/r", hroot, rfl⟩
    refine bind_eq_ok.2 ⟨_, load_shelf hcatalog, bind_eq_ok.2 ⟨_, hquery, ?_⟩⟩
    show Query.select { q with selected := none } [.list [.text "params.x"]] = .ok q
    exact bind_eq_ok.2 ⟨_, rfl, bind_eq_ok.2 ⟨(), checkSelection_param hnames, rfl⟩⟩
  · have hlisting : s.search.listing [] = ⟨["/r/a", "/r/b"], none⟩ := by
      rw [← hids, ← hfault]
    have hextract : ∀ id ∈ ["/r/a", "/r/b"], q.search.extract id =
        .ok [("x", if id = "/r/a" then "a" else "b")] := by
      intro id hid
      rcases List.mem_pair.1 hid with rfl | rfl
      · exact eq_ok_of_toOption ha
      · exact eq_ok_of_toOption hb
    exact exec_param (q := q) rfl rfl _ hlisting hextract

/-- The catalog as a file. -/
def notesFile : List UInt8 := (String.ofList notesText).toUTF8.toList

theorem decode_notesFile : Text.Utf8.decode notesFile = .ok notesText :=
  eq_ok_of_toOption (by decide +kernel)

/-- Up to its limit a list of the notes is the same both ways. -/
theorem run_streaming_notes :
    let line := ["query", "n", "--collections", "c", "--select", "params.x", "--limit", "1"]
    (run (shelf notesFile) (line ++ streaming)).ending = (run (shelf notesFile) line).ending ∧
    (run (shelf notesFile) (line ++ streaming)).output = (run (shelf notesFile) line).output ∧
    (run (shelf notesFile) line).output = "[\n  \x7b\n    \"x\": \"a\"\n  \x7d\n]\n" := by
  intro line
  obtain ⟨q, hprepare, hexec⟩ := exists_prepare_shelf decode_notesFile none
  have hread : Invocation.read line = .ok ⟨.info, .query (firstNote none)⟩ :=
    eq_ok_of_toOption (by decide +kernel)
  obtain ⟨hread', hsame⟩ := run_streaming (shelf notesFile) hread rfl
  rw [if_neg (by decide)] at hread'
  have hwhole : run (shelf notesFile) line = ⟨.exit 0, "[\n  \x7b\n    \"x\": \"a\"\n  \x7d\n]\n",
      [⟨.info, "2 rows from collection 'n'"⟩]⟩ := by
    rw [run_query hread, QueryCommand.run_whole rfl hprepare hexec]
    cbv
  have hstream : run (shelf notesFile) (line ++ streaming) =
      ⟨.exit 0, "[\n  \x7b\n    \"x\": \"a\"\n  \x7d\n]\n",
        [⟨.info, "1 rows from collection 'n'"⟩]⟩ := by
    rw [run_query hread', QueryCommand.run_streamed_eq hprepare hexec]
    cbv
  have hquiet : (run (shelf notesFile) line).Quiet := by
    rw [hwhole]
    exact ⟨⟨0, rfl⟩, by simp⟩
  have hquiet' : (run (shelf notesFile) (line ++ streaming)).Quiet := by
    rw [hstream]
    exact ⟨⟨0, rfl⟩, by simp⟩
  obtain ⟨hending, _, _, -, -, -, -, houtput⟩ := hsame _ hread' hquiet hquiet'
  exact ⟨hending, houtput (.inr rfl), by rw [hwhole]⟩

/-- With the same limit two values are counted as a whole, and one as a stream. -/
theorem run_streaming_counts_less :
    let line := ["query", "n", "--collections", "c", "--select", "params.x", "--limit", "1",
      "--distinct", "x"]
    (run (shelf notesFile) line).Quiet ∧ (run (shelf notesFile) (line ++ streaming)).Quiet ∧
    (run (shelf notesFile) line).output =
      "[\n  \x7b\n    \"x\": \"a\",\n    \"count\": 1\n  \x7d,\n" ++
        "  \x7b\n    \"x\": \"b\",\n    \"count\": 1\n  \x7d\n]\n" ∧
    (run (shelf notesFile) (line ++ streaming)).output =
      "[\n  \x7b\n    \"x\": \"a\",\n    \"count\": 1\n  \x7d\n]\n" := by
  intro line
  obtain ⟨q, hprepare, hexec⟩ := exists_prepare_shelf decode_notesFile (some "x")
  have hread : Invocation.read line = .ok ⟨.info, .query (firstNote (some "x"))⟩ :=
    eq_ok_of_toOption (by decide +kernel)
  have hread' : Invocation.read (line ++ streaming) =
      .ok ⟨.info, .query (firstNote (some "x")).streamed⟩ :=
    eq_ok_of_toOption (by decide +kernel)
  have hwhole : run (shelf notesFile) line = ⟨.exit 0,
      "[\n  \x7b\n    \"x\": \"a\",\n    \"count\": 1\n  \x7d,\n" ++
        "  \x7b\n    \"x\": \"b\",\n    \"count\": 1\n  \x7d\n]\n",
      [⟨.info, "2 rows from collection 'n'"⟩]⟩ := by
    rw [run_query hread, QueryCommand.run_whole rfl hprepare hexec]
    cbv
  have hstream : run (shelf notesFile) (line ++ streaming) = ⟨.exit 0,
      "[\n  \x7b\n    \"x\": \"a\",\n    \"count\": 1\n  \x7d\n]\n",
      [⟨.info, "1 rows from collection 'n'"⟩]⟩ := by
    rw [run_query hread', QueryCommand.run_streamed_eq hprepare hexec]
    cbv
  rw [hwhole, hstream]
  exact ⟨⟨⟨0, rfl⟩, by simp⟩, ⟨⟨0, rfl⟩, by simp⟩, rfl, rfl⟩

end Notes

end Winnow.Cli
