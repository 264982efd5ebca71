import Winnow.Cli.Machine
import Winnow.Proofs.Cli.Lines
import Winnow.Proofs.Files.Faults

/-!
# How commands end

A command line that is read ends with 0, 1 or 2, and with 2 if it makes no sense: so it is meant.
But every command handles the errors of some layers by name, and what it does not name escapes. The
setup of a command ends with the code for misuse unless its error is one of a short list
(`Command.overlooks`); after the setup nothing escapes from any command but a query, and from that
only errors of values that cannot be converted or printed and of a limit beyond all counts
(`Command.leaks`). The kinds of errors of each layer are told apart in `Winnow.Proofs.Files.Faults`.
All of this is as far as the machine goes that a process runs on (`Machine.Ends`).
-/

namespace Winnow.Cli

/-! ## Output -/

section Output

/-- Errors of what is printed. -/
def ofOutput : Error → Bool
  | .invalidTable | .type _ => true
  | _ => false

theorem failsWith_jsonText (f : Json.Format) (v : Value) :
    FailsWith (Output.jsonText f v) ofOutput :=
  .mapError fun f => by cases f <;> rfl

theorem failsWith_jsonLines (v : Value) : FailsWith (jsonLines v) ofOutput :=
  (failsWith_jsonText .pretty v).map

theorem exists_entryTexts_texts (f : Json.Format) (depth : Nat) (params : Assoc String String) :
    ∃ texts, Json.entryTexts f depth (params.map fun e => (.text e.1, .text e.2)) = .ok texts := by
  induction params with
  | nil => exact ⟨[], rfl⟩
  | cons e params ih =>
      obtain ⟨texts, htexts⟩ := ih
      rw [List.map_cons, Json.entryTexts, htexts, Json.textAt]
      exact ⟨_, rfl⟩

/-- Texts can always be printed. -/
theorem exists_jsonLines_texts (params : Assoc String String) :
    ∃ text, jsonLines (Output.rowValue (params.map fun e => (e.1, .text e.2))) = .ok text := by
  obtain ⟨texts, htexts⟩ := exists_entryTexts_texts .pretty 1 params
  have hmap : (params.map fun e => (e.1, Value.text e.2)).map (fun e => (Value.text e.1, e.2)) =
      params.map fun e => (.text e.1, .text e.2) := List.map_map ..
  rw [jsonLines, Output.jsonText, Output.rowValue, hmap, Json.text, Json.textAt, htexts]
  exact ⟨_, rfl⟩

theorem failsWith_cellOf (v : Value) : FailsWith (Output.cellOf v) ofOutput := by
  cases v with
  | list | tuple | map => exact (failsWith_jsonText _ _).map
  | _ => exact .ok _

theorem failsWith_ofRows (rows : List Row) : FailsWith (Table.Frame.ofRows rows) ofOutput := by
  rw [Table.Frame.ofRows]
  split
  · exact .throw_bind rfl
  · refine FailsWith.bind (.mapM fun name _ => ?_) fun _ _ => .ok _
    split
    · exact .ok _
    · exact .error rfl

theorem failsWith_csvText (rows : List Row) : FailsWith (Output.csvText rows) ofOutput := by
  have hcells : FailsWith (rows.mapM Output.cellRow) ofOutput :=
    .mapM fun row _ => .mapM fun entry _ => (failsWith_cellOf entry.2).map
  refine hcells.bind fun cells _ => (failsWith_ofRows cells).bind fun frame _ => ?_
  split
  · exact .ok _
  · exact .error rfl

theorem failsWith_make (form : Output.Form) (page : Output.Page) (cap : Output.Cap)
    (rows : List Row) : FailsWith (Output.Payload.make form page cap rows) ofOutput := by
  rw [Output.Payload.make]
  unfold Output.Payload.ofRows
  split
  · exact .ok _
  · cases form with
    | json => exact (failsWith_jsonText _ _).bind fun _ _ => .ok _
    | csv => exact (failsWith_csvText _).bind fun _ _ => .ok _

theorem failsWith_distinct (field : String) (f : Output.Frequency) (rows : List Row) :
    FailsWith (Output.distinct field f rows) ofOutput := by
  rw [Output.distinct]
  split
  · exact .ok _
  · refine FailsWith.bind (.mapM fun row _ => failsWith_cellOf _) fun cells _ => ?_
    refine (failsWith_ofRows _).bind fun frame _ => ?_
    split
    · exact .throw_bind rfl
    · exact .ok _

end Output

/-! ## Assignments -/

/-- Errors of assignments. Only a value that is typed can be a document that cannot be read. -/
def ofAssignment (typed : Bool) : Error → Bool
  | .argument _ => true
  | e => typed && e.ofDocument

theorem ofSetup_of_ofAssignment {typed : Bool} {e : Error} (h : ofAssignment typed e = true) :
    e.ofSetup = true := by
  cases e with
  | argument => rfl
  | _ =>
      refine Error.ofSetup_of_ofCatalog (Error.ofCatalog_of_ofDocument ?_)
      exact ((Bool.and_eq_true _ _).mp h).2

theorem failsWith_readAssignment (typed : Bool) (item : String) :
    FailsWith (readAssignment typed item) (ofAssignment typed) := by
  rw [readAssignment]
  split
  · dsimp only
    split
    · exact .error rfl
    · refine FailsWith.map ?_
      rw [assignedValue]
      cases typed with
      | false => exact .ok _
      | true =>
          split
          · exact .mapError fun f => by cases f <;> rfl
          · exact .ok _
  · exact .error rfl

theorem failsWith_readAssignments (typed : Bool) (items : List String) :
    FailsWith (readAssignments typed items) (ofAssignment typed) :=
  .map (.mapM fun item _ => failsWith_readAssignment typed item)

/-! ## Endings -/

/-- A run ends with one of the codes, or an error of a kind escapes. -/
def Outcome.Ends (o : Outcome) (kind : Error → Bool) : Prop :=
  (∃ code ≤ 2, o.ending = .exit code) ∨ ∃ e, kind e = true ∧ o.ending = .escaped e

section Ends

variable {kind : Error → Bool}

theorem ends_exit {code : Nat} (h : code ≤ 2) (output : String) (log : List Message) :
    Outcome.Ends { ending := .exit code, output := output, log := log } kind :=
  .inl ⟨code, h, rfl⟩

theorem ends_failed {code : Nat} (h : code ≤ 2) (text : String) :
    (Outcome.failed code text).Ends kind :=
  .inl ⟨code, h, rfl⟩

theorem ends_ofExcept {x : Except Error Outcome} (h : FailsWith x kind)
    (hends : ∀ o, x = .ok o → o.Ends kind) : (Outcome.ofExcept x).Ends kind := by
  cases x with
  | error e => exact .inr ⟨e, h e rfl, rfl⟩
  | ok o => exact hends o rfl

end Ends

namespace QueryCommand

variable {c : QueryCommand} {q : Query} {disk : Files.Disk}

/-- Errors of an answer: those of the items, and those of the number of rows. -/
def ofAnswer : Error → Bool
  | .emptyResult _ | .multipleResult _ => true
  | e => e.ofItem

theorem ofAnswer_of_ofItem {e : Error} (h : e.ofItem = true) : ofAnswer e = true := by
  cases e <;> first | rfl | cases h

theorem ends_failure {e : Error} (h : ofAnswer e = true) : (failure e).Ends ofOutput := by
  cases e with
  | type f => exact .inr ⟨.type f, rfl, rfl⟩
  | file | noMatch | malformedFacet | collision | emptyResult | multipleResult =>
      exact ends_failed (by decide) _
  | _ => cases h

theorem codeFor_le (rows : List Row) : codeFor rows ≤ 2 := by
  rw [codeFor]
  split <;> decide

theorem ends_printCounts (rows : List Row) (field : String) :
    (Outcome.ofExcept (printCounts rows field)).Ends ofOutput := by
  refine ends_ofExcept ?_ fun o ho => ?_
  · exact (failsWith_distinct _ _ _).bind fun _ _ => (failsWith_jsonLines _).bind fun _ _ => .ok _
  · obtain ⟨counts, -, ho⟩ := bind_eq_ok.1 ho
    obtain ⟨text, -, ho⟩ := bind_eq_ok.1 ho
    cases ho
    exact ends_exit (codeFor_le rows) _ _

theorem ends_printRows (c : QueryCommand) (rows : List Row) :
    (Outcome.ofExcept (c.printRows rows)).Ends ofOutput := by
  refine ends_ofExcept ?_ fun o ho => ?_
  · refine (failsWith_make _ _ _ _).bind fun payload _ => ?_
    cases payload with
    | tooLarge n => exact .ok _
    | json page => exact (failsWith_jsonLines _).bind fun _ _ => .ok _
    | csv text n => exact .ok _
  · obtain ⟨payload, -, ho⟩ := bind_eq_ok.1 ho
    cases payload with
    | tooLarge n =>
        cases ho
        exact ends_failed (by decide) _
    | json page =>
        obtain ⟨text, -, ho⟩ := bind_eq_ok.1 ho
        cases ho
        exact ends_exit (codeFor_le rows) _ _
    | csv text n =>
        cases ho
        exact ends_exit (codeFor_le rows) _ _

theorem ends_report (c : QueryCommand) (rows : List Row) : (c.report rows).Ends ofOutput := by
  rw [report]
  cases c.distinct with
  | none => exact ends_printRows c rows
  | some field =>
      dsimp only
      split
      · exact ends_printRows c rows
      · exact ends_printCounts rows field

theorem ends_reportOne {row? : Except Error (Option Row)} (h : FailsWith row? ofAnswer) :
    (reportOne row?).Ends ofOutput := by
  match row? with
  | .error e => exact ends_failure (h e rfl)
  | .ok none => exact ends_failed (by decide) _
  | .ok (some row) =>
      rw [reportOne]
      cases hjson : jsonLines (Output.rowValue row) with
      | error e => exact .inr ⟨e, failsWith_jsonLines _ e hjson, rfl⟩
      | ok text => exact ends_exit (by decide) _ _

theorem failsWith_selection (c : QueryCommand) : FailsWith c.selection Error.ofSetup := by
  unfold selection
  refine ((failsWith_readAssignments false c.aliases).mono
    fun _ => ofSetup_of_ofAssignment).bind fun aliases _ => ?_
  dsimp only
  split
  · exact .throw_bind rfl
  · split
    · exact .ok _
    · split
      · exact .throw_bind rfl
      · exact .ok _

/-- A step that is left out if there is nothing to do. -/
def unlessEmpty (step : Assoc String Value → Except Error Query) (q : Query)
    (entries : Assoc String Value) : Except Error Query :=
  if entries.isEmpty then pure q else step entries

theorem prepare_eq (disk : Files.Disk) (c : QueryCommand) : c.prepare disk = (do
    let catalog ← Files.Catalog.load disk c.catalog
    let q ← catalog.query c.name none none (countValue c.workers)
    let scan ← readAssignments false c.scan
    let filter ← readAssignments true c.filter
    let q ← unlessEmpty q.scan q scan
    let q ← unlessEmpty q.filter q filter
    let selection ← c.selection
    q.select [selection]) := by
  unfold prepare
  refine congrArg (Files.Catalog.load disk c.catalog >>= ·) (funext fun catalog => ?_)
  refine congrArg (catalog.query c.name none none _ >>= ·) (funext fun q => ?_)
  refine congrArg (readAssignments false c.scan >>= ·) (funext fun scan => ?_)
  refine congrArg (readAssignments true c.filter >>= ·) (funext fun filter => ?_)
  unfold unlessEmpty
  cases scan.isEmpty <;> cases filter.isEmpty <;> rfl

theorem failsWith_unlessEmpty {step : Assoc String Value → Except Error Query}
    (h : ∀ entries, FailsWith (step entries) Error.ofSetup) (q : Query)
    (entries : Assoc String Value) : FailsWith (unlessEmpty step q entries) Error.ofSetup := by
  rw [unlessEmpty]
  split
  · exact .ok q
  · exact h entries

/-- What a preparation can fail with. -/
theorem failsWith_prepare (disk : Files.Disk) (c : QueryCommand) :
    FailsWith (c.prepare disk) Error.ofSetup := by
  rw [prepare_eq]
  refine ((Files.Catalog.failsWith_load disk c.catalog).mono
    fun _ => Error.ofSetup_of_ofCatalog).bind fun catalog _ => ?_
  refine (Files.Catalog.failsWith_query catalog c.name _).bind fun q _ => ?_
  refine ((failsWith_readAssignments false c.scan).mono
    fun _ => ofSetup_of_ofAssignment).bind fun scan _ => ?_
  refine ((failsWith_readAssignments true c.filter).mono
    fun _ => ofSetup_of_ofAssignment).bind fun filter _ => ?_
  refine (failsWith_unlessEmpty (Query.failsWith_scan q) q scan).bind fun q _ => ?_
  refine (failsWith_unlessEmpty (Query.failsWith_filter q) q filter).bind fun q _ => ?_
  exact (failsWith_selection c).bind fun selection _ => Query.failsWith_select q [selection]

theorem overFiles_of_unlessEmpty {step : Assoc String Value → Except Error Query}
    {entries : Assoc String Value} {q q' : Query}
    (hstep : step entries = .ok q' → q'.Built ∧ q'.OverFiles) (hq : q.Built ∧ q.OverFiles)
    (h : unlessEmpty step q entries = .ok q') : q'.Built ∧ q'.OverFiles := by
  rw [unlessEmpty] at h
  split at h
  · cases h
    exact hq
  · exact hstep h

/-- What is prepared is a query over files with a selection. -/
theorem overFiles_of_prepare (h : c.prepare disk = .ok q) :
    q.Built ∧ q.OverFiles ∧ ∃ s, q.selected = some s := by
  rw [prepare_eq] at h
  obtain ⟨catalog, -, h⟩ := bind_eq_ok.1 h
  obtain ⟨q₁, hquery, h⟩ := bind_eq_ok.1 h
  obtain ⟨scan, -, h⟩ := bind_eq_ok.1 h
  obtain ⟨filter, -, h⟩ := bind_eq_ok.1 h
  obtain ⟨q₂, hscan, h⟩ := bind_eq_ok.1 h
  obtain ⟨q₃, hfilter, h⟩ := bind_eq_ok.1 h
  obtain ⟨selection, -, hselect⟩ := bind_eq_ok.1 h
  have h₁ := Files.Catalog.overFiles_of_query hquery
  have h₂ : q₂.Built ∧ q₂.OverFiles := by
    refine overFiles_of_unlessEmpty (fun h => ⟨.scan h₁.1 h, ?_⟩) h₁ hscan
    obtain ⟨_, -, h⟩ := bind_eq_ok.1 h
    cases h
    exact ⟨h₁.2.search, h₁.2.facts, h₁.2.body⟩
  have h₃ : q₃.Built ∧ q₃.OverFiles := by
    refine overFiles_of_unlessEmpty (fun h => ⟨.filter h₂.1 h, ?_⟩) h₂ hfilter
    obtain ⟨_, -, rfl, -⟩ := Query.exists_facet_of_filter h
    exact ⟨h₂.2.search, h₂.2.facts, h₂.2.body⟩
  refine ⟨.select h₃.1 hselect, ?_⟩
  obtain ⟨s, -, hselect⟩ := bind_eq_ok.1 hselect
  obtain ⟨_, -, hselect⟩ := bind_eq_ok.1 hselect
  cases hselect
  exact ⟨⟨h₃.2.search, h₃.2.facts, h₃.2.body⟩, s, rfl⟩

section Rows

variable {plan : Plan} (hplan : q.plan = .ok plan)
  (hyields : q.StepsYield plan (fun _ => True) (fun _ => True) (fun _ => True) (·.ofItem = true))
include hplan hyields

/-- A strict answer fails with an item, or with the number of rows; to say so it shows the query,
which may hold an integer too long to be written. -/
theorem failsWith_onlyRow : FailsWith (onlyRow q) ofAnswer := by
  have hstrict := hyields.strictSingle hplan
  rw [onlyRow]
  cases hrow : q.strictSingle.outcome with
  | ok row => exact .ok row
  | error e =>
      rw [hrow] at hstrict
      refine .error ?_
      rcases hstrict with hitem | rfl | rfl
      · cases e <;> first | exact ofAnswer_of_ofItem hitem | cases hitem
      all_goals
        dsimp only
        split <;> rfl

/-- A stream fails with an item or with its limit. A line cannot ask for a stream without slots. -/
theorem failsWith_streamedRows (hc : c.HasRoom) : FailsWith (c.streamedRows q) ofAnswer := by
  have hslots : ∃ n, streamLimit (countValue c.concurrency) = .ok n := by
    cases hn : c.concurrency with
    | none => exact ⟨_, rfl⟩
    | some n => exact ⟨n, Query.streamLimit_ofNat (hc n hn)⟩
  obtain ⟨n, hn⟩ := hslots
  unfold streamedRows
  rw [hplan, hn]
  show FailsWith (if _ then _ else _) _
  split
  · exact .throw_bind rfl
  · intro e he
    have hstream := hyields.stream hplan (countValue c.concurrency) c.limit
    rw [he] at hstream
    rcases hstream with hitem | hlimit
    · exact ofAnswer_of_ofItem hitem
    · rw [hn] at hlimit
      cases hlimit

end Rows

theorem ends_answer (hc : c.HasRoom) (hprepare : c.prepare disk = .ok q) :
    (c.answer q).Ends ofOutput := by
  obtain ⟨hbuilt, hfiles, s, hs⟩ := overFiles_of_prepare hprepare
  obtain ⟨plan, hplan, -⟩ := Query.exists_plan hbuilt hs
  have hyields := hfiles.stepsYield plan
  have hitems : ∀ {α : Type} {x : Except Error α},
      Yields x (fun _ => True) (Error.ofItem · = true) → FailsWith x ofAnswer :=
    fun h => (FailsWith.of_yields h).mono fun _ => ofAnswer_of_ofItem
  rw [answer]
  cases c.mode with
  | whole =>
      dsimp only
      cases hrows : q.exec.outcome with
      | error e => exact ends_failure (hitems (hyields.exec hplan) e hrows)
      | ok rows => exact ends_report c rows
  | first => exact ends_reportOne (hitems (hyields.single hplan))
  | only => exact ends_reportOne (failsWith_onlyRow hplan hyields).map
  | stream =>
      dsimp only
      cases hrows : c.streamedRows q with
      | ok rows => exact ends_report c rows
      | error e => exact ends_failure (failsWith_streamedRows hplan hyields hc e hrows)

end QueryCommand

/-! ## Commands -/

namespace Command

/-- What a command does before it looks at any item: a pattern is compiled and values are assigned,
or collections are loaded, and a query over one of them is made. -/
def setup (disk : Files.Disk) : Command → Except Error Unit
  | .extract pattern _ => do let _ ← Pattern.compile pattern
  | .build pattern assignments => do
    let _ ← Pattern.compile pattern
    let _ ← readAssignments false assignments
  | .list catalog => do let _ ← Files.Catalog.load disk catalog
  | .query c => do let _ ← c.prepare disk

/-- The errors of a setup that a command lets escape. -/
def overlooks : Command → Error → Bool
  | _, .countTooLarge => true
  | .extract .., .flagClash => true
  | .extract .., .type (.unconvertible _) => true
  | .list _, .flagClash => true
  | .list _, .notUtf8 _ => true
  | .list _, .argument _ => true
  | .list _, .linkLoop => true
  | .list _, .invalidDocument => true
  | .list _, .type _ => true
  | .query _, .linkLoop => true
  | .query _, .invalidDocument => true
  | .query _, .type (.unconvertible _) => false
  | .query _, .type _ => true
  | _, _ => false

/-- The errors that escape from a command after its setup: those of values, of a limit and of
tables. -/
def leaks : Command → Error → Bool
  | .query _, e => ofOutput e
  | _, _ => false

end Command

/-- How a command ends: a setup that fails gives the code for misuse, or its error escapes, and
nothing is printed; after it there is one of the codes, or an error of output escapes. -/
def Command.EndsWith (disk : Files.Disk) (c : Command) (o : Outcome) : Prop :=
  (∀ e, c.setup disk = .error e →
    (o.ending = if c.overlooks e then .escaped e else .exit 2) ∧ o.output = "") ∧
  (c.setup disk = .ok () → o.Ends c.leaks)

variable (disk : Files.Disk)

theorem endsWith_extract (source id : String) :
    (Command.extract source id).EndsWith disk (runExtract source id) := by
  rw [Command.EndsWith, Command.setup, runExtract]
  cases hp : Pattern.compile source with
  | error e =>
      refine ⟨?_, by rintro ⟨⟩⟩
      rintro _ ⟨⟩
      have he := Pattern.failsWith_compile source e hp
      cases e with
      | type f => cases f <;> first | exact ⟨rfl, rfl⟩ | cases he
      | _ => first | exact ⟨rfl, rfl⟩ | cases he
  | ok pattern =>
      refine ⟨by rintro _ ⟨⟩, fun _ => ?_⟩
      obtain ⟨-, _, _, _, hmade⟩ := Pattern.made_of_compile hp
      dsimp only
      cases hextract : pattern.extract id with
      | error e =>
          rw [hmade.extract_eq] at hextract
          cases hextract
      | ok params? =>
          cases params? with
          | none => exact ends_failed (by decide) _
          | some params =>
              obtain ⟨text, htext⟩ := exists_jsonLines_texts params
              show (Outcome.ofExcept (jsonLines _ >>= fun text => .ok (.printed text))).Ends _
              rw [htext]
              exact ends_exit (by decide) _ _

theorem endsWith_build (source : String) (assignments : List String) :
    (Command.build source assignments).EndsWith disk (runBuild source assignments) := by
  rw [Command.EndsWith, Command.setup, runBuild]
  cases hp : Pattern.compile source with
  | error e =>
      have hline : buildLine source assignments = .error e := by
        rw [buildLine, hp]
        rfl
      rw [hline]
      refine ⟨?_, by rintro ⟨⟩⟩
      rintro _ ⟨⟩
      have he := Pattern.failsWith_compile source e hp
      cases e with
      | type f => cases f <;> first | exact ⟨rfl, rfl⟩ | cases he
      | _ => first | exact ⟨rfl, rfl⟩ | cases he
  | ok pattern =>
      cases hvalues : readAssignments false assignments with
      | error e =>
          have hline : buildLine source assignments = .error e := by
            rw [buildLine, hp, hvalues]
            rfl
          rw [hline]
          refine ⟨?_, by rintro ⟨⟩⟩
          rintro _ ⟨⟩
          have he := failsWith_readAssignments false assignments e hvalues
          cases e <;> first | exact ⟨rfl, rfl⟩ | cases he
      | ok values =>
          have hline : buildLine source assignments = pattern.build values := by
            rw [buildLine, hp, hvalues]
            rfl
          rw [hline]
          refine ⟨by rintro _ ⟨⟩, fun _ => ?_⟩
          cases hbuild : pattern.build values with
          | ok id => exact ends_exit (by decide) _ _
          | error e =>
              cases Pattern.buildFault_of_build hbuild with
              | value => exact ends_failed (by decide) _
              | missing => exact ends_failed (by decide) _

theorem endsWith_list (catalog : String) :
    (Command.list catalog).EndsWith disk (runList disk catalog) := by
  unfold Command.EndsWith Command.setup runList
  dsimp only
  cases hc : Files.Catalog.load disk catalog with
  | error e =>
      refine ⟨?_, by rintro ⟨⟩⟩
      rintro _ ⟨⟩
      have he := Files.Catalog.failsWith_load disk catalog e hc
      cases e with
      | type f => cases f <;> exact ⟨rfl, rfl⟩
      | _ => first | exact ⟨rfl, rfl⟩ | cases he
  | ok catalog =>
      refine ⟨by rintro _ ⟨⟩, fun _ => ?_⟩
      dsimp only
      split
      · exact ends_exit (by decide) _ _
      · exact ends_exit (by decide) _ _

theorem endsWith_query {c : QueryCommand} (hc : c.HasRoom) :
    (Command.query c).EndsWith disk (c.run disk) := by
  unfold Command.EndsWith Command.setup QueryCommand.run
  dsimp only
  cases hq : c.prepare disk with
  | error e =>
      refine ⟨?_, by rintro ⟨⟩⟩
      rintro _ ⟨⟩
      have he := QueryCommand.failsWith_prepare disk c e hq
      cases e with
      | type f => cases f <;> exact ⟨rfl, rfl⟩
      | _ => first | exact ⟨rfl, rfl⟩ | cases he
  | ok q => exact ⟨by rintro _ ⟨⟩, fun _ => QueryCommand.ends_answer hc hq⟩

theorem endsWith_run (disk : Files.Disk) {c : Command} (hc : c.Readable) :
    c.EndsWith disk (c.run disk) := by
  cases c with
  | extract source id => exact endsWith_extract disk source id
  | build source assignments => exact endsWith_build disk source assignments
  | list catalog => exact endsWith_list disk catalog
  | query c => exact endsWith_query disk hc

/-! ## Processes -/

namespace Command

/-- The number of characters that are asked of a catalog at a time. -/
def pieceSize : Nat := 4096

/-- Whether the catalog of a command is surely read in one piece. A character takes a byte at
least. -/
def readsAtOnce (disk : Files.Disk) (c : Command) : Bool :=
  c.catalog?.all fun path => match disk.read (Files.Path.ofText path).text with
    | .ok content => content.length ≤ pieceSize
    | .error _ => true

/-- Whether a setup that fails with an error here fails with it anywhere. A catalog of several
pieces is taken apart while it is read, so that a fault of an early piece comes before a character
that cannot stand in a later one; and what is not read here may mean something. -/
def isSure (disk : Files.Disk) (c : Command) : Error → Bool
  | .notUtf8 _ | .invalidDocument => c.readsAtOnce disk
  | .type (.unconvertible (.unread _)) => false
  | _ => true

end Command

namespace Machine

/-- How a process with a command line may end: with one of the codes, with an error of a kind that
escapes, or with what the machine is short of. -/
def Ends (m : Machine) (disk : Files.Disk) (line : List String) (c : Command)
    (kind : Error → Bool) : Prop :=
  (∃ code ≤ 2, m.run disk line = .ended (.exit code)) ∨
  (∃ e, kind e = true ∧ m.run disk line = .ended (.escaped e)) ∨
  (∃ s, m.shortage disk c = some s ∧ m.run disk line = .gaveOut s) ∨
  ∃ f, m.printFault (Cli.run disk line).output = some f ∧ m.run disk line = .unprinted f

variable {m : Machine} {disk : Files.Disk} {line : List String} {i : Invocation}
  {kind : Error → Bool}

theorem run_eq_gaveOut {s : Shortage} (h : Invocation.read line = .ok i)
    (hshort : m.shortage disk i.command = some s) : m.run disk line = .gaveOut s := by
  rw [run, h]
  dsimp only
  rw [hshort]

theorem run_eq_print (h : Invocation.read line = .ok i) (hroom : m.shortage disk i.command = none) :
    m.run disk line = m.print i.command (Cli.run disk line) := by
  rw [run, h]
  dsimp only
  rw [hroom]

/-- On a machine that is short of nothing a process ends as its run ends. -/
theorem run_ideal (disk : Files.Disk) (line : List String) :
    ideal.run disk line = .ended (Cli.run disk line).ending := by
  cases h : Invocation.read line with
  | error r => rw [run, Cli.run, h]
  | ok i =>
      rw [run_eq_print h rfl]
      rfl

theorem print_of_output_empty {c : Command} {o : Outcome} (h : o.output = "") :
    m.print c o = .ended o.ending := by
  rw [print, h, m.printFault_empty]

theorem codeOnPrintFault_le {c : Command} {f : PrintFault} {code : Nat}
    (h : c.codeOnPrintFault f = some code) : code ≤ 2 := by
  unfold Command.codeOnPrintFault at h
  split at h
  · cases h
    decide
  · split at h
    · cases h
      decide
    · cases h
  · cases h

/-- What holds of the ending of a run holds of the process, as far as the machine goes. -/
theorem ends_of_ends (h : Invocation.read line = .ok i) (hends : (Cli.run disk line).Ends kind) :
    m.Ends disk line i.command kind := by
  cases hroom : m.shortage disk i.command with
  | some s => exact .inr (.inr (.inl ⟨s, hroom, run_eq_gaveOut h hroom⟩))
  | none =>
      unfold Ends
      rw [run_eq_print h hroom, print]
      cases hprint : m.printFault (Cli.run disk line).output with
      | none =>
          dsimp only
          rcases hends with ⟨code, hcode, hending⟩ | ⟨e, he, hending⟩
          · exact .inl ⟨code, hcode, congrArg _ hending⟩
          · exact .inr (.inl ⟨e, he, congrArg _ hending⟩)
      | some f =>
          dsimp only
          cases hcode : i.command.codeOnPrintFault f with
          | some code => exact .inl ⟨code, codeOnPrintFault_le hcode, rfl⟩
          | none => exact .inr (.inr (.inr ⟨f, rfl, rfl⟩))

end Machine

/-- A line that is read is run. -/
theorem run_of_read (disk : Files.Disk) {line : List String} {i : Invocation}
    (h : Invocation.read line = .ok i) :
    run disk line = (i.command.run disk).restrict i.threshold := by
  rw [run, h]

theorem endsWith_run_of_read (disk : Files.Disk) {line : List String} {i : Invocation}
    (h : Invocation.read line = .ok i) : i.command.EndsWith disk (run disk line) := by
  rw [run_of_read disk h]
  exact endsWith_run disk (readable_of_read h)

section Load

variable {disk : Files.Disk} {e : Error}

theorem setup_list_of_load {catalog : String} (h : Files.Catalog.load disk catalog = .error e) :
    Command.setup disk (.list catalog) = .error e := by
  rw [Command.setup, h]
  rfl

theorem setup_query_of_load {c : QueryCommand} (h : Files.Catalog.load disk c.catalog = .error e) :
    Command.setup disk (.query c) = .error e := by
  rw [Command.setup, QueryCommand.prepare, h]
  rfl

end Load

/-- A disk whose only file is no text. -/
def scribble : Files.Disk := ⟨[("c", .file [0xff])], "/"⟩

theorem read_scribble : scribble.read "c" = .ok [0xff] := by
  cbv

theorem readsAtOnce_scribble {c : Command} (h : c.catalog? = some "c") :
    c.readsAtOnce scribble = true := by
  have hpath : (Files.Path.ofText "c").text = "c" := by decide +kernel
  rw [Command.readsAtOnce, h, Option.all_some, hpath, read_scribble]
  rfl

theorem load_scribble :
    Files.Catalog.load scribble "c" = .error (.notUtf8 ⟨0, 0xff, 1, .start⟩) := by
  have hexists : scribble.exists? "c" = .ok true := by cbv
  have hread := read_scribble
  have hpath : (Files.Path.ofText "c").text = "c" := by decide +kernel
  unfold Files.Catalog.load
  simp only [hpath, hexists, hread]
  rfl

end Winnow.Cli
