import Winnow.Files.Catalog
import Winnow.Proofs.Files.Searching
import Winnow.Proofs.Query.Clashes

/-!
# What can go wrong with collections

Every step between the text of a catalog and the rows of a query fails in its own way, and in no
other: a pattern is refused, a document cannot be read, a file is not there. Here the kinds of
errors are told apart step by step.
-/

namespace Winnow

/-- A step that, if it fails, fails with an error of a kind. -/
def FailsWith {α : Type} (x : Except Error α) (kind : Error → Bool) : Prop :=
  ∀ e, x = .error e → kind e = true

namespace FailsWith

variable {α β : Type} {x : Except Error α} {kind : Error → Bool}

theorem ok (a : α) : FailsWith (.ok a) kind := by
  rintro e ⟨⟩

theorem error {e : Error} (h : kind e = true) : FailsWith (.error e : Except Error α) kind := by
  rintro _ ⟨⟩
  exact h

theorem throw_bind {e : Error} {f : α → Except Error β} (h : kind e = true) :
    FailsWith (throw e >>= f) kind :=
  .error h

theorem bind {f : α → Except Error β} (hx : FailsWith x kind)
    (hf : ∀ a, x = .ok a → FailsWith (f a) kind) : FailsWith (x >>= f) kind := by
  cases x with
  | error e => exact .error (hx e rfl)
  | ok a => exact hf a rfl

theorem map {f : α → β} (hx : FailsWith x kind) : FailsWith (x.map f) kind := by
  cases x with
  | error e => exact .error (hx e rfl)
  | ok a => exact .ok _

theorem mono {kind' : Error → Bool} (hx : FailsWith x kind)
    (h : ∀ e, kind e = true → kind' e = true) : FailsWith x kind' :=
  fun e he => h e (hx e he)

theorem mapError {ε : Type} {y : Except ε α} {f : ε → Error} (h : ∀ e, kind (f e) = true) :
    FailsWith (y.mapError f) kind := by
  cases y with
  | error e => exact .error (h e)
  | ok a => exact .ok a

theorem mapM {f : α → Except Error β} {xs : List α} (h : ∀ x ∈ xs, FailsWith (f x) kind) :
    FailsWith (xs.mapM f) kind := by
  induction xs with
  | nil => exact .ok []
  | cons x xs ih =>
      obtain ⟨hx, hxs⟩ := List.forall_mem_cons.1 h
      rw [List.mapM_cons]
      exact hx.bind fun _ _ => (ih hxs).bind fun _ _ => .ok _

theorem foldlM {f : β → α → Except Error β} {xs : List α} {b : β}
    (h : ∀ b x, FailsWith (f b x) kind) : FailsWith (xs.foldlM f b) kind := by
  induction xs generalizing b with
  | nil => exact .ok b
  | cons x xs ih =>
      rw [List.foldlM_cons]
      exact (h b x).bind fun _ _ => ih

theorem forM {f : α → Except Error Unit} {xs : List α} (h : ∀ x, FailsWith (f x) kind) :
    FailsWith (xs.forM f) kind := by
  induction xs with
  | nil => exact .ok ()
  | cons x xs ih =>
      exact (h x).bind fun _ _ => ih

/-- A step that comes to a value or to an error of a kind. -/
theorem of_yields {value : α → Prop} (h : Yields x value (kind · = true)) : FailsWith x kind := by
  rintro e rfl
  exact h

theorem yields (h : FailsWith x kind) : Yields x (fun _ => True) (kind · = true) := by
  cases x with
  | error e => exact h e rfl
  | ok a => trivial

end FailsWith

namespace Error

/-- Errors of patterns. Counts beyond all bounds or of too many digits, contradictory flags and
characters by name are not worded as such. -/
def ofPattern : Error → Bool
  | .pattern .. | .ambiguous .. | .countTooLarge | .flagClash | .type (.unconvertible _) => true
  | _ => false

/-- Errors of documents: they are malformed, or a value is not what its tag says. -/
def ofDocument : Error → Bool
  | .invalidDocument | .type _ => true
  | _ => false

/-- A path whose links cannot be replaced. -/
def ofPath : Error → Bool
  | .linkLoop | .type (.unconvertible _) => true
  | _ => false

/-- A file that cannot be looked at. -/
def ofDisk : Error → Bool
  | .file .. => true
  | _ => false

/-- Errors of catalogs. -/
def ofCatalog : Error → Bool
  | .collectionsNotFound _ | .file .. | .linkLoop | .notUtf8 _ | .setup _
  | .argument (.conversion _) => true
  | e => e.ofPattern || e.ofDocument

/-- Errors of setting up a query over a catalog. -/
def ofSetup : Error → Bool
  | .argument _ | .unknownField .. | .collision .. => true
  | e => e.ofCatalog

/-- Errors of the items of a collection and of their rows. -/
def ofItem : Error → Bool
  | .file .. | .noMatch .. | .malformedFacet .. | .type _ | .collision .. => true
  | _ => false

theorem ofCatalog_of_ofDisk {e : Error} (h : e.ofDisk = true) : e.ofCatalog = true := by
  cases e <;> first | rfl | cases h

theorem ofSetup_of_ofCatalog {e : Error} (h : e.ofCatalog = true) : e.ofSetup = true := by
  cases e <;> first | rfl | exact h

theorem ofItem_of_ofDisk {e : Error} (h : e.ofDisk = true) : e.ofItem = true := by
  cases e <;> first | rfl | cases h

theorem ofCatalog_of_ofPattern {e : Error} (h : e.ofPattern = true) : e.ofCatalog = true := by
  cases e <;> first | rfl | exact Bool.or_true _ | cases h

theorem ofCatalog_of_ofDocument {e : Error} (h : e.ofDocument = true) : e.ofCatalog = true := by
  cases e <;> first | rfl | exact Bool.or_true _ | cases h

theorem ofCatalog_of_ofPath {e : Error} (h : e.ofPath = true) : e.ofCatalog = true := by
  cases e <;> first | rfl | exact Bool.or_true _ | cases h

end Error

/-! ## Patterns -/

namespace Pattern

theorem ofPattern_constraintError {e : Error} (he : e.ofPattern = true) (f : Regex.Fault) :
    (constraintError f e).ofPattern = true := by
  cases f <;> first | rfl | exact he

theorem failsWith_readPlaceholder (source : String) (start position : Nat) (body : List Char) :
    FailsWith (readPlaceholder source start position body) Error.ofPattern := by
  rw [readPlaceholder]
  dsimp only
  split
  · exact .error rfl
  · split
    · exact .ok _
    · split
      · exact .error rfl
      · split
        · exact .error rfl
        · split
          · exact .ok _
          · exact .error (ofPattern_constraintError rfl _)

theorem failsWith_tokensFrom (source : String) (start : Nat) (buffer : List Char)
    (seen : List String) (text : List Char) :
    FailsWith (tokensFrom source start buffer seen text) Error.ofPattern := by
  fun_induction tokensFrom source start buffer seen text with
  | case1 => exact .ok _
  | case2 start buffer seen rest hbody => exact .error rfl
  | case3 start buffer seen rest body rest' hbody ih =>
      refine (failsWith_readPlaceholder source start seen.length body).bind fun p _ => ?_
      split
      · exact .error rfl
      · exact (ih p).bind fun _ _ => .ok _
  | case4 => exact .error rfl
  | case5 start buffer seen c rest hopen hclose ih => exact ih

theorem failsWith_tokenize (source : String) : FailsWith (tokenize source) Error.ofPattern :=
  failsWith_tokensFrom source 0 [] [] source.toList

theorem failsWith_compile (source : String) : FailsWith (compile source) Error.ofPattern := by
  have hmatcher : ∀ capture parts, FailsWith
      ((synthesize capture parts).mapError (matcherError source)) Error.ofPattern :=
    fun capture parts => .mapError fun f => ofPattern_constraintError rfl f
  refine (failsWith_tokenize source).bind fun tokens _ => ?_
  split
  · exact .error rfl
  · dsimp only
    split
    · exact .error rfl
    · exact (hmatcher true _).bind fun _ _ => (hmatcher false _).bind fun _ _ => .ok _

end Pattern

/-! ## Files -/

namespace Files

section Disk

variable (disk : Disk) (path : String)

theorem failsWith_exists? : FailsWith (disk.exists? path) Error.ofDisk := by
  rw [Disk.exists?]
  split
  · exact .ok _
  · exact .error rfl
  · exact .ok _

theorem failsWith_read : FailsWith (disk.read path) Error.ofDisk := by
  rw [Disk.read]
  split
  · exact .ok _
  · exact .error rfl
  · exact .error rfl

theorem failsWith_realPath : FailsWith (disk.realPath path) Error.ofPath := by
  rw [Disk.realPath]
  split
  · dsimp only
    split
    · exact .error rfl
    · exact .ok _
  · dsimp only
    split
    · exact .error rfl
    · split
      · exact .error rfl
      · exact .error rfl

end Disk

/-! ## Walks -/

section Walk

variable {f : Spot → Listing} {g : Glob} {name : String} {s : Spot} {e : Error}

theorem ofDisk_of_scan (h : s.scan = .error e) : e.ofDisk = true := by
  obtain ⟨_, _, rfl, -⟩ := Spot.exists_of_scan_eq_error h
  rfl

theorem ofDisk_of_fitting (h : s.fitting g = .error e) : e.ofDisk = true := by
  rw [Spot.fitting] at h
  exact FailsWith.map (fun _ => ofDisk_of_scan) e h

theorem ofDisk_of_fault_enterName (hf : ∀ s, (f s).fault = some e → e.ofDisk = true)
    (h : (enterName f name s).fault = some e) : e.ofDisk = true := by
  rw [enterName] at h
  split at h
  · exact hf _ h
  · split at h
    · exact hf _ h
    · split at h
      · cases h
        rfl
      · split at h
        · exact hf _ h
        · cases h

theorem ofDisk_of_fault_fileName (h : (fileName name s).fault = some e) : e.ofDisk = true := by
  rw [fileName] at h
  split at h
  · cases h
  · cases h
    rfl
  · cases h

theorem ofDisk_of_fault_enterFitting (hf : ∀ s, (f s).fault = some e → e.ofDisk = true)
    (h : (enterFitting f g s).fault = some e) : e.ofDisk = true := by
  rw [enterFitting] at h
  split at h
  next hfitting =>
      cases h
      exact ofDisk_of_fitting hfitting
  next ks _ =>
      obtain ⟨l, hl, hfault⟩ := exists_of_fault_concat h
      obtain ⟨⟨name, k⟩, -, rfl⟩ := List.mem_map.1 hl
      dsimp only at hfault
      split at hfault
      · exact hf _ hfault
      · cases hfault

theorem ofDisk_of_fault_filesFitting (h : (filesFitting g s).fault = some e) :
    e.ofDisk = true := by
  rw [filesFitting] at h
  split at h
  next hfitting =>
      cases h
      exact ofDisk_of_fitting hfitting
  next => cases h

theorem ofDisk_of_fault_descend (hf : ∀ s, (f s).fault = some e → e.ofDisk = true)
    (h : (descend f s).fault = some e) : e.ofDisk = true := by
  obtain ⟨_, s', -, hfault | hscan⟩ := exists_of_fault_descend h
  · exact hf s' hfault
  · exact ofDisk_of_scan hscan

/-- A walk is cut short by nothing but a file that cannot be looked at. -/
theorem ofDisk_of_fault_walk {segments : List Segment} (h : (walk segments s).fault = some e) :
    e.ofDisk = true := by
  induction segments generalizing s with
  | nil => cases h
  | cons seg rest ih =>
      have hrest : ∀ s, (walk rest s).fault = some e → e.ofDisk = true := fun _ => ih
      cases seg with
      | anyDepth => exact ofDisk_of_fault_descend hrest h
      | name n =>
          cases rest with
          | nil => exact ofDisk_of_fault_fileName h
          | cons => exact ofDisk_of_fault_enterName hrest h
      | glob g =>
          cases rest with
          | nil => exact ofDisk_of_fault_filesFitting h
          | cons => exact ofDisk_of_fault_enterFitting hrest h

theorem ofDisk_of_fault_candidates {s : FileSearch} {template : Pattern.Template}
    (h : (s.candidates template).fault = some e) : e.ofDisk = true := by
  obtain ⟨l, hl, hfault⟩ := exists_of_fault_concat h
  obtain ⟨a, -, rfl⟩ := List.mem_map.1 hl
  rw [Disk.walk] at hfault
  split at hfault
  · exact ofDisk_of_fault_walk hfault
  · split at hfault
    · cases hfault
    · cases hfault
      rfl
  · cases hfault

end Walk

/-! ## Items -/

section Items

variable {s : FileSearch} {tokens : List Pattern.Token} {nodes : List Regex.Node}
  {scope : Regex.Scope} {id : String} {e : Error}

theorem ofDisk_of_fault_listing (hmade : Pattern.Made s.pattern tokens nodes scope)
    {constraints : Assoc String Value} (h : (s.search.listing constraints).fault = some e) :
    e.ofDisk = true :=
  ofDisk_of_fault_candidates (FileSearch.fault_candidates_of_fault_paths hmade h)

theorem failsWith_extract (hmade : Pattern.Made s.pattern tokens nodes scope) (id : String) :
    FailsWith (s.extract id) Error.ofItem := by
  rw [FileSearch.extract]
  split
  · exact .error rfl
  · rw [hmade.extract_eq]
    refine FailsWith.bind (.ok _) fun params? _ => ?_
    cases params? with
    | none => exact .error rfl
    | some params => exact .ok params

theorem failsWith_readMapping (id : String) (content : List UInt8) :
    FailsWith (Markup.readMapping id content) Error.ofItem := by
  rw [Markup.readMapping]
  split
  · exact .error rfl
  · split
    · exact .error rfl
    · exact .error rfl
    · exact .ok _
    · exact .ok _
    · exact .error rfl

theorem failsWith_metadata (source : MetadataSource) (id : String) (request : Request) :
    FailsWith (source.facet.resolve id request) Error.ofItem := by
  have hread : FailsWith (source.read id) Error.ofItem := by
    refine FailsWith.bind ((failsWith_read source.disk id).mono ?_) fun content _ => ?_
    · exact fun _ => Error.ofItem_of_ofDisk
    · rw [Markup.readMetadata]
      dsimp only
      unfold Markup.Block.metadata
      split
      · exact .ok _
      · exact .error rfl
      · exact failsWith_readMapping _ _
  exact hread.map

theorem failsWith_body (source : BodySource) (id : String) (request : Request) :
    FailsWith (source.facet.resolve id request) Error.ofItem := by
  refine FailsWith.bind ((failsWith_read source.disk id).mono ?_) fun content _ => ?_
  · exact fun _ => Error.ofItem_of_ofDisk
  · refine FailsWith.bind ?_ fun _ _ => .ok _
    rw [Markup.readBody]
    split
    · exact .error rfl
    · split
      · exact .error rfl
      · exact .ok _

end Items

end Files

/-! ## Catalogs -/

namespace Collection

theorem failsWith_countOfText (shown : String) (s : List Char) :
    FailsWith (countOfText shown s) Error.ofCatalog := by
  rw [countOfText]
  split
  · exact .ok _
  · exact .error rfl
  · exact .error rfl

theorem failsWith_countOf (v : Value) : FailsWith (countOf v) Error.ofCatalog := by
  cases v with
  | int i => exact .ok i
  | bool b => exact .ok _
  | float x =>
      rw [countOf]
      split
      · exact .ok _
      · split
        · exact .error rfl
        · exact .error rfl
  | text s => exact failsWith_countOfText _ _
  | bytes bs => exact failsWith_countOfText _ _
  | _ => exact .error rfl

theorem failsWith_written (text : Value → String) (v : Value) :
    FailsWith (written text v) Error.ofCatalog := by
  rw [written]
  split
  · exact .ok _
  · exact .error rfl

theorem failsWith_nameOf (entry : Value) : FailsWith (nameOf entry) Error.ofCatalog :=
  (failsWith_written _ _).bind fun _ _ => .ok _

theorem failsWith_readMeta (name : String) (v : Value) :
    FailsWith (readMeta name v) Error.ofCatalog := by
  cases v with
  | null => exact .ok _
  | bool b => exact .ok _
  | map entries =>
      rw [readMeta]
      split
      · exact (failsWith_countOf _).bind fun _ _ => .ok _
      · refine (failsWith_countOf _).bind fun _ _ => ?_
        exact (FailsWith.map (.mapM fun _ _ => failsWith_written _ _)).bind fun _ _ => .ok _
      · exact .error rfl
  | _ => exact .error rfl

section Document

variable {place : String → Except Error String}
  (hplace : ∀ root, FailsWith (place root) Error.ofCatalog)
include hplace

theorem failsWith_ofEntry (done : List Collection) (entry : Value) :
    FailsWith (ofEntry place done entry) Error.ofCatalog := by
  unfold ofEntry
  split
  · refine (failsWith_nameOf _).bind fun name _ => ?_
    dsimp only
    split
    · exact (failsWith_written _ _).bind fun _ _ => .throw_bind rfl
    · split
      · exact .error rfl
      · refine (failsWith_written _ _).bind fun pattern _ => ?_
        refine ((Pattern.failsWith_compile _).mono fun _ => Error.ofCatalog_of_ofPattern).bind ?_
        intro _ _
        refine (failsWith_readMeta _ _).bind fun _ _ => ?_
        refine (failsWith_written _ _).bind fun _ _ => (hplace _).bind fun _ _ => ?_
        exact (failsWith_written _ _).bind fun _ _ => .ok _
  · exact .error rfl

theorem failsWith_ofEntries (done : List Collection) (entries : List Value) :
    FailsWith (ofEntries place done entries) Error.ofCatalog := by
  induction entries generalizing done with
  | nil => exact .ok done
  | cons entry rest ih =>
      rw [ofEntries]
      split
      next e he => exact .error (failsWith_ofEntry hplace done entry e he)
      next c _ => exact ih _

theorem failsWith_ofDocument (document : Value) :
    FailsWith (ofDocument place document) Error.ofCatalog := by
  unfold ofDocument
  split
  · exact .ok []
  · split
    · dsimp only
      split
      · exact .ok []
      · split
        · exact failsWith_ofEntries hplace [] _
        all_goals exact .error rfl
    · exact .error rfl

end Document

end Collection

namespace Files.Catalog

theorem failsWith_load (disk : Disk) (path : String) :
    FailsWith (load disk path) Error.ofCatalog := by
  have hplace : ∀ path, FailsWith (disk.realPath path) Error.ofCatalog := fun path =>
    (failsWith_realPath disk path).mono fun _ => Error.ofCatalog_of_ofPath
  unfold load
  refine ((failsWith_exists? disk _).mono fun _ => Error.ofCatalog_of_ofDisk).bind ?_
  intro found _
  dsimp only
  split
  · exact .error rfl
  · refine ((failsWith_read disk _).mono fun _ => Error.ofCatalog_of_ofDisk).bind ?_
    intro content _
    split
    · refine FailsWith.bind (.ok _) fun text _ => ?_
      refine FailsWith.bind (.mapError fun f => ?_) fun document _ => ?_
      · exact Error.ofCatalog_of_ofDocument (by cases f <;> rfl)
      · refine (hplace _).bind fun _ _ => ?_
        exact (Collection.failsWith_ofDocument (fun root => hplace _) document).bind fun _ _ => .ok _
    · exact .error rfl

end Files.Catalog

/-! ## Queries over collections -/

/-- Two paths under one name. -/
def Error.ofRow : Error → Bool
  | .collision .. => true
  | _ => false

theorem failsWith_put (row : Record) (p : Placement) (entry : String × String) :
    FailsWith (p.put row entry) Error.ofRow := by
  unfold Placement.put
  dsimp only
  split
  · split
    · exact .ok _
    · exact .error rfl
  · exact .ok _

theorem failsWith_flatten (row : Record) (s : Selection) :
    FailsWith (s.flatten row) Error.ofRow := by
  cases s with
  | paths ps =>
      rw [Selection.flatten, Winnow.flatten]
      split
      · exact .error rfl
      · exact .ok _
  | aliases es =>
      rw [Selection.flatten, flattenAliased]
      refine FailsWith.bind ?_ fun _ _ => .ok _
      exact .foldlM fun p entry => failsWith_put row p entry

namespace Query

variable {q q' : Query}

theorem failsWith_positiveCount (label : String) (default : Nat) (v : Value) :
    FailsWith (positiveCount label default v) Error.ofSetup := by
  unfold positiveCount
  split
  · exact .ok _
  · split
    · exact .error rfl
    · exact .ok _
  · exact .error rfl

theorem failsWith_checkNames (space : String) (known names : List String) :
    FailsWith (checkNames space known names) Error.ofSetup := by
  induction names with
  | nil => exact .ok _
  | cons name names ih =>
      rw [checkNames]
      split
      · exact ih
      · exact .error rfl

theorem failsWith_scan (q : Query) (constraints : Assoc String Value) :
    FailsWith (q.scan constraints) Error.ofSetup :=
  (failsWith_checkNames _ _ _).bind fun _ _ => .ok _

theorem failsWith_filter (q : Query) (constraints : Assoc String Value) :
    FailsWith (q.filter constraints) Error.ofSetup := by
  rw [Query.filter]
  split
  · exact .error rfl
  · split
    · exact (failsWith_checkNames _ _ _).bind fun _ _ => .ok _
    · exact .ok _

theorem failsWith_splitPath (path : String) : FailsWith (splitPath path) Error.ofSetup := by
  rw [splitPath]
  split
  · split
    · exact .error rfl
    · split
      · split
        · exact .ok _
        · exact .error rfl
      · exact .ok _
  · exact .error rfl

theorem failsWith_checkPath (q : Query) (path : String) :
    FailsWith (q.checkPath path) Error.ofSetup := by
  unfold checkPath
  refine (failsWith_splitPath path).bind fun names _ => ?_
  dsimp only
  split
  · split
    · split
      · split
        · exact .ok ()
        · exact .error rfl
      · exact .ok ()
    · exact .throw_bind rfl
  · exact .throw_bind rfl

theorem failsWith_distinctTexts (seen : List String) (values : List Value) :
    FailsWith (distinctTexts seen values) Error.ofSetup := by
  induction values generalizing seen with
  | nil => exact .ok seen
  | cons v values ih =>
      cases v with
      | text s => exact ih _
      | _ => exact .error rfl

theorem failsWith_ofPaths (values : List Value) :
    FailsWith (Selection.ofPaths values) Error.ofSetup := by
  refine (failsWith_distinctTexts [] values).bind fun paths _ => ?_
  cases paths.isEmpty with
  | true => exact .error rfl
  | false => exact .ok _

theorem failsWith_ofArguments (arguments : List Value) :
    FailsWith (Selection.ofArguments arguments) Error.ofSetup := by
  unfold Selection.ofArguments
  split
  · split
    · exact .error rfl
    · exact .ok _
  all_goals exact failsWith_ofPaths _

theorem failsWith_select (q : Query) (arguments : List Value) :
    FailsWith (q.select arguments) Error.ofSetup := by
  refine (failsWith_ofArguments arguments).bind fun s _ => ?_
  refine FailsWith.bind ?_ fun _ _ => .ok _
  refine (FailsWith.forM fun path => q.failsWith_checkPath path).bind fun _ _ => ?_
  refine FailsWith.bind ((failsWith_flatten _ _).mono fun e he => ?_) fun _ _ => .ok _
  cases e <;> first | rfl | cases he

/-- A query whose items are files. -/
structure OverFiles (q : Query) : Prop where
  search : ∃ s : Files.FileSearch, q.search = s.search ∧
    ∃ tokens nodes scope, Pattern.Made s.pattern tokens nodes scope
  facts : ∀ f, q.facts = some f → ∃ source : Files.MetadataSource, f = source.facet
  body : ∀ f, q.body = some f → ∃ source : Files.BodySource, f = source.facet

theorem failsWith_resolve {facet : Option Facet} {kind : Error → Bool}
    (h : ∀ f, facet = some f → ∀ id request, FailsWith (f.resolve id request) kind)
    (name : FacetName) (id : String) (request : Request) :
    FailsWith (resolve name facet id request).outcome kind := by
  cases facet with
  | none => exact .ok []
  | some f => exact h f rfl id request

theorem OverFiles.stepsYield (h : q.OverFiles) (plan : Plan) :
    q.StepsYield plan (fun _ => True) (fun _ => True) (fun _ => True) (·.ofItem = true) := by
  obtain ⟨⟨s, hsearch, _, _, _, hmade⟩, hfacts, hbody⟩ := h
  refine ⟨fun e he => ?_, fun id => ?_, fun id => ?_, fun id => ?_, fun row _ => ?_⟩
  · rw [hsearch] at he
    exact Error.ofItem_of_ofDisk (Files.ofDisk_of_fault_listing hmade he)
  · rw [resolveParams, Logged.outcome_call, hsearch]
    exact ((Files.failsWith_extract hmade id).bind fun _ _ => .ok _).yields
  · refine (failsWith_resolve (fun f hf id request => ?_) _ id _).yields
    obtain ⟨source, rfl⟩ := hfacts f hf
    exact Files.failsWith_metadata source id request
  · refine (failsWith_resolve (fun f hf id request => ?_) _ id _).yields
    obtain ⟨source, rfl⟩ := hbody f hf
    exact Files.failsWith_body source id request
  · refine ((failsWith_flatten _ _).mono fun e he => ?_).yields
    cases e <;> first | rfl | cases he

end Query

namespace Files.Catalog

/-- The metadata of a collection, if it has any. -/
def factsOf (disk : Disk) (d : Collection) : Except Error (Option Facet) :=
  if d.hasMeta then (some ·.facet) <$> MetadataSource.make disk d.metaFields d.budget else pure none

/-- The bodies of a collection, if it has any. -/
def bodyOf (disk : Disk) (d : Collection) : Option Facet :=
  if d.hasBody then some (BodySource.mk disk none).facet else none

theorem query_eq (c : Catalog) (name : String) (workers : Value) :
    c.query name none none workers = (do
      let d ← c.get name
      let pattern ← Pattern.compile d.pattern
      let search ← FileSearch.make c.disk d.root pattern
      let facts ← factsOf c.disk d
      Query.new search.search facts (bodyOf c.disk d) workers) := by
  unfold Catalog.query
  refine congrArg (c.get name >>= ·) (funext fun d => ?_)
  refine congrArg (Pattern.compile d.pattern >>= ·) (funext fun pattern => ?_)
  refine congrArg (FileSearch.make c.disk d.root pattern >>= ·) (funext fun search => ?_)
  rw [factsOf, bodyOf]
  cases d.hasMeta <;> cases d.hasBody <;> rfl

theorem failsWith_query (c : Catalog) (name : String) (workers : Value) :
    FailsWith (c.query name none none workers) Error.ofSetup := by
  have hroot : ∀ root, FailsWith (c.disk.realPath root) Error.ofSetup := fun root =>
    (failsWith_realPath c.disk root).mono fun _ he =>
      Error.ofSetup_of_ofCatalog (Error.ofCatalog_of_ofPath he)
  have hget : FailsWith (c.get name) Error.ofSetup := by
    rw [Catalog.get]
    split
    · exact .ok _
    · exact .error rfl
  have hfacts : ∀ d, FailsWith (factsOf c.disk d) Error.ofSetup := by
    intro d
    rw [factsOf, MetadataSource.make]
    split
    · split
      · exact .error rfl
      · exact .ok _
    · exact .ok none
  rw [query_eq]
  refine hget.bind fun d _ => ?_
  refine ((Pattern.failsWith_compile _).mono fun _ he => Error.ofSetup_of_ofCatalog
    (Error.ofCatalog_of_ofPattern he)).bind fun pattern _ => ?_
  refine FailsWith.bind ((hroot d.root).bind fun _ _ => .ok _) fun search _ => ?_
  refine (hfacts d).bind fun facts _ => ?_
  exact (Query.failsWith_positiveCount _ _ workers).bind fun _ _ => .ok _

/-- A query over a collection is one over files. -/
theorem overFiles_of_query {c : Catalog} {name : String} {workers : Value} {q : Query}
    (h : c.query name none none workers = .ok q) : q.Built ∧ q.OverFiles := by
  rw [query_eq] at h
  obtain ⟨d, -, h⟩ := bind_eq_ok.1 h
  obtain ⟨pattern, hpattern, h⟩ := bind_eq_ok.1 h
  obtain ⟨search, hsearch, h⟩ := bind_eq_ok.1 h
  obtain ⟨facts, hfacts, h⟩ := bind_eq_ok.1 h
  refine ⟨.new h, ?_⟩
  obtain ⟨_, -, h⟩ := bind_eq_ok.1 h
  obtain ⟨_, -, hsearch⟩ := bind_eq_ok.1 hsearch
  cases h
  cases hsearch
  refine ⟨⟨_, rfl, (Pattern.made_of_compile hpattern).2⟩, ?_, ?_⟩
  · rintro f rfl
    rw [factsOf] at hfacts
    split at hfacts
    · cases hsource : MetadataSource.make c.disk d.metaFields d.budget with
      | error e =>
          rw [hsource] at hfacts
          cases hfacts
      | ok source =>
          rw [hsource] at hfacts
          cases hfacts
          exact ⟨source, rfl⟩
    · cases hfacts
  · intro f hf
    dsimp only [bodyOf] at hf
    split at hf
    · cases hf
      exact ⟨_, rfl⟩
    · cases hf

end Files.Catalog

end Winnow
