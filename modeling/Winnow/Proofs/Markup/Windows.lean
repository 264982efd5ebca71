import Mathlib
import Winnow.Files.Facets

/-!
# Reading through a window

The block of an item is looked for in the bytes that were read so far. A decision that is taken on
some of the bytes is never revised: whatever follows, the scan of the longer text comes to the same
end (`scan_append`). So a reader that goes on only while the scan is undecided finds what a scan of
the whole item finds (`search_eq_scan`), and neither the size of the first read nor the ceiling of
the later ones shows in the result (`readMetadata_eq_scan`).
-/

namespace Winnow.Markup

/-! ## Lines of a longer text -/

namespace Fence

variable {bs more : Bytes}

theorem ne_of_not_mem (h : lineFeed ∉ bs) : ∀ b ∈ bs, (b != lineFeed) = true := by
  intro b hb
  have hne : b ≠ lineFeed := fun he => h (he ▸ hb)
  simpa using hne

theorem line_of_split {l rest : Bytes} (h : lineFeed ∉ l) : line (l ++ lineFeed :: rest) = l := by
  rw [line, List.takeWhile_append_of_pos (ne_of_not_mem h)]
  simp

theorem afterLine_of_split {l rest : Bytes} (h : lineFeed ∉ l) :
    afterLine (l ++ lineFeed :: rest) = rest := by
  rw [afterLine, List.dropWhile_append_of_pos (ne_of_not_mem h)]
  simp

/-- A line that has ended stays as it is. -/
theorem line_append (h : lineFeed ∈ bs) : line (bs ++ more) = line bs := by
  obtain ⟨l, rest, rfl, hl⟩ := List.eq_append_cons_of_mem h
  rw [List.append_assoc, List.cons_append, line_of_split hl, line_of_split hl]

theorem afterLine_append (h : lineFeed ∈ bs) : afterLine (bs ++ more) = afterLine bs ++ more := by
  obtain ⟨l, rest, rfl, hl⟩ := List.eq_append_cons_of_mem h
  rw [List.append_assoc, List.cons_append, afterLine_of_split hl, afterLine_of_split hl]

/-- A line, its line feed and the bytes behind it are all there is. -/
theorem length_line_add (h : lineFeed ∈ bs) :
    (line bs).length + 1 + (afterLine bs).length = bs.length := by
  obtain ⟨l, rest, rfl, hl⟩ := List.eq_append_cons_of_mem h
  rw [line_of_split hl, afterLine_of_split hl, List.length_append, List.length_cons]
  omega

/-- Without a line feed the line is everything. -/
theorem line_eq_self (h : lineFeed ∉ bs) : line bs = bs :=
  List.takeWhile_eq_self_iff.2 (ne_of_not_mem h)

theorem afterLine_eq_nil (h : lineFeed ∉ bs) : afterLine bs = [] := by
  rw [afterLine, List.dropWhile_eq_nil_iff.2 (ne_of_not_mem h), List.drop_nil]

theorem length_line_le (bs : Bytes) : (line bs).length ≤ bs.length :=
  (List.takeWhile_prefix _).length_le

/-- An item whose first line is a fence begins with the hyphens. -/
theorem take_of_isFence (h : isFence (line bs) = true) : bs.take 3 = dashes := by
  rw [isFence, Bool.and_eq_true, beq_iff_eq] at h
  have hlen : 3 ≤ (line bs).length := by
    have := congrArg List.length h.1
    rw [List.length_take, show dashes.length = 3 from rfl] at this
    omega
  obtain ⟨tail, htail⟩ : line bs <+: bs := List.takeWhile_prefix _
  rw [← h.1, ← htail, List.take_append_of_le_length hlen, htail]

/-- A fence line that is found lies within the text. -/
theorem find?_bounds {position stop last : Nat} (h : find? position bs = some (stop, last)) :
    stop ≤ last ∧ last ≤ position + bs.length := by
  fun_induction find? position bs with
  | case1 => cases h
  | case2 position bs _ size _ =>
      cases h
      have : size ≤ bs.length := length_line_le bs
      omega
  | case3 position bs _ size _ ih =>
      have hfound := ih h
      by_cases hlf : lineFeed ∈ bs
      · have : size + 1 + (afterLine bs).length = bs.length := length_line_add hlf
        omega
      · rw [afterLine_eq_nil hlf, find?] at h
        cases h

/-- **A fence line that has ended is found again**, whatever follows. -/
theorem find?_append {position stop last : Nat} (h : find? position bs = some (stop, last))
    (hlast : last ≠ position + bs.length) :
    find? position (bs ++ more) = some (stop, last) := by
  fun_induction find? position bs with
  | case1 => cases h
  | case2 position bs hne size hfence =>
      cases h
      have hlf : lineFeed ∈ bs := by
        by_contra hlf
        exact hlast (congrArg (stop + ·) (congrArg List.length (line_eq_self hlf)))
      rw [find?, dif_neg (by simp [hne])]
      simp only [line_append hlf, hfence, if_true, size]
  | case3 position bs hne size hfence ih =>
      by_cases hlf : lineFeed ∈ bs
      · have hlen : size + 1 + (afterLine bs).length = bs.length := length_line_add hlf
        have hrest := ih h (by omega)
        rw [find?, dif_neg (by simp [hne])]
        simp only [line_append hlf, afterLine_append hlf, hfence, Bool.false_eq_true, if_false]
        exact hrest
      · rw [afterLine_eq_nil hlf, find?] at h
        cases h

end Fence

/-! ## Decisions are final -/

namespace Block

variable {bs more : Bytes}

theorem mayOpen_of_append (h : mayOpen (bs ++ more) = true) : mayOpen bs = true := by
  rw [mayOpen, beq_iff_eq] at h ⊢
  have hcut := congrArg (List.take bs.length) h
  rw [List.take_take, List.take_take, List.length_append, Nat.min_eq_left (Nat.le_add_right _ _),
    List.take_append_of_le_length (Nat.min_le_left _ _)] at hcut
  rw [← hcut, Nat.min_comm, ← List.take_take, List.take_length]

theorem mayOpen_of_isFence (h : Fence.isFence (Fence.line bs) = true) : mayOpen bs = true := by
  have htake := Fence.take_of_isFence h
  have hlen : 3 ≤ bs.length := by
    have := congrArg List.length htake
    rw [List.length_take, show Fence.dashes.length = 3 from rfl] at this
    omega
  rw [mayOpen, htake, List.take_of_length_le hlen, beq_self_eq_true]

theorem scan_of_not_mayOpen {isWhole : Bool} (h : ¬ mayOpen bs = true) :
    scan bs isWhole = .absent := by
  rw [scan, if_pos (by simpa using h)]

theorem scan_of_not_mem (hopen : mayOpen bs = true) (h : Fence.lineFeed ∉ bs) :
    scan bs false = .pending := by
  simp [scan, hopen, h]

/-- An item with a first line that is no fence has no block. -/
theorem scan_of_not_isFence {isWhole : Bool} (hlf : Fence.lineFeed ∈ bs)
    (h : ¬ Fence.isFence (Fence.line bs) = true) : scan bs isWhole = .absent := by
  by_cases hopen : mayOpen bs = true
  · simp [scan, hopen, hlf, h]
  · exact scan_of_not_mayOpen hopen

/-- Behind an opening fence the closing one decides. -/
theorem scan_of_isFence {isWhole : Bool} (hlf : Fence.lineFeed ∈ bs)
    (h : Fence.isFence (Fence.line bs) = true) :
    scan bs isWhole =
      match Fence.find? ((Fence.line bs).length + 1) (Fence.afterLine bs) with
      | none => .pending
      | some (stop, last) =>
        if last = bs.length then
          if isWhole then .closed ((Fence.line bs).length + 1) stop last else .pending
        else .closed ((Fence.line bs).length + 1) stop (last + 1) := by
  simp only [scan, mayOpen_of_isFence h, List.contains_iff_mem.2 hlf, h, Bool.not_true,
    Bool.false_eq_true, if_false]
  cases Fence.find? ((Fence.line bs).length + 1) (Fence.afterLine bs) with
  | none => rfl
  | some found => simp only [beq_iff_eq]

/-- **A decision is final.** What a scan has decided on the head of an item it decides on every
longer head, and on the whole. -/
theorem scan_append (isWhole : Bool) (h : scan bs false ≠ .pending) :
    scan (bs ++ more) isWhole = scan bs false := by
  by_cases hopen : mayOpen bs = true
  · by_cases hlf : Fence.lineFeed ∈ bs
    · have hlf' : Fence.lineFeed ∈ bs ++ more := List.mem_append_left _ hlf
      by_cases hfence : Fence.isFence (Fence.line bs) = true
      · rw [scan_of_isFence hlf hfence] at h ⊢
        rw [scan_of_isFence hlf' (by rwa [Fence.line_append hlf]), Fence.line_append hlf,
          Fence.afterLine_append hlf]
        cases hfind : Fence.find? ((Fence.line bs).length + 1) (Fence.afterLine bs) with
        | none => simp [hfind] at h
        | some span =>
            obtain ⟨stop, last⟩ := span
            -- The closing fence has ended, for otherwise the scan would be undecided.
            have hlast : last ≠ bs.length := by
              rintro rfl
              simp [hfind] at h
            have hlen := Fence.length_line_add hlf
            have hbounds := Fence.find?_bounds hfind
            have hlonger : last ≠ (bs ++ more).length := by
              rw [List.length_append]
              omega
            rw [Fence.find?_append hfind (by omega)]
            simp only [hlast, hlonger, if_false]
      · rw [scan_of_not_isFence hlf hfence,
          scan_of_not_isFence hlf' (by rwa [Fence.line_append hlf])]
    · exact absurd (scan_of_not_mem hopen hlf) h
  · rw [scan_of_not_mayOpen hopen, scan_of_not_mayOpen fun h => hopen (mayOpen_of_append h)]

/-- The inner bytes of a block lie within the bytes that were scanned. -/
theorem stop_le_of_scan {isWhole : Bool} {start stop body : Nat}
    (h : scan bs isWhole = .closed start stop body) : stop ≤ bs.length := by
  by_cases hlf : Fence.lineFeed ∈ bs
  · by_cases hfence : Fence.isFence (Fence.line bs) = true
    · rw [scan_of_isFence hlf hfence] at h
      have hlen := Fence.length_line_add hlf
      split at h
      · cases h
      next stop' last hfind =>
          have hbounds := Fence.find?_bounds hfind
          have hstop : stop' = stop := by
            split at h
            · split at h <;> cases h
              rfl
            · cases h
              rfl
          omega
    · rw [scan_of_not_isFence hlf hfence] at h
      cases h
  · have hnone : bs.contains Fence.lineFeed = false := by simpa using hlf
    rw [scan, hnone] at h
    split at h
    · cases h
    · split at h
      · split at h <;> cases h
      · contradiction

/-- A block means the same on the bytes that were scanned and on the whole item. -/
theorem metadata_append {isWhole : Bool} (id : String) {b : Block} (h : scan bs isWhole = b)
    (more : Bytes) : b.metadata id (bs ++ more) = b.metadata id bs := by
  cases b with
  | absent => rfl
  | pending => rfl
  | closed start stop body =>
      rw [metadata, metadata, List.take_append_of_le_length (stop_le_of_scan h)]

end Block

/-! ## Reading on -/

namespace Head

/-- The bytes that were read and those that are left are the item, of which nothing is left once a
read has come to its end. -/
structure Of (content : Bytes) (h : Head) : Prop where
  bytes : h.bytes ++ h.rest = content
  whole : h.isWhole = true → h.rest = []

theorem Of.read {content : Bytes} {h : Head} (hc : h.Of content) (n : Nat) :
    (h.read n).Of content := by
  refine ⟨?_, fun hw => ?_⟩
  · rw [Head.read, List.append_assoc, List.take_append_drop]
    exact hc.bytes
  · simp only [Head.read, List.length_take, decide_eq_true_eq] at hw
    exact List.drop_eq_nil_of_le (by omega)

theorem of_ofContent (content : Bytes) : (ofContent content).Of content :=
  ⟨List.nil_append _, by rintro ⟨⟩⟩

/-- **Reading on finds what a scan of the whole item finds.** The invariant is that what was read
and what is left make up the item; a decision on the first part is one on the whole, and without a
decision everything is read in the end. -/
theorem search_eq_scan {content : Bytes} {ceiling window : Nat} {h : Head} (hceiling : 0 < ceiling)
    (hwindow : 0 < window) (hc : h.Of content) :
    (search ceiling window h).1 = Block.scan content true ∧
      (search ceiling window h).2.Of content ∧
      (search ceiling window h).1 =
        Block.scan (search ceiling window h).2.bytes (search ceiling window h).2.isWhole ∧
      ((search ceiling window h).1 = .pending → (search ceiling window h).2.isWhole = true) := by
  fun_induction search ceiling window h with
  | case1 window h hscan next hstop =>
      -- The window is never empty, so the search ends here because the item does.
      have hwhole : h.isWhole = true := hstop.resolve_left (by omega)
      have hbytes : h.bytes = content := by rw [← hc.bytes, hc.whole hwhole, List.append_nil]
      refine ⟨?_, hc, hscan.symm, fun _ => hwhole⟩
      rw [← hscan, hwhole, hbytes]
  | case2 window h hscan next hgo ih => exact ih (by omega) (hc.read _)
  | case3 window h hdecided =>
      refine ⟨?_, hc, rfl, fun hpending => absurd hpending hdecided⟩
      cases hwhole : h.isWhole with
      | true => rw [← hc.bytes, hc.whole hwhole, List.append_nil]
      | false =>
          rw [hwhole] at hdecided
          rw [← hc.bytes, Block.scan_append true hdecided]

end Head

/-! ## What is reported -/

/-- No mapping is read as a block that does not close. -/
theorem readMapping_ne_neverClosed (id : String) (bs : Bytes) :
    readMapping id bs ≠ .error (.malformedFacet id .neverClosed) := by
  rw [readMapping]
  split
  · rintro ⟨⟩
  · split <;> rintro ⟨⟩

/-- A body is refused for a block that does not close exactly if the scan of the whole item is
undecided. -/
theorem readBody_eq_neverClosed_iff (id : String) (content : Bytes) :
    readBody id content = .error (.malformedFacet id .neverClosed) ↔
      Block.scan content true = .pending := by
  rw [readBody]
  cases Block.scan content true with
  | pending => exact iff_of_true rfl rfl
  | absent =>
      refine iff_of_false ?_ (by rintro ⟨⟩)
      simp only [Block.bodyStart?]
      split <;> rintro ⟨⟩
  | closed start stop body =>
      refine iff_of_false ?_ (by rintro ⟨⟩)
      simp only [Block.bodyStart?]
      split <;> rintro ⟨⟩

theorem metadata_eq_neverClosed_iff (id : String) (bs : Bytes) (b : Block) :
    b.metadata id bs = .error (.malformedFacet id .neverClosed) ↔ b = .pending := by
  cases b with
  | pending => exact iff_of_true rfl rfl
  | absent => exact iff_of_false (by rintro ⟨⟩) (by rintro ⟨⟩)
  | closed start stop body =>
      exact iff_of_false (readMapping_ne_neverClosed id _) (by rintro ⟨⟩)

/-- The metadata that is read is that of the block of the whole item. -/
theorem fst_readMetadata (id : String) {budget ceiling : Nat} (hbudget : 0 < budget)
    (hceiling : 0 < ceiling) (content : Bytes) :
    (readMetadata id budget ceiling content).1 =
      (Block.scan content true).metadata id content := by
  have hfirst := (Head.of_ofContent content).read budget
  obtain ⟨hblock, hof, hscan, -⟩ := Head.search_eq_scan hceiling hbudget hfirst
  rw [readMetadata, Head.find, ← hblock]
  -- The block lies within what was read, so its inner bytes are those of the item.
  have hinner := Block.metadata_append id hscan.symm
    (Head.search ceiling budget ((Head.ofContent content).read budget)).2.rest
  rw [hof.bytes] at hinner
  exact hinner.symm

/-- **Metadata does not depend on how an item is read.** For every first read and every ceiling of
at least one byte the metadata is that of the whole item: nothing where there is no block, the
mapping between the fences where a block closes, and an error where it never does, which is only
found once everything is read. A body is refused for such a block in just the same items. -/
theorem readMetadata_eq_scan (id : String) {budget ceiling : Nat} (hbudget : 0 < budget)
    (hceiling : 0 < ceiling) (content : Bytes) :
    (match Block.scan content true with
      | .absent => (readMetadata id budget ceiling content).1 = .ok []
      | .closed start stop _ => (readMetadata id budget ceiling content).1 =
          readMapping id ((content.take stop).drop start)
      | .pending => (readMetadata id budget ceiling content).1 =
            .error (.malformedFacet id .neverClosed) ∧
          (readMetadata id budget ceiling content).2.bytes = content) ∧
    ((readMetadata id budget ceiling content).1 = .error (.malformedFacet id .neverClosed) ↔
      readBody id content = .error (.malformedFacet id .neverClosed)) ∧
    ∀ (source : Files.MetadataSource) (request : Request), source.disk.read id = .ok content →
      (source.facet.resolve id request = .error (.malformedFacet id .neverClosed) ↔
        readBody id content = .error (.malformedFacet id .neverClosed)) := by
  have hfirst := (Head.of_ofContent content).read budget
  obtain ⟨hblock, hof, -, hend⟩ := Head.search_eq_scan hceiling hbudget hfirst
  have hmetadata := fst_readMetadata id hbudget hceiling content
  refine ⟨?_, ?_, ?_⟩
  · rw [hmetadata]
    cases hscan : Block.scan content true with
    | absent => rfl
    | closed start stop body => rfl
    | pending =>
        refine ⟨rfl, ?_⟩
        -- The search gives up on an open block only at the end of the item.
        have hrest := hof.whole (hend (hblock.trans hscan))
        have hbytes := hof.bytes
        rwa [hrest, List.append_nil] at hbytes
  · rw [hmetadata, metadata_eq_neverClosed_iff, readBody_eq_neverClosed_iff]
  · intro source request hread
    have hsource : source.read id = (Block.scan content true).metadata id content := by
      rw [Files.MetadataSource.read, hread]
      exact fst_readMetadata id source.budget_pos (by decide) content
    rw [readBody_eq_neverClosed_iff, ← metadata_eq_neverClosed_iff id content, ← hsource]
    show (source.read id).map _ = _ ↔ _
    cases source.read id with
    | error e => exact Iff.rfl
    | ok r => exact iff_of_false (by rintro ⟨⟩) (by rintro ⟨⟩)

/-- A block that does not close, of which the first read sees two hyphens. -/
theorem readMetadata_eq_scan_unclosed :
    let content : Bytes := [0x2D, 0x2D, 0x2D, 0x0A, 0x61]
    let source : Files.MetadataSource := ⟨⟨[("a.md", .file content)], "/"⟩, none, 4, by decide⟩
    0 < 2 ∧ 0 < 1 ∧ source.disk.read "/a.md" = .ok content ∧
      (readMetadata "/a.md" 2 1 content).1 = .error (.malformedFacet "/a.md" .neverClosed) ∧
      (readMetadata "/a.md" 2 1 content).2.bytes = content ∧
      readBody "/a.md" content = .error (.malformedFacet "/a.md" .neverClosed) ∧
      source.facet.resolve "/a.md" none = .error (.malformedFacet "/a.md" .neverClosed) := by
  intro content source
  have hscan : Block.scan content true = .pending := by cbv
  have hread : source.disk.read "/a.md" = .ok content := by cbv
  obtain ⟨hmetadata, hbody, hresolver⟩ :=
    readMetadata_eq_scan "/a.md" (show 0 < 2 by decide) (show 0 < 1 by decide) content
  rw [hscan] at hmetadata
  have hrefused := hbody.1 hmetadata.1
  exact ⟨by decide, by decide, hread, hmetadata.1, hmetadata.2, hrefused,
    (hresolver source none hread).2 hrefused⟩

end Winnow.Markup
