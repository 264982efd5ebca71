import Winnow.Proofs.Markup.Windows

/-!
# How much of an item is read

A scan of the head of an item is decided from some length on (`needed`). A reader cannot know this
length, but it reads little beyond it: as long as the scan is undecided the window is at most as
large as what was read so far and the first read together, so the last read cannot much more than
double it. The bounds are an invariant of the reader (`Head.Within`) that each further read keeps
(`Within.read`) and that the search carries to its end (`within_search`).
-/

namespace Winnow.Markup

/-- How many bytes it takes to decide: the length of the shortest head on which the scan is decided,
or that of the whole item if there is none. -/
def needed (content : Bytes) : Nat :=
  ((List.range (content.length + 1)).find? fun n =>
    Block.scan (content.take n) false != .pending).getD content.length

namespace Head

variable {content : Bytes} {budget ceiling window : Nat} {h : Head}

/-- A scan is undecided only on heads that are too short, or at the end of the item. -/
theorem length_lt_needed (hof : h.Of content) (hpending : Block.scan h.bytes false = .pending) :
    h.bytes.length < needed content ∨ h.rest = [] := by
  have hlength : h.bytes.length + h.rest.length = content.length := by
    rw [← List.length_append, hof.bytes]
  unfold needed
  cases hfind : (List.range (content.length + 1)).find? fun n =>
      Block.scan (content.take n) false != .pending with
  | none =>
      by_cases hrest : h.rest = []
      · exact .inr hrest
      · left
        have hpos : 0 < h.rest.length := List.length_pos_iff.2 hrest
        rw [Option.getD_none]
        omega
  | some n =>
      left
      rw [Option.getD_some]
      have hdecided : Block.scan (content.take n) false ≠ .pending := by
        simpa using List.find?_some hfind
      by_contra hlong
      have hhead : content.take n = h.bytes.take n := by
        rw [← hof.bytes, List.take_append_of_le_length (Nat.le_of_not_lt hlong)]
      rw [hhead] at hdecided
      -- A head beyond the shortest one that decides would be decided as well.
      have hlonger : Block.scan (h.bytes.take n ++ h.bytes.drop n) false =
          Block.scan (h.bytes.take n) false :=
        Block.scan_append false hdecided
      rw [List.take_append_drop, hpending] at hlonger
      exact hdecided hlonger.symm

/-- The bounds of a reader that has come so far, where `window` is what its last read asked for. -/
structure Within (content : Bytes) (budget ceiling window : Nat) (h : Head) : Prop where
  of : h.Of content
  full : h.isWhole = false → budget ≤ h.bytes.length
  window : h.isWhole = false → 2 * window ≤ h.bytes.length + budget
  size : h.bytes.length ≤ 2 * needed content + budget
  enough : needed content ≤ budget → h.bytes.length ≤ budget
  reads : ∃ later, h.reads = later ++ [budget] ∧ ∀ n ∈ later, n ≤ ceiling

theorem within_first (content : Bytes) (budget ceiling : Nat) :
    Within content budget ceiling budget ((ofContent content).read budget) := by
  have hbytes : ((ofContent content).read budget).bytes = content.take budget := rfl
  have hwhole : ((ofContent content).read budget).isWhole = false →
      (content.take budget).length = budget := by
    intro hwhole
    have hnot : ¬ (content.take budget).length < budget := by
      simpa [ofContent, Head.read] using hwhole
    have := List.length_take_le budget content
    omega
  have hle : (content.take budget).length ≤ budget := List.length_take_le budget content
  constructor
  · exact (of_ofContent content).read budget
  · intro hopen
    rw [hbytes, hwhole hopen]
  · intro hopen
    rw [hbytes, hwhole hopen]
    omega
  · rw [hbytes]
    omega
  · intro _
    rw [hbytes]
    exact hle
  · exact ⟨[], rfl, by simp⟩

/-- **A further read stays within the bounds**, if the scan is undecided before it. -/
theorem Within.read (h' : h.Within content budget ceiling window) (hopen : h.isWhole = false)
    (hpending : Block.scan h.bytes false = .pending) :
    (h.read (min (window * 2) ceiling)).Within content budget ceiling
      (min (window * 2) ceiling) := by
  have hfull := h'.full hopen
  have hwindow := h'.window hopen
  have hnext : min (window * 2) ceiling ≤ window * 2 := Nat.min_le_left _ _
  have hceiling : min (window * 2) ceiling ≤ ceiling := Nat.min_le_right _ _
  generalize min (window * 2) ceiling = next at hnext hceiling
  have hlength : (h.read next).bytes.length = h.bytes.length + min next h.rest.length := by
    rw [Head.read, List.length_append, List.length_take]
  have hread : (h.read next).isWhole = false → next ≤ h.rest.length := by
    intro hwhole
    have hnot : ¬ min next h.rest.length < next := by
      simpa [Head.read, List.length_take] using hwhole
    omega
  constructor
  · exact h'.of.read next
  · intro _
    omega
  · intro hwhole
    have := hread hwhole
    omega
  · -- The scan was undecided: too little has been read, or there is no more to be read.
    rcases length_lt_needed h'.of hpending with hshort | hrest
    · omega
    · rw [hlength, hrest, List.length_nil, Nat.min_zero]
      exact h'.size
  · intro henough
    rcases length_lt_needed h'.of hpending with hshort | hrest
    · -- What was read is the first read at least, which would have been enough.
      omega
    · rw [hlength, hrest, List.length_nil, Nat.min_zero]
      exact h'.enough henough
  · obtain ⟨later, hlater, hbound⟩ := h'.reads
    refine ⟨next :: later, ?_, ?_⟩
    · show next :: h.reads = _
      rw [hlater, List.cons_append]
    · exact List.forall_mem_cons.2 ⟨hceiling, hbound⟩

/-- The search keeps to the bounds to its end. -/
theorem within_search (h' : h.Within content budget ceiling window) :
    ∃ last, (search ceiling window h).2.Within content budget ceiling last := by
  fun_induction search ceiling window h with
  | case1 window h hscan next hstop => exact ⟨window, h'⟩
  | case2 window h hscan next hgo ih =>
      have hopen : h.isWhole = false := by simpa using fun hwhole => hgo (.inr hwhole)
      rw [hopen] at hscan
      exact ih (h'.read hopen hscan)
  | case3 window h hdecided => exact ⟨window, h'⟩

end Head

/-- **Only the head of an item is read**: what is read is a head of the item, of at most twice the
bytes that it takes to decide and the first read; if the first read is enough, nothing is read
beyond it. No later read asks for more than the ceiling. -/
theorem readMetadata_consumes (id : String) (budget ceiling : Nat) (content : Bytes) :
    let head := (readMetadata id budget ceiling content).2
    head.bytes <+: content ∧
      head.bytes.length ≤ 2 * needed content + budget ∧
      (needed content ≤ budget → head.bytes.length ≤ budget) ∧
      ∃ later, head.reads = later ++ [budget] ∧ ∀ n ∈ later, n ≤ ceiling := by
  intro head
  obtain ⟨last, hwithin⟩ := Head.within_search (Head.within_first content budget ceiling)
  have hhead : head = (Head.search ceiling budget ((Head.ofContent content).read budget)).2 := rfl
  rw [← hhead] at hwithin
  exact ⟨⟨head.rest, hwithin.of.bytes⟩, hwithin.size, hwithin.enough, hwithin.reads⟩

/-- A block that closes in the third read, with the ceiling at six bytes. -/
example :
    let content : Bytes := "---\na: b\n---\nnot to be read".toUTF8.toList
    let head := (readMetadata "a.md" 4 6 content).2
    needed content = 13 ∧ head.reads = [6, 6, 4] ∧ head.bytes.length = 16 := by
  decide +kernel

end Winnow.Markup
