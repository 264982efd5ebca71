import Winnow.Proofs.Markup.Fences
import Winnow.Proofs.Pattern.Pieces
import Winnow.Regex.Reading

/-!
# Fences as expressions

A block can also be looked for with two expressions, one for the fence line that opens it and one
for the fence line that closes it; the second is tried at one place after the other, and matches
only from where a line begins to where it ends. This finds what the scan by lines finds
(`scanByExpressions_eq_scan`), so that both recognise the grammar of fences (`scan_eq_grammar`).
-/

namespace Winnow

namespace Regex

/-- The first place from `p` on at which an expression matches, and the place where it ends. -/
def Node.search (n : Node) (p : Place) : Option (Place × Place) :=
  match n.run p some with
  | some q => some (p, q)
  | none =>
    match _h : p.step? fun _ => true with
    | some p' => n.search p'
    | none => none
termination_by p.after.length
decreasing_by
  obtain ⟨c, rest, hp, -, rfl⟩ := Place.step?_eq_some_iff.1 _h
  simp [hp]

variable {n : Node} {p q : Place}

theorem run_some_eq (n : Node) (p : Place) : n.run p some = (n.ways p).head? := by
  rw [run_eq_findSome?, findSome?_some]

theorem Node.search_of_run (h : n.run p some = some q) : n.search p = some (p, q) := by
  rw [search, h]

/-- Where an expression does not match, the search goes on behind the next character. -/
theorem Node.search_of_not_run {c : Char} {rest : List Char} (h : n.run p some = none)
    (hp : p.after = c :: rest) :
    n.search p = n.search ⟨p.position + 1, c :: p.before, rest, p.groups⟩ := by
  have hstep : p.step? (fun _ => true) = some ⟨p.position + 1, c :: p.before, rest, p.groups⟩ :=
    Place.step?_eq_some_iff.2 ⟨c, rest, hp, rfl, rfl⟩
  rw [search, h]
  dsimp only
  split
  next p' hp' =>
    rw [hstep] at hp'
    cases hp'
    rfl
  next hp' =>
    rw [hstep] at hp'
    cases hp'

theorem Node.search_of_end (h : n.run p some = none) (hp : p.after = []) : n.search p = none := by
  rw [search, h]
  dsimp only
  split
  next p' hp' =>
    obtain ⟨c, rest, hcons, -⟩ := Place.step?_eq_some_iff.1 hp'
    rw [hp] at hcons
    cases hcons
  next => rfl

end Regex

namespace Markup

open Regex Fence

/-! ## The expressions -/

def blankNode : Node := .set ⟨false, false⟩ false [.range 0x20 0x20, .range 0x09 0x09]

/-- Hyphens, blanks and an optional carriage return, and then `last`. -/
def fenceBefore (last : Node) : Node :=
  .seq (.char '-') (.seq (.char '-') (.seq (.char '-')
    (.seq (.loop .greedy 0 none blankNode) (.seq (Pattern.optionally (.char '\r')) last))))

/-- The fence line that opens a block. -/
def openingNode : Node := fenceBefore (.char '\n')

/-- A fence line that closes a block. -/
def closingNode : Node := .seq (.anchor .lineStart) (fenceBefore (.anchor .lineEnd))

example : (Regex.read "---[ \\t]*\\r?\\n".toList).toOption = some openingNode := by decide +kernel

example : (Regex.read "(?m:^---[ \\t]*\\r?$)".toList).toOption = some closingNode := by
  decide +kernel

/-! ## What they take -/

/-- The text of a fence line. -/
def IsFenceText (t : List Char) : Prop :=
  ∃ blanks ending, t = '-' :: '-' :: '-' :: (blanks ++ ending) ∧
    (∀ c ∈ blanks, c = ' ' ∨ c = '\t') ∧ (ending = [] ∨ ending = ['\r'])

section Takes

variable {n last : Node} {p q : Place} {c : Char} {t rest : List Char}

theorem mem_ways_anchor {a : Anchor} : q ∈ (Node.anchor a).ways p ↔ a.holds p = true ∧ q = p := by
  rw [Node.ways]
  split <;> simp_all

theorem takes_of_mem_ways_seq_char (h : q ∈ (Node.seq (.char c) n).ways p) :
    ∃ m, p.Takes [c] m ∧ q ∈ n.ways m := by
  obtain ⟨m, hm, hq⟩ := List.mem_flatMap.1 h
  obtain ⟨d, hd, hpm⟩ := Pattern.takes_of_step? (Option.mem_toList.1 hm)
  exact ⟨m, beq_iff_eq.1 hd ▸ hpm, hq⟩

theorem exists_mem_ways_seq_char (hp : p.after = c :: rest) :
    ∃ m, p.Takes [c] m ∧ m.after = rest ∧ ∀ q ∈ n.ways m, q ∈ (Node.seq (.char c) n).ways p := by
  obtain ⟨m, hm, hpm, hrest⟩ := Pattern.exists_step? (· == c) hp (beq_self_eq_true c)
  exact ⟨m, hpm, hrest, fun q hq => List.mem_flatMap.2 ⟨m, Option.mem_toList.2 hm, hq⟩⟩

theorem inSet_blank_iff :
    (inSet ⟨false, false⟩ [.range 0x20 0x20, .range 0x09 0x09] c != false) = true ↔
      c = ' ' ∨ c = '\t' := by
  have hchar : ∀ d : Char, c = d ↔ d.toNat ≤ c.toNat ∧ c.toNat ≤ d.toNat := by
    intro d
    rw [← Nat.le_antisymm_iff, eq_comm (a := d.toNat)]
    exact ⟨fun h => h ▸ rfl, fun h => Char.ext (UInt32.toNat_inj.1 h)⟩
  rw [hchar ' ', hchar '\t']
  simp [inSet, Mode.variants]

theorem ways_blanks (p : Place) : (Node.loop .greedy 0 none blankNode).ways p =
    loopWays .greedy (fun p => (p.step? fun c =>
      inSet ⟨false, false⟩ [.range 0x20 0x20, .range 0x09 0x09] c != false).toList) none
      (p.after.length + 2) 0 none p := by
  rw [Node.ways, repeatWays, List.flatMap_singleton]
  rfl

theorem fence_of_mem_ways (h : q ∈ (fenceBefore last).ways p) :
    ∃ t m, IsFenceText t ∧ p.Leads t m ∧ q ∈ last.ways m := by
  obtain ⟨p₁, h₁, h⟩ := takes_of_mem_ways_seq_char h
  obtain ⟨p₂, h₂, h⟩ := takes_of_mem_ways_seq_char h
  obtain ⟨p₃, h₃, h⟩ := takes_of_mem_ways_seq_char h
  obtain ⟨p₄, h₄, h⟩ := List.mem_flatMap.1 h
  obtain ⟨p₅, h₅, h⟩ := List.mem_flatMap.1 h
  rw [ways_blanks] at h₄
  obtain ⟨blanks, hblanks, h₄⟩ := Pattern.takes_of_mem_loopWays h₄
  have hblank : ∀ c ∈ blanks, c = ' ' ∨ c = '\t' := fun c hc =>
    inSet_blank_iff.1 (List.all_eq_true.1 hblanks c hc)
  obtain ⟨ending, hending, h₅⟩ : ∃ ending, (ending = [] ∨ ending = ['\r']) ∧ p₄.Takes ending p₅ := by
    rw [Pattern.ways_optionally] at h₅
    rcases List.mem_append.1 h₅ with h₅ | h₅
    · obtain ⟨d, hd, h₅⟩ := Pattern.takes_of_step? (Option.mem_toList.1 h₅)
      exact ⟨[d], .inr (by rw [beq_iff_eq.1 hd]), h₅⟩
    · exact ⟨[], .inl rfl, List.mem_singleton.1 h₅ ▸ .refl p₄⟩
  refine ⟨_, p₅, ⟨blanks, ending, rfl, hblank, hending⟩, ?_, h⟩
  exact (h₁.trans (h₂.trans (h₃.trans (h₄.trans h₅)))).leads

theorem exists_mem_ways_blanks {blanks : List Char} (hblanks : ∀ c ∈ blanks, c = ' ' ∨ c = '\t')
    (hp : p.after = blanks ++ rest) :
    ∃ m ∈ (Node.loop .greedy 0 none blankNode).ways p, p.Leads blanks m ∧ m.after = rest := by
  have hfuel : blanks.length < p.after.length + 2 := by
    rw [hp, List.length_append]
    omega
  rw [ways_blanks]
  obtain ⟨m, hm, hrest⟩ := Pattern.exists_mem_loopWays .greedy 0 none
    (List.all_eq_true.2 fun c hc => inSet_blank_iff.2 (hblanks c hc)) hp hfuel (by simp)
  obtain ⟨v, -, hpm⟩ := Pattern.takes_of_mem_loopWays hm
  have hv : v = blanks := by
    have hafter := hpm.leads.after
    rw [hp, hrest] at hafter
    exact (List.append_cancel_right hafter).symm
  exact ⟨m, hm, hv ▸ hpm.leads, hrest⟩

theorem exists_mem_ways_ending {ending : List Char} (hending : ending = [] ∨ ending = ['\r'])
    (hp : p.after = ending ++ rest) :
    ∃ m ∈ (Pattern.optionally (.char '\r')).ways p, p.Leads ending m ∧ m.after = rest := by
  rw [Pattern.ways_optionally]
  rcases hending with rfl | rfl
  · exact ⟨p, List.mem_append_right _ (List.mem_singleton_self p), .refl p, hp⟩
  · obtain ⟨m, hm, hpm, hrest⟩ := Pattern.exists_step? (· == '\r') hp (beq_self_eq_true _)
    exact ⟨m, List.mem_append_left _ (Option.mem_toList.2 hm), hpm.leads, hrest⟩

theorem exists_mem_ways_fence (ht : IsFenceText t) (hp : p.after = t ++ rest) :
    ∃ m, p.Leads t m ∧ m.after = rest ∧ ∀ q ∈ last.ways m, q ∈ (fenceBefore last).ways p := by
  obtain ⟨blanks, ending, rfl, hblanks, hending⟩ := ht
  obtain ⟨p₁, h₁, ha₁, hways₁⟩ := exists_mem_ways_seq_char hp
  obtain ⟨p₂, h₂, ha₂, hways₂⟩ := exists_mem_ways_seq_char ha₁
  obtain ⟨p₃, h₃, ha₃, hways₃⟩ := exists_mem_ways_seq_char ha₂
  rw [List.append_eq, List.append_assoc] at ha₃
  obtain ⟨p₄, hm₄, h₄, ha₄⟩ := exists_mem_ways_blanks hblanks ha₃
  obtain ⟨p₅, hm₅, h₅, ha₅⟩ := exists_mem_ways_ending hending ha₄
  refine ⟨p₅, h₁.leads.trans (h₂.leads.trans (h₃.leads.trans (h₄.trans h₅))), ha₅, fun q hq => ?_⟩
  refine hways₁ q (hways₂ q (hways₃ q ?_))
  exact List.mem_flatMap.2 ⟨p₄, hm₄, List.mem_flatMap.2 ⟨p₅, hm₅, hq⟩⟩

end Takes

/-! ## Bytes as characters -/

/-- Each byte stands for the character with its number. -/
def chars (bs : Bytes) : List Char := bs.map Char.ofUInt8

theorem ofUInt8_inj {b b' : UInt8} : Char.ofUInt8 b = Char.ofUInt8 b' ↔ b = b' := by
  constructor
  · intro h
    have hnat := congrArg (fun c : Char => c.val.toNat) h
    exact UInt8.toNat_inj.1 (by simpa [Char.ofUInt8] using hnat)
  · rintro rfl
    rfl

theorem isFenceText_chars {l : Bytes} : IsFenceText (chars l) ↔ IsFenceLine l := by
  constructor
  · rintro ⟨blanks, ending, hl, hblanks, hending⟩
    obtain ⟨b₁, l₁, rfl, h₁, hl⟩ := List.map_eq_cons_iff.1 hl
    obtain ⟨b₂, l₂, rfl, h₂, hl⟩ := List.map_eq_cons_iff.1 hl
    obtain ⟨b₃, l₃, rfl, h₃, hl⟩ := List.map_eq_cons_iff.1 hl
    obtain ⟨bs, es, rfl, rfl, rfl⟩ := List.map_eq_append_iff.1 hl
    obtain rfl : b₁ = 0x2D := ofUInt8_inj.1 h₁
    obtain rfl : b₂ = 0x2D := ofUInt8_inj.1 h₂
    obtain rfl : b₃ = 0x2D := ofUInt8_inj.1 h₃
    refine ⟨bs, es, rfl, fun b hb => ?_, ?_⟩
    · rcases hblanks _ (List.mem_map_of_mem hb) with h | h
      · exact .inl (ofUInt8_inj.1 h)
      · exact .inr (ofUInt8_inj.1 h)
    · rcases hending with h | h
      · exact .inl (List.map_eq_nil_iff.1 h)
      · obtain ⟨e, rfl, he⟩ := List.map_eq_singleton_iff.1 h
        obtain rfl : e = 0x0D := ofUInt8_inj.1 he
        exact .inr rfl
  · rintro ⟨blanks, ending, rfl, hblanks, hending⟩
    refine ⟨chars blanks, chars ending, by simp [chars]; decide, fun c hc => ?_, ?_⟩
    · obtain ⟨b, hb, rfl⟩ := List.mem_map.1 hc
      rcases hblanks b hb with rfl | rfl
      · exact .inl rfl
      · exact .inr rfl
    · rcases hending with rfl | rfl
      · exact .inl rfl
      · exact .inr rfl

/-- Where a text of characters is cut, the bytes are. -/
theorem exists_split_of_chars {bs : Bytes} {t r : List Char} (h : chars bs = t ++ r) :
    ∃ l rest, bs = l ++ rest ∧ chars l = t ∧ chars rest = r :=
  List.map_eq_append_iff.1 h

theorem chars_eq_lineFeed_cons {bs : Bytes} {r : List Char} (h : chars bs = '\n' :: r) :
    ∃ rest, bs = lineFeed :: rest ∧ chars rest = r := by
  obtain ⟨b, rest, rfl, hb, hrest⟩ := List.map_eq_cons_iff.1 h
  obtain rfl : b = lineFeed := ofUInt8_inj.1 hb
  exact ⟨rest, rfl, hrest⟩

/-! ## The expressions at a place of an item -/

section Places

variable {p q : Place} {bs l rest : Bytes}

/-- The opening expression takes a fence line with its line feed. -/
theorem opening_of_mem_ways (h : q ∈ openingNode.ways p) (hp : p.after = chars bs) :
    ∃ l rest, IsFenceLine l ∧ bs = l ++ lineFeed :: rest ∧ q.after = chars rest ∧
      q.position = p.position + l.length + 1 ∧ q.before.head? = some '\n' := by
  obtain ⟨t, m, ht, hpm, hq⟩ := fence_of_mem_ways h
  obtain ⟨c, r, hm, hc, rfl⟩ := Place.step?_eq_some_iff.1 (Option.mem_toList.1 hq)
  obtain rfl : c = '\n' := beq_iff_eq.1 hc
  obtain ⟨l, rest, rfl, rfl, hrest⟩ := exists_split_of_chars (hp ▸ hpm.after)
  rw [hm] at hrest
  obtain ⟨rest, rfl, hr⟩ := chars_eq_lineFeed_cons hrest
  refine ⟨l, rest, isFenceText_chars.1 ht, rfl, hr.symm, ?_, rfl⟩
  rw [hpm.position, chars, List.length_map]

theorem exists_mem_ways_opening (hl : IsFenceLine l) (hp : p.after = chars (l ++ lineFeed :: rest)) :
    ∃ q, q ∈ openingNode.ways p := by
  rw [chars, List.map_append] at hp
  obtain ⟨m, -, hm, hways⟩ := exists_mem_ways_fence (isFenceText_chars.2 hl) hp
  obtain ⟨q, hq, -⟩ := Pattern.exists_step? (· == '\n') hm (by decide)
  exact ⟨q, hways q (Option.mem_toList.2 hq)⟩

theorem mem_ways_closing : q ∈ closingNode.ways p ↔
    Anchor.lineStart.holds p = true ∧ q ∈ (fenceBefore (.anchor .lineEnd)).ways p := by
  rw [closingNode, Node.ways, List.mem_flatMap]
  constructor
  · rintro ⟨p', hp', hq⟩
    obtain ⟨hstart, rfl⟩ := mem_ways_anchor.1 hp'
    exact ⟨hstart, hq⟩
  · rintro ⟨hstart, hq⟩
    exact ⟨p, mem_ways_anchor.2 ⟨hstart, rfl⟩, hq⟩

/-- The closing expression takes a fence line that begins and ends where lines do. -/
theorem closing_of_mem_ways (h : q ∈ closingNode.ways p) (hp : p.after = chars bs) :
    Anchor.lineStart.holds p = true ∧ ∃ l rest, IsFenceLine l ∧ bs = l ++ rest ∧
      (rest = [] ∨ ∃ body, rest = lineFeed :: body) ∧ q.position = p.position + l.length := by
  obtain ⟨hstart, h⟩ := mem_ways_closing.1 h
  obtain ⟨t, m, ht, hpm, hq⟩ := fence_of_mem_ways h
  obtain ⟨hend, rfl⟩ := mem_ways_anchor.1 hq
  obtain ⟨l, rest, rfl, rfl, hrest⟩ := exists_split_of_chars (hp ▸ hpm.after)
  refine ⟨hstart, l, rest, isFenceText_chars.1 ht, rfl, ?_, ?_⟩
  · rw [Anchor.holds, ← hrest, Bool.or_eq_true, List.isEmpty_iff, beq_iff_eq] at hend
    rcases hend with hend | hend
    · exact .inl (List.map_eq_nil_iff.1 hend)
    · obtain ⟨r, hr⟩ := List.head?_eq_some_iff.1 hend
      obtain ⟨body, rfl, -⟩ := chars_eq_lineFeed_cons hr
      exact .inr ⟨body, rfl⟩
  · rw [hpm.position, chars, List.length_map]

theorem exists_mem_ways_closing (hstart : Anchor.lineStart.holds p = true) (hl : IsFenceLine l)
    (hrest : rest = [] ∨ ∃ body, rest = lineFeed :: body) (hp : p.after = chars (l ++ rest)) :
    ∃ q, q ∈ closingNode.ways p := by
  rw [chars, List.map_append] at hp
  obtain ⟨m, -, hm, hways⟩ :=
    @exists_mem_ways_fence (.anchor .lineEnd) p _ _ (isFenceText_chars.2 hl) hp
  have hend : Anchor.lineEnd.holds m = true := by
    rw [Anchor.holds, hm]
    rcases hrest with rfl | ⟨body, rfl⟩
    · rfl
    · exact Bool.or_eq_true_iff.2 (.inr (beq_self_eq_true _))
  exact ⟨m, mem_ways_closing.2 ⟨hstart, hways m (mem_ways_anchor.2 ⟨hend, rfl⟩)⟩⟩

end Places

/-! ## Searching line by line -/

section Searching

variable {p : Place} {bs l rest : Bytes} {b : UInt8}

theorem run_closing_of_isFenceLine (hstart : Anchor.lineStart.holds p = true) (hl : IsFenceLine l)
    (hrest : rest = [] ∨ ∃ body, rest = lineFeed :: body) (hp : p.after = chars (l ++ rest)) :
    ∃ q, closingNode.run p some = some q ∧ q.position = p.position + l.length := by
  rw [run_some_eq]
  cases hways : closingNode.ways p with
  | nil =>
      obtain ⟨q, hq⟩ := exists_mem_ways_closing hstart hl hrest hp
      rw [hways] at hq
      cases hq
  | cons q qs =>
      -- Every way takes the line, and nothing but the line.
      obtain ⟨-, l', rest', hl', hsplit, hrest', hposition⟩ :=
        closing_of_mem_ways (hways ▸ List.mem_cons_self) hp
      have hline := line_of_isFenceLine hl hrest
      rw [hsplit, line_of_isFenceLine hl' hrest'] at hline
      exact ⟨q, rfl, hline ▸ hposition⟩

theorem run_closing_of_not_isFenceLine (hl : ¬ IsFenceLine (line bs)) (hp : p.after = chars bs) :
    closingNode.run p some = none := by
  rw [run_some_eq, List.head?_eq_none_iff, List.eq_nil_iff_forall_not_mem]
  intro q hq
  obtain ⟨-, l, rest, hfence, rfl, hrest, -⟩ := closing_of_mem_ways hq hp
  rw [line_of_isFenceLine hfence hrest] at hl
  exact hl hfence

/-- Where no line begins, no fence line closes a block. -/
theorem run_closing_of_not_lineStart (h : Anchor.lineStart.holds p = false) :
    closingNode.run p some = none := by
  rw [closingNode, Node.run, Node.run, h]
  rfl

/-- The place behind the first byte. -/
def behind (p : Place) (b : UInt8) (bs : Bytes) : Place :=
  ⟨p.position + 1, Char.ofUInt8 b :: p.before, chars bs, p.groups⟩

theorem lineStart_behind : Anchor.lineStart.holds (behind p b bs) = (b == lineFeed) := by
  have hlf : Char.ofUInt8 b = '\n' ↔ b = lineFeed :=
    @ofUInt8_inj b lineFeed
  rw [Bool.eq_iff_iff, beq_iff_eq, ← hlf]
  simp [Anchor.holds, behind]

theorem search_behind (hp : p.after = chars (b :: bs)) (hnone : closingNode.run p some = none) :
    closingNode.search p = closingNode.search (behind p b bs) :=
  Node.search_of_not_run hnone hp

theorem run_closing_behind (hb : b ≠ lineFeed) : closingNode.run (behind p b bs) some = none := by
  refine run_closing_of_not_lineStart ?_
  rw [lineStart_behind]
  exact beq_eq_false_iff_ne.2 hb

/-- A line that is no fence is passed over. -/
theorem search_closing_of_line (hl : lineFeed ∉ l) (hp : p.after = chars (l ++ lineFeed :: rest))
    (hnone : closingNode.run p some = none) : ∃ p', closingNode.search p = closingNode.search p' ∧
      Anchor.lineStart.holds p' = true ∧ p'.after = chars rest ∧
      p'.position = p.position + l.length + 1 := by
  induction l generalizing p with
  | nil => exact ⟨_, search_behind hp hnone, lineStart_behind, rfl, rfl⟩
  | cons b l ih =>
      rw [List.mem_cons, not_or] at hl
      obtain ⟨p', hsearch, hstart, hafter, hposition⟩ :=
        ih hl.2 rfl (run_closing_behind (p := p) (Ne.symm hl.1))
      refine ⟨p', (search_behind hp hnone).trans hsearch, hstart, hafter, ?_⟩
      have hmoved : (behind p b (l ++ lineFeed :: rest)).position = p.position + 1 := rfl
      rw [hposition, hmoved, List.length_cons]
      omega

theorem search_closing_of_last (hl : lineFeed ∉ l) (hp : p.after = chars l)
    (hnone : closingNode.run p some = none) : closingNode.search p = none := by
  induction l generalizing p with
  | nil => exact Node.search_of_end hnone hp
  | cons b l ih =>
      rw [List.mem_cons, not_or] at hl
      rw [search_behind hp hnone]
      exact ih hl.2 rfl (run_closing_behind (Ne.symm hl.1))

/-- **The search finds the first fence line.** -/
theorem search_closing {p : Place} {bs : Bytes} (hstart : Anchor.lineStart.holds p = true)
    (hp : p.after = chars bs) :
    (closingNode.search p).map (fun e => (e.1.position, e.2.position)) = find? p.position bs := by
  by_cases hlf : lineFeed ∈ bs
  · obtain ⟨l, rest, rfl, hl⟩ := List.eq_append_cons_of_mem hlf
    by_cases hfence : IsFenceLine l
    · have hends : lineFeed :: rest = [] ∨ ∃ body, lineFeed :: rest = lineFeed :: body :=
        .inr ⟨rest, rfl⟩
      obtain ⟨q, hq, hposition⟩ := run_closing_of_isFenceLine hstart hfence hends hp
      rw [Node.search_of_run hq, find?_of_isFenceLine hfence _ hends, Option.map_some, hposition]
    · have hnone : closingNode.run p some = none :=
        run_closing_of_not_isFenceLine (by rwa [line_of_split hl]) hp
      obtain ⟨p', hsearch, hstart', hafter, hposition⟩ := search_closing_of_line hl hp hnone
      rw [hsearch, search_closing hstart' hafter, hposition,
        @find?_of_ne_nil (l ++ lineFeed :: rest) (by simp), line_of_split hl,
        if_neg (mt isFence_iff.1 hfence), afterLine_of_split hl]
  · by_cases hfence : IsFenceLine bs
    · rw [← List.append_nil bs] at hp ⊢
      obtain ⟨q, hq, hposition⟩ := run_closing_of_isFenceLine hstart hfence (.inl rfl) hp
      rw [Node.search_of_run hq, find?_of_isFenceLine hfence _ (.inl rfl), Option.map_some,
        hposition]
    · have hnone : closingNode.run p some = none :=
        run_closing_of_not_isFenceLine (by rwa [line_eq_self hlf]) hp
      rw [search_closing_of_last hlf hp hnone, find?_of_not_isFenceLine hlf hfence]
      rfl
termination_by bs.length
decreasing_by
  simp_all
  omega

end Searching

/-! ## The scan by expressions -/

/-- The scan of an item with one expression for each fence line. -/
def Block.scanByExpressions (bs : Bytes) (isWhole : Bool) : Block :=
  if !dashes.isPrefixOf bs && !bs.isPrefixOf dashes then .absent
  else if !bs.contains lineFeed && !isWhole then .pending
  else
    match openingNode.run (.start (chars bs)) some with
    | none => .absent
    | some opening =>
      match closingNode.search opening with
      | none => .pending
      | some (first, last) =>
        if last.position == bs.length && !isWhole then .pending
        else .closed opening.position first.position
          (if bs[last.position]? = some lineFeed then last.position + 1 else last.position)

namespace Block

theorem mayOpen_eq (bs : Bytes) : mayOpen bs = (dashes.isPrefixOf bs || bs.isPrefixOf dashes) := by
  rcases bs with _ | ⟨a, _ | ⟨b, _ | ⟨c, bs⟩⟩⟩ <;> simp [mayOpen, dashes, List.isPrefixOf]
  rw [Bool.eq_iff_iff]
  simp only [Bool.and_eq_true, Bool.or_eq_true, beq_iff_eq, @eq_comm _ hyphen]
  tauto

/-- The opening expression matches where a fence line opens the item, and nowhere else. -/
theorem run_opening_of_no_opening {bs : Bytes}
    (h : ¬ ∃ l rest, IsFenceLine l ∧ bs = l ++ lineFeed :: rest) :
    openingNode.run (.start (chars bs)) some = none := by
  rw [run_some_eq, List.head?_eq_none_iff, List.eq_nil_iff_forall_not_mem]
  intro q hq
  obtain ⟨l, rest, hl, hsplit, -⟩ := opening_of_mem_ways hq rfl
  exact h ⟨l, rest, hl, hsplit⟩

theorem run_opening_of_opening {l : Bytes} (hl : IsFenceLine l) (rest : Bytes) :
    ∃ q, openingNode.run (.start (chars (l ++ lineFeed :: rest))) some = some q ∧
      q.after = chars rest ∧ q.position = l.length + 1 ∧ Anchor.lineStart.holds q = true := by
  rw [run_some_eq]
  cases hways : openingNode.ways (.start (chars (l ++ lineFeed :: rest))) with
  | nil =>
      obtain ⟨q, hq⟩ :=
        @exists_mem_ways_opening (.start (chars (l ++ lineFeed :: rest))) l rest hl rfl
      rw [hways] at hq
      cases hq
  | cons q qs =>
      obtain ⟨l', rest', hl', hsplit, hafter, hposition, hbefore⟩ :=
        opening_of_mem_ways (hways ▸ List.mem_cons_self) rfl
      have hline : line (l ++ lineFeed :: rest) = l := line_of_split hl.not_mem
      have hrest : afterLine (l ++ lineFeed :: rest) = rest := afterLine_of_split hl.not_mem
      rw [hsplit, line_of_split hl'.not_mem] at hline
      rw [hsplit, afterLine_of_split hl'.not_mem] at hrest
      subst hline hrest
      refine ⟨q, rfl, hafter, by rw [hposition]; simp [Place.start], ?_⟩
      rw [Anchor.holds, hbefore]
      simp

theorem scanByExpressions_of_opening {l : Bytes} (hl : IsFenceLine l) (rest : Bytes)
    (isWhole : Bool) :
    scanByExpressions (l ++ lineFeed :: rest) isWhole = scan (l ++ lineFeed :: rest) isWhole := by
  have hopen : mayOpen (l ++ lineFeed :: rest) = true := by
    refine mayOpen_of_isFence ?_
    rw [line_of_split hl.not_mem]
    exact isFence_iff.2 hl
  obtain ⟨opening, hrun, hafter, hposition, hstart⟩ := run_opening_of_opening hl rest
  have hsearch := search_closing hstart hafter
  rw [hposition] at hsearch
  rw [scan_of_opening hl, scanByExpressions, ← Bool.not_or, ← mayOpen_eq, hopen, hrun]
  simp only [Bool.not_true, Bool.false_eq_true, if_false, hposition,
    List.contains_iff_mem.2 (List.mem_append_right l List.mem_cons_self), Bool.false_and]
  cases hfind : find? (l.length + 1) rest with
  | none =>
      rw [hfind, Option.map_eq_none_iff] at hsearch
      rw [hsearch]
  | some found =>
      obtain ⟨stop, last⟩ := found
      rw [hfind] at hsearch
      obtain ⟨⟨first, final⟩, hfound, he⟩ := Option.map_eq_some_iff.1 hsearch
      obtain ⟨rfl, rfl⟩ := Prod.mk.inj he
      obtain ⟨hle, hends⟩ := find?_ends hfind
      have hlength : (l ++ lineFeed :: rest).length = l.length + 1 + rest.length := by
        rw [List.length_append, List.length_cons]
        omega
      rw [hfound]
      dsimp only at hle hends ⊢
      -- The closing fence ends the bytes, or a line feed stands behind it.
      by_cases hlast : final.position = (l ++ lineFeed :: rest).length
      · have hover : (l ++ lineFeed :: rest)[final.position]? = none :=
          List.getElem?_eq_none (Nat.le_of_eq hlast.symm)
        rw [hover, if_pos hlast]
        cases isWhole <;> simp [hlast]
      · have hfeed : (l ++ lineFeed :: rest)[final.position]? = some lineFeed := by
          rw [← hends.resolve_left (fun he => hlast (he.trans hlength.symm)), List.append_cons,
            List.getElem?_append_right (by simpa using hle)]
          simp
        rw [hfeed, if_neg hlast, beq_eq_false_iff_ne.2 hlast]
        simp

/-- **Both scans find the same block**, in the head of an item as in all of it. -/
theorem scanByExpressions_eq_scan (bs : Bytes) (isWhole : Bool) :
    scanByExpressions bs isWhole = scan bs isWhole := by
  by_cases hopening : ∃ l rest, IsFenceLine l ∧ bs = l ++ lineFeed :: rest
  · obtain ⟨l, rest, hl, rfl⟩ := hopening
    exact scanByExpressions_of_opening hl rest isWhole
  · rw [scanByExpressions, ← Bool.not_or, ← mayOpen_eq, run_opening_of_no_opening hopening]
    by_cases hopen : mayOpen bs = true
    · by_cases hlf : lineFeed ∈ bs
      · obtain ⟨l, rest, rfl, hl⟩ := List.eq_append_cons_of_mem hlf
        have hplain : ¬ isFence (line (l ++ lineFeed :: rest)) = true := by
          rw [line_of_split hl, isFence_iff]
          exact fun hfence => hopening ⟨l, rest, hfence, rfl⟩
        rw [scan_of_not_isFence hlf hplain]
        simp [hopen, hlf]
      · cases isWhole with
        | true =>
            rw [scan_of_no_opening hopening]
            simp [hopen]
        | false =>
            rw [scan_of_not_mem hopen hlf]
            simp [hopen, hlf]
    · rw [scan_of_not_mayOpen hopen]
      simp [hopen]

end Block

/-- **The scan of a whole item recognises the grammar of fences**, by expressions as by lines. No
block: the item does not begin with a fence line that a line feed ends. A block that does not close:
it does, and none of the lines that follow is a fence. A closed block: its three places cut the item
into the opening fence line, complete lines that are no fences, the fence line that closes, and the
body. -/
theorem scan_eq_grammar (d : Bytes) :
    Block.scanByExpressions d true = Block.scan d true ∧
    (Block.scan d true = .absent ↔ ¬ ∃ l rest, IsFenceLine l ∧ d = l ++ lineFeed :: rest) ∧
    (Block.scan d true = .pending ↔ ∃ l inner last, IsFenceLine l ∧ PlainLines inner ∧
      lineFeed ∉ last ∧ ¬ IsFenceLine last ∧ d = (l ++ [lineFeed]) ++ inner ++ last) ∧
    ∀ start stop body, Block.scan d true = .closed start stop body ↔
      ∃ l inner l' ending rest, IsFenceLine l ∧ PlainLines inner ∧ IsFenceLine l' ∧
        (ending = [lineFeed] ∨ ending = [] ∧ rest = []) ∧
        d = (l ++ [lineFeed]) ++ inner ++ (l' ++ ending) ++ rest ∧
        start = (l ++ [lineFeed]).length ∧ stop = start + inner.length ∧
        body = stop + (l' ++ ending).length :=
  ⟨Block.scanByExpressions_eq_scan d true, scan_eq_iff_divided.trans divided_absent_iff,
    scan_eq_iff_divided.trans divided_pending_iff,
    fun _ _ _ => scan_eq_iff_divided.trans divided_closed_iff⟩

end Markup

end Winnow
