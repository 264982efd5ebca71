import Winnow.Proofs.Regex.Excerpts
import Winnow.Proofs.Regex.Locality

/-!
# Cutting off the text behind

What a local expression takes in the middle of a text, does it also take when the text ends there?
Not when a settled part, an atomic group or a possessive repetition, stands inside another: the
inner one may settle for less once the text behind is gone, the outer one is content with that and
never tries what it took before. It does when settled parts are not nested, because the expression
is then portable (`isSome_fullMatch_of_mem_rests`). And what it takes alone, it also takes before
any text if it settles nothing, because it is then plain (`mem_rests_append`).
-/

namespace Winnow.Regex

/-- Whether something inside an expression is settled before what follows is tried. -/
def Node.settles : Node → Bool
  | .seq a b => a.settles || b.settles
  | .alt a b => a.settles || b.settles
  | .group _ a => a.settles
  | .condition _ a b => a.settles || b.settles
  | .ahead _ _ => true
  | .behind _ _ _ => true
  | .atomic _ => true
  | .loop .possessive _ _ _ => true
  | .loop _ _ _ a => a.settles
  | _ => false

/-- Whether settled parts are not nested. -/
def Node.settlesFlat : Node → Bool
  | .seq a b => a.settlesFlat && b.settlesFlat
  | .alt a b => a.settlesFlat && b.settlesFlat
  | .group _ a => a.settlesFlat
  | .condition _ a b => a.settlesFlat && b.settlesFlat
  | .ahead _ a => !a.settles
  | .behind _ _ a => !a.settles
  | .atomic a => !a.settles
  | .loop .possessive _ _ a => !a.settles
  | .loop _ _ _ a => a.settlesFlat
  | _ => true

theorem settlesFlat_of_settles {n : Node} (h : n.settles = false) : n.settlesFlat = true := by
  induction n with
  | seq a b iha ihb =>
      rw [Node.settles, Bool.or_eq_false_iff] at h
      rw [Node.settlesFlat, iha h.1, ihb h.2, Bool.and_self]
  | alt a b iha ihb =>
      rw [Node.settles, Bool.or_eq_false_iff] at h
      rw [Node.settlesFlat, iha h.1, ihb h.2, Bool.and_self]
  | condition i a b iha ihb =>
      rw [Node.settles, Bool.or_eq_false_iff] at h
      rw [Node.settlesFlat, iha h.1, ihb h.2, Bool.and_self]
  | group i a ih => exact ih h
  | loop greed least most a ih =>
      cases greed with
      | possessive => cases h
      | _ => exact ih h
  | atomic a ih => cases h
  | ahead negated a ih => cases h
  | behind negated w a ih => cases h
  | _ => rfl

theorem isPlain_of_isLocal {n : Node} (hl : n.isLocal = true) (hs : n.settles = false) :
    n.isPlain = true := by
  induction n with
  | seq a b iha ihb =>
      rw [Node.isLocal, Bool.and_eq_true] at hl
      rw [Node.settles, Bool.or_eq_false_iff] at hs
      rw [Node.isPlain, iha hl.1 hs.1, ihb hl.2 hs.2, Bool.and_self]
  | alt a b iha ihb =>
      rw [Node.isLocal, Bool.and_eq_true] at hl
      rw [Node.settles, Bool.or_eq_false_iff] at hs
      rw [Node.isPlain, iha hl.1 hs.1, ihb hl.2 hs.2, Bool.and_self]
  | group i a ih => exact ih hl hs
  | loop greed least most a ih =>
      cases greed with
      | possessive => cases hs
      | _ => exact ih hl hs
  | atomic a ih => cases hs
  | anchor a => cases hl
  | condition i a b iha ihb => cases hl
  | ahead negated a ih => cases hl
  | behind negated w a ih => cases hl
  | _ => rfl

theorem isPortable_of_isLocal {n : Node} (hl : n.isLocal = true) (hn : n.settlesFlat = true) :
    n.isPortable = true := by
  induction n with
  | seq a b iha ihb =>
      rw [Node.isLocal, Bool.and_eq_true] at hl
      rw [Node.settlesFlat, Bool.and_eq_true] at hn
      rw [Node.isPortable, iha hl.1 hn.1, ihb hl.2 hn.2, Bool.and_self]
  | alt a b iha ihb =>
      rw [Node.isLocal, Bool.and_eq_true] at hl
      rw [Node.settlesFlat, Bool.and_eq_true] at hn
      rw [Node.isPortable, iha hl.1 hn.1, ihb hl.2 hn.2, Bool.and_self]
  | group i a ih => exact ih hl hn
  | atomic a ih =>
      rw [Node.settlesFlat, Bool.not_eq_true'] at hn
      exact isPlain_of_isLocal hl hn
  | loop greed least most a ih =>
      cases greed with
      | possessive =>
          rw [Node.settlesFlat, Bool.not_eq_true'] at hn
          exact isPlain_of_isLocal hl hn
      | _ => exact ih hl hn
  | anchor a => cases hl
  | condition i a b iha ihb => cases hl
  | ahead negated a ih => cases hl
  | behind negated w a ih => cases hl
  | _ => rfl

/-! ## Texts with something behind them -/

/-- What a local expression leaves of a text is left at the end of one of its ways. -/
theorem exists_mem_ways_of_mem_rests {n : Node} (hl : n.isLocal = true) {text rest : List Char}
    (h : rest ∈ n.rests text) : ∃ q ∈ n.ways (.start text), q.after = rest := by
  have hways : (n.ways (.start text)).map Place.after = n.rests text :=
    map_after_ways hl (.start text)
  rw [← hways] at h
  exact List.mem_map.1 h

/-- **Without settled parts what is taken alone is taken before any text.** -/
theorem mem_rests_append {n : Node} (hl : n.isLocal = true) (hs : n.settles = false)
    (v : List Char) {s : List Char} (h : [] ∈ n.rests s) : v ∈ n.rests (s ++ v) := by
  let e : Excerpt := ⟨s.length, [], v, 0, 0⟩
  have hstart : e.Shows (.start s) (.start (s ++ v)) :=
    ⟨rfl, rfl, rfl, rfl, Nat.zero_add _, fun _ => rfl⟩
  have hkeeps := keeps_ways (isPlain_of_isLocal hl hs) hstart
  obtain ⟨q, hq, hend⟩ := exists_mem_ways_of_mem_rests hl h
  obtain ⟨u, hu, hqu⟩ := hkeeps.exists_of_mem_left hq
  rw [renumber_add_zero] at hu
  have hways : (n.ways (.start (s ++ v))).map Place.after = n.rests (s ++ v) :=
    map_after_ways hl (.start (s ++ v))
  rw [← hways]
  refine List.mem_map.2 ⟨u, hu, ?_⟩
  rw [hqu.after, hend]
  rfl

/-- **A value that a constraint takes in the middle of a path matches the constraint on its own**,
if its settled parts are not nested. -/
theorem isSome_fullMatch_of_mem_rests {n : Node} (hl : n.isLocal = true)
    (hn : n.settlesFlat = true) {value rest : List Char} (h : rest ∈ n.rests (value ++ rest)) :
    (n.fullMatch value).isSome := by
  obtain ⟨q, hq, hrest⟩ := exists_mem_ways_of_mem_rests hl h
  obtain ⟨t, ht⟩ := exists_leads_of_mem_ways hq
  have htext : value ++ rest = t ++ q.after := ht.after
  rw [hrest] at htext
  obtain rfl : value = t := List.append_cancel_right htext
  rw [← renumber_add_zero n] at hq
  exact isSome_fullMatch_of_mem_ways (isPortable_of_isLocal hl hn) (fun _ _ => rfl) hq ht

end Winnow.Regex
