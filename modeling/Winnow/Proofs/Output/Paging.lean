import Mathlib
import Winnow.Output.Payload
import Winnow.Proofs.Outcome

/-!
# Pages of rows

A page of rows is given whole or not at all: it is too large exactly if it has too many rows or its
JSON text has too many bytes, and otherwise it has the rows from its offset on, as many as its limit
allows (`make_json`). So the pages one after the other have all rows, each once. A limit of zero is
no limit, though (`make_json_without_rows`).
-/

namespace Winnow.Output

open Payload

/-! ## The rows of a page -/

/-- The rows from `offset` on, at most `limit` of them. -/
def window {α : Type} (offset : Nat) (limit : Option Nat) (xs : List α) : List α :=
  match limit with
  | none => xs.drop offset
  | some n => (xs.drop offset).take n

/-- A page that starts at a row counted from the first one. -/
def Page.start (offset : Nat) (limit : Option Nat) : Page := ⟨offset, limit.map Int.ofNat⟩

theorem rows_start {α : Type} {limit : Option Nat} (hlimit : limit ≠ some 0) (offset : Nat)
    (xs : List α) : (Page.start offset limit).rows xs = window offset limit xs := by
  have hdrop : dropInt (offset : Int) xs = xs.drop offset := by simp [dropInt]
  cases limit with
  | none => exact hdrop
  | some n =>
      have hn : (n : Int) ≠ 0 := by
        intro h
        exact hlimit (by simpa using h)
      show (if (n : Int) = 0 then _ else takeInt (n : Int) (dropInt (offset : Int) xs)) = _
      rw [if_neg hn, hdrop]
      simp [takeInt, window]

/-- Windows side by side, put end to end. -/
theorem flatMap_window {α : Type} (xs : List α) (n k : Nat) :
    (List.range k).flatMap (fun i => window (i * n) (some n) xs) = xs.take (k * n) := by
  induction k with
  | zero => simp
  | succ k ih =>
      rw [List.range_succ, List.flatMap_append, ih, Nat.succ_mul, List.take_add]
      simp [window]

/-! ## The text of rows -/

theorem itemTexts_eq_mapM (f : Json.Format) (depth : Nat) (xs : List Value) :
    Json.itemTexts f depth xs = xs.mapM (Json.textAt f depth) := by
  induction xs with
  | nil => rfl
  | cons x xs ih =>
      rw [Json.itemTexts, List.mapM_cons, ih]

/-- Rows have a JSON text exactly if each of them has one. -/
theorem exists_dump_iff {rows : List Row} :
    (∃ text, dump rows = .ok text) ↔
      ∀ row ∈ rows, ∃ text, Json.textAt .line 2 (rowValue row) = .ok text := by
  have hitems : (∃ texts, (rows.map rowValue).mapM (Json.textAt .line 2) = .ok texts) ↔
      ∀ row ∈ rows, ∃ text, Json.textAt .line 2 (rowValue row) = .ok text := by
    rw [exists_mapM_eq_ok_iff, List.forall_mem_map]
  rw [← hitems, ← itemTexts_eq_mapM]
  simp only [dump, jsonText, mapError_eq_ok, Json.text, Json.textAt, Json.entryTexts, rowsValue]
  cases Json.itemTexts .line 2 (rows.map rowValue) with
  | error e =>
      constructor
      · rintro ⟨_, ⟨⟩⟩
      · rintro ⟨_, ⟨⟩⟩
  | ok texts => exact ⟨fun _ => ⟨_, rfl⟩, fun _ => ⟨_, rfl⟩⟩

theorem exists_dump_window {rows : List Row} (h : ∃ text, dump rows = .ok text) (offset : Nat)
    (limit : Option Nat) : ∃ text, dump (window offset limit rows) = .ok text := by
  rw [exists_dump_iff] at h ⊢
  intro row hrow
  apply h
  cases limit with
  | none => exact List.mem_of_mem_drop hrow
  | some n => exact List.mem_of_mem_drop (List.mem_of_mem_take hrow)

/-! ## Whole pages -/

theorem ofRows_json {cap : Cap} {rows : List Row} {text : String} (htext : dump rows = .ok text) :
    ofRows .json cap rows = .ok (if cap.rows < rows.length ∨ cap.bytes < text.utf8ByteSize then
      .tooLarge rows.length else .json rows) := by
  rw [ofRows]
  by_cases hrows : cap.rows < rows.length
  · simp [hrows]
  · rw [if_neg hrows]
    simp only [hrows, false_or, htext]
    rfl

/-- The payload of a page, where the limit is not zero. -/
theorem make_start {rows : List Row} {limit : Option Nat} {text : String} {offset : Nat}
    (hlimit : limit ≠ some 0) (htext : dump (window offset limit rows) = .ok text) (cap : Cap) :
    make .json (.start offset limit) cap rows =
      .ok (if cap.rows < (window offset limit rows).length ∨ cap.bytes < text.utf8ByteSize then
        .tooLarge (window offset limit rows).length else .json (window offset limit rows)) := by
  rw [make, rows_start hlimit]
  exact ofRows_json htext

/-- What a page gives are its rows, and nothing else. -/
theorem eq_window_of_make {rows chosen : List Row} {offset n : Nat} (hn : n ≠ 0) {cap : Cap}
    (h : make .json (.start offset (some n)) cap rows = .ok (.json chosen)) :
    chosen = window offset (some n) rows := by
  have hlimit : some n ≠ some 0 := by simpa using hn
  rw [make, rows_start hlimit, ofRows] at h
  split at h
  · cases h
  · obtain ⟨text, -, h⟩ := bind_eq_ok.1 h
    split at h
    · cases h
    · cases h
      rfl

/-- Pages side by side, put end to end. -/
theorem flatten_pages {rows : List Row} {n : Nat} (hn : n ≠ 0) {cap : Cap} {k : Nat}
    {pages : List (List Row)}
    (h : List.Forall₂ (fun i chosen =>
      make .json (.start (i * n) (some n)) cap rows = .ok (.json chosen)) (List.range k) pages) :
    pages.flatten = rows.take (k * n) := by
  have hpages : List.Forall₂ (· = ·)
      ((List.range k).map fun i => window (i * n) (some n) rows) pages :=
    List.forall₂_map_left_iff.2 (h.imp fun _ _ hchosen => (eq_window_of_make hn hchosen).symm)
  rw [List.forall₂_eq_eq_eq] at hpages
  rw [← hpages, ← List.flatMap_def, flatMap_window]

/-- **A page is given whole, or it is reported as too large.** It is too large exactly if its rows
are more than the cap allows, or the bytes of their JSON text. So pages of one size that are all
given have all rows in order, each once, as soon as there are enough of them. This leaves out the
limit zero, which is none. -/
theorem make_json {rows : List Row} (hrows : ∃ text, dump rows = .ok text) (cap : Cap) :
    (∀ offset limit, limit ≠ some 0 → ∃ text, dump (window offset limit rows) = .ok text ∧
      (make .json (.start offset limit) cap rows =
          .ok (.tooLarge (window offset limit rows).length) ↔
        cap.rows < (window offset limit rows).length ∨ cap.bytes < text.utf8ByteSize) ∧
      (¬ (cap.rows < (window offset limit rows).length ∨ cap.bytes < text.utf8ByteSize) →
        make .json (.start offset limit) cap rows = .ok (.json (window offset limit rows)) ∧
          (Payload.json (window offset limit rows)).rowCount =
            (window offset limit rows).length)) ∧
    (∀ n ≠ 0, ∀ k pages, List.Forall₂ (fun i chosen =>
        make .json (.start (i * n) (some n)) cap rows = .ok (.json chosen)) (List.range k) pages →
      pages.flatten = rows.take (k * n) ∧ (rows.length ≤ k * n → pages.flatten = rows)) ∧
    ∀ offset, make .json (.start offset (some 0)) cap rows =
      make .json (.start offset none) cap rows := by
  refine ⟨?_, ?_, fun _ => rfl⟩
  · intro offset limit hlimit
    obtain ⟨text, htext⟩ := exists_dump_window hrows offset limit
    refine ⟨text, htext, ?_⟩
    rw [make_start hlimit htext]
    constructor
    · constructor
      · intro h
        by_contra hfits
        rw [if_neg hfits] at h
        cases h
      · intro hlarge
        rw [if_pos hlarge]
    · intro hfits
      rw [if_neg hfits]
      exact ⟨rfl, rfl⟩
  · intro n hn k pages hpages
    have hflat := flatten_pages hn hpages
    exact ⟨hflat, fun hk => hflat.trans (List.take_of_length_le hk)⟩

/-- A page that has as many rows and bytes as the cap allows, and one byte more. -/
theorem make_json_notes :
    let rows : List Row := [[("t", .text "ä")], [("t", .text "b")], [("t", .text "c")]]
    (∃ text, dump rows = .ok text) ∧ some 2 ≠ some 0 ∧
      make .json (.start 0 (some 2)) ⟨2, 35⟩ rows =
        .ok (.json [[("t", .text "ä")], [("t", .text "b")]]) ∧
      make .json (.start 0 (some 2)) ⟨2, 34⟩ rows = .ok (.tooLarge 2) ∧
      ∀ pages, List.Forall₂ (fun i chosen =>
        make .json (.start (i * 2) (some 2)) ⟨2, 35⟩ rows = .ok (.json chosen)) (List.range 2) pages →
          pages.flatten = rows := by
  intro rows
  have hrows : ∃ text, dump rows = .ok text := by
    refine exists_dump_iff.2 ?_
    simp only [rows, List.forall_mem_cons]
    exact ⟨⟨_, rfl⟩, ⟨_, rfl⟩, ⟨_, rfl⟩, by simp⟩
  have htext : dump (window 0 (some 2) rows) =
      .ok "\x7b\"data\": [\x7b\"t\": \"ä\"\x7d, \x7b\"t\": \"b\"\x7d]\x7d" := by cbv
  obtain ⟨text, hdump, -, hwhole⟩ := (make_json hrows ⟨2, 35⟩).1 0 (some 2) (by decide)
  obtain ⟨text', hdump', hlarge, -⟩ := (make_json hrows ⟨2, 34⟩).1 0 (some 2) (by decide)
  cases htext.symm.trans hdump
  cases htext.symm.trans hdump'
  refine ⟨hrows, by decide, (hwhole (by decide +kernel)).1, hlarge.2 (by decide +kernel), ?_⟩
  intro pages hpages
  exact ((make_json hrows ⟨2, 35⟩).2.1 2 (by decide) 2 pages hpages).2 (by decide)

/-- At most no rows are wanted, and there is one. -/
theorem make_json_without_rows :
    let rows : List Row := [[("n", .int 1)]]
    window 0 (some 0) rows = [] ∧ make .json (.start 0 (some 0)) {} rows = .ok (.json rows) := by
  intro rows
  have htext : dump (window 0 none rows) = .ok "\x7b\"data\": [\x7b\"n\": 1\x7d]\x7d" := by cbv
  have hlimit : (none : Option Nat) ≠ some 0 := by decide
  have hwhole := make_start hlimit htext {}
  rw [if_neg (by decide +kernel)] at hwhole
  exact ⟨rfl, hwhole⟩

end Winnow.Output
