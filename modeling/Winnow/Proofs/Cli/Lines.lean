import Winnow.Cli.Command
import Winnow.Proofs.Outcome

/-!
# Reading lines

A command line is read in three steps: its words are told apart, they are grouped into parts, and
the parts are acted on. Words behind a line that is read go through the same steps from where the
line has led (`words_append`, `gather_parts_append`), unless the line holds a double dash, behind
which they are no options any more. So adding options to a query is applying them to the query that
was read (`read_streaming`).
-/

namespace Winnow.Cli

/-! ## Words -/

section Words

variable {κ : Type} {table : OptionTable κ} {line : List String} {ws : List (Word κ)}

theorem words_cons_eq_ok_iff {s : String} :
    words table (s :: line) = .ok ws ↔
      if s = "--" then ws = .mark :: line.map .plain
      else ∃ w rest,
        Word.ofText table s = .ok w ∧ words table line = .ok rest ∧ ws = w :: rest := by
  rw [words]
  split
  · constructor <;> intro h
    · cases h
      rfl
    · rw [h]
  · constructor
    · intro h
      obtain ⟨w, hw, h⟩ := bind_eq_ok.1 h
      obtain ⟨rest, hrest, h⟩ := bind_eq_ok.1 h
      cases h
      exact ⟨w, rest, hw, hrest, rfl⟩
    · rintro ⟨w, rest, hw, hrest, rfl⟩
      rw [hw, hrest]
      rfl

/-- A first word that is no double dash is one word of the line. -/
theorem words_of_cons {s : String} {w : Word κ} (h : words table (s :: line) = .ok (w :: ws))
    (hw : w ≠ .mark) : s ≠ "--" ∧ words table line = .ok ws := by
  rw [words_cons_eq_ok_iff] at h
  split at h
  next => exact absurd (List.cons.inj h).1 hw
  next hs =>
    obtain ⟨_, _, -, hrest, hcons⟩ := h
    obtain ⟨rfl, rfl⟩ := List.cons.inj hcons
    exact ⟨hs, hrest⟩

/-- The words of an appended line. Behind a double dash all of them are plain. -/
theorem words_append (hws : words table line = .ok ws) {extra : List String}
    {more : List (Word κ)} (hmore : words table extra = .ok more) :
    words table (line ++ extra) =
      .ok (ws ++ if "--" ∈ line then extra.map .plain else more) := by
  induction line generalizing ws with
  | nil =>
      cases hws
      exact hmore
  | cons s line ih =>
      have hcons := words_cons_eq_ok_iff.1 hws
      rw [List.cons_append, words_cons_eq_ok_iff]
      by_cases hs : s = "--"
      · rw [if_pos hs] at hcons ⊢
        have hmem : "--" ∈ s :: line := hs ▸ List.mem_cons_self
        rw [if_pos hmem, hcons, List.map_append, List.cons_append]
      · rw [if_neg hs] at hcons ⊢
        obtain ⟨w, rest, hw, hrest, rfl⟩ := hcons
        have hmem : "--" ∈ s :: line ↔ "--" ∈ line := by
          rw [List.mem_cons, or_iff_right (Ne.symm hs)]
        refine ⟨w, _, hw, ih hrest, ?_⟩
        simp only [hmem, List.cons_append]

end Words

/-! ## Parts -/

section Parts

variable {κ σ : Type} {step : σ → κ → Option String → Except Refusal σ} {state state' : σ}
  {arguments read : List String} {surplus : Bool}

/-- What every option keeps, all of them keep. -/
theorem of_gather {P : σ → Prop}
    (hstep : ∀ state o value state', step state o value = .ok state' → P state → P state')
    {parts : List (Part κ)} {result : List String × σ}
    (h : gather step state arguments surplus parts = .ok result) (hstate : P state) :
    P result.2 := by
  induction parts generalizing state arguments surplus with
  | nil =>
      rw [gather] at h
      split at h
      · cases h
      · cases h
        exact hstate
  | cons part parts ih =>
      cases part with
      | argument s => exact ih h hstate
      | option o value =>
          obtain ⟨state', hstep', h⟩ := bind_eq_ok.1 h
          exact ih h (hstep state o value state' hstep' hstate)
      | help => cases h
      | surplus => exact ih h hstate
      | malformed => cases h

/-- What nothing takes is refused in the end. -/
theorem gather_surplus_ne_ok (ps : List (Part κ)) {result : List String × σ} :
    gather step state arguments true ps ≠ .ok result := by
  induction ps generalizing state arguments with
  | nil => rintro ⟨⟩
  | cons p ps ih =>
      cases p with
      | argument s => exact ih
      | option o value =>
          intro h
          obtain ⟨state', -, h⟩ := bind_eq_ok.1 h
          exact ih h
      | help => rintro ⟨⟩
      | surplus => exact ih
      | malformed => rintro ⟨⟩

theorem afterOption_of_closed {places : Places} (h : places.isOpen = false) :
    places.afterOption = places := by
  obtain ⟨n, isOpen⟩ := places
  obtain rfl : isOpen = false := h
  cases n <;> rfl

theorem parts_flag {takesValue : κ → Bool} {o : κ} (h : ¬ takesValue o = true) (places : Places)
    (dashed : Bool) (rest : List (Word κ)) :
    parts takesValue places dashed (.option o none :: rest) =
      .option o none :: parts takesValue places.afterOption dashed rest := by
  rw [parts.eq_def]
  exact if_neg h

theorem parts_plain (takesValue : κ → Bool) (n : Nat) (isOpen dashed : Bool) (s : String)
    {rest : List (Word κ)} (h : rest.head? ≠ some .mark) :
    parts takesValue ⟨n + 1, isOpen⟩ dashed (.plain s :: rest) =
      .argument s :: parts takesValue ⟨n, isOpen⟩ dashed rest := by
  match rest with
  | [] => rfl
  | .mark :: rest => exact absurd rfl h
  | .plain _ :: _ | .option _ _ :: _ | .help _ :: _ | .unknown _ :: _ => rfl

/-- **Words behind a line that is read are acted on from where the line has led**: with the
arguments and the state that were read, and with the places that are still open. A double dash is
left out, since an argument before it takes it along. -/
theorem gather_parts_append {takesValue : κ → Bool} {places : Places} {dashed : Bool}
    {ws more : List (Word κ)} (hclosed : places.isOpen = false) (hmore : more.head? ≠ some .mark)
    (h : gather step state arguments surplus (parts takesValue places dashed ws) =
      .ok (read, state')) :
    gather step state arguments surplus (parts takesValue places dashed (ws ++ more)) =
      gather step state' read.reverse false
        (parts takesValue ⟨places.needed + arguments.length - read.length, false⟩ dashed more) := by
  -- Along the recursion of `parts`. No place is open, so an option changes the state and not the
  -- places, and each argument fills one of them.
  fun_induction parts takesValue places dashed ws generalizing state arguments surplus with
  | case1 places dashed =>
      rw [gather] at h
      split at h
      next => cases h
      next hsurplus =>
          cases h
          obtain ⟨n, isOpen⟩ := places
          obtain rfl : isOpen = false := hclosed
          rw [Bool.not_eq_true] at hsurplus
          rw [hsurplus, List.reverse_reverse, List.length_reverse, Nat.add_sub_cancel]
          rfl
  | case2 places dashed attached rest ih => cases attached <;> cases h
  | case3 places dashed s rest ih => exact absurd h (gather_surplus_ne_ok _)
  | case4 places dashed o v rest ih =>
      rw [afterOption_of_closed hclosed] at ih h
      rw [List.cons_append, parts, afterOption_of_closed hclosed]
      split at h
      next htakes =>
          obtain ⟨next, hnext, h⟩ := bind_eq_ok.1 h
          rw [if_pos htakes, gather, hnext]
          exact ih hclosed h
      next => cases h
  | case5 places dashed o htakes v rest ih =>
      rw [afterOption_of_closed hclosed] at ih h
      obtain ⟨next, hnext, h⟩ := bind_eq_ok.1 h
      rw [List.cons_append, List.cons_append, parts, if_pos htakes, afterOption_of_closed hclosed]
      show gather step state arguments surplus (.option o (some v) :: _) = _
      rw [gather, hnext]
      exact ih hclosed h
  | case6 => cases h
  | case7 places dashed o rest htakes ih =>
      rw [afterOption_of_closed hclosed] at ih h
      obtain ⟨next, hnext, h⟩ := bind_eq_ok.1 h
      rw [List.cons_append, parts_flag htakes, afterOption_of_closed hclosed, gather, hnext]
      exact ih hclosed h
  | case8 dashed s n isOpen rest ih =>
      have hread := ih hclosed h
      rw [List.length_cons, ← Nat.succ_add_eq_add_succ] at hread
      exact hread
  | case9 dashed s n isOpen rest hrest ih =>
      have hread := ih hclosed h
      rw [List.length_cons, ← Nat.succ_add_eq_add_succ] at hread
      rw [List.cons_append, parts_plain]
      · exact hread
      · -- The word behind the argument is no double dash, in the line or at its end.
        intro hhead
        match rest with
        | [] => exact hmore hhead
        | w :: rest => exact hrest rest (congrArg (· :: rest) (Option.some.inj hhead))
  | case12 => exact absurd h (gather_surplus_ne_ok _)
  | case13 dashed n isOpen v rest ih =>
      have hread := ih hclosed h
      rw [List.length_cons, ← Nat.succ_add_eq_add_succ] at hread
      exact hread
  | case14 => exact absurd h (gather_surplus_ne_ok _)
  | case16 => exact absurd h (gather_surplus_ne_ok _)
  | case10 | case11 | case15 => cases hclosed

end Parts

/-! ## Queries -/

section Queries

variable {c : QueryCommand} {line : List String}

theorem one_le_of_readPositive {s : String} {n : Nat} (h : readPositive s = .ok n) : 1 ≤ n := by
  rw [readPositive] at h
  split at h
  · split at h
    · cases h
    · cases h
      omega
  · cases h

/-- What an option does to a count: it leaves it, or gives another one that is positive. -/
def Recounts (old new : Option Nat) : Prop := new = old ∨ ∃ n, 1 ≤ n ∧ new = some n

theorem QueryCommand.recounts_of_apply {c c' : QueryCommand} {o : QueryOption}
    {value : Option String} (h : c.apply o value = .ok c') :
    Recounts c.concurrency c'.concurrency ∧ Recounts c.limit c'.limit := by
  have hchoose : ∀ m, c.choose m = .ok c' →
      Recounts c.concurrency c'.concurrency ∧ Recounts c.limit c'.limit := by
    intro m h
    rw [choose] at h
    split at h
    · cases h
      exact ⟨.inl rfl, .inl rfl⟩
    · cases h
  cases o with
  | concurrency =>
      obtain ⟨n, hn, h⟩ := bind_eq_ok.1 h
      cases h
      exact ⟨.inr ⟨n, one_le_of_readPositive hn, rfl⟩, .inl rfl⟩
  | limit =>
      obtain ⟨n, hn, h⟩ := bind_eq_ok.1 h
      cases h
      exact ⟨.inl rfl, .inr ⟨n, one_le_of_readPositive hn, rfl⟩⟩
  | single => exact hchoose .first h
  | strictSingle => exact hchoose .only h
  | stream => exact hchoose .stream h
  | workers | format =>
      obtain ⟨_, -, h⟩ := bind_eq_ok.1 h
      cases h
      exact ⟨.inl rfl, .inl rfl⟩
  | _ =>
      cases h
      exact ⟨.inl rfl, .inl rfl⟩

theorem Recounts.one_le {old new : Option Nat} (h : Recounts old new)
    (hold : ∀ n, old = some n → 1 ≤ n) : ∀ n, new = some n → 1 ≤ n := by
  rcases h with rfl | ⟨m, hm, rfl⟩
  · exact hold
  · rintro _ ⟨⟩
    exact hm

/-- The query that arguments and options make. -/
def ofRead : List String × QueryCommand → Except Refusal Command
  | ([name], q) => .ok (.query { q with name := name })
  | _ => .error .usage

theorem readCommand_query (line : List String) :
    readCommand "query" line = readWords QueryOption.names QueryOption.takesValue ⟨1, false⟩
      QueryCommand.apply { name := "" } line >>= ofRead := by
  refine congrArg (readWords _ _ _ _ _ line >>= ·) (funext fun ⟨names, q⟩ => ?_)
  match names with
  | [] => rfl
  | [_] => rfl
  | _ :: _ :: _ => rfl

/-- How a query is read. -/
theorem exists_gather_of_readCommand {name : String}
    (h : readCommand name line = .ok (.query c)) : name = "query" ∧
      ∃ ws given q, words (OptionTable.make QueryOption.names) line = .ok ws ∧
        gather QueryCommand.apply { name := "" } [] false
          (parts QueryOption.takesValue ⟨1, false⟩ false ws) = .ok ([given], q) ∧
        c = { q with name := given } := by
  have hname : name = "query" := by
    by_contra hname
    rw [readCommand] at h
    split at h
    · obtain ⟨read, -, h⟩ := bind_eq_ok.1 h
      split at h <;> cases h
    · split at h
      · obtain ⟨read, -, h⟩ := bind_eq_ok.1 h
        split at h <;> cases h
      · split at h
        · obtain ⟨read, -, h⟩ := bind_eq_ok.1 h
          cases h
        · cases h
  subst hname
  rw [readCommand_query] at h
  obtain ⟨⟨names, q⟩, hread, h⟩ := bind_eq_ok.1 h
  obtain ⟨ws, hws, hgather⟩ := bind_eq_ok.1 hread
  match names with
  | [given] =>
      cases h
      exact ⟨rfl, ws, given, q, hws, hgather, rfl⟩
  | [] => cases h
  | _ :: _ :: _ => cases h

/-- A stream, if there is one, has a place for an item. -/
def QueryCommand.HasRoom (c : QueryCommand) : Prop := ∀ n, c.concurrency = some n → 1 ≤ n

/-- The commands that lines can give. -/
def Command.Readable : Command → Prop
  | .query c => c.HasRoom
  | _ => True

theorem readable_of_readCommand {name : String} {c : Command}
    (h : readCommand name line = .ok c) : c.Readable := by
  cases c with
  | query c =>
      obtain ⟨-, ws, given, q, -, hgather, rfl⟩ := exists_gather_of_readCommand h
      refine of_gather (P := QueryCommand.HasRoom) (fun q o value q' happly hq => ?_) hgather nofun
      exact (QueryCommand.recounts_of_apply happly).1.one_le hq
  | _ => trivial

/-- A page, if there is a bound to it, has a place for a row. -/
theorem one_le_limit_of_readCommand {name : String} (h : readCommand name line = .ok (.query c)) :
    ∀ n, c.limit = some n → 1 ≤ n := by
  obtain ⟨-, ws, given, q, -, hgather, rfl⟩ := exists_gather_of_readCommand h
  refine of_gather (P := fun q => ∀ n, q.limit = some n → 1 ≤ n) (fun q o value q' happly hq => ?_)
    hgather nofun
  exact (QueryCommand.recounts_of_apply happly).2.one_le hq

end Queries

/-! ## The options before a command -/

/-- A line that is read begins with options and the name of a command, which takes the rest. What is
appended to the line is appended to that rest. -/
theorem exists_readCommand_of_readOptions {table : OptionTable LogOption} {given : List LogOption}
    {surplus : Bool} {ws : List (Word LogOption)} {line : List String} {i : Invocation}
    (h : readOptions given surplus ws line = .ok i) (hws : words table line = .ok ws) :
    ∃ front name rest, line = front ++ rest ∧ "--" ∉ front ∧
      readCommand name rest = .ok i.command ∧ ∀ more extra,
        readOptions given surplus (ws ++ more) (line ++ extra) =
          (readCommand name (rest ++ extra)).map (Invocation.mk i.threshold) := by
  fun_induction readOptions given surplus ws line with
  | case1 given surplus o ws s line ih =>
      obtain ⟨hs, hws⟩ := words_of_cons hws nofun
      obtain ⟨front, name, rest, rfl, hfront, hcommand, happend⟩ := ih h hws
      have hskip : "--" ∉ s :: front := List.not_mem_cons_of_ne_of_not_mem hs.symm hfront
      exact ⟨s :: front, name, rest, rfl, hskip, hcommand, happend⟩
  | case2 => cases h
  | case3 given surplus t ws s line ih =>
      obtain ⟨hs, hws⟩ := words_of_cons hws nofun
      obtain ⟨front, name, rest, rfl, hfront, hcommand, happend⟩ := ih h hws
      have hskip : "--" ∉ s :: front := List.not_mem_cons_of_ne_of_not_mem hs.symm hfront
      exact ⟨s :: front, name, rest, rfl, hskip, hcommand, happend⟩
  | case4 given surplus name ws s line =>
      obtain ⟨hs, -⟩ := words_of_cons hws nofun
      obtain ⟨command, hcommand, h⟩ := bind_eq_ok.1 h
      cases surplus with
      | true => cases h
      | false =>
          cases h
          have hskip : "--" ∉ [s] := List.not_mem_cons_of_ne_of_not_mem hs.symm List.not_mem_nil
          refine ⟨[s], name, line, rfl, hskip, hcommand, fun more extra => ?_⟩
          show (readCommand name (line ++ extra) >>= _) = _
          cases readCommand name (line ++ extra) <;> rfl
  | case5 => cases h

theorem readable_of_read {line : List String} {i : Invocation} (h : Invocation.read line = .ok i) :
    i.command.Readable := by
  obtain ⟨ws, hws, h⟩ := bind_eq_ok.1 h
  obtain ⟨_, _, _, -, -, hcommand, -⟩ := exists_readCommand_of_readOptions h hws
  exact readable_of_readCommand hcommand

theorem one_le_limit_of_read {line : List String} {threshold : Level} {c : QueryCommand}
    (h : Invocation.read line = .ok ⟨threshold, .query c⟩) : ∀ n, c.limit = some n → 1 ≤ n := by
  obtain ⟨ws, hws, h⟩ := bind_eq_ok.1 h
  obtain ⟨_, _, _, -, -, hcommand, -⟩ := exists_readCommand_of_readOptions h hws
  exact one_le_limit_of_readCommand hcommand

/-! ## Asking for a stream -/

/-- The words that ask for a stream with one slot. -/
def streaming : List String := ["--stream", "--concurrency", "1"]

/-- A query gone through as a stream with one slot. -/
def QueryCommand.streamed (c : QueryCommand) : QueryCommand :=
  { c with mode := .stream, concurrency := some 1 }

/-- **Asking for a stream at the end of a line makes the query of the line a stream**, and leaves
all else as it is. Behind a double dash the words are no options, and the line is refused. -/
theorem read_streaming {line : List String} {threshold : Level} {c : QueryCommand}
    (h : Invocation.read line = .ok ⟨threshold, .query c⟩) (hmode : c.mode = .whole) :
    Invocation.read (line ++ streaming) =
      if "--" ∈ line then .error .usage else .ok ⟨threshold, .query c.streamed⟩ := by
  obtain ⟨ws, hws, h⟩ := bind_eq_ok.1 h
  obtain ⟨front, name, rest, hline, hfront, hcommand, happend⟩ :=
    exists_readCommand_of_readOptions h hws
  obtain ⟨rfl, qs, given, q, hqs, hgather, rfl⟩ := exists_gather_of_readCommand hcommand
  have hmem : "--" ∈ line ↔ "--" ∈ rest := by
    rw [hline, List.mem_append, or_iff_right hfront]
  have hlog : words (OptionTable.make LogOption.names) streaming =
      .ok [.unknown "--stream", .unknown "--concurrency", .plain "1"] := by decide +kernel
  have hquery : words (OptionTable.make QueryOption.names) streaming =
      .ok [.option .stream none, .option .concurrency none, .plain "1"] := by decide +kernel
  rw [Invocation.read, words_append hws hlog]
  show readOptions [] false (ws ++ _) (line ++ streaming) = _
  rw [happend, readCommand_query, readWords, words_append hqs hquery]
  show (gather _ _ _ _ (parts _ _ _ (qs ++ _)) >>= ofRead).map _ = _
  -- Behind a double dash the three words are arguments, for which there is no place.
  by_cases hdash : "--" ∈ rest
  · rw [if_pos hdash, if_pos (hmem.2 hdash), gather_parts_append rfl (by simp [streaming]) hgather]
    rfl
  · rw [if_neg hdash, if_neg (mt hmem.1 hdash), gather_parts_append rfl (by simp) hgather]
    have hmode : q.mode = .whole := hmode
    have hchoose : q.apply .stream none = .ok { q with mode := .stream } :=
      if_pos (.inl hmode)
    have hone : readPositive "1" = .ok 1 := by decide +kernel
    have hcount : QueryCommand.apply { q with mode := .stream } .concurrency (some "1") =
        .ok { q with mode := .stream, concurrency := some 1 } := by
      rw [QueryCommand.apply, Option.getD_some, hone]
      rfl
    show ((q.apply .stream none >>= fun q => q.apply .concurrency (some "1") >>= fun q =>
      .ok ([given], q)) >>= ofRead).map _ = _
    rw [hchoose]
    show ((QueryCommand.apply { q with mode := .stream } .concurrency (some "1") >>= fun q =>
      .ok ([given], q)) >>= ofRead).map _ = _
    rw [hcount]
    rfl

end Winnow.Cli
