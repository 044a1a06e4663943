import Airflow.Lib.Neighbours
import Mathlib.Data.List.Sort
import Mathlib.Data.List.Perm.Basic

/-!
# Interleaving logs

`_parse_timestamps_in_log_file` and `_interleave_logs` of
`airflow/utils/log/file_task_handler.py`. A log is the list of its lines (`splitlines`), and
`_parse_timestamp` a parameter: it is configurable, and the default uses `pendulum.parse`.
-/

namespace Airflow.InterleaveLogs

variable {T : Type} [LinearOrder T]

/-- What is yielded for a line. -/
structure Record (T : Type) where
  timestamp : Option T
  idx : Nat
  line : String

/-- What logs are read with: `_parse_timestamp`, which raises where it is `none`, and
`pendulum.datetime(2000, 1, 1)`. -/
structure Parser (T : Type) where
  parseTimestamp : String → Option T
  year2000 : T

variable (parser : Parser T)

/-- The loop of `_parse_timestamps_in_log_file`. -/
def parseFrom (timestamp : Option T) (idx : Nat) : List String → List (Record T)
  | [] => []
  | line :: lines =>
    if line = "" then parseFrom timestamp (idx + 1) lines
    else
      let timestamp := (parser.parseTimestamp line).or timestamp
      ⟨timestamp, idx, line⟩ :: parseFrom timestamp (idx + 1) lines

/-- `_parse_timestamps_in_log_file`. -/
def parseTimestampsInLogFile (lines : List String) : List (Record T) := parseFrom parser none 0 lines

/-- The time that a record is sorted by. -/
def Record.time (record : Record T) : T := record.timestamp.getD parser.year2000

/-- The order of the keys of the sort. -/
def Record.le (a b : Record T) : Bool :=
  decide (a.time parser < b.time parser) ||
    decide (a.time parser = b.time parser) && decide (a.idx ≤ b.idx)

/-- The records of all logs, sorted. -/
def sortedRecords (logs : List (List String)) : List (Record T) :=
  (logs.flatMap (parseTimestampsInLogFile parser)).mergeSort (Record.le parser)

/-- `_interleave_logs`. -/
def interleaveLogs (logs : List (List String)) : List String :=
  Neighbours.drop none ((sortedRecords parser logs).map Record.line)

/-! ## Logs -/

/-- The non-empty lines of a log. -/
def nonEmpty (lines : List String) : List String := lines.filter (· ≠ "")

/-- The timestamps of a log. -/
def timestamps (lines : List String) : List T := (nonEmpty lines).filterMap parser.parseTimestamp

/-- The timestamps of a log do not decrease. -/
def NonDecreasing (lines : List String) : Prop := (timestamps parser lines).Pairwise (· ≤ ·)

/-- No line without a timestamp comes before a timestamp of another century. -/
def UntimedPrefixFits (lines : List String) : Prop :=
  ((nonEmpty lines).head?.bind parser.parseTimestamp).isSome ∨
    ∀ t ∈ timestamps parser lines, parser.year2000 ≤ t

/-!
## What interleaving keeps

The records of a log are in the order of the sort (`pairwise_parse`), so they stay a part of what is
sorted, and all that is lost are immediate repetitions. With a copy, every record stands next to its
copy, which is dropped.
-/

variable {T : Type} [LinearOrder T] {parser : Parser T}

/-! ## The order -/

theorem Record.le_iff {a b : Record T} : Record.le parser a b = true ↔
    a.time parser < b.time parser ∨ a.time parser = b.time parser ∧ a.idx ≤ b.idx := by
  simp [Record.le]

theorem Record.le_trans (a b c : Record T) (hab : Record.le parser a b = true)
    (hbc : Record.le parser b c = true) : Record.le parser a c = true := by
  rw [Record.le_iff] at *
  rcases hab with hab | ⟨hab, hidx⟩
  · rcases hbc with hbc | ⟨hbc, -⟩
    · exact .inl (hab.trans hbc)
    · exact .inl (hbc ▸ hab)
  · rcases hbc with hbc | ⟨hbc, hidx'⟩
    · exact .inl (hab ▸ hbc)
    · exact .inr ⟨hab.trans hbc, hidx.trans hidx'⟩

theorem Record.le_total (a b : Record T) :
    (Record.le parser a b || Record.le parser b a) = true := by
  rw [Bool.or_eq_true, Record.le_iff, Record.le_iff]
  rcases lt_trichotomy (a.time parser) (b.time parser) with h | h | h
  · exact .inl (.inl h)
  · rcases Nat.le_total a.idx b.idx with hidx | hidx
    · exact .inl (.inr ⟨h, hidx⟩)
    · exact .inr (.inr ⟨h.symm, hidx⟩)
  · exact .inr (.inl h)

theorem Record.idx_eq_of_le {a b : Record T} (hab : Record.le parser a b = true)
    (hba : Record.le parser b a = true) : a.idx = b.idx := by
  rw [Record.le_iff] at *
  rcases hab with hab | ⟨hab, hidx⟩
  · rcases hba with hba | ⟨hba, -⟩
    · exact absurd hab (not_lt.mpr hba.le)
    · exact absurd hab (not_lt.mpr hba.le)
  · rcases hba with hba | ⟨-, hidx'⟩
    · exact absurd hba (not_lt.mpr hab.le)
    · exact Nat.le_antisymm hidx hidx'

/-! ## The records of a log -/

theorem map_line_parseFrom (timestamp : Option T) (idx : Nat) (lines : List String) :
    (parseFrom parser timestamp idx lines).map Record.line = nonEmpty lines := by
  induction lines generalizing timestamp idx with
  | nil => rfl
  | cons line lines ih =>
    by_cases hline : line = ""
    · simp only [parseFrom, hline, if_true, nonEmpty, List.filter_cons, ne_eq, not_true_eq_false,
        decide_false, Bool.false_eq_true, if_false]
      exact ih _ _
    · simp only [parseFrom, hline, if_false, nonEmpty, List.filter_cons, ne_eq, not_false_eq_true,
        decide_true, if_true, List.map_cons]
      exact congrArg _ (ih _ _)

theorem idx_le_of_mem_parseFrom {timestamp : Option T} {idx : Nat} {lines : List String}
    {record : Record T} (h : record ∈ parseFrom parser timestamp idx lines) : idx ≤ record.idx := by
  induction lines generalizing timestamp idx with
  | nil => cases h
  | cons line lines ih =>
    rw [parseFrom] at h
    split at h
    · exact Nat.le_of_succ_le (ih h)
    · rcases List.mem_cons.mp h with rfl | h
      · exact Nat.le_refl _
      · exact Nat.le_of_succ_le (ih h)

/-- The indices of the records of a log are different. -/
theorem pairwise_idx_parseFrom (timestamp : Option T) (idx : Nat) (lines : List String) :
    (parseFrom parser timestamp idx lines).Pairwise fun a b => a.idx < b.idx := by
  induction lines generalizing timestamp idx with
  | nil => exact .nil
  | cons line lines ih =>
    rw [parseFrom]
    split
    · exact ih _ _
    · exact .cons (fun record h => idx_le_of_mem_parseFrom h) (ih _ _)

theorem nonEmpty_cons_empty (lines : List String) : nonEmpty ("" :: lines) = nonEmpty lines := rfl

theorem nonEmpty_cons {line : String} (h : line ≠ "") (lines : List String) :
    nonEmpty (line :: lines) = line :: nonEmpty lines := List.filter_cons_of_pos (by simpa using h)

/-- The records that follow a time are in the order of the sort. -/
theorem pairwise_parseFrom {timestamp : Option T} {idx : Nat} {lines : List String}
    (hsorted : NonDecreasing parser lines)
    (hle : ∀ t ∈ timestamps parser lines, timestamp.getD parser.year2000 ≤ t) :
    (parseFrom parser timestamp idx lines).Pairwise (Record.le parser · ·) ∧
      ∀ record ∈ parseFrom parser timestamp idx lines,
        timestamp.getD parser.year2000 ≤ record.time parser := by
  induction lines generalizing timestamp idx with
  | nil => exact ⟨.nil, nofun⟩
  | cons line lines ih =>
    rw [parseFrom]
    split
    · rename_i hline
      subst hline
      exact ih hsorted hle
    · rename_i hline
      unfold NonDecreasing timestamps at hsorted
      unfold timestamps at hle
      rw [nonEmpty_cons hline] at hsorted hle
      -- the time of this line bounds those after it and is bounded by the one before
      obtain ⟨hbefore, hafter, hrest⟩ : timestamp.getD parser.year2000 ≤
            ((parser.parseTimestamp line).or timestamp).getD parser.year2000 ∧
          (∀ t ∈ timestamps parser lines,
            ((parser.parseTimestamp line).or timestamp).getD parser.year2000 ≤ t) ∧
          NonDecreasing parser lines := by
        cases hparse : parser.parseTimestamp line with
        | none =>
          rw [List.filterMap_cons_none hparse] at hsorted hle
          exact ⟨le_refl _, hle, hsorted⟩
        | some t =>
          rw [List.filterMap_cons_some hparse] at hsorted hle
          have hpair := List.pairwise_cons.mp hsorted
          exact ⟨hle t List.mem_cons_self, hpair.1, hpair.2⟩
      obtain ⟨hpairwise, hlater⟩ := @ih _ (idx + 1) hrest hafter
      refine ⟨.cons (fun record hrecord => ?_) hpairwise, fun record hrecord => ?_⟩
      · rw [Record.le_iff]
        rcases lt_or_eq_of_le (hlater record hrecord) with hlt | heq
        · exact .inl hlt
        · exact .inr ⟨heq, Nat.le_of_succ_le (idx_le_of_mem_parseFrom hrecord)⟩
      · rcases List.mem_cons.mp hrecord with rfl | hrecord
        · exact hbefore
        · exact hbefore.trans (hlater record hrecord)

/-- The time before the first line does not matter if that line has one. -/
theorem parseFrom_congr {timestamp timestamp' : Option T} {idx : Nat} {lines : List String}
    (h : ((nonEmpty lines).head?.bind parser.parseTimestamp).isSome) :
    parseFrom parser timestamp idx lines = parseFrom parser timestamp' idx lines := by
  induction lines generalizing idx with
  | nil => rfl
  | cons line lines ih =>
    rw [parseFrom, parseFrom]
    split
    · rename_i hline
      subst hline
      exact ih h
    · rename_i hline
      rw [nonEmpty_cons hline] at h
      obtain ⟨t, ht⟩ := Option.isSome_iff_exists.mp h
      change parser.parseTimestamp line = some t at ht
      rw [ht, Option.some_or, Option.some_or]

/-- **The records of a log are in the order of the sort.** -/
theorem pairwise_parse {lines : List String} (hsorted : NonDecreasing parser lines)
    (hfits : UntimedPrefixFits parser lines) :
    (parseTimestampsInLogFile parser lines).Pairwise (Record.le parser · ·) := by
  rcases hfits with hfirst | hlate
  · obtain ⟨t, ht⟩ := Option.isSome_iff_exists.mp hfirst
    rw [parseTimestampsInLogFile, @parseFrom_congr T _ parser none (some t) 0 lines hfirst]
    refine (@pairwise_parseFrom T _ parser (some t) 0 lines hsorted ?_).1
    unfold NonDecreasing timestamps at hsorted
    unfold timestamps
    cases hlines : nonEmpty lines with
    | nil =>
      rw [hlines] at ht
      cases ht
    | cons line rest =>
      rw [hlines] at ht hsorted
      change parser.parseTimestamp line = some t at ht
      rw [List.filterMap_cons_some ht] at hsorted ⊢
      intro t' ht'
      rcases List.mem_cons.mp ht' with rfl | ht'
      · exact le_refl _
      · exact (List.pairwise_cons.mp hsorted).1 t' ht'
  · exact (@pairwise_parseFrom T _ parser none 0 lines hsorted hlate).1

/-- The records of a log are told apart by their indices. -/
theorem record_eq_of_idx {lines : List String} {a b : Record T}
    (ha : a ∈ parseTimestampsInLogFile parser lines)
    (hb : b ∈ parseTimestampsInLogFile parser lines) (h : a.idx = b.idx) : a = b := by
  have hnodup : ((parseTimestampsInLogFile parser lines).map Record.idx).Nodup :=
    List.pairwise_map.mpr ((pairwise_idx_parseFrom none 0 lines).imp Nat.ne_of_lt)
  exact List.inj_on_of_nodup_map hnodup ha hb h

/-! ## The sorted records -/

theorem mem_sortedRecords {logs : List (List String)} {record : Record T} :
    record ∈ sortedRecords parser logs ↔
      ∃ log ∈ logs, record ∈ parseTimestampsInLogFile parser log := by
  rw [sortedRecords, List.mem_mergeSort, List.mem_flatMap]

theorem pairwise_sortedRecords (logs : List (List String)) :
    (sortedRecords parser logs).Pairwise (Record.le parser · ·) :=
  List.pairwise_mergeSort Record.le_trans Record.le_total _

/-- The records of a log that is in order are a part of the sorted ones. -/
theorem sublist_sortedRecords {logs : List (List String)} {log : List String} (hlog : log ∈ logs)
    (hsorted : NonDecreasing parser log) (hfits : UntimedPrefixFits parser log) :
    (parseTimestampsInLogFile parser log).Sublist (sortedRecords parser logs) := by
  have hsub : (parseTimestampsInLogFile parser log).Sublist
      (logs.flatMap (parseTimestampsInLogFile parser)) := by
    rw [List.flatMap_def]
    exact List.sublist_flatten_of_mem (List.mem_map_of_mem hlog)
  exact List.sublist_mergeSort Record.le_trans Record.le_total (pairwise_parse hsorted hfits) hsub

/-- With a copy of the log, each record is there twice. -/
theorem sortedRecords_twice (log : List String) :
    sortedRecords parser [log, log] =
      (sortedRecords parser [log]).flatMap fun record => [record, record] := by
  have hrefl : ∀ record : Record T, Record.le parser record record = true :=
    fun record => Record.le_iff.mpr (.inr ⟨rfl, Nat.le_refl _⟩)
  -- two copies of the records are, in another order, each record twice
  have hperm : (sortedRecords parser [log, log]).Perm
      ((sortedRecords parser [log]).flatMap fun record => [record, record]) := by
    have htwice : (sortedRecords parser [log]).flatMap (fun record => [record, record]) |>.Perm
        (parseTimestampsInLogFile parser log ++ parseTimestampsInLogFile parser log) := by
      have happend := List.flatMap_append_perm (sortedRecords parser [log])
        (fun record => [record]) (fun record => [record])
      simp only [List.flatMap_singleton'] at happend
      have hsingle : (sortedRecords parser [log]).Perm (parseTimestampsInLogFile parser log) := by
        refine (List.mergeSort_perm _ _).trans ?_
        rw [List.flatMap_singleton]
      exact happend.symm.trans (hsingle.append hsingle)
    have hboth : (sortedRecords parser [log, log]).Perm
        (parseTimestampsInLogFile parser log ++ parseTimestampsInLogFile parser log) := by
      refine (List.mergeSort_perm _ _).trans ?_
      rw [List.flatMap_cons, List.flatMap_singleton]
    exact hboth.trans htwice.symm
  refine hperm.eq_of_pairwise ?_ (pairwise_sortedRecords _) ?_
  · intro a b ha hb hab hba
    have ha' : a ∈ parseTimestampsInLogFile parser log := by
      simpa using mem_sortedRecords.mp ha
    have hb' : b ∈ parseTimestampsInLogFile parser log := by
      simpa using mem_sortedRecords.mp (hperm.mem_iff.mpr hb)
    exact record_eq_of_idx ha' hb' (Record.idx_eq_of_le hab hba)
  · refine List.pairwise_flatMap.mpr ⟨fun record _ => ?_, ?_⟩
    · exact List.pairwise_pair.mpr (hrefl record)
    · refine (pairwise_sortedRecords [log]).imp fun {a b} hab x hx y hy => ?_
      obtain rfl : x = a := by simpa using hx
      obtain rfl : y = b := by simpa using hy
      exact hab

/-! ## The output -/

theorem mem_interleaveLogs {logs : List (List String)} {line : String} :
    line ∈ interleaveLogs parser logs ↔ ∃ log ∈ logs, line ∈ nonEmpty log := by
  have hlines : line ∈ (sortedRecords parser logs).map Record.line ↔
      ∃ log ∈ logs, line ∈ nonEmpty log := by
    simp only [List.mem_map, mem_sortedRecords, ← @map_line_parseFrom T _ parser none 0]
    constructor
    · rintro ⟨record, ⟨log, hlog, hrecord⟩, rfl⟩
      exact ⟨log, hlog, record, hrecord, rfl⟩
    · rintro ⟨log, hlog, record, hrecord, rfl⟩
      exact ⟨record, ⟨log, hlog, hrecord⟩, rfl⟩
  rw [← hlines]
  refine ⟨fun h => Neighbours.drop_sublist.subset h, fun h => ?_⟩
  exact (Neighbours.mem_drop h).resolve_left (Option.some_ne_none _).symm

/-- **Interleaving loses immediate repetitions only.** All lines are yielded, in the order of the
timestamps; each log whose untimed first lines fit before its timestamps, without immediate
repetitions of a line, is a subsequence; and a copy of a log changes nothing. -/
theorem interleaveLogs_spec (parser : Parser T) (logs : List (List String))
    (hsorted : ∀ log ∈ logs, NonDecreasing parser log) :
    (∀ line, line ∈ interleaveLogs parser logs ↔ ∃ log ∈ logs, line ∈ nonEmpty log) ∧
    (∃ records : List (Record T), interleaveLogs parser logs = records.map Record.line ∧
      records.Pairwise (fun a b => a.time parser ≤ b.time parser) ∧
      ∀ record ∈ records, ∃ log ∈ logs, record ∈ parseTimestampsInLogFile parser log) ∧
    (∀ log ∈ logs, UntimedPrefixFits parser log →
      (Neighbours.drop none (nonEmpty log)).Sublist (interleaveLogs parser logs)) ∧
    ∀ log ∈ logs, interleaveLogs parser [log, log] = interleaveLogs parser [log] := by
  refine ⟨fun line => mem_interleaveLogs, ?_, fun log hlog hfits => ?_, fun log _ => ?_⟩
  · have hsub : (interleaveLogs parser logs).Sublist
        ((sortedRecords parser logs).map Record.line) := Neighbours.drop_sublist
    obtain ⟨records, hrecords, heq⟩ := List.sublist_map_iff.mp hsub
    refine ⟨records, heq, ?_, fun record h => mem_sortedRecords.mp (hrecords.subset h)⟩
    refine ((pairwise_sortedRecords logs).sublist hrecords).imp fun {a b} hab => ?_
    rcases Record.le_iff.mp hab with hlt | ⟨heq, -⟩
    · exact hlt.le
    · exact heq.le
  · refine Neighbours.sublist_drop Neighbours.isChain_drop ?_ (fun _ _ => nofun)
    refine Neighbours.drop_sublist.trans ?_
    rw [← @map_line_parseFrom T _ parser none 0 log]
    exact (sublist_sortedRecords hlog (hsorted log hlog) hfits).map Record.line
  · rw [interleaveLogs, sortedRecords_twice, List.map_flatMap]
    have : ((sortedRecords parser [log]).flatMap fun record => [record, record].map Record.line) =
        ((sortedRecords parser [log]).map Record.line).flatMap fun line => [line, line] := by
      rw [List.flatMap_map]
      rfl
    rw [this, Neighbours.drop_twice]
    rfl

/-- Lines that start with a digit, after or before the year 2000. -/
def digits (year2000 : Nat) : Parser Nat where
  parseTimestamp line :=
    match line.toList with
    | c :: ' ' :: _ => if c.isDigit then some (c.toNat - '0'.toNat) else none
    | _ => none
  year2000 := year2000

theorem interleaveLogs_two :
    "more" ∈ interleaveLogs (digits 0) [["start", "1 a", "more"], ["2 b"]] := by
  refine ((interleaveLogs_spec (digits 0) [["start", "1 a", "more"], ["2 b"]] ?_).1 "more").mpr ?_
  · intro log hlog
    rcases List.mem_pair.mp hlog with rfl | rfl
    · show ([1] : List Nat).Pairwise (· ≤ ·)
      decide
    · show ([2] : List Nat).Pairwise (· ≤ ·)
      decide
  · exact ⟨_, List.mem_cons_self, by decide⟩

theorem mergeSort_pair {α : Type} (le : α → α → Bool) (a b : α) :
    [a, b].mergeSort le = if le a b then [a, b] else [b, a] := by
  rw [List.mergeSort]
  simp [List.MergeSort.Internal.splitInTwo, List.cons_merge_cons]

/-- A repeated line is lost, and a first line without a time is moved behind an old time. -/
theorem repeatedLine_lost :
    ¬(nonEmpty ["1 a", "1 a"]).Sublist (interleaveLogs (digits 0) [["1 a", "1 a"]]) ∧
    ¬(nonEmpty ["start", "1 a"]).Sublist (interleaveLogs (digits 5) [["start", "1 a"]]) := by
  have hrepeated : interleaveLogs (digits 0) [["1 a", "1 a"]] = ["1 a"] := by
    have hsorted : sortedRecords (digits 0) [["1 a", "1 a"]] =
        [⟨some 1, 0, "1 a"⟩, ⟨some 1, 1, "1 a"⟩] :=
      (mergeSort_pair _ (⟨some 1, 0, "1 a"⟩ : Record Nat) ⟨some 1, 1, "1 a"⟩).trans (if_pos rfl)
    rw [interleaveLogs, hsorted]
    rfl
  have hmoved : interleaveLogs (digits 5) [["start", "1 a"]] = ["1 a", "start"] := by
    have hsorted : sortedRecords (digits 5) [["start", "1 a"]] =
        [⟨some 1, 1, "1 a"⟩, ⟨none, 0, "start"⟩] :=
      (mergeSort_pair _ (⟨none, 0, "start"⟩ : Record Nat) ⟨some 1, 1, "1 a"⟩).trans
        (if_neg (by decide))
    rw [interleaveLogs, hsorted]
    rfl
  rw [hrepeated, hmoved]
  decide
end Airflow.InterleaveLogs
