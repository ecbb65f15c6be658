import Mathlib.Data.List.Basic
import ModbusMaster.Error
import ModbusMaster.Proofs.Text.Hexadecimal
import ModbusMaster.Serial.Log

/-!
The text of the diagnostic log read back. A text is cut into its lines, and a line at its blanks;
what stands behind a label and an offset are bytes in hexadecimal. `LogEntry.lines_texts` says
that the lines of a log are those of its entries, and `LogEntry.lines_tell` that all of an entry is
found in its lines.
-/

namespace ModbusMaster

/-! ### Texts of one line -/

/-- There is no line feed in a text. -/
def OneLine (text : String) : Prop :=
  '\n' ∉ text.toList

namespace OneLine

/-- A literal is the text of its characters, so these are looked at and no text is decoded. -/
theorem of_chars {chars : List Char} (h : '\n' ∉ chars) : OneLine (String.ofList chars) := by
  rw [OneLine, String.toList_ofList]
  exact h

theorem append {first second : String} (hfirst : OneLine first) (hsecond : OneLine second) :
    OneLine (first ++ second) := by
  simp only [OneLine, String.toList_append, List.mem_append, not_or]
  exact ⟨hfirst, hsecond⟩

theorem repr (n : Nat) : OneLine n.repr := by
  intro hmem
  rw [Nat.toList_repr] at hmem
  have hdigit := Nat.isDigit_of_mem_toDigits (by decide) (by decide) hmem
  exact absurd hdigit (by decide)

theorem of_alphabet {digits : List Char} (h : ∀ c ∈ digits, c ∈ Hex.alphabet) :
    OneLine (String.ofList digits) :=
  of_chars fun hmem => absurd (h _ hmem) (by decide)

theorem byteLiteral (b : UInt8) : OneLine (Hex.byteLiteral b) :=
  (of_chars (by decide)).append (of_alphabet fun _ => Hex.mem_alphabet_of_mem_byteDigits)

theorem wordLiteral (w : UInt16) : OneLine (Hex.wordLiteral w) := by
  refine (of_chars (by decide)).append (of_alphabet fun c hc => ?_)
  obtain ⟨b, -, hb⟩ := List.mem_flatMap.mp hc
  exact Hex.mem_alphabet_of_mem_byteDigits hb

/-- A number between two other texts. -/
theorem around {before after : List Char} (n : Nat) (hbefore : '\n' ∉ before)
    (hafter : '\n' ∉ after) : OneLine (String.ofList before ++ n.repr ++ String.ofList after) :=
  ((of_chars hbefore).append (repr n)).append (of_chars hafter)

/-- Two numbers between other texts. -/
theorem around_two {before middle after : List Char} (m n : Nat) (hbefore : '\n' ∉ before)
    (hmiddle : '\n' ∉ middle) (hafter : '\n' ∉ after) :
    OneLine (String.ofList before ++ m.repr ++ String.ofList middle ++ n.repr ++
      String.ofList after) :=
  ((around m hbefore hmiddle).append (repr n)).append (of_chars hafter)

end OneLine

theorem IoError.message_oneLine (kind : IoError) : OneLine kind.message := by
  have htable : ∀ row ∈ table, OneLine row.2.2 := by
    refine List.forall_iff_forall_mem.mp ?_
    repeat' apply And.intro
    all_goals exact .of_chars (by decide)
  unfold message
  cases hrow : table.find? fun row => row.1 == kind with
  | none => exact .of_chars (by decide)
  | some row => exact htable row (List.mem_of_find?_eq_some hrow)

theorem ExceptionCode.message_oneLine (code : ExceptionCode) : OneLine code.message := by
  cases code with
  | unknown code => exact .around code.toNat (by decide) (by decide)
  | _ => exact .of_chars (by decide)

theorem InvalidRequest.message_oneLine (cause : InvalidRequest) : OneLine cause.message := by
  cases cause with
  | badRange range =>
    cases range with
    | countOfZero => exact .of_chars (by decide)
    | addressOverflow => exact .around_two _ _ (by decide) (by decide) (by decide)
    | countTooLargeForType => exact .around_two _ _ (by decide) (by decide) (by decide)
  | countTooBigForWord => exact .around _ (by decide) (by decide)
  | frameTooBig => exact (OneLine.around _ (by decide) (by decide)).append (.repr _)
  | lengthByteOverflow => exact .around _ (by decide) (by decide)

theorem FrameError.message_oneLine (cause : FrameError) : OneLine cause.message := by
  cases cause with
  | crcMismatch received expected =>
    have hreceived : OneLine ("received crc " ++ Hex.wordLiteral received) :=
      (OneLine.of_chars (by decide)).append (.wordLiteral received)
    have hmiddle : OneLine " does not match calculated crc " := .of_chars (by decide)
    exact (hreceived.append hmiddle).append (.wordLiteral expected)
  | tooShort => exact (OneLine.around _ (by decide) (by decide)).append (.repr _)
  | frameTooBig => exact (OneLine.around _ (by decide) (by decide)).append (.repr _)

theorem ReplyError.message_oneLine (cause : ReplyError) : OneLine cause.message := by
  cases cause with
  | unexpectedFunction echo function =>
    have hecho : OneLine ("response function code " ++ Hex.byteLiteral echo) :=
      (OneLine.of_chars (by decide)).append (.byteLiteral echo)
    have hmiddle : OneLine " does not match request " := .of_chars (by decide)
    exact (hecho.append hmiddle).append (.byteLiteral function)
  | byteCountMismatch => exact (OneLine.around _ (by decide) (by decide)).append (.repr _)
  | replyEchoMismatch => exact .of_chars (by decide)
  | unknownCoilState state => exact (OneLine.of_chars (by decide)).append (.wordLiteral state)

/-- The message of an error stands on one line. -/
theorem RequestError.message_oneLine (error : RequestError) : OneLine error.message := by
  cases error with
  | io kind => exact (OneLine.of_chars (by decide)).append kind.message_oneLine
  | exception code => exact (OneLine.of_chars (by decide)).append code.message_oneLine
  | badRequest cause => exact (OneLine.of_chars (by decide)).append cause.message_oneLine
  | badFrame cause => exact (OneLine.of_chars (by decide)).append cause.message_oneLine
  | badResponse cause => exact (OneLine.of_chars (by decide)).append cause.message_oneLine
  | _ => exact .of_chars (by decide)

/-! ### Pieces -/

section Pieces

variable {α : Type} {size : Nat} {xs : List α}

theorem length_chunks : (chunks size xs).length = (xs.length + size - 1) / size := by
  rw [chunks, List.length_map, List.length_range]

theorem getElem?_chunks {i : Nat} {piece : List α} (h : (chunks size xs)[i]? = some piece) :
    piece = (xs.drop (i * size)).take size := by
  rw [chunks, List.getElem?_map] at h
  cases hi : (List.range ((xs.length + size - 1) / size))[i]? with
  | none =>
    rw [hi] at h
    cases h
  | some j =>
    have hj : j = i := by
      obtain ⟨_, hj⟩ := List.getElem?_eq_some_iff.mp hi
      rw [List.getElem_range] at hj
      exact hj.symm
    rw [hi, hj] at h
    exact (Option.some.inj h).symm

/-- The first pieces are the first elements. -/
theorem flatten_pieces (count : Nat) :
    ((List.range count).map fun i => (xs.drop (i * size)).take size).flatten =
      xs.take (count * size) := by
  induction count with
  | zero => rw [Nat.zero_mul, List.take_zero]; rfl
  | succ count ih =>
    rw [List.range_succ, List.map_append, List.flatten_append, ih, List.map_singleton,
      List.flatten_singleton, ← List.take_add, Nat.succ_mul]

theorem flatten_chunks (hsize : 0 < size) : (chunks size xs).flatten = xs := by
  rw [chunks, flatten_pieces]
  apply List.take_of_length_le
  have hmod := Nat.mod_lt (xs.length + size - 1) hsize
  have hdiv := Nat.div_add_mod (xs.length + size - 1) size
  rw [Nat.mul_comm] at hdiv
  omega

/-- No piece is empty or longer than the others, and only the last one is shorter. -/
theorem length_of_mem_chunks (hsize : 0 < size) {i : Nat} {piece : List α}
    (h : (chunks size xs)[i]? = some piece) :
    0 < piece.length ∧ piece.length ≤ size ∧
      (i + 1 < (chunks size xs).length → piece.length = size) := by
  have hpiece := getElem?_chunks h
  have hi : i < (xs.length + size - 1) / size := by
    rw [← length_chunks]
    exact (List.getElem?_eq_some_iff.mp h).1
  have hstart : (i + 1) * size ≤ xs.length + size - 1 :=
    (Nat.le_div_iff_mul_le hsize).mp hi
  have hlength : piece.length = min size (xs.length - i * size) := by
    rw [hpiece, List.length_take, List.length_drop]
  rw [Nat.succ_mul] at hstart
  refine ⟨by omega, by omega, ?_⟩
  intro hnext
  rw [length_chunks] at hnext
  have hend : (i + 1 + 1) * size ≤ xs.length + size - 1 :=
    (Nat.le_div_iff_mul_le hsize).mp hnext
  rw [Nat.succ_mul, Nat.succ_mul] at hend
  omega

end Pieces

/-! ### Lines -/

namespace Text

/-- The lines of a text in which a line feed ends every line. -/
def lines (text : String) : List String :=
  (text.toList.splitOn '\n').dropLast.map String.ofList

theorem splitOn_join (rows : List String) (h : ∀ row ∈ rows, OneLine row) :
    (String.join (rows.map (· ++ "\n"))).toList.splitOn '\n' =
      rows.map String.toList ++ [[]] := by
  induction rows with
  | nil => rfl
  | cons row rest ih =>
    obtain ⟨hrow, hrest⟩ := List.forall_mem_cons.mp h
    have hfeed : "\n".toList = ['\n'] := rfl
    rw [List.map_cons, String.join_cons, String.toList_append, String.toList_append, hfeed,
      List.append_assoc, List.singleton_append, List.splitOn_append_cons_self_of_not_mem hrow,
      ih hrest]
    rfl

/-- Lines that were written one after the other are read one after the other. -/
theorem lines_join (rows : List String) (h : ∀ row ∈ rows, OneLine row) :
    lines (String.join (rows.map (· ++ "\n"))) = rows := by
  rw [lines, splitOn_join rows h, List.dropLast_concat, List.map_map]
  exact List.map_id'' (fun _ => String.ofList_toList) rows

end Text

namespace Serial.LogEntry

/-- What a line shows behind a label: the digits of an offset, and bytes. -/
def shown? (label line : String) : Option (List Char × Bytes) :=
  match line.toList.splitOn ' ' with
  | first :: offset :: digits =>
      if first = label.toList ++ [':'] then (Hex.bytes? digits.flatten).map (offset, ·) else none
  | _ => none

/-- Rows that show bytes: each but the last has sixteen of them, behind their offset. -/
structure Rows (bytes : Bytes) (rows : List (List Char × Bytes)) : Prop where
  whole : rows.flatMap (·.2) = bytes
  offset : ∀ (i : Nat) row, rows[i]? = some row → Hex.Shows 4 (16 * i) row.1
  length : ∀ (i : Nat) row, rows[i]? = some row → 0 < row.2.length ∧ row.2.length ≤ 16 ∧
    (i + 1 < rows.length → row.2.length = 16)

variable {label : String} {bytes chunk : Bytes}

theorem blank_not_mem_byteDigits (b : UInt8) : ' ' ∉ Hex.byteDigits b :=
  fun hmem => absurd (Hex.mem_alphabet_of_mem_byteDigits hmem) (by decide)

theorem splitOn_spaced (h : chunk ≠ []) :
    (Hex.spaced chunk).toList.splitOn ' ' = chunk.map Hex.byteDigits := by
  have hbytes : (chunk.map Hex.byte).map String.toList = chunk.map Hex.byteDigits := by
    rw [List.map_map]
    exact List.map_congr_left fun b _ => String.toList_ofList
  have hblank : " ".toList = [' '] := rfl
  rw [Hex.spaced, String.toList_intercalate, hbytes, hblank]
  apply List.splitOn_intercalate
  · intro digits hdigits
    obtain ⟨b, -, rfl⟩ := List.mem_map.mp hdigits
    exact blank_not_mem_byteDigits b
  · exact fun hnil => h (List.map_eq_nil_iff.mp hnil)

theorem toList_line (label : String) (offset : Nat) (chunk : Bytes) :
    (label ++ ": " ++ Hex.padded 4 offset ++ " " ++ Hex.spaced chunk).toList =
      (label.toList ++ [':']) ++ ' ' :: ((Hex.padded 4 offset).toList ++
        ' ' :: (Hex.spaced chunk).toList) := by
  have hcolon : ": ".toList = [':', ' '] := rfl
  have hblank : " ".toList = [' '] := rfl
  simp only [String.toList_append, hcolon, hblank, List.append_assoc, List.cons_append,
    List.nil_append]

theorem blank_not_mem_label (hlabel : ' ' ∉ label.toList) : ' ' ∉ label.toList ++ [':'] := by
  rw [List.mem_append, List.mem_singleton]
  exact fun hmem => hmem.elim hlabel (by decide)

/-- A line of a dump as its fields. -/
theorem splitOn_line (hlabel : ' ' ∉ label.toList) (offset : Nat) (h : chunk ≠ []) :
    (label ++ ": " ++ Hex.padded 4 offset ++ " " ++ Hex.spaced chunk).toList.splitOn ' ' =
      (label.toList ++ [':']) :: (Hex.padded 4 offset).toList :: chunk.map Hex.byteDigits := by
  have hoffset : ' ' ∉ (Hex.padded 4 offset).toList := fun hmem =>
    absurd ((Hex.padded_shows (by decide) offset).upper _ hmem) (by decide)
  rw [toList_line, List.splitOn_append_cons_self_of_not_mem (blank_not_mem_label hlabel),
    List.splitOn_append_cons_self_of_not_mem hoffset, splitOn_spaced h]

theorem shown?_line (hlabel : ' ' ∉ label.toList) (offset : Nat) (h : chunk ≠ []) :
    shown? label (label ++ ": " ++ Hex.padded 4 offset ++ " " ++ Hex.spaced chunk) =
      some ((Hex.padded 4 offset).toList, chunk) := by
  have hdigits : (chunk.map Hex.byteDigits).flatten = chunk.flatMap Hex.byteDigits := rfl
  rw [shown?, splitOn_line hlabel offset h]
  dsimp only
  rw [if_pos rfl, hdigits, Hex.bytes?_flatMap_byteDigits]
  rfl

/-- The rows of a dump. -/
def rows (bytes : Bytes) : List (List Char × Bytes) :=
  (chunks 16 bytes).mapIdx fun i chunk => ((Hex.padded 4 (16 * i)).toList, chunk)

theorem getElem?_rows {i : Nat} {row : List Char × Bytes} (h : (rows bytes)[i]? = some row) :
    (chunks 16 bytes)[i]? = some row.2 ∧ row.1 = (Hex.padded 4 (16 * i)).toList := by
  rw [rows, List.getElem?_mapIdx, Option.map_eq_some_iff] at h
  obtain ⟨chunk, hchunk, rfl⟩ := h
  refine ⟨hchunk, ?_⟩
  dsimp only

theorem rows_show (bytes : Bytes) : Rows bytes (rows bytes) where
  whole := by
    have hchunks : (rows bytes).map (·.2) = chunks 16 bytes := by
      apply List.ext_getElem?
      intro i
      rw [List.getElem?_map, rows, List.getElem?_mapIdx, Option.map_map]
      exact Option.map_id_apply
    rw [List.flatMap_def, hchunks, flatten_chunks (by decide)]
  offset := by
    intro i row hrow
    rw [(getElem?_rows hrow).2]
    exact Hex.padded_shows (by decide) (16 * i)
  length := by
    intro i row hrow
    have hlength := length_of_mem_chunks (by decide) (getElem?_rows hrow).1
    rw [rows, List.length_mapIdx]
    exact hlength

/-- Every line of a dump is read back under its label. -/
theorem map_shown?_dump (hlabel : ' ' ∉ label.toList) :
    (dump label bytes).map (shown? label) = (rows bytes).map some := by
  apply List.ext_getElem?
  intro i
  rw [List.getElem?_map, List.getElem?_map, dump, rows, List.getElem?_mapIdx,
    List.getElem?_mapIdx, Option.map_map, Option.map_map]
  cases hchunk : (chunks 16 bytes)[i]? with
  | none => rfl
  | some chunk =>
    have hlength := (length_of_mem_chunks (by decide) hchunk).1
    have hline := shown?_line hlabel (16 * i) (List.ne_nil_of_length_pos hlength)
    exact congrArg some hline

theorem shown?_isSome_of_mem_dump (hlabel : ' ' ∉ label.toList) {line : String}
    (h : line ∈ dump label bytes) : (shown? label line).isSome := by
  have hmem : shown? label line ∈ (rows bytes).map some := by
    rw [← map_shown?_dump hlabel]
    exact List.mem_map_of_mem h
  obtain ⟨row, -, hrow⟩ := List.mem_map.mp hmem
  rw [← hrow]
  rfl

theorem filterMap_shown?_dump (hlabel : ' ' ∉ label.toList) :
    (dump label bytes).filterMap (shown? label) = rows bytes := by
  have hmap : (dump label bytes).map (shown? label) = (rows bytes).map some :=
    map_shown?_dump hlabel
  have hshown := congrArg (List.filterMap id) hmap
  rw [List.filterMap_map, List.filterMap_map] at hshown
  exact hshown.trans List.filterMap_some

/-- A line whose first field is not the label shows nothing under it. -/
theorem shown?_of_ne {line : String} {first rest : List Char}
    (hline : line.toList = first ++ ' ' :: rest) (hfirst : ' ' ∉ first)
    (hne : first ≠ label.toList ++ [':']) : shown? label line = none := by
  rw [shown?, hline, List.splitOn_append_cons_self_of_not_mem hfirst]
  cases List.splitOn ' ' rest with
  | nil => rfl
  | cons offset digits => exact if_neg hne

theorem filterMap_shown?_dump_of_ne {other : String} (hother : ' ' ∉ other.toList)
    (hne : other.toList ++ [':'] ≠ label.toList ++ [':']) :
    (dump other bytes).filterMap (shown? label) = [] := by
  apply List.filterMap_eq_nil_iff.mpr
  intro line hline
  obtain ⟨i, hi, rfl⟩ := List.mem_mapIdx.mp hline
  exact shown?_of_ne (toList_line other (16 * i) _) (blank_not_mem_label hother) hne

/-! ### Entries -/

variable {entry : LogEntry} {time : String}

/-- The line with the reason, from its first blank on. -/
theorem toList_failure (reason time : String) : s!"Failure ({reason}) at {time}".toList =
    "Failure".toList ++ ' ' :: ('(' :: (reason ++ ") at " ++ time).toList) := by
  have hfirst : "Failure (".toList = "Failure".toList ++ [' ', '('] := rfl
  show ("Failure (" ++ reason ++ ") at " ++ time).toList = _
  simp only [String.toList_append, hfirst, List.append_assoc, List.cons_append, List.nil_append]

theorem oneLine_failure {reason : String} (hreason : OneLine reason) (htime : OneLine time) :
    OneLine s!"Failure ({reason}) at {time}" := by
  have hfirst : OneLine "Failure (" := .of_chars (by decide)
  have hmiddle : OneLine ") at " := .of_chars (by decide)
  exact ((hfirst.append hreason).append hmiddle).append htime

theorem oneLine_spaced (bytes : Bytes) : OneLine (Hex.spaced bytes) := by
  have hbyte : ∀ b, OneLine (Hex.byte b) := fun b =>
    .of_alphabet fun _ => Hex.mem_alphabet_of_mem_byteDigits
  unfold Hex.spaced
  induction bytes with
  | nil => exact .of_chars List.not_mem_nil
  | cons b rest ih =>
    cases rest with
    | nil => exact hbyte b
    | cons c rest =>
      rw [List.map_cons, List.map_cons, String.intercalate_cons_cons]
      exact ((hbyte b).append (.of_chars (by decide))).append ih

theorem oneLine_dump (hlabel : OneLine label) : ∀ line ∈ dump label bytes, OneLine line := by
  intro line hline
  obtain ⟨i, hi, rfl⟩ := List.mem_mapIdx.mp hline
  have hcolon : OneLine ": " := .of_chars (by decide)
  have hoffset : OneLine (Hex.padded 4 (16 * i)) := fun hmem =>
    absurd ((Hex.padded_shows (by decide) (16 * i)).upper _ hmem) (by decide)
  have hblank : OneLine " " := .of_chars (by decide)
  exact (((hlabel.append hcolon).append hoffset).append hblank).append (oneLine_spaced _)

theorem oneLine_lines (hreason : OneLine entry.reason) (htime : OneLine time) :
    ∀ line ∈ entry.lines time, OneLine line := by
  have hseparator : OneLine separator := .of_chars (by decide)
  have hsilence : OneLine "Recv: No response" := .of_chars (by decide)
  have hsend : OneLine "Send" := .of_chars (by decide)
  have hrecv : OneLine "Recv" := .of_chars (by decide)
  intro line hline
  rw [lines, List.mem_append, List.mem_append] at hline
  rcases hline with (hhead | hsent) | hreceived
  · rcases List.mem_pair.mp hhead with rfl | rfl
    · exact hseparator
    · exact oneLine_failure hreason htime
  · exact oneLine_dump hsend line hsent
  · by_cases hempty : entry.received = []
    · rw [if_pos hempty, List.mem_singleton] at hreceived
      rw [hreceived]
      exact hsilence
    · rw [if_neg hempty] at hreceived
      exact oneLine_dump hrecv line hreceived

/-- The two lines above the dumps show no bytes. -/
theorem filterMap_shown?_head (hlabel : label.toList ++ [':'] ≠ "Failure".toList)
    (reason : String) :
    [separator, s!"Failure ({reason}) at {time}"].filterMap (shown? label) = [] := by
  have hseparator : shown? label separator = none := by
    rw [shown?, List.splitOn_eq_singleton (by decide)]
  have hfailure : shown? label s!"Failure ({reason}) at {time}" = none :=
    shown?_of_ne (toList_failure reason time) (by decide) hlabel.symm
  rw [List.filterMap_cons_none hseparator, List.filterMap_cons_none hfailure]
  rfl

theorem filterMap_shown?_sent (entry : LogEntry) (time : String) :
    (entry.lines time).filterMap (shown? "Send") = rows entry.sent := by
  have hreceived : (if entry.received = [] then ["Recv: No response"]
      else dump "Recv" entry.received).filterMap (shown? "Send") = [] := by
    by_cases hempty : entry.received = []
    · rw [if_pos hempty]
      rfl
    · rw [if_neg hempty]
      exact filterMap_shown?_dump_of_ne (by decide) (by decide)
  rw [lines, List.filterMap_append, List.filterMap_append, hreceived, List.append_nil,
    filterMap_shown?_head (by decide), filterMap_shown?_dump (by decide), List.nil_append]

theorem filterMap_shown?_received (entry : LogEntry) (time : String) :
    (entry.lines time).filterMap (shown? "Recv") = rows entry.received := by
  have hreceived : (if entry.received = [] then ["Recv: No response"]
      else dump "Recv" entry.received).filterMap (shown? "Recv") = rows entry.received := by
    by_cases hempty : entry.received = []
    · rw [if_pos hempty, hempty]
      rfl
    · rw [if_neg hempty]
      exact filterMap_shown?_dump (by decide)
  rw [lines, List.filterMap_append, List.filterMap_append, hreceived,
    filterMap_shown?_head (by decide), filterMap_shown?_dump_of_ne (by decide) (by decide),
    List.nil_append, List.nil_append]

theorem silence_mem_lines_iff :
    "Recv: No response" ∈ entry.lines time ↔ entry.received = [] := by
  constructor
  · intro hmem
    by_contra hempty
    rw [lines, if_neg hempty, List.mem_append, List.mem_append] at hmem
    rcases hmem with (hhead | hsent) | hreceived
    · rcases List.mem_pair.mp hhead with heq | heq
      · exact absurd heq (by decide)
      · have hfirst := congrArg (fun line => line.toList.head?) heq
        simp only [toList_failure] at hfirst
        exact absurd hfirst (by simp)
    · exact absurd (shown?_isSome_of_mem_dump (by decide) hsent) (by decide)
    · exact absurd (shown?_isSome_of_mem_dump (by decide) hreceived) (by decide)
  · intro hempty
    rw [lines, if_pos hempty]
    exact List.mem_append_right _ (List.mem_singleton_self _)

/-- What the lines of an entry tell: the error, the frame that was sent and the bytes that came
back, or that none did. -/
structure Tells (lines : List String) (reason : String) (sent received : Bytes) : Prop where
  failure : ∃ time : String, lines[1]? = some s!"Failure ({reason}) at {time}"
  send : Rows sent (lines.filterMap (shown? "Send"))
  recv : Rows received (lines.filterMap (shown? "Recv"))
  silence : "Recv: No response" ∈ lines ↔ received = []

theorem lines_tell (entry : LogEntry) (time : String) :
    Tells (entry.lines time) entry.reason entry.sent entry.received where
  failure := ⟨time, rfl⟩
  send := by
    rw [filterMap_shown?_sent]
    exact rows_show entry.sent
  recv := by
    rw [filterMap_shown?_received]
    exact rows_show entry.received
  silence := silence_mem_lines_iff

/-- The text of entries that are appended one after the other, each with its time of day. -/
def texts (stamped : List (LogEntry × String)) : String :=
  String.join (stamped.map fun stamp => stamp.1.text stamp.2)

theorem texts_eq (stamped : List (LogEntry × String)) : texts stamped =
    String.join ((stamped.flatMap fun stamp => stamp.1.lines stamp.2).map (· ++ "\n")) := by
  induction stamped with
  | nil => rfl
  | cons stamp rest ih =>
    rw [texts] at ih ⊢
    rw [List.map_cons, List.flatMap_cons, String.join_cons, ih, List.map_append,
      String.join_append]
    rfl

/-- The lines of a log are those of its entries. -/
theorem lines_texts {stamped : List (LogEntry × String)}
    (h : ∀ stamp ∈ stamped, OneLine stamp.1.reason ∧ OneLine stamp.2) :
    Text.lines (texts stamped) = stamped.flatMap fun stamp => stamp.1.lines stamp.2 := by
  rw [texts_eq]
  apply Text.lines_join
  intro line hline
  obtain ⟨stamp, hstamp, hmem⟩ := List.mem_flatMap.mp hline
  exact oneLine_lines (h stamp hstamp).1 (h stamp hstamp).2 line hmem

end Serial.LogEntry

end ModbusMaster
