import RtpBenchmarks.Foundation.Collect
import RtpBenchmarks.Foundation.TextOrder
import RtpBenchmarks.Foundation.Words
import RtpBenchmarks.Results.FileNames
import RtpBenchmarks.Results.ParseRecv
import RtpBenchmarks.Results.ParseSend

set_option autoImplicit false

/-!
# Tables of a result directory (`parse_csv`)

`parse_csv` reads every file of a directory whose name has a role in it.  The values of a file
go as text under the thread count and the frame rate of its name, those of a receiver in front
of what is already there and those of a sender behind it.  Later the texts are split again, and
the values are told apart by their position.
-/

namespace RtpBenchmarks.Results

open RtpBenchmarks.Foundation
open RtpBenchmarks.Scripts

/-! ## Files -/

/-- A file of the directory. -/
structure CsvFile where
  name : List Char
  text : List Char
  deriving DecidableEq

/-- The arguments of `parse_csv` besides the directory, and the text of a number. -/
structure CsvOptions where
  lib : String
  iter : List Char
  unit : String
  filesize : ℚ
  number : ℚ → List Char
  isWord_number : ∀ q, IsWord isSpace (number q)

/-- `convert_bytes_to_unit`. -/
def convertBytesToUnit (bytes : ℚ) (unit : String) : ℚ :=
  if unit = "mbit" ∨ unit = "Mbit" then 8 * (bytes / 1000 / 1000)
  else if unit = "mb" ∨ unit = "MB" then bytes / 1000 / 1000
  else 8 * (bytes / 1000 / 1000 / 1000)

/-- `$threads`, `$ofps` and `$fiter`, empty where the name is not recognised. -/
def csvFields (filename : List Char) : List Char × List Char × List Char :=
  match namePattern.search filename with
  | some [threads, ofps, fiter] => (threads, ofps, fiter)
  | _ => ([], [], [])

/-- `"$threads $fps"`. -/
def csvKey (threads ofps : List Char) : List Char :=
  threads ++ ' ' :: padded 5 (digitsValue ofps)

/-- `@values` of a receiver. -/
def RecvValues.list (v : RecvValues) : List ℚ :=
  [v.usr, v.sys, v.cpu, v.total, v.frameLoss, v.bytes, v.goodput]

/-- `@values` of a sender. -/
def SendValues.list (v : SendValues) : List ℚ :=
  [v.usr, v.sys, v.cpu, v.total, v.sgp, v.tgp]

/-- `$data_rate`. -/
def csvDataRate (o : CsvOptions) (ofps : List Char) : ℚ :=
  convertBytesToUnit (digitsValue ofps * o.filesize / getFrameCount o.lib) o.unit

/-- `grep /(recv|send)/`. -/
def isResultFile (file : CsvFile) : Bool :=
  (Pattern.alt (.word "recv".toList) (.word "send".toList)).occursIn file.name

/-- `grep /recv/, $filename`. -/
def isRecvFile (file : CsvFile) : Bool :=
  (Pattern.word "recv".toList).occursIn file.name

/-- What a file adds to the table, read for `iter` rounds: its key and its values; `none` where
the program dies. -/
def csvEntry (o : CsvOptions) (iter : List Char) (file : CsvFile) :
    Option (Piece (List Char) (List (List Char))) :=
  let (threads, ofps, _) := csvFields file.name
  let key := csvKey threads ofps
  if isRecvFile file then
    (parseRecv o.lib (digitsValue iter) (digitsValue threads) o.unit o.filesize file.text).map
      fun v => { key, front := true, value := v.list.map o.number }
  else
    (parseSend (digitsValue iter) (digitsValue threads) o.unit o.filesize file.text).map
      fun v =>
        { key, front := false
          value := v.list.map o.number ++ [ofps, o.number (csvDataRate o ofps)] }

/-- `$a . " " . $b`. -/
def glueText (a b : List Char) : List Char :=
  a ++ ' ' :: b

/-- `$iter`, `%result_ids`, `$recv_present` and `$send_present`. -/
structure CsvState where
  iter : List Char
  resultIds : AList fun _ : List Char => List Char
  recvPresent : Nat
  sendPresent : Nat

/-- The body of the loop over the files. -/
def csvStep (o : CsvOptions) (s : CsvState) (file : CsvFile) : Option CsvState :=
  let (_, _, fiter) := csvFields file.name
  let iter := if isTrue fiter then fiter else s.iter
  if isTrue iter then
    match csvEntry o iter file with
    | none => none
    | some entry =>
      some
        { iter
          resultIds := put glueText s.resultIds { entry with value := join [' '] entry.value }
          recvPresent := if entry.front then s.recvPresent + 1 else s.recvPresent
          sendPresent := if entry.front then s.sendPresent else s.sendPresent + 1 }
  -- unable to determine iter
  else some { s with iter }

/-- The loop over the files. -/
def csvFiles (o : CsvOptions) (dir : List CsvFile) : Option CsvState :=
  (dir.filter isResultFile).foldlM (csvStep o)
    { iter := o.iter, resultIds := ∅, recvPresent := 0, sendPresent := 0 }

/-! ## The table -/

/-- The rows of a block: the text in front, the position of the values and what follows. -/
def csvRows (unit : String) : List (List Char × Nat × List Char) :=
  let unit := unit.toList
  [ ("fps;".toList, 13, "\n".toList),
    ("datarate (".toList ++ unit ++ ");".toList, 14, "\n\n".toList),
    ("send user time (s);".toList, 7, "\n".toList),
    ("send system time (s);".toList, 8, "\n".toList),
    ("send elapsed time (s);".toList, 10, "\n".toList),
    ("send CPU usage (%);".toList, 9, "\n".toList),
    ("send goodput (".toList ++ unit ++ ");".toList, 11, "\n".toList),
    ("total send goodput (".toList ++ unit ++ ");".toList, 12, "\n\n".toList),
    ("recv user time (s);".toList, 0, "\n".toList),
    ("recv system time (s);".toList, 1, "\n".toList),
    ("recv elapsed time (s);".toList, 3, "\n".toList),
    ("recv CPU usage (%);".toList, 2, "\n".toList),
    ("frame loss (%);".toList, 4, "\n".toList),
    ("bytes received (%);".toList, 5, "\n".toList),
    ("recv goodput (".toList ++ unit ++ ");".toList, 6, "\n\n".toList) ]

/-- A block, from `@comp` of each of its columns. -/
def csvBlock (unit : String) (columns : List (List (List Char))) : List Char :=
  (csvRows unit).flatMap fun row =>
    row.1 ++ join [';'] (columns.map fun comp => comp.getD row.2.1 []) ++ row.2.2

/-- `"$threads_of_result threads;\n"`. -/
def csvHeading (threads : List Char) : List Char :=
  threads ++ " threads;\n".toList

/-- The loop over the sorted keys, with `$previous_threads` and the columns since then, and the
last block. -/
def csvLoop (unit : String) : Nat → List (List (List Char)) →
    List (List Char × List Char) → List Char
  | _, columns, [] => csvBlock unit columns
  | previous, columns, (key, text) :: rest =>
    let threads := (words isSpace key).headD []
    let comp := words isSpace text
    if digitsValue threads ≠ previous then
      (if threads ≠ ['1'] then csvBlock unit columns else []) ++ csvHeading threads ++
        csvLoop unit (digitsValue threads) [comp] rest
    else csvLoop unit previous (columns ++ [comp]) rest

/-- The lines in front of the blocks. -/
def csvPreamble (o : CsvOptions) : List Char :=
  "File size (".toList ++ o.unit.toList ++ "); ".toList ++
    o.number (convertBytesToUnit o.filesize o.unit) ++ "; \n".toList ++
    "Frame count; ".toList ++ o.number (getFrameCount o.lib) ++ ";\n\n".toList

/-- `%result_ids` by `sort(keys %result_ids)`. -/
def sortedIds (ids : AList fun _ : List Char => List Char) : List (List Char × List Char) :=
  (ids.keys.mergeSort textLe).map fun key => (key, (ids.lookup key).getD [])

/-- `parse_csv`: the text of the table; `none` where the program dies. -/
def parseCsv (o : CsvOptions) (dir : List CsvFile) : Option (List Char) := do
  let s ← csvFiles o dir
  if s.recvPresent ≠ s.sendPresent then none
  else some (csvPreamble o ++ csvLoop o.unit 0 [] (sortedIds s.resultIds))

/-! ## Files that are read -/

/-- The name of the file is recognised, with its rounds, and its contents are read. -/
def Reads (o : CsvOptions) (file : CsvFile) (entry : Piece (List Char) (List (List Char))) :
    Prop :=
  isResultFile file = true ∧ isTrue (csvFields file.name).2.2 = true ∧
    csvEntry o (csvFields file.name).2.2 file = some entry

/-- The values of an entry are words, and there are some. -/
def HasWords (value : List (List Char)) : Prop :=
  value ≠ [] ∧ ∀ word ∈ value, IsWord isSpace word

section Read

variable {o : CsvOptions} {file : CsvFile} {entry : Piece (List Char) (List (List Char))}

theorem isWord_of_isDigits {digits : List Char} (h : IsDigits digits) :
    IsWord isSpace digits := by
  refine ⟨h.1, fun c hc => ?_⟩
  have hdigit := h.2 c hc
  simp only [Char.isDigit, Bool.and_eq_true, decide_eq_true_eq] at hdigit
  have hlow : 48 ≤ c.toNat := UInt32.le_iff_toNat_le.mp hdigit.1
  have hblank : (c == ' ') = false := by
    refine beq_eq_false_iff_ne.mpr ?_
    rintro rfl
    exact absurd hlow (by decide)
  rw [isSpace, hblank, Bool.false_or, Bool.and_eq_false_iff]
  exact .inr (decide_eq_false (by omega))

theorem isDigits_ofps (h : isTrue (csvFields file.name).2.2 = true) :
    IsDigits (csvFields file.name).2.1 := by
  unfold csvFields at h ⊢
  split
  · rename_i threads ofps fiter hsearch
    exact Pattern.forall_of_search records_namePattern hsearch ofps (by simp)
  · rename_i hnone
    split at h
    · rename_i hsearch
      exact absurd hsearch (hnone _ _ _)
    · cases h

theorem Reads.hasWords (h : Reads o file entry) : HasWords entry.value := by
  obtain ⟨-, hiter, hentry⟩ := h
  have hofps := isWord_of_isDigits (isDigits_ofps hiter)
  have hnumbers (qs : List ℚ) : ∀ word ∈ qs.map o.number, IsWord isSpace word := by
    intro word hword
    obtain ⟨q, -, rfl⟩ := List.mem_map.mp hword
    exact o.isWord_number q
  unfold csvEntry at hentry
  dsimp only at hentry
  split_ifs at hentry
  · obtain ⟨v, -, rfl⟩ := Option.map_eq_some_iff.mp hentry
    exact ⟨by simp [RecvValues.list], hnumbers _⟩
  · obtain ⟨v, -, rfl⟩ := Option.map_eq_some_iff.mp hentry
    refine ⟨by simp, List.forall_mem_append.mpr ⟨hnumbers _, ?_⟩⟩
    simp only [List.forall_mem_cons]
    exact ⟨hofps, o.isWord_number _, by simp⟩

/-- The key and the side of an entry come from the name, the number of its values from the
role. -/
theorem Reads.shape (h : Reads o file entry) :
    entry.key = csvKey (csvFields file.name).1 (csvFields file.name).2.1 ∧
      entry.front = isRecvFile file ∧ entry.value.length = if entry.front then 7 else 8 := by
  obtain ⟨-, -, hentry⟩ := h
  unfold csvEntry at hentry
  dsimp only at hentry
  split_ifs at hentry with hrole
  · obtain ⟨v, -, rfl⟩ := Option.map_eq_some_iff.mp hentry
    exact ⟨rfl, hrole.symm, rfl⟩
  · obtain ⟨v, -, rfl⟩ := Option.map_eq_some_iff.mp hentry
    exact ⟨rfl, (Bool.eq_false_iff.mpr hrole).symm, rfl⟩

/-- The entry as the text that goes into the hash. -/
def textPiece (entry : Piece (List Char) (List (List Char))) : Piece (List Char) (List Char) :=
  { entry with value := join [' '] entry.value }

theorem csvStep_reads (h : Reads o file entry) (s : CsvState) :
    csvStep o s file =
      some
        { iter := (csvFields file.name).2.2
          resultIds := put glueText s.resultIds (textPiece entry)
          recvPresent := if entry.front then s.recvPresent + 1 else s.recvPresent
          sendPresent := if entry.front then s.sendPresent else s.sendPresent + 1 } := by
  obtain ⟨-, hiter, hentry⟩ := h
  simp only [csvStep, hiter, if_true, hentry]
  rfl

variable {ι : Type} {is : List ι} {files : ι → CsvFile}
  {entries : ι → Piece (List Char) (List (List Char))}

/-- The loop over files that are read puts all entries into the hash and counts them. -/
theorem foldlM_csvStep_reads (h : ∀ i ∈ is, Reads o (files i) (entries i)) (s : CsvState) :
    ∃ s', (is.map files).foldlM (csvStep o) s = some s' ∧
      s'.resultIds = (is.map fun i => textPiece (entries i)).foldl (put glueText) s.resultIds ∧
      s'.recvPresent = s.recvPresent + is.countP (fun i => (entries i).front) ∧
      s'.sendPresent = s.sendPresent + is.countP fun i => !(entries i).front := by
  induction is generalizing s with
  | nil => exact ⟨s, rfl, rfl, rfl, rfl⟩
  | cons i is ih =>
    obtain ⟨hi, his⟩ := List.forall_mem_cons.mp h
    obtain ⟨s', hrun, hids, hrecv, hsend⟩ := ih his
      { iter := (csvFields (files i).name).2.2
        resultIds := put glueText s.resultIds (textPiece (entries i))
        recvPresent := if (entries i).front then s.recvPresent + 1 else s.recvPresent
        sendPresent := if (entries i).front then s.sendPresent else s.sendPresent + 1 }
    refine ⟨s', ?_, hids, ?_, ?_⟩
    · rw [List.map_cons, List.foldlM_cons, csvStep_reads hi]
      exact hrun
    · rw [hrecv, List.countP_cons]
      cases (entries i).front <;> simp [Nat.add_assoc, Nat.add_comm]
    · rw [hsend, List.countP_cons]
      cases (entries i).front <;> simp [Nat.add_assoc, Nat.add_comm]

theorem csvFiles_reads (h : ∀ i ∈ is, Reads o (files i) (entries i)) :
    ∃ s, csvFiles o (is.map files) = some s ∧
      s.resultIds = collect glueText (is.map fun i => textPiece (entries i)) ∧
      s.recvPresent = is.countP (fun i => (entries i).front) ∧
      s.sendPresent = is.countP fun i => !(entries i).front := by
  have hfilter : (is.map files).filter isResultFile = is.map files := by
    refine List.filter_eq_self.mpr fun file hfile => ?_
    obtain ⟨i, hi, rfl⟩ := List.mem_map.mp hfile
    exact (h i hi).1
  obtain ⟨s, hrun, hids, hrecv, hsend⟩ := foldlM_csvStep_reads h
    { iter := o.iter, resultIds := ∅, recvPresent := 0, sendPresent := 0 }
  refine ⟨s, ?_, hids, ?_, ?_⟩
  · rw [csvFiles, hfilter, hrun]
  · rw [hrecv, Nat.zero_add]
  · rw [hsend, Nat.zero_add]

/-- What is under a key of the hash is split into all values of the files with that key, those
of receivers in front. -/
theorem lookup_textPieces {entries : List (Piece (List Char) (List (List Char)))}
    (h : ∀ entry ∈ entries, HasWords entry.value) {key : List Char}
    (hkey : key ∈ entries.map Piece.key) :
    ∃ text, (collect glueText (entries.map textPiece)).lookup key = some text ∧
      words isSpace text = gathered key entries := by
  have hglue {a b : List (List Char)} (ha : HasWords a) (hb : HasWords b) :
      HasWords (a ++ b) ∧ join [' '] (a ++ b) = glueText (join [' '] a) (join [' '] b) := by
    refine ⟨⟨by simp [ha.1], List.forall_mem_append.mpr ⟨ha.2, hb.2⟩⟩, ?_⟩
    rw [join_append ha.1 hb.1, List.append_assoc]
    rfl
  obtain ⟨hlookup, hwords⟩ := lookup_collect_map hglue h key
  rw [lookup_collect, if_pos hkey] at hlookup hwords
  exact ⟨join [' '] (gathered key entries), hlookup, words_join rfl (hwords _ rfl).2⟩

end Read

end RtpBenchmarks.Results
