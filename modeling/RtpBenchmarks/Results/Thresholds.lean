import RtpBenchmarks.Results.Directory

set_option autoImplicit false

/-!
# The allowed losses (`parse`)

The options of `parse` are percentages of lost frames and lost packets.  `parse_recv` returns
the share of the frames that were lost and the share of the bytes that were received, both as
fractions of one, and `parse` compares what is missing from each to a hundred with the options.
-/

namespace RtpBenchmarks.Results

open RtpBenchmarks.Foundation

/-! ## The received share is not negative -/

theorem num_nonneg (line : List Char) (i : Nat) : 0 ≤ num line i := by
  unfold num
  split
  · exact le_refl 0
  · exact Nat.cast_nonneg _

theorem recvThreads_nonneg (threads : Nat) {sums : ThreadSums} (line : List Char)
    (rest : List (List Char)) (h : 0 ≤ sums.bytes) :
    0 ≤ (recvThreads threads sums line rest).1.bytes := by
  induction threads generalizing sums line rest with
  | zero => exact h
  | succ threads ih => exact ih _ _ (add_nonneg h (num_nonneg line 0))

theorem recvRun_nonneg {lib : String} {threads : Nat} {line : List Char}
    {rest rest' : List (List Char)} {e : RecvEntry}
    (h : recvRun lib threads line rest = some (some e, rest')) : 0 ≤ e.sums.bytes := by
  have hsums := @recvThreads_nonneg threads {} line rest (le_refl 0)
  unfold recvRun at h
  generalize recvThreads threads {} line rest = after at h hsums
  obtain ⟨sums, line', rest₁⟩ := after
  split_ifs at h with hskip hzero
  · cases h
  · dsimp only at h
    split at h
    · cases h
    · cases h
      exact hsums

theorem foldl_add_nonneg {threads : Nat} {entries : List RecvEntry}
    (hentries : ∀ e ∈ entries, 0 ≤ e.sums.bytes) {t : RecvTotals} (ht : 0 ≤ t.bytes) :
    0 ≤ (entries.foldl (RecvTotals.add threads) t).bytes := by
  induction entries generalizing t with
  | nil => exact ht
  | cons e entries ih =>
    obtain ⟨he, hentries⟩ := List.forall_mem_cons.mp hentries
    exact ih hentries (add_nonneg ht (div_nonneg he (Nat.cast_nonneg threads)))

/-- The share of the bytes that `parse_recv` returns. -/
theorem parseRecv_bytes_nonneg {lib : String} {iter threads : Nat} {unit : String}
    {filesize : ℚ} (hsize : 0 < filesize) {text : List Char} {v : RecvValues}
    (h : parseRecv lib iter threads unit filesize text = some v) : 0 ≤ v.bytes := by
  unfold parseRecv at h
  obtain ⟨entries, hloop, h⟩ := Option.bind_eq_some_iff.mp h
  have hentries : ∀ e ∈ entries, 0 ≤ e.sums.bytes := ReadLoop.forall_of_run recvRun_nonneg hloop
  dsimp only at h
  split_ifs at h
  obtain ⟨gp, -, h⟩ := Option.bind_eq_some_iff.mp h
  obtain rfl := Option.some.inj h
  exact div_nonneg (div_nonneg (foldl_add_nonneg hentries (le_refl 0)) (Nat.cast_nonneg iter))
    hsize.le

/-! ## What takes part -/

/-- `exists $a{"$threads $fps"}` when the second loop is at the file. -/
def considers (o : ParseOptions) (dir : List CsvFile) (file : CsvFile) : Prop :=
  ∃ r, recvScan o dir = some r ∧
    parseKey (csvFields file.name).1 (csvFields file.name).2.1 ∈ r.allowed

section Limits

variable {o : ParseOptions} (d : ResultDir o) {f : ResultFile} {order : List ResultFile}
  {dir : List CsvFile}

/-- The percentage of the frames that were lost. -/
def RecvValues.framePercent (v : RecvValues) : ℚ :=
  100 * v.frameLoss

/-- The percentage of the bytes that were lost. -/
def RecvValues.bytePercent (v : RecvValues) : ℚ :=
  100 * (1 - v.bytes)

/-- Some result of a receiver with the same thread count and frame rate has losses of at most
the percentages that are allowed. -/
def ResultDir.WithinLimits (f : ResultFile) : Prop :=
  ∃ g ∈ d.files, g.recv = true ∧ g.SameRun f ∧
    (d.recv g).framePercent ≤ o.frameLoss ∧ (d.recv g).bytePercent ≤ o.pktLoss

/-- In whatever order the directory is read, the results of senders that take part are those
within the limits. -/
def ResultDir.FiltersRight : Prop :=
  ∀ order dir, d.Lists order dir → ∀ f ∈ d.files, f.recv = false →
    (considers o dir (d.file f) ↔ d.WithinLimits f)

/-- If a receiver is within the limits, one passes the comparisons: the lost share of its frames,
which is at most one, and the share of the bytes are not less than what is missing to a hundred
from the allowed percentages. -/
def ResultDir.NoneExcluded (f : ResultFile) : Prop :=
  d.WithinLimits f → ∃ g ∈ d.files, g.recv = true ∧ g.SameRun f ∧
    100 - o.frameLoss ≤ (d.recv g).frameLoss ∧ 100 - o.pktLoss ≤ (d.recv g).bytes

/-- If a receiver passes the comparisons with too many frames lost, another one is within the
limits. -/
def ResultDir.NoneAdmitted (f : ResultFile) : Prop :=
  ∀ g ∈ d.files, g.recv = true → g.SameRun f →
    100 - o.frameLoss ≤ (d.recv g).frameLoss → 100 - o.pktLoss ≤ (d.recv g).bytes →
    o.frameLoss < (d.recv g).framePercent → d.WithinLimits f

variable {d}

theorem ResultDir.Lists.considers_iff (h : d.Lists order dir) (hf : f ∈ d.files) :
    considers o dir (d.file f) ↔ d.Qualifies f := by
  obtain ⟨r, hrecv, -, hallowed⟩ := h.recvScan
  rw [considers, hrecv, ← hallowed f, d.csvFields_file hf]
  constructor
  · rintro ⟨r', hr, hmem⟩
    obtain rfl := Option.some.inj hr
    exact hmem
  · exact fun hmem => ⟨r, rfl, hmem⟩

variable (d)

/-- Enough bytes for the comparison are enough to be within the limit. -/
theorem ResultDir.bytePercent_le {g : ResultFile} (hg : g ∈ d.files) (hrecv : g.recv = true)
    (h : 100 - o.pktLoss ≤ (d.recv g).bytes) : (d.recv g).bytePercent ≤ o.pktLoss := by
  have hnonneg := parseRecv_bytes_nonneg o.filesize_pos (d.reads_recv g hg hrecv)
  rw [RecvValues.bytePercent]
  linarith

theorem allows_iff (v : RecvValues) : allows o v = true ↔
    100 - o.frameLoss ≤ v.frameLoss ∧ 100 - o.pktLoss ≤ v.bytes := by
  rw [allows, decide_eq_true_iff, sub_le_comm, sub_le_comm (a := 100) (b := v.bytes)]

/-- What qualifies is within the limits, and the other way round, if nothing is excluded and
nothing is admitted. -/
theorem ResultDir.qualifies_iff_withinLimits (f : ResultFile) :
    (d.Qualifies f ↔ d.WithinLimits f) ↔ d.NoneExcluded f ∧ d.NoneAdmitted f := by
  simp only [ResultDir.Qualifies, allows_iff]
  constructor
  · intro h
    exact ⟨h.mpr, fun g hg hrecv hsame hframes hbytes _ =>
      h.mp ⟨g, hg, hrecv, hsame, hframes, hbytes⟩⟩
  · rintro ⟨hexcluded, hadmitted⟩
    refine ⟨?_, hexcluded⟩
    rintro ⟨g, hg, hrecv, hsame, hframes, hbytes⟩
    rcases le_or_gt (d.recv g).framePercent o.frameLoss with hle | hlt
    · exact ⟨g, hg, hrecv, hsame, hle, d.bytePercent_le hg hrecv hbytes⟩
    · exact hadmitted g hg hrecv hsame hframes hbytes hlt

end Limits

/-! ## A percent of loss -/

/-- Nothing was lost, and one percent is allowed. -/
def onePercent : ResultDir (losslessOptions 1 .all) :=
  losslessDir 1 .all

end RtpBenchmarks.Results
