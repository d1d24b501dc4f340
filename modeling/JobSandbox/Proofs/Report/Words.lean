import JobSandbox.Proofs.Fault
import JobSandbox.Proofs.Report.Body
import JobSandbox.Proofs.Result
import JobSandbox.Proofs.Words

/-!
# The sum of the words of a dataset

The job that adds up words reads its dataset as a stream of words, most significant byte first, and
emits their sum.  It has one call to make.  On a dataset that is not a whole number of words there
is no stream, and the call is the last line of a job that stops for an argument.

## Main results

* `wordsJob_of_whole`, `wordsJob_of_partial` — the job on either kind of dataset.
* `Setup.simulate_words` — **the reports of the job that adds up words.**
-/

namespace JobSandbox

open Finset

section Job

variable {ν : Type} {session : Session} {data : Bytes}
  (hread : session.dataset.read? session.arena = some data)

include hread

/-- The job starts with a look at its dataset. -/
theorem wordsJob_comesTo :
    (wordsJob : Job ν Unit).ComesTo session []
      ((Job.orFail (SwappedWords.ofBytes? data)).bind fun words =>
        Job.emit (.integer (words.fold (· + ·) 0).toInt32)) session :=
  Job.comesTo_dataset hread _

/-- Whole words are added up, and the sum is the one call. -/
theorem wordsJob_of_whole (hwhole : data.length % wordSize = 0) :
    ((wordsJob : Job ν Unit).run session).ending = .ok () ∧
      (wordsJob : Job ν Unit).calls session =
        [.result 0 (Bytes.ofInt32 (UInt32.ofNat (∑ i ∈ range (data.length / wordSize),
          Bytes.bigEndian (data.wordAt i))).toInt32)] := by
  have hstart := wordsJob_comesTo (ν := ν) hread
  have hsum := SwappedWords.fold_add data 0
  rw [UInt32.zero_add] at hsum
  rw [SwappedWords.ofBytes?_of_whole hwhole] at hstart
  rw [← hsum]
  exact (hstart.trans (Job.comesTo_call _ _ session)).returns

/-- Anything else stops the job, and its last line is the one call. -/
theorem wordsJob_of_partial (hpartial : data.length % wordSize ≠ 0) :
    ((wordsJob : Job ν Unit).run session).ending =
        .error (.trap (.argument (.invalidLength data.length wordSize))) ∧
      (wordsJob : Job ν Unit).calls session =
        [.log (Fault.fatalLine
          (.argument (.invalidLength data.length wordSize)) .running).bytes] := by
  have hstart := wordsJob_comesTo (ν := ν) hread
  rw [SwappedWords.ofBytes?_of_partial hpartial] at hstart
  exact ⟨ending_run_wordsJob hread hpartial, hstart.stops.2⟩

end Job

/-- The sum of the words of a buffer is that of the turned words, least significant byte first. -/
theorem sum_bigEndian_wordAt (buffer : Bytes) :
    ∑ i ∈ range (buffer.length / wordSize), Bytes.bigEndian (buffer.wordAt i) =
      ∑ i ∈ range (buffer.length / wordSize), Bytes.littleEndian ((swapWords buffer).wordAt i) := by
  apply sum_congr rfl
  intro i hi
  rw [littleEndian_wordAt_swapWords (mem_range.mp hi)]

theorem toString_trapInvalidArgument : toString Contract.trapInvalidArgument = "9302" := rfl

/-- The last line of a job that stops for a dataset of this length. -/
theorem fatalText_invalidLength (length : ℕ) :
    (Fault.argument (.invalidLength length wordSize)).fatalText .running =
      s!"reef: fatal while running: invalid length {length} " ++
        "(must be a multiple of 4) (trap 9302)" := by
  have hunit : toString wordSize = "4" := rfl
  change "reef: fatal while " ++ "running" ++ ": " ++ ("invalid length " ++ toString length ++
      " (must be a multiple of " ++ toString wordSize ++ ")") ++ " (trap " ++
      toString Contract.trapInvalidArgument ++ ")" =
    "reef: fatal while running: invalid length " ++ toString length ++ " " ++
      "(must be a multiple of 4) (trap 9302)"
  rw [hunit, toString_trapInvalidArgument]
  simp [← String.toList_inj]

/-- It is whole for every length that a machine has. -/
theorem bytes_fatalLine_invalidLength {length : ℕ} (h : length < Address.addressSpace) :
    ((Fault.argument (.invalidLength length wordSize)).fatalLine .running).bytes =
      Bytes.ofText (s!"reef: fatal while running: invalid length {length} " ++
        "(must be a multiple of 4) (trap 9302)") := by
  have hfits : (Fault.argument (.invalidLength length wordSize)).Representable := ⟨h, by decide⟩
  rw [Fault.fatalLine_eq_of_representable hfits, fatalText_invalidLength]

namespace Setup

/-- **The reports of the job that adds up words.**  With its dataset taken in, it reports that all
is well exactly if the dataset is a number of whole words.  The result then is the sum of the words,
modulo `2 ^ 32`, most significant byte first; which is the same as that of the turned words, least
significant byte first; and no other call is made.  If the dataset has another length, the job is
trapped for it.  It has emitted nothing, so that the result is the placeholder if there is one, and
it has made one call, which names the length. -/
theorem simulate_words {setup : Setup} {data : Bytes} {dataset : Dataset} {host' : Host}
    {arena : Arena PagedMemory}
    (h : Dataset.ingest { dataset := data } (.ofMemory setup.memory) setup.policy.granularity =
      (.ready dataset, host', arena)) :
    ∃ report, setup.simulateReference data .words = .ok report ∧
      (report.ok = true ↔ data.length % 4 = 0) ∧
      (data.length % 4 = 0 → ∃ (swapped : Bytes) (sum : UInt32),
        swapInPlace data = .ok (data.length / 4, swapped) ∧
        sum = UInt32.ofNat (∑ i ∈ range (data.length / 4), Bytes.bigEndian (data.wordAt i)) ∧
        sum = UInt32.ofNat (∑ i ∈ range (data.length / 4),
          Bytes.littleEndian (swapped.wordAt i)) ∧
        report.result = some (.integer sum.toInt32) ∧
        report.calls = [.datasetLen data.length, .datasetWrite data.length] ++
          setup.policy.placeholder ++ [.result 0 (Bytes.ofInt32 sum.toInt32)]) ∧
      (data.length % 4 ≠ 0 →
        report.trap = some "9302" ∧
        report.emitCount = (if setup.policy.implicitResult = .placeholderZero then 1 else 0) ∧
        report.result =
          (if setup.policy.implicitResult = .placeholderZero then some (.integer 0) else none) ∧
        report.calls = [.datasetLen data.length, .datasetWrite data.length] ++
          setup.policy.placeholder ++
          [.log (Bytes.ofText (s!"reef: fatal while running: invalid length {data.length} " ++
            "(must be a multiple of 4) (trap 9302)"))]) := by
  have hread := read?_of_ready h
  obtain ⟨report, hreport, hbody⟩ := exists_report_ofBody h (callsOnly_wordsJob (ν := Empty))
  refine ⟨report, hreport, ?_, ?_, ?_⟩
  · rw [hbody.ok_iff]
    by_cases hwhole : data.length % wordSize = 0
    · exact iff_of_true (wordsJob_of_whole hread hwhole).1 hwhole
    · refine iff_of_false ?_ hwhole
      rw [(wordsJob_of_partial hread hwhole).1]
      simp
  · intro hwhole
    obtain ⟨-, hcalls⟩ := wordsJob_of_whole (ν := Empty) hread hwhole
    rw [hcalls] at hbody
    refine ⟨swapWords data, _, swapInPlace_of_whole hwhole, rfl, ?_, ?_, hbody.calls_eq⟩
    · exact congrArg UInt32.ofNat (sum_bigEndian_wordAt data)
    · exact hbody.result_of_last _ _ _ rfl (ResultValue.decode_eq_ok_iff.mpr ⟨rfl, rfl⟩)
  · intro hpartial
    obtain ⟨hending, hcalls⟩ := wordsJob_of_partial (ν := Empty) hread hpartial
    have hlength : data.length < Address.addressSpace := Dataset.announced_lt_of_ingest h
    rw [hcalls, hending, bytes_fatalLine_invalidLength hlength] at hbody
    refine ⟨?_, hbody.emitCount_eq, hbody.result_of_silence rfl, hbody.calls_eq⟩
    rw [hbody.trap_eq _ rfl, ← toString_trapInvalidArgument]
    rfl

/-- The words of eight bytes add up to more than 32 bits; five bytes are no words, and the
placeholder stays behind. -/
theorem simulate_words_of_carry :
    let setup : Setup := { policy := .legacy, maxPages := 2 }
    (∃ report, setup.simulateReference [255, 255, 255, 255, 0, 0, 0, 3] .words = .ok report ∧
      report.ok = true ∧ report.result = some (.integer 2)) ∧
    ∃ report, setup.simulateReference [1, 2, 3, 4, 5] .words = .ok report ∧
      ¬report.ok = true ∧ report.trap = some "9302" ∧ report.result = some (.integer 0) := by
  intro setup
  constructor
  · obtain ⟨_, _, _, hready⟩ := setup.exists_ready_of_fits [255, 255, 255, 255, 0, 0, 0, 3]
      (by decide) (by decide) (by decide)
    obtain ⟨report, hreport, hok, hwhole, -⟩ := simulate_words hready
    obtain ⟨swapped, sum, -, hsum, -, hresult, -⟩ := hwhole (by decide)
    have htwo : sum = 2 := hsum.trans (by decide)
    rw [htwo] at hresult
    exact ⟨report, hreport, hok.mpr (by decide), hresult⟩
  · obtain ⟨_, _, _, hready⟩ := setup.exists_ready_of_fits [1, 2, 3, 4, 5]
      (by decide) (by decide) (by decide)
    obtain ⟨report, hreport, hok, -, hpartial⟩ := simulate_words hready
    obtain ⟨htrap, -, hresult, -⟩ := hpartial (by decide)
    exact ⟨report, hreport, mt hok.mp (by decide), htrap, hresult⟩

end Setup
end JobSandbox
