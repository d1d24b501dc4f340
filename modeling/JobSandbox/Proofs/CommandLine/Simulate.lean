import JobSandbox.Proofs.CommandLine
import JobSandbox.Proofs.Policy
import JobSandbox.Proofs.Report.Checksum
import JobSandbox.Proofs.Report.Echo
import JobSandbox.Proofs.Report.Placeholder
import JobSandbox.Proofs.Report.Reading

/-!
# The status of a simulated run

The command that runs a reference job ends with one of three statuses.  The first two are those of a
report: 0 if its run returned, and 1 if not.  The third is that of a command that could not be
carried out, and it has no report.  All reference jobs put their results in envelopes, so a run of
one always has a report, and the third status can be told before anything is run: from the
variables, from the file, and from the number of pages.

## Main results

* `ReferenceJob.callsOnly_body`, `Setup.exists_report_reference` — a reference job has a report.
* `Command.exit_simulate` — **which status the command ends with, and what it prints.**
-/

namespace JobSandbox

open Address Contract

/-! ### Reference jobs -/

section Jobs

variable {ν : Type}

theorem callsOnly_echoJob : (echoJob : Job ν Unit).CallsOnly Request.Enveloped := by
  refine ⟨?_, fun data => (Saying.emit (.bytes data)).callsOnly_job⟩
  intro request heq
  cases heq

theorem callsOnly_lengthJob : (lengthJob : Job ν Unit).CallsOnly Request.Enveloped := by
  refine ⟨?_, ?_⟩
  · intro request heq
    cases heq
  · intro length
    exact (Saying.logInteger (saturatedLength length)).callsOnly_job.bind fun _ =>
      (Saying.emit (.integer (saturatedLength length))).callsOnly_job

/-- However often a job greets, it sends no result. -/
theorem callsOnly_greet (times left : ℕ) :
    (greet times left : Job ν Unit).CallsOnly Request.Enveloped := by
  induction left with
  | zero => trivial
  | succ left ih =>
    refine (Saying.logString "Hello World!").callsOnly_job.bind fun _ => ?_
    refine (Saying.sleep (.ofRatio 1 5)).callsOnly_job.bind fun _ => ?_
    exact (Saying.progress (.ofRatio (times - (left + 1)) times)).callsOnly_job.bind fun _ => ih

/-- The reference jobs put their results in envelopes. -/
theorem ReferenceJob.callsOnly_body (job : ReferenceJob) :
    (job.body : Job ν Unit).CallsOnly Request.Enveloped := by
  cases job with
  | echo => exact callsOnly_echoJob
  | length => exact callsOnly_lengthJob
  | checksum => exact callsOnly_checksumJob
  | hello => exact callsOnly_greet 3 3
  | words => exact callsOnly_wordsJob

end Jobs

/-- In every setup and for every dataset, a reference job has a report. -/
theorem Setup.exists_report_reference (setup : Setup) (data : Bytes) (job : ReferenceJob) :
    ∃ report, setup.simulateReference data job = .ok report :=
  exists_report setup data job.callsOnly_body

/-! ### The command -/

theorem exists_ok_of_not_error {ε α : Type} {x : Except ε α} (h : ¬∃ e, x = .error e) :
    ∃ a, x = .ok a := by
  cases x with
  | error e => exact absurd ⟨e, rfl⟩ h
  | ok a => exact ⟨a, rfl⟩

/-- The setup that is asked for.  What it does not tell is standard. -/
def SimulateOptions.setup (options : SimulateOptions) (policy : Policy) : Setup where
  policy
  maxPages := options.maxPages.getD PagedMemory.standardMaxPages

namespace Command

variable {env : Environment} {files : Files} {options : SimulateOptions} {policy : Policy}
  {data : Bytes}

theorem setup_eq_ok (hpages : options.maxPages ≠ some 0) :
    setup policy options.maxPages = .ok (options.setup policy) := by
  rw [SimulateOptions.setup]
  cases hmax : options.maxPages with
  | none => rfl
  | some pages =>
    have hne : pages ≠ 0 := fun hzero => hpages (hmax.trans (congrArg some hzero))
    rw [setup, if_neg hne]
    rfl

/-! ### What stands in the way of a report, in the order in which it is found -/

theorem report_of_badVariable {bad : Environment.BadVariable}
    (h : Policy.resolve env options.granularity options.implicitResult = .error bad) :
    report env files options = .error (.variable bad) := by
  rw [report, h]
  rfl

section Resolved

variable (hpolicy : Policy.resolve env options.granularity options.implicitResult = .ok policy)

include hpolicy

theorem report_of_unread {error : FileError} (hread : files.read options.dataset = .error error) :
    report env files options = .error (.dataset options.dataset error) := by
  rw [report, hpolicy, hread]
  rfl

variable (hread : files.read options.dataset = .ok data)

include hread

/-- With a policy and a dataset, there is a run to be set up. -/
theorem report_of_read :
    report env files options =
      (setup policy options.maxPages >>= fun setting =>
        (setting.simulateReference data options.job).mapError .result >>= fun found =>
          pure (if options.noCalls then found.withoutCalls else found)) := by
  rw [report, hpolicy, hread]
  rfl

theorem report_of_noPages (hpages : options.maxPages = some 0) :
    report env files options = .error .noPages := by
  rw [report_of_read hpolicy hread, hpages]
  rfl

/-- If nothing does, the report is that of the job, with its calls or without them. -/
theorem report_of_simulated (hpages : options.maxPages ≠ some 0) {found : Report}
    (hfound : (options.setup policy).simulateReference data options.job = .ok found)
    (noCalls : Bool) :
    report env files { options with noCalls } =
      .ok (if noCalls then found.withoutCalls else found) := by
  have hread' : report env files { options with noCalls } = _ := report_of_read hpolicy hread
  rw [hread', setup_eq_ok hpages]
  show (((options.setup policy).simulateReference data options.job).mapError _ >>= _) = _
  rw [hfound]
  rfl

end Resolved

/-- Without a report, the command fails. -/
theorem perform_simulate_of_error {failure : CommandFailure}
    (h : report env files options = .error failure) :
    (simulate options).perform env files = { exit := 2, stderr := line failure.message } := by
  refine perform_of_error ?_
  rw [output, h]
  rfl

/-- With one, it prints it, and its status says how the run ended. -/
theorem perform_simulate_of_ok {found : Report} (h : report env files options = .ok found) :
    (simulate options).perform env files =
      { exit := if found.ok then 0 else 1, stdout := line found.toJson.prettyText } := by
  refine perform_of_ok ?_
  rw [output, h]
  rfl

/-- The record of the calls changes the report that is printed, and nothing else. -/
theorem perform_simulate_of_simulated
    (hpolicy : Policy.resolve env options.granularity options.implicitResult = .ok policy)
    (hread : files.read options.dataset = .ok data) (hpages : options.maxPages ≠ some 0)
    {found : Report}
    (hfound : (options.setup policy).simulateReference data options.job = .ok found)
    (noCalls : Bool) :
    (simulate { options with noCalls }).perform env files =
      { exit := if found.ok then 0 else 1
        stdout := line (Report.toJson
          (if noCalls then { found with calls := [] } else found)).prettyText } := by
  rw [perform_simulate_of_ok (report_of_simulated hpolicy hread hpages hfound noCalls)]
  cases noCalls <;> rfl

/-- A report that is printed is no failure of the command. -/
theorem exit_perform_simulate_of_simulated
    (hpolicy : Policy.resolve env options.granularity options.implicitResult = .ok policy)
    (hread : files.read options.dataset = .ok data) (hpages : options.maxPages ≠ some 0) :
    ((simulate options).perform env files).exit ≠ 2 := by
  obtain ⟨found, hfound⟩ := (options.setup policy).exists_report_reference data options.job
  have hexit : ((simulate options).perform env files).exit = if found.ok then 0 else 1 :=
    congrArg Response.exit
      (perform_simulate_of_simulated hpolicy hread hpages hfound options.noCalls)
  rw [hexit]
  split <;> decide

/-- All that stands in the way of a report can be told beforehand. -/
theorem exit_perform_simulate_eq_two_iff :
    ((simulate options).perform env files).exit = 2 ↔
      (∃ bad, Policy.resolve env options.granularity options.implicitResult = .error bad) ∨
        (∃ error, files.read options.dataset = .error error) ∨ options.maxPages = some 0 := by
  have hfails {failure : CommandFailure} (h : report env files options = .error failure) :
      ((simulate options).perform env files).exit = 2 :=
    congrArg Response.exit (perform_simulate_of_error h)
  -- the obstacles are met in this order, and behind them is the run
  cases hpolicy : Policy.resolve env options.granularity options.implicitResult with
  | error bad => exact iff_of_true (hfails (report_of_badVariable hpolicy)) (.inl ⟨bad, rfl⟩)
  | ok policy =>
    cases hread : files.read options.dataset with
    | error error =>
      exact iff_of_true (hfails (report_of_unread hpolicy hread)) (.inr (.inl ⟨error, rfl⟩))
    | ok data =>
      by_cases hpages : options.maxPages = some 0
      · exact iff_of_true (hfails (report_of_noPages hpolicy hread hpages)) (.inr (.inr hpages))
      · refine iff_of_false (exit_perform_simulate_of_simulated hpolicy hread hpages) ?_
        rintro (⟨bad, hbad⟩ | ⟨error, herror⟩ | hzero)
        · cases hbad
        · cases herror
        · exact hpages hzero

/-- A command that could not be carried out has no output. -/
theorem stdout_perform_simulate_of_exit_eq_two
    (h : ((simulate options).perform env files).exit = 2) :
    ((simulate options).perform env files).stdout = "" := by
  cases hreport : report env files options with
  | error failure => rw [perform_simulate_of_error hreport]
  | ok found =>
    rw [perform_simulate_of_ok hreport] at h
    change (if found.ok then 0 else 1) = 2 at h
    split at h <;> cases h

/-- **Which status the command ends with, and what it prints.**  It ends with status 2 exactly if
one of the two variables misspells its setting, the file cannot be read, or no page is asked for,
and then there is no output.  If a variable misspells its setting, the error is that of the policy,
whatever the flags are.  Otherwise the report of the job is printed, and the status is 0 if its run
returned and 1 if not; and leaving the calls out takes them from the report, and changes nothing
else of what is printed. -/
theorem exit_simulate (env : Environment) (files : Files) (options : SimulateOptions) :
    let misspelled :=
      (∃ text, env.Misspells Granularity.spellings "REEF_ALLOC_GRANULARITY" text) ∨
        ∃ text, env.Misspells ImplicitResult.spellings "REEF_IMPLICIT_RESULT" text
    let response := (simulate options).perform env files
    (response.exit = 2 ↔
        misspelled ∨ (∃ error, files.read options.dataset = .error error) ∨
          options.maxPages = some 0) ∧
      (response.exit = 2 → response.stdout = "") ∧
      (misspelled → ∃ bad,
        Policy.resolve env options.granularity options.implicitResult = .error bad ∧
          response = { exit := 2, stderr := bad.message ++ "\n" }) ∧
      (response.exit ≠ 2 → ∃ policy data report others,
        Policy.resolve env options.granularity options.implicitResult = .ok policy ∧
          files.read options.dataset = .ok data ∧
          (options.setup policy).simulateReference data options.job = .ok report ∧
          ∀ noCalls,
            let response := (simulate { options with noCalls }).perform env files
            let kept := if noCalls then { report with calls := [] } else report
            response =
                { exit := if report.ok then 0 else 1, stdout := kept.toJson.prettyText ++ "\n" } ∧
              kept.Printed response.stdout others) := by
  intro misspelled response
  have hresolve : misspelled ↔ ∃ bad,
      Policy.resolve env options.granularity options.implicitResult = .error bad :=
    Policy.exists_resolve_eq_error_iff.symm
  refine ⟨?_, stdout_perform_simulate_of_exit_eq_two, ?_, ?_⟩
  · rw [hresolve]
    exact exit_perform_simulate_eq_two_iff
  · intro hmisspelled
    obtain ⟨bad, hbad⟩ := hresolve.mp hmisspelled
    exact ⟨bad, hbad, perform_simulate_of_error (report_of_badVariable hbad)⟩
  · intro hprinted
    rw [Ne, exit_perform_simulate_eq_two_iff, not_or, not_or] at hprinted
    obtain ⟨hresolved, hreadable, hpages⟩ := hprinted
    obtain ⟨policy, hpolicy⟩ := exists_ok_of_not_error hresolved
    obtain ⟨data, hread⟩ := exists_ok_of_not_error hreadable
    obtain ⟨found, hfound⟩ := (options.setup policy).exists_report_reference data options.job
    obtain ⟨others, hprinted⟩ := found.exists_printed
    refine ⟨policy, data, found, others, hpolicy, hread, hfound, fun noCalls => ?_⟩
    rw [perform_simulate_of_simulated hpolicy hread hpages hfound noCalls]
    refine ⟨rfl, ?_⟩
    cases noCalls with
    | true => exact hprinted []
    | false => exact hprinted found.calls

/-- The text that is printed of three bytes that came back. -/
def threeBytesText : String :=
  "\n".intercalate
    ["\x7b",
      "  \"schema_version\": \"reef.run.report@0.1.0\",",
      "  \"abi_version\": 1,",
      "  \"policy\": \x7b",
      "    \"granularity\": \"page\",",
      "    \"implicit_result\": \"none\",",
      "    \"placeholder_emitted\": false",
      "  \x7d,",
      "  \"ok\": true,",
      "  \"failure\": null,",
      "  \"trap\": null,",
      "  \"dataset\": \x7b",
      "    \"len\": 3,",
      "    \"allocated_len\": 65536,",
      "    \"sha256\": \"039058c6f2c0cb492c533b0a4d14ef77cc0f78abccced5287d84a1a2011cfb81\"",
      "  \x7d,",
      "  \"emit_count\": 1,",
      "  \"result\": \x7b",
      "    \"kind\": \"bytes\",",
      "    \"bytes_b64\": \"AQID\"",
      "  \x7d,",
      "  \"logs\": [],",
      "  \"progress\": [],",
      "  \"sleeps\": [],",
      "  \"memory\": \x7b",
      "    \"heap_base\": 1024,",
      "    \"high_water_mark\": 131072,",
      "    \"pages\": 2,",
      "    \"grow_calls\": 1",
      "  \x7d,",
      "  \"calls\": [",
      "    \x7b",
      "      \"import\": \"dataset_len\",",
      "      \"len\": 3",
      "    \x7d,",
      "    \x7b",
      "      \"import\": \"dataset_write\",",
      "      \"len\": 3",
      "    \x7d,",
      "    \x7b",
      "      \"import\": \"result\",",
      "      \"kind\": 1,",
      "      \"payload_b64\": \"AQID\"",
      "    \x7d",
      "  ]",
      "\x7d",
      ""]

/-- Three bytes come back from a memory that has room for them, and not from one without; and a
variable that is wrong counts though flags are given. -/
theorem exit_simulate_of_three_bytes :
    let files : Files := ⟨fun _ => .ok [1, 2, 3]⟩
    let silent : Environment := ⟨fun _ => none⟩
    let wrong : Environment := ⟨fun _ => some (Bytes.ofText "Page")⟩
    let options : SimulateOptions := { dataset := "dataset.bin" }
    let flags : SimulateOptions :=
      { options with granularity := some .page, implicitResult := some .nothing }
    let report : Report := .ofEcho .standard [1, 2, 3] 65536 ⟨1024, some 131072, 2, 1⟩
    (simulate options).perform silent files = { exit := 0, stdout := threeBytesText } ∧
      Report.ofText threeBytesText = .ok report ∧
      (∃ text, (simulate { options with noCalls := true }).perform silent files =
          { exit := 0, stdout := text } ∧
        Report.ofText text = .ok { report with calls := [] }) ∧
      ((simulate { options with maxPages := some 1 }).perform silent files).exit = 1 ∧
      ((simulate flags).perform wrong files).exit = 2 ∧
      ((simulate flags).perform wrong files).stdout = "" := by
  intro files silent wrong options flags report
  have hspelled : ¬((∃ text, silent.Misspells Granularity.spellings "REEF_ALLOC_GRANULARITY" text) ∨
      ∃ text, silent.Misspells ImplicitResult.spellings "REEF_IMPLICIT_RESULT" text) := by
    rintro (⟨text, htext, -⟩ | ⟨text, htext, -⟩) <;> cases htext
  have hmisspelled : wrong.Misspells Granularity.spellings "REEF_ALLOC_GRANULARITY" "Page" :=
    ⟨rfl, not_spells_of_ne (by decide) (by decide)⟩
  have hresolve : Policy.resolve silent none none = .ok .standard := rfl
  -- with nothing in its way, a run of this file ends as its report says
  have hruns (pages : Option ℕ) (hpages : pages ≠ some 0) (found : Report)
      (hfound : Setup.simulateReference (SimulateOptions.setup
        { options with maxPages := pages } .standard) [1, 2, 3] .echo = .ok found) :
      ((simulate { options with maxPages := pages }).perform silent files =
          { exit := if found.ok then 0 else 1, stdout := found.toJson.prettyText ++ "\n" } ∧
        (found.IsReadable → Report.ofText (found.toJson.prettyText ++ "\n") = .ok found)) ∧
      ∃ text, (simulate { options with maxPages := pages, noCalls := true }).perform silent files =
          { exit := if found.ok then 0 else 1, stdout := text } ∧
        (found.IsReadable → Report.ofText text = .ok { found with calls := [] }) := by
    obtain ⟨hstatus, -, -, hprints⟩ :=
      exit_simulate silent files { options with maxPages := pages }
    have hne : ¬((simulate { options with maxPages := pages }).perform silent files).exit = 2 := by
      rw [hstatus]
      rintro (h | ⟨error, herror⟩ | h)
      · exact hspelled h
      · cases herror
      · exact hpages h
    obtain ⟨policy, data, report, others, hpolicy, hread, hreport, hall⟩ := hprints hne
    cases hresolve.symm.trans hpolicy
    cases hread
    cases hfound.symm.trans hreport
    obtain ⟨hkept, hprinted⟩ := hall false
    obtain ⟨hleft, hprinted'⟩ := hall true
    rw [hkept] at hprinted
    rw [hleft] at hprinted'
    exact ⟨⟨hkept, hprinted.ofText_eq⟩, _, hleft, fun h => hprinted'.ofText_eq h.withoutCalls⟩
  obtain ⟨hstatus, hempty, -⟩ := exit_simulate wrong files flags
  have hwrong := hstatus.mpr (.inl (.inl ⟨"Page", hmisspelled⟩))
  have hfound : Setup.simulateReference (options.setup .standard) [1, 2, 3] .echo = .ok report := by
    let setup : Setup := options.setup .standard
    have hcap : setup.maxPages * pageSize < addressSpace := by decide
    have hfits : leastMultiple setup.policy.granularity.unit setup.heapBase +
        leastMultiple setup.policy.granularity.unit ([1, 2, 3] : Bytes).length ≤
          setup.maxPages * pageSize := by decide
    refine (Setup.simulate_echo_eq_of_fits hcap (List.cons_ne_nil 1 [2, 3]) hfits).trans ?_
    have hroom :
        leastMultiple setup.policy.granularity.unit ([1, 2, 3] : Bytes).length = 65536 := by decide
    rw [hroom]
    refine congrArg (fun memory => Except.ok (Report.ofEcho .standard [1, 2, 3] 65536 memory)) ?_
    decide +kernel
  have hreadable : report.IsReadable :=
    Report.isReadable_ofEcho .standard (by decide) (by decide)
      ⟨by decide, by decide, by decide, by decide⟩
  have htext : report.toJson.prettyText ++ "\n" = threeBytesText := by
    rw [← String.toList_inj, threeBytesText, String.toList_append, String.toList_intercalate,
      Json.prettyText, String.toList_ofList]
    decide +kernel
  obtain ⟨⟨hresponse, hread⟩, text, hresponse', hread'⟩ := hruns none (by decide) report hfound
  rw [htext] at hresponse hread
  refine ⟨hresponse, hread hreadable, ⟨text, hresponse', hread' hreadable⟩, ?_, hwrong,
    hempty hwrong⟩
  · let setup : Setup := SimulateOptions.setup { options with maxPages := some 1 } .standard
    have hcap : setup.maxPages * pageSize < addressSpace := by decide
    have hbeyond : setup.maxPages * pageSize <
        leastMultiple setup.policy.granularity.unit setup.heapBase +
          leastMultiple setup.policy.granularity.unit ([1, 2, 3] : Bytes).length := by decide
    obtain ⟨found, hfound, haway⟩ :=
      Setup.simulate_of_beyond hcap (List.cons_ne_nil 1 [2, 3]) hbeyond
        (ReferenceJob.echo.body : Job Empty Unit)
    obtain ⟨⟨hresponse, -⟩, -⟩ := hruns (some 1) (by decide) found hfound
    rw [haway.ok_eq] at hresponse
    exact congrArg Response.exit hresponse

end Command
end JobSandbox
