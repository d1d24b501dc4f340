import JobSandbox.Proofs.Report.Decoding

/-!
# What a report says of the placeholder

The placeholder is sent before a body starts, and a report has an entry that says whether it was.
The entry is made from the summary of a run, and there is a summary only of a run that returned.  So
of a run that was aborted the report says that there was no placeholder, even where its own calls
show one.

## Main definitions

* `Setup.opening` — what the host of a run hears before the body.
* `Setup.SendsPlaceholder` — that the placeholder is part of it.

## Main results

* `Setup.opening_prefix_calls` — every run starts with its opening.
* `Setup.placeholderEmitted_iff_returned` — **the entry is right except for runs that are aborted
  after the placeholder was sent.**
-/

namespace JobSandbox

/-- A run that returned says that there was a placeholder if its policy asks for one. -/
theorem placeholderEmitted_of_returned {ν : Type} {policy : Policy} {dataset : Dataset}
    {host : Host} {arena : Arena PagedMemory} {body : Job ν Unit} {summary : Summary}
    (h : (runBody policy dataset host arena body).status = .returned summary) :
    summary.placeholderEmitted = true ↔ policy.implicitResult = .placeholderZero := by
  unfold runBody at h
  dsimp only at h
  split at h
  · cases h
  · cases h
    exact decide_eq_true_iff

/-- A dataset that is not a whole number of words stops the job that adds them up. -/
theorem ending_run_wordsJob {ν : Type} {session : Session} {data : Bytes}
    (hread : session.dataset.read? session.arena = some data)
    (hwords : data.length % wordSize ≠ 0) :
    ((wordsJob : Job ν Unit).run session).ending =
      .error (.trap (.argument (.invalidLength data.length wordSize))) := by
  have hperform : session.perform .dataset = some (data, session) :=
    Option.map_eq_some_iff.mpr ⟨data, hread, rfl⟩
  have hrefused : SwappedWords.ofBytes? data =
      .error (.invalidLength data.length wordSize) := by
    rw [SwappedWords.ofBytes?, checkWords, if_neg hwords]
    rfl
  have hrun : (wordsJob : Job ν Unit).run session =
      ((Job.orFail (SwappedWords.ofBytes? data)).bind fun words =>
        Job.emit (.integer (words.fold (· + ·) 0).toInt32)).run session :=
    Job.run_act_of_some _ hperform
  rw [hrun, hrefused]
  rfl

/-- The job that adds up words puts its sum in an envelope. -/
theorem callsOnly_wordsJob {ν : Type} : (wordsJob : Job ν Unit).CallsOnly Request.Enveloped := by
  refine ⟨?_, ?_⟩
  · intro request heq
    cases heq
  · intro bytes
    exact (Job.callsOnly_orFail _).bind fun words =>
      (Saying.emit (.integer (words.fold (· + ·) 0).toInt32)).callsOnly_job

namespace Setup

/-! ### Before the body -/

/-- What the host of a run hears before the body starts, or in place of it. -/
def opening (setup : Setup) (data : Bytes) : List HostCall :=
  match Dataset.ingest { dataset := data } (.ofMemory setup.memory) setup.policy.granularity with
  | (.ready _, host, _) => (emitPlaceholder setup.policy host).calls
  | (_, host, _) => host.calls

/-- The host hears a zero that the body has not sent. -/
def SendsPlaceholder (setup : Setup) (data : Bytes) : Prop :=
  HostCall.result 0 [0, 0, 0, 0] ∈ setup.opening data

variable {ν : Type} {setup : Setup} {data : Bytes}

section Ready

variable {dataset : Dataset} {host' : Host} {arena : Arena PagedMemory}
  (h : Dataset.ingest { dataset := data } (.ofMemory setup.memory) setup.policy.granularity =
    (.ready dataset, host', arena))

include h

theorem opening_of_ready :
    setup.opening data =
      [.datasetLen data.length, .datasetWrite data.length] ++ setup.policy.placeholder := by
  rw [opening, h]
  dsimp only
  rw [emitPlaceholder_eq, Host.calls_hearAll, (Dataset.of_ingest_eq_ready h).1,
    Host.calls_hearAll]
  rfl

/-- Behind the opening, the body is heard. -/
theorem calls_run_of_ready (body : Job ν Unit) :
    (setup.run data body).host.calls =
      setup.opening data ++ body.calls (.start setup.policy dataset host' arena) := by
  rw [(transcribed_run h body).calls_eq, opening_of_ready h]
  rfl

/-- With a dataset, the placeholder is sent if the policy asks for it. -/
theorem sendsPlaceholder_iff_of_ready :
    setup.SendsPlaceholder data ↔ setup.policy.implicitResult = .placeholderZero := by
  unfold SendsPlaceholder
  rw [opening_of_ready h, Policy.placeholder]
  by_cases hpolicy : setup.policy.implicitResult = .placeholderZero
  · simp [hpolicy]
  · simp [hpolicy]

/-- On a dataset that is not a whole number of words, the job that adds them up is aborted. -/
theorem exists_aborted_wordsJob (hwords : data.length % wordSize ≠ 0) :
    ∃ abort, (setup.run data (wordsJob : Job ν Unit)).status = .aborted abort := by
  have hread : dataset.read? arena = some data := by
    rw [← Host.visible_self data]
    exact Dataset.read?_of_ingest h
  rw [run, execute_of_ready h]
  simp only [status_runBody_iff]
  exact ⟨_, ending_run_wordsJob hread hwords⟩

end Ready

section NotReady

variable (h : ∀ dataset, (Dataset.ingest { dataset := data } (.ofMemory setup.memory)
  setup.policy.granularity).1 ≠ .ready dataset)

include h

/-- Without a dataset, there is nothing behind the opening, which is one question for the length;
and the run does not return. -/
theorem run_of_not_ready (body : Job ν Unit) :
    setup.opening data = [.datasetLen data.length] ∧
      (setup.run data body).host.calls = [.datasetLen data.length] ∧
      ∀ summary, (setup.run data body).status ≠ .returned summary := by
  have hout := Dataset.ingest_ingested { dataset := data } (.ofMemory setup.memory)
    setup.policy.granularity
  unfold opening run execute
  generalize Dataset.ingest { dataset := data } (.ofMemory setup.memory)
    setup.policy.granularity = out at h hout ⊢
  cases hout with
  | tooLong hround => exact ⟨rfl, rfl, fun _ hstatus => nomatch hstatus⟩
  | refused hround hallocate => exact ⟨rfl, rfl, fun _ hstatus => nomatch hstatus⟩
  | outOfRange hround hallocate hbeyond => exact ⟨rfl, rfl, fun _ hstatus => nomatch hstatus⟩
  | ready hround hallocate hread hwrite => exact absurd rfl (h _)

end NotReady

/-- A dataset is taken in, or it is not. -/
theorem ready_or_not (setup : Setup) (data : Bytes) :
    (∃ dataset host' arena,
      Dataset.ingest { dataset := data } (.ofMemory setup.memory) setup.policy.granularity =
        (.ready dataset, host', arena)) ∨
    ∀ dataset, (Dataset.ingest { dataset := data } (.ofMemory setup.memory)
      setup.policy.granularity).1 ≠ .ready dataset := by
  by_cases hready : ∃ dataset, (Dataset.ingest { dataset := data } (.ofMemory setup.memory)
      setup.policy.granularity).1 = .ready dataset
  · obtain ⟨dataset, hready⟩ := hready
    exact .inl ⟨dataset, _, _, Prod.ext hready rfl⟩
  · exact .inr fun dataset hdataset => hready ⟨dataset, hdataset⟩

/-- **Every run starts with its opening**, whatever its body. -/
theorem opening_prefix_calls (setup : Setup) (data : Bytes) (body : Job ν Unit) :
    setup.opening data <+: (setup.run data body).host.calls := by
  rcases setup.ready_or_not data with ⟨dataset, host', arena, hready⟩ | hnot
  · rw [calls_run_of_ready hready]
    exact List.prefix_append _ _
  · obtain ⟨hopening, hcalls, -⟩ := run_of_not_ready hnot body
    rw [hopening, hcalls]

/-- The placeholder is sent if the policy asks for it and the host has written the dataset. -/
theorem sendsPlaceholder_iff (setup : Setup) (data : Bytes) (body : Job ν Unit) :
    setup.SendsPlaceholder data ↔
      setup.policy.implicitResult = .placeholderZero ∧
        ∃ length, .datasetWrite length ∈ (setup.run data body).host.calls := by
  rcases setup.ready_or_not data with ⟨dataset, host', arena, hready⟩ | hnot
  · have hwritten : HostCall.datasetWrite data.length ∈ (setup.run data body).host.calls := by
      rw [calls_run_of_ready hready, opening_of_ready hready]
      simp
    rw [sendsPlaceholder_iff_of_ready hready]
    exact ⟨fun hpolicy => ⟨hpolicy, _, hwritten⟩, And.left⟩
  · obtain ⟨hopening, hcalls, -⟩ := run_of_not_ready hnot body
    rw [SendsPlaceholder, hopening, hcalls]
    simp

/-! ### What the report says -/

variable {body : Job ν Unit} {report : Report}

/-- A run whose placeholder was sent has returned, or it was aborted. -/
theorem returned_or_aborted (h : setup.SendsPlaceholder data) (body : Job ν Unit) :
    (∃ summary, (setup.run data body).status = .returned summary) ∨
      ∃ abort, (setup.run data body).status = .aborted abort := by
  rcases setup.ready_or_not data with ⟨dataset, host', arena, hready⟩ | hnot
  · rw [run, execute_of_ready hready, exists_returned_runBody_iff]
    simp only [status_runBody_iff]
    cases (body.run (.start setup.policy dataset host' arena)).ending with
    | ok value => exact .inl rfl
    | error abort => exact .inr ⟨abort, rfl⟩
  · rw [SendsPlaceholder, (run_of_not_ready hnot body).1] at h
    simp at h

/-- A report says that there was a placeholder if there was one and the run returned. -/
theorem placeholderEmitted_iff (h : setup.simulate data body = .ok report) :
    report.policy.placeholderEmitted = true ↔
      setup.SendsPlaceholder data ∧
        ∃ summary, (setup.run data body).status = .returned summary := by
  rw [Report.placeholderEmitted_of_ofOutcome_eq_ok h]
  rcases setup.ready_or_not data with ⟨dataset, host', arena, hready⟩ | hnot
  · rw [sendsPlaceholder_iff_of_ready hready, run, execute_of_ready hready]
    constructor
    · rintro ⟨summary, hstatus, hemitted⟩
      exact ⟨(placeholderEmitted_of_returned hstatus).mp hemitted, summary, hstatus⟩
    · rintro ⟨hpolicy, summary, hstatus⟩
      exact ⟨summary, hstatus, (placeholderEmitted_of_returned hstatus).mpr hpolicy⟩
  · have hstatus := (run_of_not_ready hnot body).2.2
    constructor
    · rintro ⟨summary, hreturned, -⟩
      exact absurd hreturned (hstatus summary)
    · rintro ⟨-, summary, hreturned⟩
      exact absurd hreturned (hstatus summary)

/-- **What a report says of the placeholder is right, except for a run that was aborted after the
placeholder was sent.**  The host gets the placeholder before the body starts, exactly if the policy
asks for one and the calls show that the host has written the dataset; but the report says so only
of runs that returned. -/
theorem placeholderEmitted_iff_returned (h : setup.simulate data body = .ok report) :
    setup.opening data <+: report.calls ∧
    (setup.SendsPlaceholder data ↔
      setup.policy.implicitResult = .placeholderZero ∧
        ∃ length, .datasetWrite length ∈ report.calls) ∧
    (report.policy.placeholderEmitted = true ↔
      setup.SendsPlaceholder data ∧
        ∃ summary, (setup.run data body).status = .returned summary) ∧
    (¬(report.policy.placeholderEmitted = true ↔ setup.SendsPlaceholder data) ↔
      setup.SendsPlaceholder data ∧ ∃ abort, (setup.run data body).status = .aborted abort) := by
  have hemitted := placeholderEmitted_iff h
  rw [Report.calls_of_ofOutcome_eq_ok h]
  refine ⟨opening_prefix_calls setup data body, sendsPlaceholder_iff setup data body, hemitted, ?_⟩
  constructor
  · intro hwrong
    have hsent : setup.SendsPlaceholder data := by
      by_contra hnot
      exact hwrong (iff_of_false (fun hflag => hnot (hemitted.mp hflag).1) hnot)
    refine ⟨hsent, (returned_or_aborted hsent body).resolve_left ?_⟩
    intro hreturned
    exact hwrong (iff_of_true (hemitted.mpr ⟨hsent, hreturned⟩) hsent)
  · rintro ⟨hsent, abort, haborted⟩ hright
    obtain ⟨-, summary, hreturned⟩ := hemitted.mp (hright.mpr hsent)
    rw [haborted] at hreturned
    cases hreturned

/-- A body that does nothing returns behind its placeholder, and the report shows that. -/
theorem placeholderEmitted_iff_returned_of_silence :
    let setup : Setup := { policy := .legacy }
    let body : Job Unit Unit := .done ()
    ∃ report, setup.simulate [1, 2, 3, 4, 5] body = .ok report ∧
      report.policy.placeholderEmitted = true := by
  intro setup body
  have hbody : body.CallsOnly Request.Enveloped := trivial
  obtain ⟨report, hreport⟩ := exists_report setup [1, 2, 3, 4, 5] hbody
  obtain ⟨dataset, host', arena, hready⟩ :=
    exists_ready_of_sizes { dataset := [1, 2, 3, 4, 5] } setup.memory rfl
      (PagedMemory.size_ofPages _ _ _) rfl
  have hreturned : ∃ summary, (setup.run [1, 2, 3, 4, 5] body).status = .returned summary := by
    rw [run, execute_of_ready hready, exists_returned_runBody_iff]
    rfl
  obtain ⟨-, -, hemitted, -⟩ := placeholderEmitted_iff_returned hreport
  exact ⟨report, hreport,
    hemitted.mpr ⟨(sendsPlaceholder_iff_of_ready hready).mpr rfl, hreturned⟩⟩

/-- Five bytes are no words.  The job that adds up words stops, behind a placeholder that its host
has got and its report denies. -/
theorem exists_placeholder_denied :
    ∃ (setup : Setup) (data : Bytes) (report : Report),
      setup.simulateReference data .words = .ok report ∧
        setup.policy.implicitResult = .placeholderZero ∧
        .datasetWrite data.length ∈ report.calls ∧
        setup.SendsPlaceholder data ∧ .result 0 [0, 0, 0, 0] ∈ report.calls ∧
        report.policy.placeholderEmitted = false := by
  obtain ⟨report, hreport⟩ :=
    exists_report { policy := .legacy } [1, 2, 3, 4, 5] (callsOnly_wordsJob (ν := Empty))
  obtain ⟨dataset, host', arena, hready⟩ :=
    exists_ready_of_sizes { dataset := [1, 2, 3, 4, 5] } (Setup.memory { policy := .legacy }) rfl
      (PagedMemory.size_ofPages _ _ _) rfl
  have hsent : ({ policy := .legacy } : Setup).SendsPlaceholder [1, 2, 3, 4, 5] :=
    (sendsPlaceholder_iff_of_ready hready).mpr rfl
  obtain ⟨abort, haborted⟩ := exists_aborted_wordsJob (ν := Empty) hready (by decide)
  have hprefix := opening_prefix_calls { policy := .legacy } [1, 2, 3, 4, 5]
    (wordsJob : Job Empty Unit)
  have hcalls : report.calls =
      (run { policy := .legacy } [1, 2, 3, 4, 5] (wordsJob : Job Empty Unit)).host.calls :=
    Report.calls_of_ofOutcome_eq_ok hreport
  refine ⟨{ policy := .legacy }, [1, 2, 3, 4, 5], report, hreport, rfl, ?_, hsent, ?_, ?_⟩
  · rw [hcalls]
    refine hprefix.subset ?_
    rw [opening_of_ready hready]
    exact List.mem_cons_of_mem _ List.mem_cons_self
  · rw [hcalls]
    exact hprefix.subset hsent
  · by_contra hflag
    obtain ⟨-, summary, hreturned⟩ :=
      (placeholderEmitted_iff hreport).mp (Bool.eq_true_of_not_eq_false hflag)
    rw [haborted] at hreturned
    cases hreturned

end Setup
end JobSandbox
