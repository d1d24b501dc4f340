import JobSandbox.Proofs.Placement
import JobSandbox.Proofs.Report.Consistency
import JobSandbox.Proofs.Report.Trap

/-!
# The report of a body

A run that has taken in its dataset is a run of its body.  Its report can be told from how the body
ends and from what it calls: before that comes the dataset, and the placeholder if the policy asks
for one, and they are the same for every body.

## Main definitions

* `Report.OfBody` — a report, by the ending of a body and its calls.

## Main results

* `Setup.exists_report_ofBody` — **a body that puts its results in envelopes has such a report.**
-/

namespace JobSandbox

/-- The report of a body that ended so and has `said` this to its host. -/
structure Report.OfBody (report : Report) (policy : Policy) (data : Bytes)
    (ending : Except Abort Unit) (said : List HostCall) : Prop where
  ok_iff : report.ok = true ↔ ending = .ok ()
  trap_eq : ∀ fault, ending = .error (.trap fault) →
    report.trap = some (toString fault.trapCode)
  calls_eq : report.calls =
    [.datasetLen data.length, .datasetWrite data.length] ++ policy.placeholder ++ said
  emitCount_eq : report.emitCount =
    (if policy.implicitResult = .placeholderZero then 1 else 0) + (HostCall.results said).length
  /-- If the body sends results, the last of them is reported. -/
  result_of_last : ∀ raw payload value,
    (HostCall.results said).getLast? = some (raw, payload) →
    ResultValue.decode raw payload = .ok value → report.result = some value
  /-- If the body sends no result, that of the placeholder is reported, if there is one. -/
  result_of_silence : HostCall.results said = [] → report.result =
    if policy.implicitResult = .placeholderZero then some (.integer 0) else none

namespace Setup

open Address Contract in
/-- A dataset that fits behind the heap base is taken in. -/
theorem exists_ready_of_fits (setup : Setup) (data : Bytes)
    (hcap : setup.maxPages * pageSize < addressSpace) (hne : data ≠ [])
    (hfits : leastMultiple setup.policy.granularity.unit setup.heapBase +
      leastMultiple setup.policy.granularity.unit data.length ≤ setup.maxPages * pageSize) :
    ∃ dataset host' arena,
      Dataset.ingest { dataset := data } (.ofMemory setup.memory) setup.policy.granularity =
        (.ready dataset, host', arena) := by
  have hannounced : ({ dataset := data } : Host).announced ≠ 0 :=
    Nat.ne_of_gt (List.length_pos_iff.mpr hne)
  obtain ⟨arena, -, hready, -⟩ :=
    Dataset.ingest_of_fits hcap hannounced hfits setup.initialPages
  exact ⟨_, _, arena, hready⟩

variable {ν : Type} {setup : Setup} {data : Bytes} {dataset : Dataset} {host' : Host}
  {arena : Arena PagedMemory}
  (h : Dataset.ingest { dataset := data } (.ofMemory setup.memory) setup.policy.granularity =
    (.ready dataset, host', arena))

include h

/-- A body finds its dataset as the host holds it. -/
theorem read?_of_ready :
    (Session.start setup.policy dataset host' arena).dataset.read?
      (Session.start setup.policy dataset host' arena).arena = some data := by
  rw [← Host.visible_self data]
  exact Dataset.read?_of_ingest h

/-- **A body that puts its results in envelopes has a report**, and it is that of its ending and its
calls. -/
theorem exists_report_ofBody {body : Job ν Unit} (hbody : body.CallsOnly Request.Enveloped) :
    ∃ report, setup.simulate data body = .ok report ∧
      report.OfBody setup.policy data
        (body.run (.start setup.policy dataset host' arena)).ending
        (body.calls (.start setup.policy dataset host' arena)) := by
  obtain ⟨report, hreport⟩ := exists_report setup data hbody
  have htranscript := transcribed_run h body
  obtain ⟨result, hlast, hentries⟩ := Report.exists_of_ofOutcome_eq_ok hreport
  have hresult : report.result = result := by rw [hentries]
  rw [Report.lastResult, htranscript.lastResult_eq] at hlast
  refine ⟨report, hreport, ?_, ?_, ?_, ?_, ?_, ?_⟩
  · rw [Report.ok_iff_of_ofOutcome_eq_ok hreport, run, execute_of_ready h,
      exists_returned_runBody_iff]
  · intro fault hending
    rw [trap_eq_some_iff hreport]
    refine .inl ⟨fault, ?_, rfl⟩
    rw [trapped_iff]
    exact .inr ((htranscript.aborted_iff _).mpr hending)
  · rw [Report.calls_of_ofOutcome_eq_ok hreport, htranscript.calls_eq]
    rfl
  · rw [hentries]
    show (setup.run data body).host.emitCount = _
    rw [htranscript.emitCount_eq]
    exact congrArg (· + _) (Nat.zero_add _)
  · intro raw payload value hsaid hdecode
    rw [hsaid] at hlast
    simp only [Option.some_or, hdecode] at hlast
    cases hlast
    exact hresult
  · intro hsilent
    rw [hsilent, List.getLast?_nil, Option.none_or] at hlast
    rw [hresult]
    by_cases hpolicy : setup.policy.implicitResult = .placeholderZero
    · rw [if_pos hpolicy] at hlast ⊢
      cases hlast
      rfl
    · rw [if_neg hpolicy] at hlast ⊢
      cases hlast
      rfl

end Setup
end JobSandbox
