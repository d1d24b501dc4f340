import JobSandbox.Proofs.Job.Transcript
import JobSandbox.Proofs.Placement
import JobSandbox.Proofs.Report.Outcome

/-!
# Echoed datasets

The echo job emits its dataset.  Simulated, it shows what there is between a dataset and its report:
the dataset is placed in a fresh memory, the host writes it there, the job reads it and emits it,
and the report has it as its result.  This goes well exactly if the dataset fits, and that can be
told from its length and the setup.

## Main definitions

* `Report.ofEcho` — the report of a dataset that was taken in, in full.
* `Report.Echoes` — the report of a dataset that fits.
* `Report.TurnsAway` — that of one which does not.

## Main results

* `Setup.simulate_echo_eq_of_ready`, `Setup.simulate_echo_eq_of_fits` — the report of an echo, in
  full.
* `Setup.simulate_of_beyond` — any job whose dataset does not fit is turned away.
* `Setup.simulate_echo` — **the reports of the echo job.**
-/

namespace JobSandbox

open Address Contract

/-- The echo job emits the dataset, and returns. -/
theorem run_echoJob {ν : Type} {session : Session} {data : Bytes}
    (hread : session.dataset.read? session.arena = some data) :
    (echoJob : Job ν Unit).run session =
      { ending := .ok ()
        notes := []
        session :=
          { session with
            host := session.host.hear (.result ResultKind.bytes.discriminant data) } } := by
  have hperform : session.perform .dataset = some (data, session) :=
    Option.map_eq_some_iff.mpr ⟨data, hread, rfl⟩
  exact Job.run_act_of_some _ hperform

/-! ### Reports -/

namespace Report

/-- The report of an echo in full: the dataset and its region, the memory that it took, and the
calls. -/
def ofEcho (policy : Policy) (data : Bytes) (allocated : ℕ) (memory : MemoryReport) : Report :=
  let blank := start policy data
  { blank with
    policy.placeholderEmitted := policy.implicitResult = .placeholderZero
    ok := true
    dataset.allocatedLength := some allocated
    emitCount := 1 + if policy.implicitResult = .placeholderZero then 1 else 0
    result := some (.bytes data)
    memory
    calls := [.datasetLen data.length, .datasetWrite data.length] ++ policy.placeholder ++
      [.result ResultKind.bytes.discriminant data] }

/-- The report of a dataset that fits: where it was placed, and that it came back as it was. -/
structure Echoes (report : Report) (policy : Policy) (data : Bytes) (allocated mark : ℕ) :
    Prop where
  ok_eq : report.ok = true
  result_eq : report.result = some (.bytes data)
  allocatedLength_eq : report.dataset.allocatedLength = some allocated
  highWaterMark_eq : report.memory.highWaterMark = some mark
  /-- The echo is one result, and a placeholder may come before it. -/
  emitCount_eq : report.emitCount =
    1 + if policy.implicitResult = .placeholderZero then 1 else 0

/-- The report of a dataset that does not fit. -/
structure TurnsAway (report : Report) (trapCode : ℕ) : Prop where
  ok_eq : report.ok = false
  failure_eq : ∃ cause, report.failure = some ("ingesting failed: " ++ cause)
  trap_eq : report.trap = some (toString trapCode)
  result_eq : report.result = none
  emitCount_eq : report.emitCount = 0

end Report

namespace Setup

variable {setup : Setup} {data : Bytes}

/-- Without a dataset, every job has the report of one that was turned away. -/
theorem simulate_of_refused {ν : Type} {error : AllocError} {arena : Arena PagedMemory}
    (h : Dataset.ingest { dataset := data } (.ofMemory setup.memory) setup.policy.granularity =
      (.refused error, ({ dataset := data } : Host).hear (.datasetLen data.length), arena))
    (body : Job ν Unit) :
    ∃ report, setup.simulate data body = .ok report ∧ report.TurnsAway error.trapCode := by
  have hlast : Report.lastResult (({ dataset := data } : Host).hear (.datasetLen data.length)) =
      .ok none := rfl
  rw [simulate, run, execute_of_refused h, Report.ofOutcome_eq hlast]
  exact ⟨_, rfl, rfl, ⟨error.message, rfl⟩, rfl, rfl, rfl⟩

/-- With its dataset, the echo job has the report of an echo. -/
theorem simulate_echo_eq_of_ready {dataset : Dataset} {host' : Host} {arena : Arena PagedMemory}
    (h : Dataset.ingest { dataset := data } (.ofMemory setup.memory) setup.policy.granularity =
      (.ready dataset, host', arena)) :
    setup.simulateReference data .echo =
      .ok (.ofEcho setup.policy data dataset.allocatedLength
        { heapBase := arena.memory.heapBase
          highWaterMark := some arena.mark
          pages := arena.memory.pages
          growCalls := arena.memory.growCalls }) := by
  have hread : dataset.read? arena = some data := by
    rw [← Host.visible_self data]
    exact Dataset.read?_of_ingest h
  have houtcome : runBody setup.policy dataset host' arena (echoJob : Job Empty Unit) =
      { status := .returned
          { policy := setup.policy
            datasetLength := dataset.length
            allocatedLength := dataset.allocatedLength
            highWaterMark := arena.mark
            placeholderEmitted := setup.policy.implicitResult = .placeholderZero }
        host := (emitPlaceholder setup.policy host').hear
          (.result ResultKind.bytes.discriminant data)
        arena
        notes := [] } := by
    have hrun : (echoJob : Job Empty Unit).run (.start setup.policy dataset host' arena) = _ :=
      run_echoJob hread
    unfold Session.start at hrun
    rw [runBody, hrun]
  obtain ⟨rfl, -⟩ := Dataset.of_ingest_eq_ready h
  have hlast (host : Host) : Report.lastResult
      (host.hear (.result ResultKind.bytes.discriminant data)) = .ok (some (.bytes data)) := rfl
  have hsimulate : setup.simulateReference data .echo =
      Report.ofOutcome setup.policy data (execute setup.policy { dataset := data } setup.memory
        (echoJob : Job Empty Unit)) := rfl
  rw [hsimulate, execute_of_ready h, houtcome, Report.ofOutcome_eq (hlast _), Report.ofEcho,
    emitPlaceholder_eq]
  unfold Policy.placeholder
  split <;> rfl

theorem simulate_echo_of_ready {dataset : Dataset} {host' : Host} {arena : Arena PagedMemory}
    (h : Dataset.ingest { dataset := data } (.ofMemory setup.memory) setup.policy.granularity =
      (.ready dataset, host', arena)) :
    ∃ report, setup.simulateReference data .echo = .ok report ∧
      report.Echoes setup.policy data dataset.allocatedLength arena.mark :=
  ⟨_, simulate_echo_eq_of_ready h, rfl, rfl, rfl, rfl, rfl⟩

/-- An empty dataset comes back, from where the heap starts. -/
theorem simulate_echo_of_empty (hempty : data = []) (hin : setup.heapBase ≤ setup.memory.size) :
    ∃ report, setup.simulateReference data .echo = .ok report ∧
      report.Echoes setup.policy data 0 setup.heapBase := by
  have hzero : ({ dataset := data } : Host).announced = 0 := by
    rw [hempty]
    rfl
  obtain ⟨arena, hready, hrefines⟩ := Dataset.ingest_of_empty setup.policy.granularity hzero hin
  obtain ⟨report, hreport, hechoes⟩ := simulate_echo_of_ready hready
  rw [hrefines.mark_eq] at hechoes
  exact ⟨report, hreport, hechoes⟩

/-- The report of a dataset that fits, in full.  The memory has grown at most once, up to the end of
the region. -/
theorem simulate_echo_eq_of_fits (hcap : setup.maxPages * pageSize < addressSpace) (hne : data ≠ [])
    (hfits : leastMultiple setup.policy.granularity.unit setup.heapBase +
      leastMultiple setup.policy.granularity.unit data.length ≤ setup.maxPages * pageSize) :
    let room := leastMultiple setup.policy.granularity.unit data.length
    let mark := leastMultiple setup.policy.granularity.unit setup.heapBase + room
    let pages := min setup.initialPages setup.maxPages
    setup.simulateReference data .echo =
      .ok (.ofEcho setup.policy data room
        { heapBase := setup.heapBase
          highWaterMark := some mark
          pages := max pages (pagesFor mark)
          growCalls := if pages * pageSize < mark then 1 else 0 }) := by
  intro room mark pages
  have hannounced : ({ dataset := data } : Host).announced ≠ 0 :=
    Nat.ne_of_gt (List.length_pos_iff.mpr hne)
  obtain ⟨arena, bump, hready, hrefines, hmark, -, hpages, hbase, hgrown⟩ :=
    Dataset.ingest_of_fits hcap hannounced hfits setup.initialPages
  rw [simulate_echo_eq_of_ready hready, hrefines.mark_eq, hmark, hrefines.pages_eq, hpages, hbase,
    hgrown]
  rfl

/-- A dataset that fits comes back, from where it was placed. -/
theorem simulate_echo_of_fits (hcap : setup.maxPages * pageSize < addressSpace) (hne : data ≠ [])
    (hfits : leastMultiple setup.policy.granularity.unit setup.heapBase +
      leastMultiple setup.policy.granularity.unit data.length ≤ setup.maxPages * pageSize) :
    ∃ report, setup.simulateReference data .echo = .ok report ∧
      report.Echoes setup.policy data (leastMultiple setup.policy.granularity.unit data.length)
        (leastMultiple setup.policy.granularity.unit setup.heapBase +
          leastMultiple setup.policy.granularity.unit data.length) :=
  ⟨_, simulate_echo_eq_of_fits hcap hne hfits, rfl, rfl, rfl, rfl, rfl⟩

/-- With a dataset that does not fit, every job is turned away. -/
theorem simulate_of_beyond {ν : Type} (hcap : setup.maxPages * pageSize < addressSpace)
    (hne : data ≠ [])
    (hbeyond : setup.maxPages * pageSize <
      leastMultiple setup.policy.granularity.unit setup.heapBase +
        leastMultiple setup.policy.granularity.unit data.length) (body : Job ν Unit) :
    ∃ report, setup.simulate data body = .ok report ∧
      report.TurnsAway
        (if addressSpace ≤ leastMultiple setup.policy.granularity.unit setup.heapBase +
            leastMultiple setup.policy.granularity.unit data.length then trapAddressOverflow
        else trapOutOfMemory) := by
  have hannounced : ({ dataset := data } : Host).announced ≠ 0 :=
    Nat.ne_of_gt (List.length_pos_iff.mpr hne)
  obtain ⟨error, arena, hrefused, hcode⟩ :=
    Dataset.ingest_of_beyond hcap hannounced hbeyond setup.initialPages
  obtain ⟨report, hreport, haway⟩ := simulate_of_refused hrefused body
  rw [hcode] at haway
  exact ⟨report, hreport, haway⟩

/-- **The reports of the echo job.**  In a memory that can be addressed, a dataset comes back as the
result exactly if it is empty, or if there is room for its length behind the heap base, both rounded
up to the granularity.  If there is none, the report says that taking in the dataset failed, with
the trap code for the end of the address space or that for the end of the memory; and there is no
result.  An empty dataset has to find the heap base inside the memory. -/
theorem simulate_echo (setup : Setup) (data : Bytes)
    (hcap : setup.maxPages * pageSize < addressSpace)
    (hbase : data ≠ [] ∨ setup.heapBase ≤ setup.memory.size) :
    let start := leastMultiple setup.policy.granularity.unit setup.heapBase
    let room := leastMultiple setup.policy.granularity.unit data.length
    ∃ report, setup.simulateReference data .echo = .ok report ∧
      (report.ok = true ↔ data = [] ∨ start + room ≤ setup.maxPages * pageSize) ∧
      (report.ok = true →
        report.Echoes setup.policy data room
          (if data = [] then setup.heapBase else start + room)) ∧
      (report.ok = false →
        report.TurnsAway (if addressSpace ≤ start + room then 9301 else 9300)) := by
  intro start room
  have hroom : data = [] → room = 0 := by
    intro hempty
    show leastMultiple _ data.length = 0
    rw [hempty]
    exact leastMultiple_of_dvd setup.policy.granularity.unit_pos (Nat.dvd_zero _)
  by_cases hfits : data = [] ∨ start + room ≤ setup.maxPages * pageSize
  · obtain ⟨report, hreport, hechoes⟩ : ∃ report,
        setup.simulateReference data .echo = .ok report ∧
        report.Echoes setup.policy data room
          (if data = [] then setup.heapBase else start + room) := by
      by_cases hempty : data = []
      · rw [hroom hempty, if_pos hempty]
        exact simulate_echo_of_empty hempty (hbase.resolve_left (absurd hempty))
      · rw [if_neg hempty]
        exact simulate_echo_of_fits hcap hempty (hfits.resolve_left hempty)
    refine ⟨report, hreport, iff_of_true hechoes.ok_eq hfits, fun _ => hechoes, ?_⟩
    intro hfailed
    rw [hechoes.ok_eq] at hfailed
    cases hfailed
  · obtain ⟨hne, hbeyond⟩ := not_or.mp hfits
    obtain ⟨report, hreport, haway⟩ :=
      simulate_of_beyond hcap hne (Nat.lt_of_not_le hbeyond) (echoJob : Job Empty Unit)
    have hnot : ¬report.ok = true := by
      rw [haway.ok_eq]
      exact Bool.false_ne_true
    exact ⟨report, hreport, iff_of_false hnot hfits, fun hok => absurd hok hnot, fun _ => haway⟩

/-- Three bytes take a page of their own behind the first one, up to the very end of two pages. -/
theorem simulate_echo_up_to_capacity :
    let setup : Setup := { policy := .standard, initialPages := 1, maxPages := 2, heapBase := 1024 }
    setup.maxPages * pageSize < addressSpace ∧
      ∃ report, setup.simulateReference [1, 2, 3] .echo = .ok report ∧
        report.Echoes .standard [1, 2, 3] 65536 131072 := by
  intro setup
  have hcap : setup.maxPages * pageSize < addressSpace := by decide
  have hstart : leastMultiple setup.policy.granularity.unit setup.heapBase = 65536 := by decide
  have hroom : leastMultiple setup.policy.granularity.unit ([1, 2, 3] : Bytes).length = 65536 := by
    decide
  have hnonempty : ([1, 2, 3] : Bytes) ≠ [] := List.cons_ne_nil 1 [2, 3]
  obtain ⟨report, hreport, hok, hechoes, -⟩ :=
    simulate_echo setup [1, 2, 3] hcap (Or.inl hnonempty)
  rw [hstart, hroom] at hok hechoes
  rw [if_neg hnonempty] at hechoes
  exact ⟨hcap, report, hreport, hechoes (hok.mpr (Or.inr (by decide)))⟩

end Setup
end JobSandbox
