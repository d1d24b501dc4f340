import JobSandbox.Proofs.Job.Isolation
import JobSandbox.Proofs.Job.Requests
import JobSandbox.Proofs.Job.Transcript
import JobSandbox.Proofs.Report.Outcome

/-!
# Results that cannot be understood

A host takes the result of a job apart, and it does not trust the job.  What it gets always has one
of the discriminants that there are, so all that can be wrong is the width of an integer.  A job
that puts its results in envelopes sends integers of the right width only, whatever it does besides
and however it ends; so there is always a report of it.

## Main results

* `ResultValue.exists_decode_error_iff` — what a host cannot understand of what it may get.
* `Setup.exists_report` — a job that puts its results in envelopes has a report.
* `Setup.simulate_error_iff` — **there is no report exactly if the last result is an integer of the
  wrong width.**
-/

namespace JobSandbox

open Contract

/-! ### One result -/

namespace ResultValue

/-- Of what has a discriminant, a host understands all but integers of the wrong width. -/
theorem exists_decode_error_iff (kind : ResultKind) (payload : Bytes) :
    (∃ error, decode kind.discriminant payload = .error error) ↔
      kind = .integer ∧ payload.length ≠ 4 := by
  unfold decode
  rw [ResultKind.ofDiscriminant?_discriminant]
  cases kind with
  | integer =>
    dsimp only
    by_cases hwidth : payload.length = resultIntegerWidth
    · rw [if_pos hwidth]
      constructor
      · rintro ⟨error, h⟩
        cases h
      · rintro ⟨-, hne⟩
        exact absurd hwidth hne
    · rw [if_neg hwidth]
      exact ⟨fun _ => ⟨rfl, hwidth⟩, fun _ => ⟨_, rfl⟩⟩
  | bytes | string =>
    constructor
    · rintro ⟨error, h⟩
      cases h
    · rintro ⟨h, -⟩
      cases h

/-- An integer in an envelope has the right width. -/
theorem length_payload_of_integer {envelope : Envelope} (h : envelope.kind = .integer) :
    envelope.payload.length = 4 := by
  cases envelope with
  | integer value => exact Bytes.length_ofInt32 value
  | bytes payload => cases h
  | string payload => cases h

end ResultValue

namespace Host.Tallied

variable {host : Host}

/-- Without an entry that has one, a tallied host has no result. -/
theorem lastResult_of_none (h : host.Tallied)
    (hlast : (HostCall.results host.calls).getLast? = none) :
    Report.lastResult host = .ok none := by
  rw [Report.lastResult, h.lastResult_eq, hlast]

/-- With such entries, it has the result of the last one, if it can understand it. -/
theorem lastResult_of_some (h : host.Tallied) {raw : UInt32} {payload : Bytes}
    (hlast : (HostCall.results host.calls).getLast? = some (raw, payload)) :
    Report.lastResult host = some <$> ResultValue.decode raw payload := by
  rw [Report.lastResult, h.lastResult_eq, hlast]

end Host.Tallied

/-! ### The last result of a run -/

namespace Setup

variable {ν : Type} {setup : Setup} {data : Bytes} {body : Job ν Unit}

/-- A run asks its host what its body does, and beside that nothing that needs an envelope. -/
theorem asked_run {P : Request → Prop} (hP : ∀ request : Request, request.Enveloped → P request)
    (setup : Setup) (data : Bytes) (h : body.CallsOnly P) :
    Host.Asked P { dataset := data } (setup.run data body).host :=
  asked_execute hP setup.policy { dataset := data } setup.memory h

/-- After every run, the host is tallied. -/
theorem tallied_run (setup : Setup) (data : Bytes) (body : Job ν Unit) :
    (setup.run data body).host.Tallied :=
  (asked_run (fun _ _ => trivial) setup data body.callsOnly_true).tallied
    (Host.tallied_fresh data data.length)

/-- A run that takes in its dataset has the transcript of its body. -/
theorem transcribed_run {dataset : Dataset} {host' : Host} {arena : Arena PagedMemory}
    (h : Dataset.ingest { dataset := data } (.ofMemory setup.memory) setup.policy.granularity =
      (.ready dataset, host', arena)) (body : Job ν Unit) :
    body.Transcribed setup.policy { dataset := data } (.start setup.policy dataset host' arena)
      (setup.run data body) := by
  rw [run, execute_of_ready h]
  exact transcribed_runBody dataset arena body (Dataset.of_ingest_eq_ready h).1

/-- Without a report, the last result was asked for, and it is an integer of the wrong width. -/
theorem exists_getLast?_of_error {P : Request → Prop}
    (hP : ∀ request : Request, request.Enveloped → P request) (h : body.CallsOnly P)
    {error : DecodeError} (herror : setup.simulate data body = .error error) :
    ∃ payload, P (.result .integer payload) ∧ payload.length ≠ 4 ∧
      (HostCall.results (setup.run data body).host.calls).getLast? = some (0, payload) := by
  have hlast := Report.ofOutcome_eq_error_iff.mp herror
  cases hresults : (HostCall.results (setup.run data body).host.calls).getLast? with
  | none =>
    rw [(tallied_run setup data body).lastResult_of_none hresults] at hlast
    cases hlast
  | some result =>
    obtain ⟨raw, payload⟩ := result
    have hmem : (raw, payload) ∈ HostCall.results (setup.run data body).host.calls :=
      List.mem_of_getLast? hresults
    obtain ⟨kind, hasked, rfl⟩ := (asked_run hP setup data h).exists_of_mem_results rfl hmem
    rw [(tallied_run setup data body).lastResult_of_some hresults] at hlast
    have hdecode : ∃ error, ResultValue.decode kind.discriminant payload = .error error := by
      cases hvalue : ResultValue.decode kind.discriminant payload with
      | ok value =>
        rw [hvalue] at hlast
        cases hlast
      | error error => exact ⟨error, rfl⟩
    obtain ⟨rfl, hwidth⟩ := (ResultValue.exists_decode_error_iff kind payload).mp hdecode
    exact ⟨payload, hasked, hwidth, rfl⟩

/-- An integer of the wrong width stands in the way of a report. -/
theorem exists_error_of_getLast? {payload : Bytes}
    (hresults : (HostCall.results (setup.run data body).host.calls).getLast? = some (0, payload))
    (hwidth : payload.length ≠ 4) : ∃ error, setup.simulate data body = .error error := by
  obtain ⟨error, hdecode⟩ :=
    (ResultValue.exists_decode_error_iff .integer payload).mpr ⟨rfl, hwidth⟩
  have hlast := (tallied_run setup data body).lastResult_of_some hresults
  have hzero : ResultKind.integer.discriminant = 0 := rfl
  rw [← hzero, hdecode] at hlast
  exact ⟨error, Report.ofOutcome_eq_error_iff.mpr hlast⟩

/-- **A job that puts its results in envelopes has a report**, however it ends. -/
theorem exists_report (setup : Setup) (data : Bytes) (h : body.CallsOnly Request.Enveloped) :
    ∃ report, setup.simulate data body = .ok report := by
  cases hsimulate : setup.simulate data body with
  | ok report => exact ⟨report, rfl⟩
  | error error =>
    obtain ⟨payload, ⟨envelope, hkind, rfl⟩, hwidth, -⟩ :=
      exists_getLast?_of_error (fun _ henveloped => henveloped) h hsimulate
    exact absurd (ResultValue.length_payload_of_integer hkind.symm) hwidth

end Setup

/-! ### Envelopes -/

/-- Of the ways in which a job speaks to its host, none sends a result without an envelope. -/
theorem Saying.callsOnly_job {ν : Type} (saying : Saying) :
    (saying.job : Job ν Unit).CallsOnly Request.Enveloped := by
  cases saying with
  | logInteger value =>
    obtain ⟨message, hmessage⟩ := Request.exists_logInteger value
    rw [job, Job.logInteger, hmessage]
    exact Job.callsOnly_call trivial fun _ => trivial
  | emit envelope => exact Job.callsOnly_call ⟨envelope, rfl, rfl⟩ fun _ => trivial
  | emitRegion kind number =>
    -- the region is read, and what it holds is put in an envelope, however short it is
    have hemit (bytes : Bytes) :
        (Job.emit (.ofMemory kind bytes) : Job ν Unit).CallsOnly Request.Enveloped :=
      Job.callsOnly_call ⟨.ofMemory kind bytes, rfl, rfl⟩ fun _ => trivial
    refine ⟨?_, hemit⟩
    intro request heq
    cases heq
  | log | logText | logString | logLine | progress | sleep =>
    exact Job.callsOnly_call trivial fun _ => trivial

namespace Setup

variable {ν : Type}

/-- **There is no report of a run exactly if the last result that its host got is an integer of the
wrong width**, however the run ends.  A body that puts its results in envelopes therefore always has
a report; and all the ways to speak to the host do so, be it the contents of a region that are sent,
of whatever kind and length. -/
theorem simulate_error_iff (setup : Setup) (data : Bytes) :
    (∀ body : Job ν Unit,
      (∃ error, setup.simulate data body = .error error) ↔
        ∃ payload,
          (HostCall.results (setup.run data body).host.calls).getLast? = some (0, payload) ∧
            payload.length ≠ 4) ∧
    (∀ body : Job ν Unit, body.CallsOnly Request.Enveloped →
      ∃ report, setup.simulate data body = .ok report) ∧
    (∀ (saying : Saying) (next : Unit → Job ν Unit),
      (∀ value, (next value).CallsOnly Request.Enveloped) →
        (saying.job.bind next).CallsOnly Request.Enveloped) := by
  refine ⟨?_, ?_, ?_⟩
  · intro body
    constructor
    · rintro ⟨error, herror⟩
      obtain ⟨payload, -, hwidth, hresults⟩ :=
        exists_getLast?_of_error (fun _ _ => trivial) body.callsOnly_true herror
      exact ⟨payload, hresults, hwidth⟩
    · rintro ⟨payload, hresults, hwidth⟩
      exact exists_error_of_getLast? hresults hwidth
  · intro body hbody
    exact exists_report setup data hbody
  · intro saying next hnext
    exact saying.callsOnly_job.bind hnext

/-- Two bytes of scratch memory make an integer with zeros behind them.  Two bytes that are sent as
they are make none. -/
theorem simulate_error_iff_of_two_bytes :
    let setup : Setup := { policy := .legacy }
    let wrapped : Job Unit Unit := (Job.alloc 2).bind (Job.emitRegion .integer)
    let bare : Job Unit Unit := Job.call (.result .integer [1, 2])
    (wrapped.CallsOnly Request.Enveloped ∧
        ∃ report, setup.simulate [1, 2, 3, 4, 5] wrapped = .ok report) ∧
      (HostCall.results (setup.run [1, 2, 3, 4, 5] bare).host.calls).getLast? = some (0, [1, 2]) ∧
        ∃ error, setup.simulate [1, 2, 3, 4, 5] bare = .error error := by
  intro setup wrapped bare
  obtain ⟨hfails, hreports, -⟩ := simulate_error_iff (ν := Unit) setup [1, 2, 3, 4, 5]
  have halloc : (Job.alloc 2 : Job Unit ℕ).CallsOnly Request.Enveloped := by
    refine ⟨?_, ?_⟩
    · intro request heq
      cases heq
    · intro answer
      cases answer with
      | ok number => trivial
      | error error => trivial
  have hwrapped : wrapped.CallsOnly Request.Enveloped :=
    halloc.bind fun number => (Saying.emitRegion .integer number).callsOnly_job
  obtain ⟨dataset, host', arena, hready⟩ :=
    exists_ready_of_sizes { dataset := [1, 2, 3, 4, 5] } setup.memory rfl
      (PagedMemory.size_ofPages _ _ _) rfl
  have hresults :
      (HostCall.results (setup.run [1, 2, 3, 4, 5] bare).host.calls).getLast? =
        some (0, [1, 2]) := by
    have hcalls (session : Session) : bare.calls session = [.result 0 [1, 2]] := rfl
    rw [(transcribed_run hready bare).calls_eq, hcalls]
    rfl
  exact ⟨⟨hwrapped, hreports wrapped hwrapped⟩, hresults,
    (hfails bare).mpr ⟨[1, 2], hresults, by decide⟩⟩

end Setup
end JobSandbox
