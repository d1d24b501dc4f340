import JobSandbox.Job.Execute
import JobSandbox.Proofs.Job.Course

/-!
# Whole runs

A run that takes in its dataset is a run of its body, in a session that has heard the placeholder if
the policy asks for one.  How the body ends shows in the status, and what it says in the record of
the host.

## Main definitions

* `Session.start` — the session that a body starts in.
* `Policy.placeholder` — what is called on behalf of a body.

## Main results

* `execute_of_refused`, `execute_of_ready` — a run without a dataset, and one with it.
* `status_runBody_iff` — a body that does not return aborts its run.
* `host_runBody` — **the host of a run hears the placeholder, and then the body.**
-/

namespace JobSandbox

/-- The session a body starts in. -/
def Session.start (policy : Policy) (dataset : Dataset) (host : Host) (arena : Arena PagedMemory) :
    Session :=
  { host := emitPlaceholder policy host, arena, dataset, policy, regions := [] }

/-- What is called before a body starts, if its policy asks for it. -/
def Policy.placeholder (policy : Policy) : List HostCall :=
  if policy.implicitResult = .placeholderZero then [.result 0 [0, 0, 0, 0]] else []

theorem emitPlaceholder_eq (policy : Policy) (host : Host) :
    emitPlaceholder policy host = host.hearAll policy.placeholder := by
  unfold emitPlaceholder Policy.placeholder
  cases policy.implicitResult <;> rfl

section

variable {ν : Type} {policy : Policy} {host : Host} {memory : PagedMemory}

/-- A run without a dataset. -/
theorem execute_of_refused {error : AllocError} {host' : Host} {arena : Arena PagedMemory}
    (h : Dataset.ingest host (.ofMemory memory) policy.granularity =
      (.refused error, host', arena)) (body : Job ν Unit) :
    execute policy host memory body = ⟨.failed ⟨.ingesting, .alloc error⟩, host', arena, []⟩ := by
  rw [execute, h]

/-- A run with one. -/
theorem execute_of_ready {dataset : Dataset} {host' : Host} {arena : Arena PagedMemory}
    (h : Dataset.ingest host (.ofMemory memory) policy.granularity =
      (.ready dataset, host', arena)) (body : Job ν Unit) :
    execute policy host memory body = runBody policy dataset host' arena body := by
  rw [execute, h]

/-- The host of a body has heard the placeholder and the calls of the body. -/
theorem host_runBody (policy : Policy) (dataset : Dataset) (host : Host)
    (arena : Arena PagedMemory) (body : Job ν Unit) :
    (runBody policy dataset host arena body).host =
      host.hearAll (policy.placeholder ++ body.calls (.start policy dataset host arena)) := by
  have hstart : (Session.start policy dataset host arena).host =
      host.hearAll policy.placeholder := emitPlaceholder_eq policy host
  rw [Host.hearAll_append, ← hstart, ← Job.host_run]
  rfl

/-- A body that does not return aborts its run, and nothing else does. -/
theorem status_runBody_iff (policy : Policy) (dataset : Dataset) (host : Host)
    (arena : Arena PagedMemory) (body : Job ν Unit) (abort : Abort) :
    (runBody policy dataset host arena body).status = .aborted abort ↔
      (body.run (.start policy dataset host arena)).ending = .error abort := by
  unfold runBody Session.start
  dsimp only
  split
  · next abort' hending =>
    rw [hending]
    constructor
    · intro h
      cases h
      rfl
    · intro h
      cases h
      rfl
  · next hending =>
    rw [hending]
    constructor
    · intro h
      cases h
    · intro h
      cases h

/-- A body that returns makes its run return. -/
theorem exists_returned_runBody_iff (policy : Policy) (dataset : Dataset) (host : Host)
    (arena : Arena PagedMemory) (body : Job ν Unit) :
    (∃ summary, (runBody policy dataset host arena body).status = .returned summary) ↔
      (body.run (.start policy dataset host arena)).ending = .ok () := by
  unfold runBody Session.start
  dsimp only
  split
  · next abort hending =>
    rw [hending]
    constructor
    · rintro ⟨summary, h⟩
      cases h
    · intro h
      cases h
  · next hending =>
    rw [hending]
    constructor
    · intro _
      rfl
    · intro _
      exact ⟨_, rfl⟩

end
end JobSandbox
