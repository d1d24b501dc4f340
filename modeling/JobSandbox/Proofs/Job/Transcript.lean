import JobSandbox.Proofs.Ingestion
import JobSandbox.Proofs.Job.Course
import JobSandbox.Proofs.Job.Isolation
import JobSandbox.Proofs.Numeral

/-!
# The transcript of a run

The host of a run hears three things in a row: that its dataset is taken in, then the placeholder if
the policy asks for one, and then the calls of the body in the order of its course.  Each way for a
job to speak to its host is one call; a job that stops for a fault makes one last call, and no more.
If there is no memory for the dataset, the host has only been asked for its length.

## Main definitions

* `Saying` — the ways in which a job speaks to its host.
* `Job.Transcribed` — what a run that took in its dataset leaves with its host.
* `Outcome.TurnedAway` — what a run leaves that had no memory for it.

## Main results

* `Job.calls_bind_saying` — **each of these ways is one call.**
* `Job.calls_bind_alloc` — a request for memory that stops the job is one last line.
* `execute_transcribed` — **the transcript of every run.**
-/

namespace JobSandbox

/-! ### Ways to speak -/

/-- The ways in which a job speaks to its host. -/
inductive Saying where
  | log (message : Bytes)
  /-- A terminated text, or none. -/
  | logText (text : Option Bytes)
  | logString (text : String)
  | logInteger (value : Int32)
  | logLine (parts : List String)
  | progress (fraction : Single)
  | sleep (seconds : Single)
  | emit (envelope : Envelope)
  | emitRegion (kind : ResultKind) (number : ℕ)

namespace Saying

/-- The job that says it, and returns. -/
def job {ν : Type} : Saying → Job ν Unit
  | log message => Job.log message
  | logText text => Job.call (.logText text)
  | logString text => Job.logString text
  | logInteger value => Job.logInteger value
  | logLine parts => Job.logLine parts
  | progress fraction => Job.progress fraction
  | sleep seconds => Job.sleep seconds
  | emit envelope => Job.emit envelope
  | emitRegion kind number => Job.emitRegion kind number

/-- The request that it comes to in a session.  There is none for a region that cannot be read. -/
def request? (session : Session) : Saying → Option Request
  | log message => some (.log message)
  | logText text => some (.logText text)
  | logString text => some (.logString text)
  | logInteger value => Request.logInteger? value
  | logLine parts => some (.logLine parts)
  | progress fraction => some (.progress fraction)
  | sleep seconds => some (.sleep seconds)
  | emit envelope => some (.emit envelope)
  | emitRegion kind number =>
    (session.perform (.read number)).map fun result => .emit (.ofMemory kind result.1)

/-- All comes to a request, but for regions that cannot be read. -/
theorem isSome_request? (session : Session) (saying : Saying)
    (hregion : ∀ kind number, saying = .emitRegion kind number →
      (session.perform (.read number)).isSome) : (saying.request? session).isSome := by
  cases saying with
  | logInteger value =>
    obtain ⟨message, hmessage⟩ := Request.exists_logInteger value
    rw [request?, hmessage]
    rfl
  | emitRegion kind number =>
    rw [request?, Option.isSome_map]
    exact hregion kind number rfl
  | log | logText | logString | logLine | progress | sleep | emit => rfl

end Saying

namespace Job

variable {ν α : Type} {session : Session}

/-- **Each way to speak is one call**, and then the job goes on. -/
theorem calls_bind_saying (saying : Saying) {request : Request}
    (hrequest : saying.request? session = some request) (next : Unit → Job ν α) :
    (saying.job.bind next).calls session =
      request.entry session.host.dataset ::
        (next ()).calls
          { session with host := session.host.hear (request.entry session.host.dataset) } := by
  cases saying with
  | logInteger value =>
    have hjob : (Saying.logInteger value).job = callAny (ν := ν) (some request) := by
      rw [Saying.job, logInteger, show Request.logInteger? value = some request from hrequest]
    rw [hjob]
    exact calls_act_call request (fun _ => next ()) session
  | emitRegion kind number =>
    obtain ⟨⟨bytes, after⟩, hread, rfl⟩ := Option.map_eq_some_iff.mp hrequest
    have hafter : after = session := by
      cases Session.performed_of_perform hread with
      | looked hlooks => rfl
    subst hafter
    -- the region is read first, which the host does not hear
    refine (calls_act_of_some _ hread fun data => rfl).trans ?_
    exact calls_act_call (.emit (.ofMemory kind bytes)) (fun _ => next ()) after
  | log | logText | logString | logLine | progress | sleep | emit =>
    cases hrequest
    exact calls_act_call _ (fun _ => next ()) session

/-- A job that stops for a fault has one last line, whatever was to follow. -/
theorem calls_bind_fail (fault : Fault) (next : α → Job ν α) :
    ((fail fault).bind next).calls session = [.log (fault.fatalLine .running).bytes] ∧
      (((fail fault).bind next).run session).ending = .error (.trap fault) :=
  ⟨rfl, rfl⟩

/-- A job that stops because there is no memory for it has one last line too. -/
theorem calls_bind_alloc {size : ℕ} {error : AllocError} {arena : Arena PagedMemory}
    (hallocate : session.arena.allocate size Session.scratchAlign = (.error error, arena))
    (next : ℕ → Job ν α) :
    ((alloc size).bind next).calls session =
        [.log ((Fault.alloc error).fatalLine .running).bytes] ∧
      (((alloc size).bind next).run session).ending = .error (.trap (.alloc error)) := by
  have hperform : session.perform (.tryAlloc size) =
      some (.error error, { session with arena }) := by
    simp only [Session.perform, hallocate]
  refine ⟨?_, ?_⟩
  · exact calls_act_of_some _ hperform fun data => rfl
  · exact congrArg Run.ending (run_act_of_some _ hperform)

end Job

/-! ### Runs -/

/-- The dataset brings no results, and the placeholder is one. -/
theorem results_start (policy : Policy) (length announced : ℕ) (said : List HostCall) :
    HostCall.results
        ([.datasetLen length, .datasetWrite announced] ++ (policy.placeholder ++ said)) =
      (if policy.implicitResult = .placeholderZero then [(0, [0, 0, 0, 0])] else []) ++
        HostCall.results said := by
  unfold Policy.placeholder HostCall.results
  split <;> rfl

section Runs

variable {ν : Type} {policy : Policy} {host : Host} {memory : PagedMemory}

/-- What a run that took in its dataset leaves with its host, if its body starts in a session. -/
structure Job.Transcribed (body : Job ν Unit) (policy : Policy) (host : Host) (session : Session)
    (outcome : Outcome ν) : Prop where
  /-- The body goes its course to an end. -/
  path : ∃ rest last, body.Passes session (body.course session) rest last ∧
    rest.Ends last (body.run session).ending
  /-- The status shows an abort exactly if the body ends with it. -/
  aborted_iff : ∀ abort, outcome.status = .aborted abort ↔
    (body.run session).ending = .error abort
  /-- The host has heard of the dataset, then the placeholder, and then the body. -/
  calls_eq : outcome.host.calls =
    host.calls ++ [.datasetLen host.dataset.length, .datasetWrite host.announced] ++
      policy.placeholder ++ body.calls session
  /-- The last result of the body counts, if it has one, and else the placeholder. -/
  lastResult_eq : outcome.host.lastResult =
    (HostCall.results (body.calls session)).getLast?.or
      (if policy.implicitResult = .placeholderZero then some (0, [0, 0, 0, 0])
        else host.lastResult)
  emitCount_eq : outcome.host.emitCount =
    host.emitCount + (if policy.implicitResult = .placeholderZero then 1 else 0) +
      (HostCall.results (body.calls session)).length

/-- What a run that has no memory for its dataset leaves with its host, whatever its body. -/
structure Outcome.TurnedAway (outcome : Outcome ν) (policy : Policy) (host : Host)
    (memory : PagedMemory) (error : AllocError) : Prop where
  status_eq : outcome.status = .failed ⟨.ingesting, .alloc error⟩
  /-- The host was asked for the length of its dataset, and that is all. -/
  calls_eq : outcome.host.calls = host.calls ++ [.datasetLen host.dataset.length]
  lastResult_eq : outcome.host.lastResult = host.lastResult
  emitCount_eq : outcome.host.emitCount = host.emitCount
  /-- The body has not run: any other would have left the same. -/
  eq_execute : ∀ other : Job ν Unit, outcome = execute policy host memory other

/-- What the host of a run has heard, from the start to the end. -/
theorem transcribed_runBody (dataset : Dataset) (arena : Arena PagedMemory) (body : Job ν Unit)
    {host' : Host} (hhost : host' =
      host.hearAll [.datasetLen host.dataset.length, .datasetWrite host.announced]) :
    body.Transcribed policy host (.start policy dataset host' arena)
      (runBody policy dataset host' arena body) := by
  have hheard := host_runBody policy dataset host' arena body
  have hall (said : List HostCall) : host'.hearAll said = host.hearAll
      ([.datasetLen host.dataset.length, .datasetWrite host.announced] ++ said) := by
    rw [hhost, ← Host.hearAll_append]
  obtain ⟨rest, last, hpath, hends, -⟩ :=
    body.exists_passes_course (.start policy dataset host' arena)
  refine ⟨⟨rest, last, hpath, hends⟩, status_runBody_iff policy dataset host' arena body,
    ?_, ?_, ?_⟩
  all_goals
    generalize body.calls (.start policy dataset host' arena) = said at hheard ⊢
    rw [hall] at hheard
  · rw [hheard, Host.calls_hearAll, List.append_assoc, List.append_assoc]
  -- the dataset brings no result, so it is between the placeholder and the body
  · rw [hheard, Host.lastResult_hearAll, results_start]
    split
    · simp only [List.singleton_append, List.getLast?_cons]
      cases (HostCall.results said).getLast? <;> rfl
    · rfl
  · rw [hheard, Host.emitCount_hearAll, results_start]
    split
    · rw [List.length_append, List.length_singleton, Nat.add_assoc]
    · rfl

/-- A run that is refused memory for its dataset turns its body away. -/
theorem turnedAway_of_refused {error : AllocError} {arena : Arena PagedMemory}
    (h : Dataset.ingest host (.ofMemory memory) policy.granularity =
      (.refused error, host.hear (.datasetLen host.dataset.length), arena)) (body : Job ν Unit) :
    (execute policy host memory body).TurnedAway policy host memory error where
  status_eq := by rw [execute_of_refused h]
  calls_eq := by rw [execute_of_refused h]; rfl
  lastResult_eq := by rw [execute_of_refused h]; rfl
  emitCount_eq := by rw [execute_of_refused h]; rfl
  eq_execute other := by rw [execute_of_refused h, execute_of_refused h]

/-- **The transcript of every run** whose dataset does not lie out of range.  If there is no memory
for the dataset, the host is asked for its length, and that is all.  Otherwise the host hears of the
dataset, then gets the placeholder if the policy asks for one, and then hears the body, in the order
in which the body speaks; and so the last result is that of the body if it had one, else the
placeholder if there was one, else what it was before.  Whatever way a job has to speak, it comes to
one call; a job that stops, of its own accord or for lack of memory, has one last line. -/
theorem execute_transcribed (policy : Policy) (host : Host) (memory : PagedMemory)
    (body : Job ν Unit)
    (hin : (Dataset.ingest host (.ofMemory memory) policy.granularity).1 ≠ .outOfRange) :
    ((∃ error host' arena,
        Dataset.ingest host (.ofMemory memory) policy.granularity =
          (.refused error, host', arena) ∧
        (execute policy host memory body).TurnedAway policy host memory error) ∨
      (∃ dataset host' arena,
        Dataset.ingest host (.ofMemory memory) policy.granularity =
          (.ready dataset, host', arena) ∧
        body.Transcribed policy host (.start policy dataset host' arena)
          (execute policy host memory body))) ∧
    (∀ (saying : Saying) (session : Session) (next : Unit → Job ν Unit),
      (∀ kind number, saying = .emitRegion kind number →
        (session.perform (.read number)).isSome) →
      ∃ request, saying.request? session = some request ∧
        (saying.job.bind next).calls session =
          request.entry session.host.dataset ::
            (next ()).calls
              { session with host := session.host.hear (request.entry session.host.dataset) }) ∧
    (∀ (fault : Fault) (session : Session) (next : Unit → Job ν Unit),
      ((Job.fail fault).bind next).calls session = [.log (fault.fatalLine .running).bytes] ∧
        (((Job.fail fault).bind next).run session).ending = .error (.trap fault)) ∧
    (∀ (size : ℕ) (session : Session) (error : AllocError) (next : ℕ → Job ν Unit),
      (session.arena.allocate size Session.scratchAlign).1 = .error error →
        ((Job.alloc size).bind next).calls session =
            [.log ((Fault.alloc error).fatalLine .running).bytes] ∧
          (((Job.alloc size).bind next).run session).ending =
            .error (.trap (.alloc error))) := by
  refine ⟨?_, ?_, ?_, ?_⟩
  · have hout := Dataset.ingest_ingested host (.ofMemory memory) policy.granularity
    generalize hingest : Dataset.ingest host (.ofMemory memory) policy.granularity = out
      at hout hin ⊢
    cases hout with
    | tooLong => exact .inl ⟨_, _, _, rfl, turnedAway_of_refused hingest body⟩
    | refused => exact .inl ⟨_, _, _, rfl, turnedAway_of_refused hingest body⟩
    | outOfRange => exact absurd rfl hin
    | @ready region middle after destination =>
      refine .inr ⟨_, _, _, rfl, ?_⟩
      rw [execute_of_ready hingest]
      exact transcribed_runBody _ after body rfl
  · intro saying session next hregion
    obtain ⟨request, hrequest⟩ :=
      Option.isSome_iff_exists.mp (saying.isSome_request? session hregion)
    exact ⟨request, hrequest, Job.calls_bind_saying saying hrequest next⟩
  · intro fault session next
    exact Job.calls_bind_fail fault next
  · intro size session error next herror
    have hallocate : session.arena.allocate size Session.scratchAlign =
        (.error error, (session.arena.allocate size Session.scratchAlign).2) := by
      rw [← herror]
    exact Job.calls_bind_alloc hallocate next

/-- A body that logs, emits and then stops, after a placeholder. -/
theorem execute_transcribed_of_stopped :
    let host : Host := { dataset := [1, 2, 3, 4, 5] }
    let memory := PagedMemory.ofPages 1 2 1024
    let body : Job Unit Unit := do
      Job.log [104, 105]
      Job.emit (.string [111])
      Job.fail (.argument (.invalidBase 1))
    (Dataset.ingest host (.ofMemory memory) Policy.legacy.granularity).1 ≠ .outOfRange ∧
      (execute .legacy host memory body).host.lastResult = some (2, [111]) ∧
      (execute .legacy host memory body).host.emitCount = 2 := by
  intro host memory body
  have hin : (Dataset.ingest host (.ofMemory memory) Policy.legacy.granularity).1 ≠
      .outOfRange := by
    intro hrange
    have hsound : (Arena.ofMemory memory).Sound :=
      Arena.sound_ofMemory (PagedMemory.wellFormed_ofPages 1 2 1024)
    have hempty := ((Dataset.fst_ingest_eq_outOfRange_iff hsound).mp hrange).1
    cases hempty
  have hcalls (session : Session) : body.calls session =
      [.log [104, 105], .result 2 [111],
        .log ((Fault.argument (.invalidBase 1)).fatalLine .running).bytes] := rfl
  obtain ⟨dataset, host', arena, hready⟩ :=
    exists_ready_of_sizes host memory rfl (PagedMemory.size_ofPages 1 2 1024) rfl
  rcases (execute_transcribed .legacy host memory body hin).1 with
    ⟨error, _, _, hrefused, -⟩ | ⟨_, _, _, -, hrun⟩
  · rw [hready] at hrefused
    cases hrefused
  · refine ⟨hin, ?_, ?_⟩
    · rw [hrun.lastResult_eq, hcalls]
      rfl
    · rw [hrun.emitCount_eq, hcalls]
      rfl

end Runs
end JobSandbox
