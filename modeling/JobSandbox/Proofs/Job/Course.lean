import JobSandbox.Proofs.Host
import JobSandbox.Proofs.Job.Path

/-!
# The course of a job

A session answers every operation in one way, so there is one path that a job takes, and only one
place where it ends.  The exchanges up to there are its course.  What the host of a run has heard is
told by the course, call by call, and by the last line of a job that stops for a fault.

## Main definitions

* `Job.course` — the exchanges of a job, from its start to its end.
* `Job.Ends` — a job that does nothing more, and how that is.
* `Op.calls`, `Job.lastWords`, `Job.calls` — the entries that a job makes in its host's record.
* `Job.ComesTo` — a job that makes some entries, and then goes on as another.

## Main results

* `Job.exists_passes_course` — the course is a path, and it leads to the end of the run.
* `Job.host_run` — **the host has heard the calls of the job, and nothing else.**
-/

namespace JobSandbox

/-- The entries that an operation makes in the record of a host that holds `data`. -/
def Op.calls (data : Bytes) : Op → List HostCall
  | call request => [request.entry data]
  | _ => []

@[simp] theorem Op.calls_call (data : Bytes) (request : Request) :
    (call request).calls data = [request.entry data] := rfl

/-- Only calls are heard, and every call is heard once. -/
theorem Session.host_of_perform {session after : Session} {op : Op} {answer : op.Answer}
    (h : session.perform op = some (answer, after)) :
    after.host = session.host.hearAll (op.calls session.host.dataset) := by
  cases performed_of_perform h with
  | looked hlooks =>
    cases op <;> first | rfl | cases hlooks
  | refused hallocate => rfl
  | served hallocate => rfl
  | written hregion hwrite => rfl
  | @called request answer host =>
    cases h
    exact Host.snd_perform session.host request

/-- A call is always answered, and heard. -/
theorem Session.perform_call (session : Session) (request : Request) :
    session.perform (.call request) = some ((session.host.perform request).1,
      { session with host := session.host.hear (request.entry session.host.dataset) }) := by
  rw [← Host.snd_perform]
  rfl

namespace Job

variable {ν α : Type} {session after : Session}

/-! ### Courses -/

/-- The exchanges of a job, from its start to its end. -/
def course : Job ν α → Session → List Exchange
  | done _, _ => []
  | note _ rest, session => rest.course session
  | act op next, session =>
    match session.perform op with
    | none => []
    | some (answer, after) => ⟨op, answer⟩ :: (next answer).course after
  | fail _, _ => []
  | panic _, _ => []

theorem course_act_of_none {op : Op} (next : op.Answer → Job ν α) (h : session.perform op = none) :
    (act op next).course session = [] := by
  rw [course, h]

theorem course_act_of_some {op : Op} (next : op.Answer → Job ν α) {answer : op.Answer}
    (h : session.perform op = some (answer, after)) :
    (act op next).course session = ⟨op, answer⟩ :: (next answer).course after := by
  rw [course, h]

theorem run_act_of_none {op : Op} (next : op.Answer → Job ν α) (h : session.perform op = none) :
    (act op next).run session = ⟨.error .outOfRange, [], session⟩ := by
  rw [run, h]

theorem run_act_of_some {op : Op} (next : op.Answer → Job ν α) {answer : op.Answer}
    (h : session.perform op = some (answer, after)) :
    (act op next).run session = (next answer).run after := by
  rw [run, h]

/-- A job that does nothing more in a session, and how it ends there. -/
inductive Ends : Job ν α → Session → Except Abort α → Prop where
  | returned (value : α) (session : Session) : Ends (.done value) session (.ok value)
  | failed (fault : Fault) (session : Session) :
      Ends (.fail fault) session (.error (.trap fault))
  | panicked (payload : PanicPayload) (session : Session) :
      Ends (.panic payload) session (.error (.panic payload))
  /-- It accesses memory that is not there. -/
  | outOfRange {op : Op} (next : op.Answer → Job ν α) {session : Session}
      (hperform : session.perform op = none) : Ends (.act op next) session (.error .outOfRange)

/-- What a host hears last of a job that ends so. -/
def lastWords : Except Abort α → List HostCall
  | .error (.trap fault) => [.log (fault.fatalLine .running).bytes]
  | _ => []

/-- A job that does nothing more has only its last words left. -/
theorem Ends.run_eq {job : Job ν α} {ending : Except Abort α} (h : job.Ends session ending) :
    job.run session =
      ⟨ending, [], { session with host := session.host.hearAll (lastWords ending) }⟩ := by
  cases h with
  | returned value => rfl
  | failed fault => rfl
  | panicked payload => rfl
  | outOfRange next hperform => exact run_act_of_none next hperform

/-- **The course of a job is a path to its end**, where the run ends too. -/
theorem exists_passes_course (job : Job ν α) (session : Session) :
    ∃ rest last, job.Passes session (job.course session) rest last ∧
      rest.Ends last (job.run session).ending ∧
      (job.run session).session = (rest.run last).session := by
  induction job generalizing session with
  | done value => exact ⟨_, session, .nil _ _, .returned value session, rfl⟩
  | note value job ih =>
    obtain ⟨rest, last, hpath, hends, hsession⟩ := ih session
    exact ⟨rest, last, .note hpath, hends, hsession⟩
  | act op next ih =>
    cases hperform : session.perform op with
    | none =>
      rw [course_act_of_none next hperform, run_act_of_none next hperform]
      refine ⟨_, session, .nil _ _, .outOfRange next hperform, ?_⟩
      rw [run_act_of_none next hperform]
    | some result =>
      obtain ⟨answer, after⟩ := result
      rw [course_act_of_some next hperform, run_act_of_some next hperform]
      obtain ⟨rest, last, hpath, hends, hsession⟩ := ih answer after
      exact ⟨rest, last, .act hperform hpath, hends, hsession⟩
  | fail fault => exact ⟨_, session, .nil _ _, .failed fault session, rfl⟩
  | panic payload => exact ⟨_, session, .nil _ _, .panicked payload session, rfl⟩

/-! ### What the host hears -/

/-- The entries that a job makes in the record of its host. -/
def calls (job : Job ν α) (session : Session) : List HostCall :=
  (job.course session).flatMap (fun exchange => exchange.op.calls session.host.dataset) ++
    lastWords (job.run session).ending

/-- At the end of a path, the host has heard the calls on it. -/
theorem Passes.host_eq {job rest : Job ν α} {exchanges : List Exchange}
    (h : job.Passes session exchanges rest after) :
    after.host = session.host.hearAll
      (exchanges.flatMap fun exchange => exchange.op.calls session.host.dataset) := by
  induction h with
  | nil job session => rfl
  | note htail ih => exact ih
  | @act op next answer rest session middle after exchanges hperform htail ih =>
    have hheard := Session.host_of_perform hperform
    have hdata : middle.host.dataset = session.host.dataset := by
      rw [hheard, Host.dataset_hearAll]
    rw [List.flatMap_cons, Host.hearAll_append, ← hheard, ih, hdata]

/-- **The host of a run has heard the calls of the job, and nothing else.** -/
theorem host_run (job : Job ν α) (session : Session) :
    (job.run session).session.host = session.host.hearAll (job.calls session) := by
  obtain ⟨rest, last, hpath, hends, hsession⟩ := job.exists_passes_course session
  rw [hsession, hends.run_eq, calls, Host.hearAll_append, ← hpath.host_eq]

/-- A call comes before whatever a job calls next. -/
theorem calls_act_call (request : Request) (next : request.Answer → Job ν α) (session : Session) :
    (act (.call request) next).calls session =
      request.entry session.host.dataset ::
        (next (session.host.perform request).1).calls
          { session with host := session.host.hear (request.entry session.host.dataset) } := by
  have hperform := session.perform_call request
  rw [calls, calls, course_act_of_some next hperform, run_act_of_some next hperform,
    List.flatMap_cons, Op.calls_call, List.append_assoc, List.singleton_append,
    Host.dataset_hear]

/-- Operations that are no calls do not show. -/
theorem calls_act_of_some {op : Op} (next : op.Answer → Job ν α) {answer : op.Answer}
    (hperform : session.perform op = some (answer, after))
    (hcalls : ∀ data, op.calls data = []) :
    (act op next).calls session = (next answer).calls after := by
  have hdata : after.host.dataset = session.host.dataset := by
    rw [Session.host_of_perform hperform, hcalls, Host.hearAll_nil]
  rw [calls, calls, course_act_of_some next hperform, run_act_of_some next hperform,
    List.flatMap_cons, hcalls, List.nil_append, hdata]

/-! ### Going on after some entries -/

/-- A job that makes the entries `said`, and goes on as `rest` does from another session on. -/
structure ComesTo (job : Job ν α) (session : Session) (said : List HostCall) (rest : Job ν α)
    (after : Session) : Prop where
  ending_eq : (job.run session).ending = (rest.run after).ending
  calls_eq : job.calls session = said ++ rest.calls after

theorem ComesTo.refl (job : Job ν α) (session : Session) : job.ComesTo session [] job session :=
  ⟨rfl, rfl⟩

theorem ComesTo.trans {job middle rest : Job ν α} {between : Session} {said more : List HostCall}
    (h : job.ComesTo session said middle between)
    (hrest : middle.ComesTo between more rest after) :
    job.ComesTo session (said ++ more) rest after :=
  ⟨h.ending_eq.trans hrest.ending_eq,
    by rw [h.calls_eq, hrest.calls_eq, List.append_assoc]⟩

/-- A job that comes to its return has said all that it says. -/
theorem ComesTo.returns {job : Job ν α} {said : List HostCall} {value : α}
    (h : job.ComesTo session said (.done value) after) :
    (job.run session).ending = .ok value ∧ job.calls session = said :=
  ⟨h.ending_eq, by rw [h.calls_eq]; exact List.append_nil said⟩

/-- A job that comes to a fault has a last line left to say. -/
theorem ComesTo.stops {job : Job ν α} {said : List HostCall} {fault : Fault}
    (h : job.ComesTo session said (.fail fault) after) :
    (job.run session).ending = .error (.trap fault) ∧
      job.calls session = said ++ [.log (fault.fatalLine .running).bytes] :=
  ⟨h.ending_eq, h.calls_eq⟩

theorem comesTo_call (request : Request) (next : request.Answer → Job ν α) (session : Session) :
    (act (.call request) next).ComesTo session [request.entry session.host.dataset]
      (next (session.host.perform request).1)
      { session with host := session.host.hear (request.entry session.host.dataset) } :=
  ⟨congrArg Run.ending (run_act_of_some next (session.perform_call request)),
    calls_act_call request next session⟩

/-- Reading the dataset makes no entry. -/
theorem comesTo_dataset {data : Bytes} (hread : session.dataset.read? session.arena = some data)
    (next : Bytes → Job ν α) : (act .dataset next).ComesTo session [] (next data) session := by
  have hperform : session.perform .dataset = some (data, session) :=
    Option.map_eq_some_iff.mpr ⟨data, hread, rfl⟩
  exact ⟨congrArg Run.ending (run_act_of_some next hperform),
    calls_act_of_some next hperform fun _ => rfl⟩

end Job
end JobSandbox
