import JobSandbox.Proofs.Dataset
import JobSandbox.Proofs.Job.Execute

/-!
# What a host is asked

Beside its record, a host keeps the last result and the number of results.  It keeps them in step:
after any requests, both are what the record says.

All that a run does to its host is to ask it.  So the host of a run is its first host after some
requests, however the run ends; and those that do not come from the body are for the dataset, or
carry the placeholder, or are a last line.  What a body never asks, its host is never asked.

## Main definitions

* `Host.performAll`, `Host.Asked` — a host after some requests, and after some of one kind.
* `Host.Tallied` — a host whose last result and count are those of its record.
* `Request.Enveloped` — a request that carries no result but from an envelope.
* `Job.CallsOnly` — a job that makes no requests but those of one kind.

## Main results

* `Host.Tallied.performAll` — **a tallied host stays tallied, whatever it is asked.**
* `Job.asked_run`, `asked_execute` — **a run only asks its host**, and only what its body does.
-/

namespace JobSandbox

/-! ### Requests one after another -/

namespace Host

/-- A host after some requests. -/
def performAll (host : Host) (requests : List Request) : Host :=
  requests.foldl (fun host request => (host.perform request).2) host

theorem performAll_cons (host : Host) (request : Request) (requests : List Request) :
    host.performAll (request :: requests) = (host.perform request).2.performAll requests := rfl

theorem performAll_append (host : Host) (earlier later : List Request) :
    host.performAll (earlier ++ later) = (host.performAll earlier).performAll later :=
  List.foldl_append

/-- Requests are heard as their entries. -/
theorem performAll_eq_hearAll (host : Host) (requests : List Request) :
    host.performAll requests = host.hearAll (requests.map (Request.entry host.dataset)) := by
  induction requests generalizing host with
  | nil => rfl
  | cons request requests ih =>
    rw [performAll_cons, ih, snd_perform, dataset_hear, List.map_cons, hearAll_cons]

/-- The record grows at its end, by one entry for each request. -/
theorem calls_performAll (host : Host) (requests : List Request) :
    (host.performAll requests).calls =
      host.calls ++ requests.map (Request.entry host.dataset) := by
  rw [performAll_eq_hearAll, calls_hearAll]

/-! ### Keeping the tally -/

/-- The last result and the number of results are those of the record. -/
structure Tallied (host : Host) : Prop where
  lastResult_eq : host.lastResult = (HostCall.results host.calls).getLast?
  emitCount_eq : host.emitCount = (HostCall.results host.calls).length

/-- A host that has heard nothing is tallied. -/
theorem tallied_fresh (data : Bytes) (announced : ℕ) :
    ({ dataset := data, announced } : Host).Tallied := ⟨rfl, rfl⟩

/-- One more entry brings its result, if it has one. -/
theorem results_hear (host : Host) (call : HostCall) :
    HostCall.results (host.hear call).calls =
      HostCall.results host.calls ++ call.result?.toList := by
  have hcalls : (host.hear call).calls = host.calls ++ [call] := rfl
  rw [hcalls, HostCall.results, HostCall.results, List.filterMap_append]
  cases h : call.result? with
  | none => simp [h]
  | some result => simp [h]

/-- A tallied host is tallied after one more entry. -/
theorem Tallied.hear {host : Host} (h : host.Tallied) (call : HostCall) :
    (host.hear call).Tallied := by
  have hlast : (host.hear call).lastResult = call.result?.or host.lastResult := rfl
  have hcount : (host.hear call).emitCount = host.emitCount + call.result?.toList.length := rfl
  constructor
  · rw [hlast, results_hear, h.lastResult_eq]
    cases call.result? with
    | none => simp
    | some result => simp
  · rw [hcount, results_hear, h.emitCount_eq, List.length_append]

/-- **A tallied host stays tallied, whatever it is asked.** -/
theorem Tallied.performAll {host : Host} (h : host.Tallied) (requests : List Request) :
    (host.performAll requests).Tallied := by
  induction requests generalizing host with
  | nil => exact h
  | cons request requests ih =>
    rw [performAll_cons, snd_perform]
    exact ih (h.hear _)

/-! ### Requests of one kind -/

/-- `after` is what comes of `host` by requests of one kind. -/
def Asked (P : Request → Prop) (host after : Host) : Prop :=
  ∃ requests : List Request, (∀ request ∈ requests, P request) ∧ after = host.performAll requests

namespace Asked

variable {P : Request → Prop} {host middle after : Host}

theorem refl (host : Host) : Asked P host host :=
  ⟨[], fun _ hmem => absurd hmem List.not_mem_nil, rfl⟩

theorem trans (hfirst : Asked P host middle) (hsecond : Asked P middle after) :
    Asked P host after := by
  obtain ⟨earlier, hearlier, rfl⟩ := hfirst
  obtain ⟨later, hlater, rfl⟩ := hsecond
  refine ⟨earlier ++ later, ?_, (performAll_append host earlier later).symm⟩
  intro request hmem
  rcases List.mem_append.mp hmem with hmem | hmem
  · exact hearlier request hmem
  · exact hlater request hmem

theorem perform (host : Host) (request : Request) (h : P request) :
    Asked P host (host.perform request).2 :=
  ⟨[request], fun _ hmem => List.mem_singleton.mp hmem ▸ h, rfl⟩

/-- A request is heard as its entry. -/
theorem hear (host : Host) (request : Request) (h : P request) :
    Asked P host (host.hear (request.entry host.dataset)) := by
  rw [← snd_perform]
  exact perform host request h

/-- A host that was asked is tallied as before. -/
theorem tallied (h : Asked P host after) (htallied : host.Tallied) : after.Tallied := by
  obtain ⟨requests, -, rfl⟩ := h
  exact htallied.performAll requests

/-- A result in the record of a host that was asked came in one of the requests. -/
theorem exists_of_mem_results (h : Asked P host after) (hfresh : host.calls = []) {raw : UInt32}
    {payload : Bytes} (hmem : (raw, payload) ∈ HostCall.results after.calls) :
    ∃ kind : ResultKind, P (.result kind payload) ∧ raw = kind.discriminant := by
  obtain ⟨requests, hrequests, rfl⟩ := h
  rw [calls_performAll, hfresh, List.nil_append] at hmem
  obtain ⟨call, hcall, hresult⟩ := List.mem_filterMap.mp hmem
  obtain ⟨request, hrequest, rfl⟩ := List.mem_map.mp hcall
  cases request with
  | result kind payload' =>
    cases hresult
    exact ⟨kind, hrequests _ hrequest, rfl⟩
  | datasetLen => cases hresult
  | datasetWrite destination => cases hresult
  | log message => cases hresult
  | progress fraction => cases hresult
  | sleep seconds => cases hresult

end Asked
end Host

/-! ### What a job asks -/

/-- A request that carries no result, or one from an envelope. -/
def Request.Enveloped : Request → Prop
  | .result kind payload =>
    ∃ envelope : Envelope, kind = envelope.kind ∧ payload = envelope.payload
  | _ => True

/-- Whatever it is answered, a job makes no requests but those that satisfy `P`. -/
def Job.CallsOnly {ν α : Type} (P : Request → Prop) : Job ν α → Prop
  | .done _ => True
  | .note _ rest => rest.CallsOnly P
  | .act op next =>
    (∀ request, op = .call request → P request) ∧ ∀ answer, (next answer).CallsOnly P
  | .fail _ => True
  | .panic _ => True

namespace Job

variable {ν α β : Type} {P : Request → Prop}

/-- Every job makes requests. -/
theorem callsOnly_true (job : Job ν α) : job.CallsOnly fun _ => True := by
  induction job with
  | done value => trivial
  | note value rest ih => exact ih
  | act op next ih => exact ⟨fun _ _ => trivial, ih⟩
  | fail fault => trivial
  | panic payload => trivial

theorem callsOnly_call {request : Request} (h : P request) {next : request.Answer → Job ν α}
    (hnext : ∀ answer, (next answer).CallsOnly P) : (act (.call request) next).CallsOnly P := by
  refine ⟨?_, hnext⟩
  intro request' heq
  cases heq
  exact h

theorem CallsOnly.bind {job : Job ν α} (h : job.CallsOnly P) {next : α → Job ν β}
    (hnext : ∀ value, (next value).CallsOnly P) : (job.bind next).CallsOnly P := by
  induction job with
  | done value => exact hnext value
  | note value rest ih => exact ih h
  | act op rest ih => exact ⟨h.1, fun answer => ih answer (h.2 answer)⟩
  | fail fault => trivial
  | panic payload => trivial

/-- A job that stops because of wrong arguments does not call for that. -/
theorem callsOnly_orFail (result : Except ArgumentError α) :
    (orFail result : Job ν α).CallsOnly P := by
  cases result with
  | ok value => trivial
  | error error => trivial

/-- An operation asks the host what it calls, and no more. -/
theorem asked_perform {session after : Session} {op : Op} {answer : op.Answer}
    (hop : ∀ request, op = .call request → P request)
    (h : session.perform op = some (answer, after)) : Host.Asked P session.host after.host := by
  cases Session.performed_of_perform h with
  | looked hlooks => exact .refl _
  | refused hallocate => exact .refl _
  | served hallocate => exact .refl _
  | written hregion hwrite => exact .refl _
  | @called request answer host =>
    cases h
    exact .perform session.host request (hop request rfl)

/-- **A job only asks its host**, and only what it makes requests for; a last line is one more. -/
theorem asked_run {job : Job ν α} (h : job.CallsOnly P) (hlog : ∀ message, P (.log message))
    (session : Session) : Host.Asked P session.host (job.run session).session.host := by
  induction job generalizing session with
  | done value => exact .refl _
  | note value rest ih => exact ih h session
  | act op next ih =>
    cases hperform : session.perform op with
    | none =>
      rw [run_act_of_none next hperform]
      exact .refl _
    | some result =>
      obtain ⟨answer, after⟩ := result
      rw [run_act_of_some next hperform]
      exact (asked_perform h.1 hperform).trans (ih answer (h.2 answer) after)
  | fail fault => exact .perform session.host (.log _) (hlog (fault.fatalLine .running).bytes)
  | panic payload => exact .refl _

end Job

/-! ### What a run asks -/

section Runs

variable {ν : Type} {P : Request → Prop} (hP : ∀ request : Request, request.Enveloped → P request)

include hP

/-- Taking in a dataset asks for its length, and then, if there is room, for the bytes. -/
theorem Dataset.asked_ingest (host : Host) (arena : Arena PagedMemory)
    (granularity : Granularity) :
    Host.Asked P host (ingest host arena granularity).2.1 := by
  have hlength : Host.Asked P host (host.hear (.datasetLen host.dataset.length)) :=
    .hear host .datasetLen (hP _ trivial)
  have hout := ingest_ingested host arena granularity
  generalize ingest host arena granularity = out at hout
  cases hout with
  | tooLong hround => exact hlength
  | refused hround hallocate => exact hlength
  | outOfRange hround hallocate hbeyond => exact hlength
  | @ready region middle after destination hround hallocate hread hwrite =>
    have hdestination : destination.length = host.announced := PagedMemory.length_of_read? hread
    have hbytes := Host.Asked.hear (host.hear (.datasetLen host.dataset.length))
      (.datasetWrite destination) (hP _ trivial)
    rw [Request.entry, hdestination] at hbytes
    exact hlength.trans hbytes

/-- The placeholder comes in an envelope. -/
theorem asked_emitPlaceholder (policy : Policy) (host : Host) :
    Host.Asked P host (emitPlaceholder policy host) := by
  unfold emitPlaceholder
  cases policy.implicitResult with
  | nothing => exact .refl host
  | placeholderZero =>
    exact .perform host (.emit (.integer 0)) (hP _ ⟨.integer 0, rfl, rfl⟩)

/-- **A run only asks its host**, however it ends; and beside what its body asks, it is nothing but
requests without a result or with one from an envelope. -/
theorem asked_execute (policy : Policy) (host : Host) (memory : PagedMemory) {body : Job ν Unit}
    (h : body.CallsOnly P) : Host.Asked P host (execute policy host memory body).host := by
  have hasked := Dataset.asked_ingest hP host (.ofMemory memory) policy.granularity
  unfold execute
  generalize Dataset.ingest host (.ofMemory memory) policy.granularity = out at hasked ⊢
  obtain ⟨ending, host', arena⟩ := out
  cases ending with
  | ready dataset =>
    have hstart : Host.Asked P host' (Session.start policy dataset host' arena).host :=
      asked_emitPlaceholder hP policy host'
    have hrun := Job.asked_run h (fun message => hP _ trivial)
      (Session.start policy dataset host' arena)
    exact hasked.trans (hstart.trans hrun)
  | refused error => exact hasked
  | outOfRange => exact hasked

end Runs
end JobSandbox
