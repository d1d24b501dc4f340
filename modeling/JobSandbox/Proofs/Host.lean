import JobSandbox.Host
import Mathlib.Data.List.Basic

/-!
# What a host has heard

A host answers a request and makes one entry of it.  All that the host can be asked for afterwards
follows from its entries: the record is the list of them, the last result is that of the last entry
with one, and the count of results is the number of such entries.

## Main definitions

* `Request.entry` — the entry that a request makes.
* `Host.hear`, `Host.hearAll` — a host after one more entry, and after some more.
* `HostCall.results` — the results among some entries.

## Main results

* `Host.snd_perform` — **a request is heard as its entry**, whatever it is.
* `Host.calls_hearAll`, `Host.lastResult_hearAll`, `Host.emitCount_hearAll` — what entries add up
  to.
-/

namespace JobSandbox

/-! ### One entry -/

/-- The entry that a request makes in the record of a host that holds `data`. -/
def Request.entry (data : Bytes) : Request → HostCall
  | .datasetLen => .datasetLen data.length
  | .datasetWrite destination => .datasetWrite destination.length
  | .result kind payload => .result kind.discriminant payload
  | .log message => .log message
  | .progress fraction => .progress fraction
  | .sleep seconds => .sleep seconds

/-- The results among some entries. -/
def HostCall.results (calls : List HostCall) : List (UInt32 × Bytes) :=
  calls.filterMap HostCall.result?

namespace Host

/-- A host after one more entry.  An entry without a result leaves the last one in place. -/
def hear (host : Host) (call : HostCall) : Host :=
  { host with
    calls := host.calls ++ [call]
    lastResult := call.result?.or host.lastResult
    emitCount := host.emitCount + call.result?.toList.length }

/-- A host after some more entries. -/
def hearAll (host : Host) (calls : List HostCall) : Host := calls.foldl hear host

/-- Entries without a result are recorded, and no more. -/
theorem record_eq_hear (host : Host) {call : HostCall} (h : call.result? = none) :
    host.record call = host.hear call := by
  simp only [hear, h, record, Option.none_or, Option.toList_none, List.length_nil, Nat.add_zero]

theorem emit_eq_hear (host : Host) (kind : ResultKind) (payload : Bytes) :
    host.emit kind payload = host.hear (.result kind.discriminant payload) := rfl

/-- **A request is heard as its entry.** -/
theorem snd_perform (host : Host) (request : Request) :
    (host.perform request).2 = host.hear (request.entry host.dataset) := by
  cases request with
  | datasetLen => exact record_eq_hear host rfl
  | datasetWrite destination => exact record_eq_hear host rfl
  | result kind payload => exact emit_eq_hear host kind payload
  | log message => exact record_eq_hear host rfl
  | progress fraction => exact record_eq_hear host rfl
  | sleep seconds => exact record_eq_hear host rfl

/-! ### Many entries -/

@[simp] theorem hearAll_nil (host : Host) : host.hearAll [] = host := rfl

@[simp] theorem hearAll_cons (host : Host) (call : HostCall) (calls : List HostCall) :
    host.hearAll (call :: calls) = (host.hear call).hearAll calls := rfl

theorem hearAll_append (host : Host) (calls more : List HostCall) :
    host.hearAll (calls ++ more) = (host.hearAll calls).hearAll more :=
  List.foldl_append

@[simp] theorem dataset_hear (host : Host) (call : HostCall) :
    (host.hear call).dataset = host.dataset := rfl

@[simp] theorem dataset_hearAll (host : Host) (calls : List HostCall) :
    (host.hearAll calls).dataset = host.dataset := by
  induction calls generalizing host with
  | nil => rfl
  | cons call calls ih => rw [hearAll_cons, ih, dataset_hear]

/-- The record grows at its end, by what was heard. -/
@[simp] theorem calls_hearAll (host : Host) (calls : List HostCall) :
    (host.hearAll calls).calls = host.calls ++ calls := by
  induction calls generalizing host with
  | nil => rw [hearAll_nil, List.append_nil]
  | cons call calls ih =>
    have hcalls : (host.hear call).calls = host.calls ++ [call] := rfl
    rw [hearAll_cons, ih, hcalls, List.append_assoc, List.singleton_append]

/-- The last result that was heard counts, or the one from before if there was none. -/
theorem lastResult_hearAll (host : Host) (calls : List HostCall) :
    (host.hearAll calls).lastResult =
      (HostCall.results calls).getLast?.or host.lastResult := by
  induction calls generalizing host with
  | nil => rfl
  | cons call calls ih =>
    have hlast : (host.hear call).lastResult = call.result?.or host.lastResult := rfl
    rw [hearAll_cons, ih, hlast, HostCall.results, HostCall.results, List.filterMap_cons]
    cases call.result? with
    | none => rfl
    | some result =>
      -- the entries behind this one decide, if there is a result among them
      cases hrest : (calls.filterMap HostCall.result?).getLast? with
      | none => simp [List.getLast?_cons, hrest]
      | some later => simp [List.getLast?_cons, hrest]

/-- Every result counts. -/
theorem emitCount_hearAll (host : Host) (calls : List HostCall) :
    (host.hearAll calls).emitCount = host.emitCount + (HostCall.results calls).length := by
  induction calls generalizing host with
  | nil => rfl
  | cons call calls ih =>
    have hcount : (host.hear call).emitCount =
        host.emitCount + call.result?.toList.length := rfl
    rw [hearAll_cons, ih, hcount, HostCall.results, HostCall.results, List.filterMap_cons]
    cases call.result? with
    | none => rfl
    | some result =>
      simp only [Option.toList_some, List.length_cons, List.length_nil]
      omega

end Host
end JobSandbox
