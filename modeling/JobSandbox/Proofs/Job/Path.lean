import JobSandbox.Job
import Mathlib.Data.List.Basic

/-!
# The path of a job

A job that runs makes one exchange after another: an operation, and what the session answers to it.
A path is the exchanges a job has made so far, with what it has still to do and the session it has
come to.  What every operation keeps, every path keeps; and a job that ends for lack of memory has
come along a path to the operation that there was no memory for.

Scratch regions are known to a job by number.  A job uses its own regions when it mentions no number
but those that its own requests were answered with.

## Main definitions

* `Op.mentioned?`, `Op.obtained` — the regions that an operation needs, and those it yields.
* `Session.Performed` — what an operation can do to a session.
* `Exchange`, `Job.Passes` — what a job does, step by step.
* `Job.UsesOwn` — that a job uses no regions but its own in a run, and `Job.WrittenFor`, by which
  it can be told from its text.

## Main results

* `Passes.induction` — an invariant of operations is one of paths.
* `exists_passes_of_outOfRange` — where a job ends that accesses memory which is not there.
* `WrittenFor.usesOwn` — a job that is written for its own regions uses no others.
-/

namespace JobSandbox

/-- An operation, and what it was answered. -/
structure Exchange where
  op : Op
  answer : op.Answer

namespace Op

/-- The region that an operation needs. -/
def mentioned? : Op → Option ℕ
  | region number | read number | write number _ => some number
  | _ => none

/-- The regions that an answer yields. -/
def obtained : (op : Op) → op.Answer → List ℕ
  | tryAlloc _, .ok number => [number]
  | _, _ => []

/-- The operations that only look at a session. -/
def Looks : Op → Prop
  | dataset | datasetLength | policy | region _ | read _ => True
  | _ => False

end Op

/-! ### One operation -/

namespace Session

variable {session after : Session} {op : Op} {answer : op.Answer}

/-- What an operation can do to a session. -/
inductive Performed (session : Session) : (op : Op) → op.Answer → Session → Prop where
  | looked {op : Op} {answer : op.Answer} (hlooks : op.Looks) : Performed session op answer session
  /-- There was no memory. -/
  | refused {size : ℕ} {error : AllocError} {arena : Arena PagedMemory}
      (hallocate : session.arena.allocate size scratchAlign = (.error error, arena)) :
      Performed session (.tryAlloc size) (.error error) { session with arena }
  /-- A region was handed out. -/
  | served {size : ℕ} {region : Region} {arena : Arena PagedMemory}
      (hallocate : session.arena.allocate size scratchAlign = (.ok region, arena)) :
      Performed session (.tryAlloc size) (.ok session.regions.length)
        { session with arena, regions := session.regions ++ [region] }
  | written {number length : ℕ} {bytes : Bytes} {region : Region} {arena : Arena PagedMemory}
      (hregion : session.regions[number]? = some region)
      (hwrite : session.arena.write? region bytes = some arena) :
      Performed session (.write number bytes) length { session with arena }
  | called {request : Request} {answer : request.Answer} {host : Host} :
      Performed session (.call request) answer { session with host }

theorem performed_of_perform (h : session.perform op = some (answer, after)) :
    session.Performed op answer after := by
  cases op with
  | dataset =>
    obtain ⟨bytes, -, heq⟩ := Option.map_eq_some_iff.mp h
    cases heq
    exact .looked trivial
  | datasetLength =>
    cases h
    exact .looked trivial
  | policy =>
    cases h
    exact .looked trivial
  | tryAlloc size =>
    rcases hout : session.arena.allocate size scratchAlign with ⟨error | region, arena⟩
    · simp only [perform, hout, Option.some.injEq, Prod.mk.injEq] at h
      obtain ⟨rfl, rfl⟩ := h
      exact .refused hout
    · simp only [perform, hout, Option.some.injEq, Prod.mk.injEq] at h
      obtain ⟨rfl, rfl⟩ := h
      exact .served hout
  | region number =>
    obtain ⟨region, -, heq⟩ := Option.map_eq_some_iff.mp h
    cases heq
    exact .looked trivial
  | read number =>
    obtain ⟨region, -, hread⟩ := Option.bind_eq_some_iff.mp h
    obtain ⟨bytes, -, heq⟩ := Option.bind_eq_some_iff.mp hread
    cases heq
    exact .looked trivial
  | write number bytes =>
    obtain ⟨region, hregion, hrest⟩ := Option.bind_eq_some_iff.mp h
    obtain ⟨arena, hwrite, heq⟩ := Option.bind_eq_some_iff.mp hrest
    cases heq
    exact .written hregion hwrite
  | call request =>
    cases h
    exact .called

/-- Regions are handed out and never taken back; those that an answer yields are there. -/
theorem regions_of_perform (h : session.perform op = some (answer, after)) :
    session.regions <+: after.regions ∧
      ∀ number ∈ op.obtained answer, number < after.regions.length := by
  cases performed_of_perform h with
  | looked hlooks =>
    refine ⟨List.prefix_rfl, fun number hmem => ?_⟩
    cases op <;> first | cases hmem | cases hlooks
  | refused hallocate => exact ⟨List.prefix_rfl, fun number hmem => by cases hmem⟩
  | served hallocate =>
    refine ⟨List.prefix_append _ _, fun number hmem => ?_⟩
    rw [List.mem_singleton.mp hmem, List.length_append, List.length_singleton]
    exact Nat.lt_succ_self _
  | written hregion hwrite => exact ⟨List.prefix_rfl, fun number hmem => by cases hmem⟩
  | called => exact ⟨List.prefix_rfl, fun number hmem => by cases hmem⟩

end Session

namespace Job

variable {ν α : Type} {job rest : Job ν α} {session session' : Session}
  {exchanges : List Exchange}

/-! ### Paths -/

/-- Running in a session, a job makes some exchanges; then it has the rest to do in a session of its
own. -/
inductive Passes : Job ν α → Session → List Exchange → Job ν α → Session → Prop where
  | nil (job : Job ν α) (session : Session) : Passes job session [] job session
  | note {value : ν} {job rest : Job ν α} {session session' : Session}
      {exchanges : List Exchange} (htail : Passes job session exchanges rest session') :
      Passes (.note value job) session exchanges rest session'
  | act {op : Op} {next : op.Answer → Job ν α} {answer : op.Answer} {rest : Job ν α}
      {session middle session' : Session} {exchanges : List Exchange}
      (hperform : session.perform op = some (answer, middle))
      (htail : Passes (next answer) middle exchanges rest session') :
      Passes (.act op next) session (⟨op, answer⟩ :: exchanges) rest session'

/-- **What every operation keeps, every path keeps.**  The invariant may speak of some state beside
the session that every exchange moves on. -/
theorem Passes.induction {σ : Type} {P : Session → σ → Prop} {move : σ → Exchange → σ}
    (hperform : ∀ session state op answer after, P session state →
      session.perform op = some (answer, after) → P after (move state ⟨op, answer⟩))
    (h : job.Passes session exchanges rest session') {state : σ} (hstart : P session state) :
    P session' (exchanges.foldl move state) := by
  induction h generalizing state with
  | nil job session => exact hstart
  | note htail ih => exact ih hstart
  | act hop htail ih => exact ih (hperform _ _ _ _ _ hstart hop)

/-- A path leads to where the run leads. -/
theorem Passes.ending_eq (h : job.Passes session exchanges rest session') :
    (job.run session).ending = (rest.run session').ending := by
  induction h with
  | nil job session => rfl
  | note htail ih => exact ih
  | act hop htail ih => rw [run, hop, ih]

/-- A job that accesses memory which is not there has come along a path to that access. -/
theorem exists_passes_of_outOfRange (h : (job.run session).ending = .error .outOfRange) :
    ∃ exchanges session' op next, job.Passes session exchanges (.act op next) session' ∧
      session'.perform op = none := by
  induction job generalizing session with
  | done value => cases h
  | note value job ih =>
    obtain ⟨exchanges, session', op, next, hpath, hnone⟩ := ih h
    exact ⟨exchanges, session', op, next, .note hpath, hnone⟩
  | act op next ih =>
    cases hperform : session.perform op with
    | none => exact ⟨[], session, op, next, .nil _ _, hperform⟩
    | some result =>
      obtain ⟨answer, middle⟩ := result
      rw [run, hperform] at h
      obtain ⟨exchanges, session', op', next', hpath, hnone⟩ := ih answer h
      exact ⟨_, session', op', next', .act hperform hpath, hnone⟩
  | fail fault => cases h
  | panic payload => cases h

/-! ### Jobs that use their own regions -/

/-- The regions that some exchanges yield. -/
def obtained (exchanges : List Exchange) : List ℕ :=
  exchanges.flatMap fun exchange => exchange.op.obtained exchange.answer

/-- What was obtained on a path is there at its end. -/
theorem Passes.lt_of_obtained (h : job.Passes session exchanges rest session') :
    session.regions <+: session'.regions ∧
      ∀ number ∈ obtained exchanges, number < session'.regions.length := by
  induction h with
  | nil job session => exact ⟨List.prefix_rfl, fun number hmem => absurd hmem List.not_mem_nil⟩
  | note htail ih => exact ih
  | act hop htail ih =>
    obtain ⟨hearlier, hobtained⟩ := Session.regions_of_perform hop
    refine ⟨hearlier.trans ih.1, ?_⟩
    intro number hmem
    rw [obtained, List.flatMap_cons, List.mem_append] at hmem
    rcases hmem with hmem | hmem
    · exact Nat.lt_of_lt_of_le (hobtained number hmem) ih.1.length_le
    · exact ih.2 number hmem

/-- In its run, a job mentions no region but those it has obtained by then. -/
def UsesOwn (job : Job ν α) (session : Session) : Prop :=
  ∀ (exchanges : List Exchange) (op : Op) (next : op.Answer → Job ν α) (session' : Session),
    job.Passes session exchanges (.act op next) session' →
      ∀ number ∈ op.mentioned?, number ∈ obtained exchanges

/-- Whatever it is answered, a job mentions no region but those of `own` and those it obtains. -/
def WrittenFor : (own : List ℕ) → Job ν α → Prop
  | _, done _ => True
  | own, note _ rest => rest.WrittenFor own
  | own, act op next =>
    (∀ number ∈ op.mentioned?, number ∈ own) ∧
      ∀ answer, (next answer).WrittenFor (own ++ op.obtained answer)
  | _, fail _ => True
  | _, panic _ => True

theorem Passes.writtenFor (h : job.Passes session exchanges rest session') {own : List ℕ}
    (hown : job.WrittenFor own) : rest.WrittenFor (own ++ obtained exchanges) := by
  induction h generalizing own with
  | nil job session => rwa [obtained, List.flatMap_nil, List.append_nil]
  | note htail ih => exact ih hown
  | act hop htail ih =>
    rw [obtained, List.flatMap_cons, ← List.append_assoc]
    exact ih (hown.2 _)

/-- A job that is written for its own regions uses no others, wherever it runs. -/
theorem WrittenFor.usesOwn (h : job.WrittenFor []) (session : Session) : job.UsesOwn session := by
  intro exchanges op next session' hpath
  exact (hpath.writtenFor h).1

end Job
end JobSandbox
