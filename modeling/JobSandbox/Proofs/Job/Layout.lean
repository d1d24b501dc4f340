import JobSandbox.Proofs.Job.Transcript
import JobSandbox.Proofs.Placement
import JobSandbox.Report.Simulation

/-!
# Jobs cannot see where their memory lies

Two runs of one job on one dataset may be set up differently: memory for the dataset is handed out
in other units, there is more or less of it, and the heap starts elsewhere.  Then regions lie at
other addresses, behind other gaps, and in pages that came at other times.  A job that asks neither
for its policy nor for the place of a region sees nothing of that, as long as it gets the memory
that it asks for.

What carries this is a relation of two sessions: their hosts are the same, and their memories hold
the same dataset and the same buffers.  Answers depend on nothing else.

## Main definitions

* `Op.ShowsLayout` — the operations that are left out.
* `Op.answer?` — the answers to all others, in terms of what a session holds.
* `Session.Alike` — the relation of sessions, and `Job.RunsAlike`, that of runs.

## Main results

* `Session.Holds.answer_eq` — a session answers by what it holds.
* `Session.Alike.perform` — **the relation through one operation.**
* `Job.runsAlike` — **the relation through a job.**
* `execute_alike` — the same for whole runs from fresh memories.
-/

namespace JobSandbox

open Address Contract

/-! ### Operations that show the layout -/

/-- The operations that tell how memory is laid out. -/
def Op.ShowsLayout : Op → Prop
  | policy | region _ => True
  | _ => False

/-- What an operation is answered, if it does not show the layout and there is memory enough. -/
def Op.answer? (host : Host) (length : ℕ) (data : Bytes) (contents : List Bytes) :
    (op : Op) → Option op.Answer
  | dataset => some data
  | datasetLength => some length
  | policy => none
  | tryAlloc _ => some (.ok contents.length)
  | region _ => none
  | read number => contents[number]?
  | write number bytes => contents[number]?.map fun content => min bytes.length content.length
  | call request => some (host.perform request).1

/-- A request for memory that was not served. -/
def Exchange.Refused : Exchange → Prop
  | ⟨.tryAlloc _, .error _⟩ => True
  | _ => False

namespace Session

variable {session after s t s' : Session} {data : Bytes} {contents : List Bytes} {op : Op}
  {answer : op.Answer}

theorem dataset_of_perform (h : session.perform op = some (answer, after)) :
    after.dataset = session.dataset := by
  cases performed_of_perform h with
  | looked hlooks => rfl
  | refused hallocate => rfl
  | served hallocate => rfl
  | written hregion hwrite => rfl
  | called => rfl

/-! ### Answers -/

/-- **A session answers by what it holds**, wherever that lies. -/
theorem Holds.answer_eq (h : session.Holds data contents)
    (hperform : session.perform op = some (answer, after)) (hlayout : ¬op.ShowsLayout)
    (hserved : ¬Exchange.Refused ⟨op, answer⟩) :
    op.answer? session.host session.dataset.length data contents = some answer := by
  cases op with
  | dataset =>
    obtain ⟨bytes, hread, heq⟩ := Option.map_eq_some_iff.mp hperform
    cases heq
    exact h.dataset_read.symm.trans hread
  | datasetLength =>
    cases hperform
    rfl
  | policy => exact absurd trivial hlayout
  | tryAlloc size =>
    cases performed_of_perform hperform with
    | looked hlooks => cases hlooks
    | refused hallocate => exact absurd trivial hserved
    | served hallocate => rw [Op.answer?, h.length_eq]
  | region number => exact absurd trivial hlayout
  | read number =>
    rw [h.perform_read] at hperform
    obtain ⟨content, hcontent, heq⟩ := Option.map_eq_some_iff.mp hperform
    cases heq
    exact hcontent
  | write number bytes =>
    obtain ⟨region, hregion, hrest⟩ := Option.bind_eq_some_iff.mp hperform
    obtain ⟨arena, hwrite, heq⟩ := Option.bind_eq_some_iff.mp hrest
    cases heq
    -- the length of a region is that of its buffer
    obtain ⟨content, hcontent, hread⟩ := h.exists_read hregion
    have hlength : content.length = region.length := PagedMemory.length_of_read? hread
    rw [Op.answer?, hcontent, Option.map_some, hlength]
  | call request =>
    cases hperform
    rfl

/-- An operation fails if it mentions a region that was not handed out, and else it does not. -/
theorem Holds.perform_eq_none_iff (h : session.Holds data contents) :
    session.perform op = none ↔ ∃ number ∈ op.mentioned?, contents.length ≤ number := by
  constructor
  · intro hnone
    by_contra hall
    have hsome : (session.perform op).isSome := by
      refine h.isSome_perform ?_
      intro number hmentioned
      rw [← h.length_eq]
      by_contra hge
      exact hall ⟨number, hmentioned, Nat.le_of_not_lt hge⟩
    rw [hnone] at hsome
    cases hsome
  · rintro ⟨number, hmentioned, hle⟩
    have hregion : session.regions[number]? = none :=
      List.getElem?_eq_none (h.length_eq.symm.trans_le hle)
    cases op with
    | region | read | write =>
      cases Option.some.inj hmentioned
      simp only [Session.perform, hregion, bind, Option.bind_none, Option.map_none]
    | dataset | datasetLength | policy | tryAlloc | call => cases hmentioned

/-! ### Sessions that hold the same -/

/-- Two sessions that a job cannot tell apart, if it does not see the layout. -/
structure Alike (s t : Session) : Prop where
  host_eq : s.host = t.host
  length_eq : s.dataset.length = t.dataset.length
  /-- Wherever they lie, dataset and buffers are the same. -/
  exists_holds : ∃ data contents, s.Holds data contents ∧ t.Holds data contents

namespace Alike

/-- What fails in one session fails in the other. -/
theorem perform_eq_none (h : s.Alike t) (hnone : s.perform op = none) : t.perform op = none := by
  obtain ⟨data, contents, hs, ht⟩ := h.exists_holds
  exact ht.perform_eq_none_iff.mpr (hs.perform_eq_none_iff.mp hnone)

theorem symm (h : s.Alike t) : t.Alike s := by
  obtain ⟨data, contents, hs, ht⟩ := h.exists_holds
  exact ⟨h.host_eq.symm, h.length_eq.symm, data, contents, ht, hs⟩

/-- **The relation through one operation**: both sessions give the same answer, and are alike
again. -/
theorem perform (h : s.Alike t) (hs : s.perform op = some (answer, s'))
    (hlayout : ¬op.ShowsLayout) (hserved : ¬Exchange.Refused ⟨op, answer⟩)
    (hserved' : ∀ answer' t', t.perform op = some (answer', t') →
      ¬Exchange.Refused ⟨op, answer'⟩) :
    ∃ t', t.perform op = some (answer, t') ∧ s'.Alike t' := by
  obtain ⟨data, contents, hholds, hholds'⟩ := h.exists_holds
  cases ht : t.perform op with
  | none =>
    rw [h.symm.perform_eq_none ht] at hs
    cases hs
  | some result =>
    obtain ⟨answer', t'⟩ := result
    -- both answers are those of the dataset and the buffers that the sessions share
    have hanswer := hholds.answer_eq hs hlayout hserved
    have hanswer' := hholds'.answer_eq ht hlayout (hserved' answer' t' ht)
    rw [h.host_eq, h.length_eq, hanswer'] at hanswer
    cases hanswer
    refine ⟨t', rfl, ?_, ?_, ?_⟩
    · rw [host_of_perform hs, host_of_perform ht, h.host_eq]
    · rw [dataset_of_perform hs, dataset_of_perform ht, h.length_eq]
    · exact ⟨data, _, hholds.perform hs, hholds'.perform ht⟩

end Alike
end Session

/-! ### Runs -/

namespace Job

variable {ν α : Type} {s t : Session}

/-- Two sessions that a job goes the same course in, to the same end. -/
structure RunsAlike (job : Job ν α) (s t : Session) : Prop where
  /-- The same operations are answered in the same way. -/
  course_eq : job.course s = job.course t
  /-- The job notes down the same. -/
  notes_eq : (job.run s).notes = (job.run t).notes
  /-- The job ends in the same way. -/
  ending_eq : (job.run s).ending = (job.run t).ending
  /-- The host has seen the same. -/
  host_eq : (job.run s).session.host = (job.run t).session.host

/-- **The relation through a job.** -/
theorem runsAlike (job : Job ν α) (h : s.Alike t)
    (hlayout : ∀ exchange ∈ job.course s, ¬exchange.op.ShowsLayout)
    (hserved : ∀ exchange ∈ job.course s, ¬exchange.Refused)
    (hserved' : ∀ exchange ∈ job.course t, ¬exchange.Refused) : job.RunsAlike s t := by
  -- the job is the same tree in both sessions; what is carried down it is that they are alike
  induction job generalizing s t with
  | done value => exact ⟨rfl, rfl, rfl, h.host_eq⟩
  | note value job ih =>
    obtain ⟨hcourse, hnotes, hending, hhost⟩ := ih h hlayout hserved hserved'
    exact ⟨hcourse, congrArg (value :: ·) hnotes, hending, hhost⟩
  | act op next ih =>
    cases hs : s.perform op with
    | none =>
      have ht := h.perform_eq_none hs
      refine ⟨?_, ?_, ?_, ?_⟩
      · rw [course_act_of_none next hs, course_act_of_none next ht]
      all_goals rw [run_act_of_none next hs, run_act_of_none next ht]
      exact h.host_eq
    | some result =>
      obtain ⟨answer, s'⟩ := result
      rw [course_act_of_some next hs] at hlayout hserved
      obtain ⟨hshow, hlayout⟩ := List.forall_mem_cons.mp hlayout
      obtain ⟨hgot, hserved⟩ := List.forall_mem_cons.mp hserved
      obtain ⟨t', ht, hafter⟩ := h.perform hs hshow hgot (by
        intro answer' t' ht
        rw [course_act_of_some next ht] at hserved'
        exact (List.forall_mem_cons.mp hserved').1)
      rw [course_act_of_some next ht] at hserved'
      -- the same answer leads to the same rest
      obtain ⟨hcourse, hnotes, hending, hhost⟩ :=
        ih answer hafter hlayout hserved (List.forall_mem_cons.mp hserved').2
      refine ⟨?_, ?_, ?_, ?_⟩
      · rw [course_act_of_some next hs, course_act_of_some next ht, hcourse]
      all_goals rw [run_act_of_some next hs, run_act_of_some next ht]
      · exact hnotes
      · exact hending
      · exact hhost
  | fail fault =>
    have hlast : s.host.log (fault.fatalLine .running).bytes =
        t.host.log (fault.fatalLine .running).bytes := by rw [h.host_eq]
    exact ⟨rfl, rfl, rfl, hlast⟩
  | panic payload => exact ⟨rfl, rfl, rfl, h.host_eq⟩

/-- Whatever it is answered, all exchanges of a job have a property. -/
def Always (P : Exchange → Prop) : Job ν α → Prop
  | done _ => True
  | note _ rest => rest.Always P
  | act op next => ∀ answer, P ⟨op, answer⟩ ∧ (next answer).Always P
  | fail _ => True
  | panic _ => True

/-- A property that a job always has shows in all its courses. -/
theorem Always.of_mem_course {P : Exchange → Prop} {job : Job ν α} (h : job.Always P)
    (session : Session) : ∀ exchange ∈ job.course session, P exchange := by
  induction job generalizing session with
  | done value =>
    intro exchange hmem
    cases hmem
  | note value job ih => exact ih h session
  | act op next ih =>
    cases hperform : session.perform op with
    | none =>
      intro exchange hmem
      rw [course_act_of_none next hperform] at hmem
      cases hmem
    | some result =>
      obtain ⟨answer, after⟩ := result
      obtain ⟨hop, hrest⟩ := h answer
      rw [course_act_of_some next hperform]
      exact List.forall_mem_cons.mpr ⟨hop, ih answer hrest after⟩
  | fail fault =>
    intro exchange hmem
    cases hmem
  | panic payload =>
    intro exchange hmem
    cases hmem

end Job

/-! ### Whole runs -/

section Setups

variable {ν : Type} {host host₁ host₂ : Host} {setup₁ setup₂ : Setup} {dataset₁ dataset₂ : Dataset}
  {arena₁ arena₂ : Arena PagedMemory}

/-- The sessions that a body starts in are alike, however the runs were set up. -/
theorem start_alike (himplicit : setup₁.policy.implicitResult = setup₂.policy.implicitResult)
    (hready₁ : Dataset.ingest host (.ofMemory setup₁.memory) setup₁.policy.granularity =
      (.ready dataset₁, host₁, arena₁))
    (hready₂ : Dataset.ingest host (.ofMemory setup₂.memory) setup₂.policy.granularity =
      (.ready dataset₂, host₂, arena₂)) :
    (Session.start setup₁.policy dataset₁ host₁ arena₁).Alike
      (.start setup₂.policy dataset₂ host₂ arena₂) := by
  obtain ⟨hhost₁, hlength₁⟩ := Dataset.of_ingest_eq_ready hready₁
  obtain ⟨hhost₂, hlength₂⟩ := Dataset.of_ingest_eq_ready hready₂
  refine ⟨?_, ?_, host.visible, [], ?_, ?_⟩
  · show emitPlaceholder setup₁.policy host₁ = emitPlaceholder setup₂.policy host₂
    rw [hhost₁, hhost₂, emitPlaceholder, emitPlaceholder, himplicit]
  · exact hlength₁.trans hlength₂.symm
  · exact Session.holds_of_ingest hready₁
  · exact Session.holds_of_ingest hready₂

/-- **Jobs cannot see where their memory lies.**  Take any host and any two setups that ask for the
same placeholder, and let both runs take in the dataset.  If a body does not ask for its policy or
for the place of a region, and if it gets the memory that it asks for in both runs, then it is
answered the same at every step and ends the same way; the host has the same transcript, with the
same results in it, and the same last result.  Regions that a body was not given need no mention:
an access to one of them fails in both runs. -/
theorem execute_alike (himplicit : setup₁.policy.implicitResult = setup₂.policy.implicitResult)
    (hready₁ : Dataset.ingest host (.ofMemory setup₁.memory) setup₁.policy.granularity =
      (.ready dataset₁, host₁, arena₁))
    (hready₂ : Dataset.ingest host (.ofMemory setup₂.memory) setup₂.policy.granularity =
      (.ready dataset₂, host₂, arena₂))
    (body : Job ν Unit)
    (hlayout : ∀ exchange ∈ body.course (.start setup₁.policy dataset₁ host₁ arena₁),
      ¬exchange.op.ShowsLayout)
    (hserved₁ : ∀ exchange ∈ body.course (.start setup₁.policy dataset₁ host₁ arena₁),
      ¬exchange.Refused)
    (hserved₂ : ∀ exchange ∈ body.course (.start setup₂.policy dataset₂ host₂ arena₂),
      ¬exchange.Refused) :
    let first := execute setup₁.policy host setup₁.memory body
    let second := execute setup₂.policy host setup₂.memory body
    body.RunsAlike (.start setup₁.policy dataset₁ host₁ arena₁)
        (.start setup₂.policy dataset₂ host₂ arena₂) ∧
      first.host = second.host ∧ first.notes = second.notes ∧
      (∀ abort, first.status = .aborted abort ↔ second.status = .aborted abort) ∧
      ((∃ summary, first.status = .returned summary) ↔
        ∃ summary, second.status = .returned summary) := by
  intro first second
  have halike :=
    body.runsAlike (start_alike himplicit hready₁ hready₂) hlayout hserved₁ hserved₂
  have hfirst : first = runBody setup₁.policy dataset₁ host₁ arena₁ body :=
    execute_of_ready hready₁ body
  have hsecond : second = runBody setup₂.policy dataset₂ host₂ arena₂ body :=
    execute_of_ready hready₂ body
  refine ⟨halike, ?_, ?_, ?_, ?_⟩
  · rw [hfirst, hsecond]
    exact halike.host_eq
  · rw [hfirst, hsecond]
    exact halike.notes_eq
  · intro abort
    rw [hfirst, hsecond, status_runBody_iff, status_runBody_iff, halike.ending_eq]
  · rw [hfirst, hsecond, exists_returned_runBody_iff, exists_returned_runBody_iff,
      halike.ending_eq]

/-- A request for scratch memory is served if there is room behind the mark. -/
theorem Session.exists_perform_tryAlloc {session : Session} {bump : Bump}
    (h : bump.Refines session.arena) (hcap : bump.capacity < addressSpace) {size : ℕ}
    (hsize : size ≠ 0) (hfits : leastMultiple scratchAlign bump.mark + size ≤ bump.capacity) :
    ∃ number after, session.perform (.tryAlloc size) = some (.ok number, after) := by
  let request : Bump.Request := ⟨size, scratchAlign, ⟨3, rfl⟩, by decide⟩
  have hanswer : (session.arena.allocate size scratchAlign).1 =
      .ok ⟨leastMultiple scratchAlign bump.mark, size⟩ :=
    (h.allocate hcap request).answer_eq.trans (Bump.answer_of_fits hcap hsize hfits)
  rcases hallocate : session.arena.allocate size scratchAlign with ⟨error | region, arena⟩
  · rw [hallocate] at hanswer
    cases hanswer
  · refine ⟨session.regions.length,
      { session with arena, regions := session.regions ++ [region] }, ?_⟩
    simp only [Session.perform, hallocate]

/-- A setup with room for a dataset and for some scratch memory behind it. -/
theorem exists_ready_of_room (host : Host) (setup : Setup) {size : ℕ}
    (hcap : setup.maxPages * pageSize < addressSpace) (hne : host.announced ≠ 0) (hsize : size ≠ 0)
    (hroom : leastMultiple Session.scratchAlign
      (leastMultiple setup.policy.granularity.unit setup.heapBase +
        leastMultiple setup.policy.granularity.unit host.announced) + size ≤
          setup.maxPages * pageSize) :
    ∃ dataset host' arena number after,
      Dataset.ingest host (.ofMemory setup.memory) setup.policy.granularity =
        (.ready dataset, host', arena) ∧
      (Session.start setup.policy dataset host' arena).perform (.tryAlloc size) =
        some (.ok number, after) := by
  -- the dataset is placed, and leaves the arena at its end
  have hfits : leastMultiple setup.policy.granularity.unit setup.heapBase +
      leastMultiple setup.policy.granularity.unit host.announced ≤ setup.maxPages * pageSize := by
    have hle := (isLeast_leastMultiple (by decide : 0 < Session.scratchAlign)
      (leastMultiple setup.policy.granularity.unit setup.heapBase +
        leastMultiple setup.policy.granularity.unit host.announced)).1.1
    omega
  obtain ⟨arena, bump, hready, hrefines, hmark, hcapacity, -⟩ :=
    Dataset.ingest_of_fits hcap hne hfits setup.initialPages
  -- and behind it there is room
  have hscratch (dataset : Dataset) (host' : Host) : ∃ number after,
      (Session.start setup.policy dataset host' arena).perform (.tryAlloc size) =
        some (.ok number, after) := by
    refine Session.exists_perform_tryAlloc hrefines ?_ hsize ?_
    · rw [hcapacity]
      exact hcap
    · rw [hcapacity, hmark]
      exact hroom
  obtain ⟨number, after, hperform⟩ := hscratch _ _
  exact ⟨_, _, arena, number, after, hready, hperform⟩

/-- A body that works on scratch memory, in words next to the dataset and in pages far behind it. -/
theorem execute_alike_of_two_setups :
    let host : Host := { dataset := [1, 2, 3, 4, 5] }
    let setup₁ : Setup :=
      { policy := .legacy, initialPages := 1, maxPages := 2, heapBase := 1024 }
    let setup₂ : Setup :=
      { policy := ⟨.page, .placeholderZero⟩, initialPages := 1, maxPages := 4, heapBase := 70000 }
    let body : Job Unit Unit := .act (.tryAlloc 16) fun
      | .ok number => .act (.write number [7]) fun _ => .act (.read number) fun bytes =>
          .act (.call (.result .bytes bytes)) fun _ => .done ()
      | .error _ => .done ()
    setup₁.policy.implicitResult = setup₂.policy.implicitResult ∧
      (execute setup₁.policy host setup₁.memory body).host =
        (execute setup₂.policy host setup₂.memory body).host := by
  intro host setup₁ setup₂ body
  obtain ⟨dataset₁, host₁, arena₁, number₁, after₁, hready₁, halloc₁⟩ :=
    exists_ready_of_room host setup₁ (by decide) (by decide) (by decide : 16 ≠ 0) (by decide)
  obtain ⟨dataset₂, host₂, arena₂, number₂, after₂, hready₂, halloc₂⟩ :=
    exists_ready_of_room host setup₂ (by decide) (by decide) (by decide : 16 ≠ 0) (by decide)
  -- after its first request, the body asks for nothing that could be refused
  have hserved (session after : Session) (number : ℕ)
      (halloc : session.perform (.tryAlloc 16) = some (.ok number, after)) :
      ∀ exchange ∈ body.course session, ¬exchange.Refused := by
    rw [Job.course_act_of_some _ halloc]
    refine List.forall_mem_cons.mpr ⟨id, Job.Always.of_mem_course ?_ after⟩
    exact fun _ => ⟨id, fun _ => ⟨id, fun _ => ⟨id, trivial⟩⟩⟩
  have hlayout : body.Always fun exchange => ¬exchange.op.ShowsLayout := by
    rintro (error | number)
    · exact ⟨id, trivial⟩
    · exact ⟨id, fun _ => ⟨id, fun _ => ⟨id, fun _ => ⟨id, trivial⟩⟩⟩⟩
  have himplicit : setup₁.policy.implicitResult = setup₂.policy.implicitResult := rfl
  obtain ⟨-, hhost, -⟩ := execute_alike himplicit hready₁ hready₂ body (hlayout.of_mem_course _)
    (hserved _ _ _ halloc₁) (hserved _ _ _ halloc₂)
  exact ⟨himplicit, hhost⟩

end Setups
end JobSandbox
