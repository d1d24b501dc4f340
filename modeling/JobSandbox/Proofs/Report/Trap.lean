import JobSandbox.Proofs.Fault
import JobSandbox.Proofs.Report.Placeholder

/-!
# What a report says of a trap

A run is trapped if its dataset could not be taken in, or if its body stopped for a fault.  Of the
first the report knows the fault itself.  Of the second it knows only the text that the body left
behind, as it does of a panic; a text that begins like that of a trap is taken for one.  So the
entry is right for all runs but those whose body panics with such a text of its own: whatever stands
behind the beginning is then entered as a trap code.

## Main definitions

* `Setup.Reaches` — what a body has left to do at some point of its run.
* `Setup.Trapped` — a run that is ended by a fault.

## Main results

* `Setup.trap_eq_some_iff` — **what a report has for a trap.**
* `Setup.trap_wrong_iff` — **the entry is wrong for bodies that panic with the text of a trap, and
  for no others.**
-/

namespace JobSandbox

/-! ### The end of a job -/

namespace Job

variable {ν α : Type} {job : Job ν α} {session : Session}

/-- A job is stopped for a fault if that is where its path leads. -/
theorem ending_eq_trap_iff {fault : Fault} :
    (job.run session).ending = .error (.trap fault) ↔
      ∃ exchanges last, job.Passes session exchanges (.fail fault) last := by
  constructor
  · intro h
    obtain ⟨rest, last, hpath, hends, -⟩ := job.exists_passes_course session
    rw [h] at hends
    cases hends with
    | failed => exact ⟨_, last, hpath⟩
  · rintro ⟨exchanges, last, hpath⟩
    rw [hpath.ending_eq]
    rfl

/-- A job ends with a panic exactly if it comes to one. -/
theorem ending_eq_panic_iff {payload : PanicPayload} :
    (job.run session).ending = .error (.panic payload) ↔
      ∃ exchanges last, job.Passes session exchanges (.panic payload) last := by
  constructor
  · intro h
    obtain ⟨rest, last, hpath, hends, -⟩ := job.exists_passes_course session
    rw [h] at hends
    cases hends with
    | panicked => exact ⟨_, last, hpath⟩
  · rintro ⟨exchanges, last, hpath⟩
    rw [hpath.ending_eq]
    rfl

end Job

/-! ### What a report makes of it -/

namespace Report

/-- What is entered is what stands behind the beginning of the text of a trap. -/
theorem trapCodeText?_eq_some_iff {message code : String} :
    trapCodeText? message = some code ↔ message = "reef trap " ++ code := by
  unfold trapCodeText?
  dsimp only
  rw [← String.toList_inj, String.toList_append]
  split
  · next h =>
    obtain ⟨rest, hrest⟩ := List.isPrefixOf_iff_prefix.mp h
    rw [Option.some.injEq, ← hrest, List.drop_left, List.append_right_inj, ← String.toList_inj,
      String.toList_ofList]
  · next h =>
    refine iff_of_false (by simp) ?_
    intro heq
    exact h (List.isPrefixOf_iff_prefix.mpr ⟨_, heq.symm⟩)

/-- Of a body that did not return, the code of its fault is entered, or what its panic has in the
place of one. -/
theorem trapCodeText?_message_eq_some_iff {abort : Abort} {code : String} :
    trapCodeText? (abort.message?.getD "job panicked") = some code ↔
      (∃ fault, abort = .trap fault ∧ toString fault.trapCode = code) ∨
        abort = .panic (.text ("reef trap " ++ code)) := by
  rw [trapCodeText?_eq_some_iff]
  cases abort with
  | trap fault =>
    change "reef trap " ++ toString fault.trapCode = "reef trap " ++ code ↔ _
    simp [← String.toList_inj]
  | panic payload =>
    cases payload with
    | text message => simp [Abort.message?]
    | other =>
      have hother : "job panicked" ≠ "reef trap " ++ code := by simp [← String.toList_inj]
      simpa [Abort.message?] using hother
  | outOfRange =>
    have hother : "slice out of range" ≠ "reef trap " ++ code := by simp [← String.toList_inj]
    simpa [Abort.message?] using hother

end Report

/-! ### Runs that are trapped -/

namespace Setup

variable {ν : Type} {setup : Setup} {data : Bytes} {body : Job ν Unit} {report : Report}
  {fault : Fault} {payload : PanicPayload} {code : String}

/-- The dataset is taken in, and the body comes to a point where it has `rest` left to do. -/
def Reaches (setup : Setup) (data : Bytes) (body rest : Job ν Unit) : Prop :=
  ∃ dataset host' arena exchanges last,
    Dataset.ingest { dataset := data } (.ofMemory setup.memory) setup.policy.granularity =
      (.ready dataset, host', arena) ∧
    body.Passes (.start setup.policy dataset host' arena) exchanges rest last

/-- The run is ended by a fault. -/
inductive Trapped (setup : Setup) (data : Bytes) (body : Job ν Unit) : Fault → Prop where
  /-- There was no memory for the dataset. -/
  | refused {error : AllocError} {host' : Host} {arena : Arena PagedMemory}
      (hingest : Dataset.ingest { dataset := data } (.ofMemory setup.memory)
        setup.policy.granularity = (.refused error, host', arena)) :
      Trapped setup data body (.alloc error)
  /-- The body stopped. -/
  | stopped {fault : Fault} (hstop : setup.Reaches data body (.fail fault)) :
      Trapped setup data body fault

/-- With a dataset, the body starts on it. -/
theorem reaches_iff_of_ready {dataset : Dataset} {host' : Host} {arena : Arena PagedMemory}
    (h : Dataset.ingest { dataset := data } (.ofMemory setup.memory) setup.policy.granularity =
      (.ready dataset, host', arena)) {rest : Job ν Unit} :
    setup.Reaches data body rest ↔
      ∃ exchanges last,
        body.Passes (.start setup.policy dataset host' arena) exchanges rest last := by
  constructor
  · rintro ⟨dataset', host'', arena', exchanges, last, hready, hpath⟩
    rw [h] at hready
    cases hready
    exact ⟨exchanges, last, hpath⟩
  · rintro ⟨exchanges, last, hpath⟩
    exact ⟨dataset, host', arena, exchanges, last, h, hpath⟩

/-- Without one, it comes to nothing. -/
theorem not_reaches_of_not_ready (h : ∀ dataset, (Dataset.ingest { dataset := data }
    (.ofMemory setup.memory) setup.policy.granularity).1 ≠ .ready dataset) (rest : Job ν Unit) :
    ¬setup.Reaches data body rest := by
  rintro ⟨dataset, host', arena, exchanges, last, hready, -⟩
  exact h dataset (congrArg Prod.fst hready)

/-- If coming to some point is what aborts a body, it is what aborts the run. -/
theorem reaches_iff_aborted {rest : Job ν Unit} {abort : Abort} (hinside : abort ≠ .outOfRange)
    (h : ∀ session : Session, (body.run session).ending = .error abort ↔
      ∃ exchanges last, body.Passes session exchanges rest last) :
    setup.Reaches data body rest ↔ (setup.run data body).status = .aborted abort := by
  rcases hingest : Dataset.ingest { dataset := data } (.ofMemory setup.memory)
    setup.policy.granularity with ⟨outcome, host', arena⟩
  cases outcome with
  | refused error =>
    refine iff_of_false (not_reaches_of_not_ready (by simp [hingest]) rest) ?_
    rw [run, execute_of_refused hingest]
    intro hstatus
    cases hstatus
  | outOfRange =>
    refine iff_of_false (not_reaches_of_not_ready (by simp [hingest]) rest) ?_
    rw [run, execute, hingest]
    intro hstatus
    cases hstatus
    exact hinside rfl
  | ready dataset =>
    rw [reaches_iff_of_ready hingest, ← h, ← status_runBody_iff, run, execute_of_ready hingest]

theorem reaches_fail_iff : setup.Reaches data body (.fail fault) ↔
    (setup.run data body).status = .aborted (.trap fault) :=
  reaches_iff_aborted (by simp) fun _ => Job.ending_eq_trap_iff

theorem reaches_panic_iff : setup.Reaches data body (.panic payload) ↔
    (setup.run data body).status = .aborted (.panic payload) :=
  reaches_iff_aborted (by simp) fun _ => Job.ending_eq_panic_iff

/-- A run fails if there is no memory for its dataset, and for no other cause. -/
theorem failed_iff : (∃ phase, (setup.run data body).status = .failed ⟨phase, fault⟩) ↔
    ∃ error host' arena, fault = .alloc error ∧
      Dataset.ingest { dataset := data } (.ofMemory setup.memory) setup.policy.granularity =
        (.refused error, host', arena) := by
  rcases hingest : Dataset.ingest { dataset := data } (.ofMemory setup.memory)
    setup.policy.granularity with ⟨outcome, host', arena⟩
  cases outcome with
  | refused error =>
    rw [run, execute_of_refused hingest]
    simp [eq_comm]
  | outOfRange =>
    rw [run, execute, hingest]
    simp
  | ready dataset =>
    rw [run, execute_of_ready hingest, runBody]
    dsimp only
    split <;> simp

/-- How a run that is trapped ends. -/
theorem trapped_iff : setup.Trapped data body fault ↔
    (∃ phase, (setup.run data body).status = .failed ⟨phase, fault⟩) ∨
      (setup.run data body).status = .aborted (.trap fault) := by
  rw [failed_iff, ← reaches_fail_iff]
  constructor
  · intro htrapped
    cases htrapped with
    | refused hingest => exact .inl ⟨_, _, _, rfl, hingest⟩
    | stopped hstop => exact .inr hstop
  · rintro (⟨error, host', arena, rfl, hingest⟩ | hstop)
    · exact .refused hingest
    · exact .stopped hstop

/-! ### The entry -/

/-- **What a report has for a trap**: the code of the fault that ended the run, or what a panic has
in the place of one. -/
theorem trap_eq_some_iff (h : setup.simulate data body = .ok report) :
    report.trap = some code ↔
      (∃ fault, setup.Trapped data body fault ∧ toString fault.trapCode = code) ∨
        setup.Reaches data body (.panic (.text ("reef trap " ++ code))) := by
  obtain ⟨result, -, rfl⟩ := Report.exists_of_ofOutcome_eq_ok h
  change ((Report.start setup.policy data).ended (setup.run data body).status
    (setup.run data body).arena.mark).trap = some code ↔ _
  simp only [trapped_iff, reaches_panic_iff]
  cases hstatus : (setup.run data body).status with
  | returned summary => simp [Report.ended, Report.start]
  | failed failure =>
    obtain ⟨phase, fault⟩ := failure
    simp [Report.ended]
  | aborted abort =>
    simp only [Report.ended, Report.trapCodeText?_message_eq_some_iff]
    simp

/-- A body that comes to a panic is not stopped for a fault. -/
theorem not_trapped_of_panic (h : setup.Reaches data body (.panic payload)) :
    ¬setup.Trapped data body fault := by
  rw [trapped_iff, reaches_panic_iff.mp h]
  simp

/-- **The entry for a trap is wrong for bodies that panic with the text of a trap, and for no
others.**  A run that is ended by a fault always has its trap code there, and so has nothing else
that ends a run, but a panic with such a text has what stands in it in the place of the code. -/
theorem trap_wrong_iff (h : setup.simulate data body = .ok report) :
    (∀ fault, setup.Trapped data body fault →
      report.trap = some (toString fault.trapCode) ∧
        (fault.trapCode = 9300 ∨ fault.trapCode = 9301 ∨ fault.trapCode = 9302)) ∧
    (∀ code, report.trap = some code ↔
      (∃ fault, setup.Trapped data body fault ∧ toString fault.trapCode = code) ∨
        setup.Reaches data body (.panic (.text ("reef trap " ++ code)))) ∧
    (¬(∀ code, report.trap = some code ↔
        ∃ fault, setup.Trapped data body fault ∧ toString fault.trapCode = code) ↔
      ∃ code, setup.Reaches data body (.panic (.text ("reef trap " ++ code)))) := by
  refine ⟨?_, fun code => trap_eq_some_iff h, ?_⟩
  · intro fault htrapped
    exact ⟨(trap_eq_some_iff h).mpr (.inl ⟨fault, htrapped, rfl⟩), fault.trapCode_cases⟩
  · constructor
    · intro hwrong
      by_contra hnone
      -- without such a panic, the second cause of an entry falls away
      refine hwrong fun code => (trap_eq_some_iff h).trans (or_iff_left ?_)
      exact fun hpanic => hnone ⟨code, hpanic⟩
    · rintro ⟨code, hpanic⟩ hright
      obtain ⟨fault, htrapped, -⟩ := (hright code).mp ((trap_eq_some_iff h).mpr (.inr hpanic))
      exact not_trapped_of_panic hpanic htrapped

/-- Five bytes are no words.  The job that adds up words stops for an argument, and the report has
the code for that. -/
theorem trap_of_words :
    let setup : Setup := { policy := .legacy }
    ∃ report, setup.simulate [1, 2, 3, 4, 5] (wordsJob : Job Empty Unit) = .ok report ∧
      report.trap = some "9302" := by
  intro setup
  obtain ⟨report, hreport⟩ :=
    exists_report setup [1, 2, 3, 4, 5] (callsOnly_wordsJob (ν := Empty))
  obtain ⟨dataset, host', arena, hready⟩ :=
    exists_ready_of_sizes { dataset := [1, 2, 3, 4, 5] } setup.memory rfl
      (PagedMemory.size_ofPages _ _ _) rfl
  have hread : dataset.read? arena = some [1, 2, 3, 4, 5] := Dataset.read?_of_ingest hready
  have hwords : ([1, 2, 3, 4, 5] : Bytes).length % wordSize ≠ 0 := by decide
  have htrapped : setup.Trapped [1, 2, 3, 4, 5] (wordsJob : Job Empty Unit)
      (.argument (.invalidLength 5 wordSize)) := by
    rw [trapped_iff, run, execute_of_ready hready, status_runBody_iff]
    exact .inr (ending_run_wordsJob hread hwords)
  exact ⟨report, hreport, ((trap_wrong_iff hreport).1 _ htrapped).1⟩

/-- A body that panics with such a text is entered as trapped, though no fault has ended its run;
and what is entered is not even a code. -/
theorem exists_trap_pretended :
    ∃ (setup : Setup) (data : Bytes) (report : Report),
      setup.simulate data (.panic (.text "reef trap ahead") : Job Unit Unit) = .ok report ∧
        report.trap = some "ahead" ∧
        ∀ fault, ¬setup.Trapped data (.panic (.text "reef trap ahead") : Job Unit Unit) fault := by
  have hbody : (Job.panic (.text "reef trap ahead") : Job Unit Unit).CallsOnly
      Request.Enveloped := trivial
  obtain ⟨report, hreport⟩ := exists_report { policy := ⟨.word8, .nothing⟩ } [1, 2, 3, 4, 5] hbody
  obtain ⟨dataset, host', arena, hready⟩ :=
    exists_ready_of_sizes { dataset := [1, 2, 3, 4, 5] }
      (Setup.memory { policy := ⟨.word8, .nothing⟩ }) rfl (PagedMemory.size_ofPages _ _ _) rfl
  have hpanic : Reaches { policy := ⟨.word8, .nothing⟩ } [1, 2, 3, 4, 5]
      (.panic (.text "reef trap ahead") : Job Unit Unit) (.panic (.text "reef trap ahead")) :=
    ⟨dataset, host', arena, [], _, hready, .nil _ _⟩
  exact ⟨_, _, report, hreport, (trap_eq_some_iff hreport).mpr (.inr hpanic),
    fun fault => not_trapped_of_panic hpanic⟩

end Setup
end JobSandbox
