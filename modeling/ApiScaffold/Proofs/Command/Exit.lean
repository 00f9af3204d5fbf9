import ApiScaffold.Command.Run
import ApiScaffold.Proofs.Run.Fault

/-!
# The exit status

The exit status of the program tells how a run has ended: 0 as it should, 1 with faults that were
recorded or with a fault of the building that ended it, 2 with a document or a configuration that
cannot be used.

* `generate_status`: the status of a run comes from its result alone.
* `Job.faults_outcome`: a fault of the rendering is recorded and never ends a run.
* `run_classifies`: so the status of every job classifies what its run comes to, in both directions.
-/

namespace ApiScaffold.Command

open Attempt

/-- What the loading of the document of a job and the run over it come to. -/
def Job.outcome (order : SetOrder) (fetch : Source.Fetch) (files : FileTree) (job : Job) :
    Attempt Report := do
  let target ← Registry.builtin.find job.target
  let d ← (Source.load order fetch files job.input).result
  ((Generator.ofTarget target job.options).run order d (overridesIn files job.templates?)
    (.directory (Path.ofString job.output) files)).result

/-- The status that a result of a run has. -/
def statusOf : Attempt Report → Attempt Nat
  | .ok report => .ok report.status
  | .error failure => match ending? failure with
    | some (status, _) => .ok status
    | none => .error failure

theorem ended_status (files : FileTree) (log : Log) (failure : Failure) :
    (Effect.ended files log failure).status = statusOf (.error failure) := by
  unfold Effect.ended statusOf
  split
  next h => simp only [h]
  next h => simp only [h]

/-- The status of a run comes from its result alone. -/
theorem generate_status (order : SetOrder) (fetch : Source.Fetch) (files : FileTree) (job : Job) :
    (generate order fetch files job).status = statusOf (job.outcome order fetch files) := by
  unfold generate Job.outcome
  cases Registry.builtin.find job.target with
  | error failure => exact ended_status _ _ _
  | ok target =>
      dsimp only [Bind.bind, Except.bind]
      cases (Source.load order fetch files job.input).result with
      | error failure => exact ended_status _ _ _
      | ok d =>
          dsimp only
          unfold ofOutcome
          dsimp only
          split
          next h => rw [h]; exact ended_status _ _ _
          next h => rw [h]; rfl

/-- A run is not ended by a fault of the rendering. -/
theorem Job.faults_outcome (order : SetOrder) (fetch : Source.Fetch) (files : FileTree) (job : Job) :
    Faults Component.IsDependence (job.outcome order fetch files) :=
  (Registry.faults_find _ _).bind fun _ => (Source.faults_load _ _ _ _).bind fun _ =>
    Generator.faults_generate _ _

theorem Job.recorded_of_outcome {order : SetOrder} {fetch : Source.Fetch} {files : FileTree}
    {job : Job} {report : Report} (h : job.outcome order fetch files = .ok report) :
    ∀ failure ∈ report.errors, failure.IsRecorded := by
  obtain ⟨target, -, h⟩ := Attempt.bind_eq_ok.mp h
  obtain ⟨d, -, h⟩ := Attempt.bind_eq_ok.mp h
  exact Generator.recorded_of_generate h

/-- A status tells how a run has ended. -/
structure Classifies (status : Attempt Nat) (outcome : Attempt Report) : Prop where
  success : status = .ok 0 ↔ ∃ report, outcome = .ok report ∧ report.errors = []
  incomplete : status = .ok 1 ↔ (∃ report, outcome = .ok report ∧ report.errors ≠ [])
    ∨ ∃ subject fault, outcome = .error (.build subject fault)
  unusable : status = .ok 2 ↔ (∃ fault, outcome = .error (.spec fault))
    ∨ ∃ fault, outcome = .error (.config fault)
  /-- Without a status there is a failure that the program has no name for. -/
  escaped : ∀ failure, status = .error failure →
    outcome = .error failure ∧ (failure = .system ∨ failure = .unsuitable)
  /-- The only fault of the building that ends a run. -/
  aborted : ∀ subject fault, outcome = .error (.build subject fault) →
    ∃ name, fault = .dependsOnFailed name
  /-- Faults of files never end a run. -/
  rendered : ∀ destination fault, outcome ≠ .error (.render destination fault)
  recorded : ∀ report, outcome = .ok report → ∀ failure ∈ report.errors, failure.IsRecorded

theorem statusOf_ok (report : Report) :
    statusOf (.ok report) = .ok (if report.errors = [] then 0 else 1) := by
  simp only [statusOf, Report.status, Report.isClean, List.isEmpty_iff]

/-- The status classifies results that are not ended by a fault of the rendering. -/
theorem classifies_statusOf {outcome : Attempt Report}
    (hfaults : Faults Component.IsDependence outcome)
    (hrecorded : ∀ report, outcome = .ok report → ∀ failure ∈ report.errors, failure.IsRecorded) :
    Classifies (statusOf outcome) outcome where
  success := by
    cases outcome with
    | ok report => by_cases h : report.errors = [] <;> simp [statusOf_ok, h]
    | error failure => cases failure <;> simp [statusOf, ending?]
  incomplete := by
    cases outcome with
    | ok report => by_cases h : report.errors = [] <;> simp [statusOf_ok, h]
    | error failure => cases failure <;> simp [statusOf, ending?]
  unusable := by
    cases outcome with
    | ok report => by_cases h : report.errors = [] <;> simp [statusOf_ok, h]
    | error failure => cases failure <;> simp [statusOf, ending?]
  escaped := by
    intro escaping hstatus
    cases outcome with
    | ok report => cases hstatus
    | error failure =>
        cases failure with
        | render destination fault => exact (hfaults _ rfl).elim
        | spec fault | config fault | build subject fault => cases hstatus
        | system => exact Except.error.inj hstatus ▸ ⟨rfl, .inl rfl⟩
        | unsuitable => exact Except.error.inj hstatus ▸ ⟨rfl, .inr rfl⟩
  aborted := fun _ _ h => hfaults _ h
  rendered := fun _ _ h => hfaults _ h
  recorded := hrecorded

/-- The exit status of every job classifies what its run comes to. -/
theorem run_classifies (order : SetOrder) (fetch : Source.Fetch) (files : FileTree) (job : Job) :
    Classifies ((Request.generate job).run order fetch files).status
      (job.outcome order fetch files) := by
  show Classifies (generate order fetch files job).status _
  rw [generate_status]
  exact classifies_statusOf (job.faults_outcome order fetch files) fun _ => Job.recorded_of_outcome

example (files : FileTree) : ((Request.generate {
    target := "cobol", input := "api.yaml", output := "out", templates? := none, defines := []
    workers? := none }).run .asGiven Source.offline files).status = .ok 2 := by rfl

end ApiScaffold.Command
