import ApiScaffold.Proofs.Operation.Fault
import ApiScaffold.Proofs.Run.Stages
import ApiScaffold.Source

/-!
# Which failures end a run

Faults of single schemas, operations and files are recorded. So the only fault of the building that
ends a run is a model that depends on a failed one, and no fault of the rendering ends it.

The lemmas go stage by stage, in the order of a run: loading, options and phases, components and
endpoints, tasks and files. Each says which faults a function may have, from those of the functions
that it calls. `Generator.faults_generate` is about the failure that a run ends with, and
`Generator.recorded_of_generate` about the faults in a report, which are of schemas, operations and
files.
-/

namespace ApiScaffold

open Attempt

variable {g : Generator} {spec : Spec} {P : Value → BuildFault → Prop}

/-! ## Loading -/

theorem Registry.faults_find (registry : Registry) (id : String) :
    Faults P (registry.find id) := by
  unfold find
  split <;> simp

namespace Spec

theorem faults_checkHeader (document : Value) (source : String) :
    Faults P (checkHeader document source) := by
  unfold checkHeader
  split
  · refine (faults_require _).bind fun _ => ?_
    split
    · simp
    · split
      · simp
      · exact faults_pure _
  · simp

theorem faults_checkReferences (document : Value) (references : List (Option (String × String))) :
    Faults P (checkReferences document references) := by
  induction references with
  | nil => exact faults_ok _
  | cons entry rest ih =>
      cases entry with
      | none => simp [checkReferences]
      | some found =>
          rw [checkReferences]
          split
          · simp
          · split
            next hr => exact (faults_resolveIn _ _).error_congr hr
            next => exact ih

theorem faults_ofValue (document : Value) (source : String) :
    Faults P (ofValue document source) :=
  (faults_checkHeader _ _).bind fun _ => (faults_checkReferences _ _).bind fun _ => faults_pure _

end Spec

namespace Source

theorem blames_unread (source : String) (account? : Option String) :
    (unread source account?).Blames P := by
  cases account? <;> simp [unread]

theorem faults_read (order : SetOrder) (source text : String) :
    Faults P (read order source text) := by
  unfold read
  split
  · cases Json.read text <;> simp [blames_unread]
  · cases Yaml.read order text <;> simp [Except.mapError, blames_unread]

theorem faults_text (fetch : Fetch) (tree : FileTree) (location : String) :
    Faults P (text fetch tree location) := by
  unfold text
  split
  · split <;> simp
  · unfold fileText
    dsimp only
    split
    · simp
    · split <;> simp

theorem faults_load (order : SetOrder) (fetch : Fetch) (tree : FileTree) (location : String) :
    Faults P (load order fetch tree location).result := by
  simp only [load, Logged.result_bind, Logged.result_report, Logged.result_lift]
  refine (faults_text _ _ _).bind fun _ => (faults_ok ()).bind fun _ =>
    (faults_read _ _ _).bind fun value => (Spec.faults_ofValue _ _).bind fun _ => ?_
  split
  · simp
  · exact faults_ok _

end Source

/-! ## Options and phases -/

namespace Options

theorem faults_refuse {α : Type} (value : Value) (fault : ConfigFault) :
    Faults P (refuse value fault : Attempt α) := by
  unfold refuse
  split <;> simp

theorem faults_text (value : Value) : Faults P (text value) := faults_require _

theorem faults_flag (key : String) (value : Value) : Faults P (flag key value) := by
  unfold flag
  dsimp only
  split
  · exact faults_ok _
  · exact faults_ok _
  · exact faults_ok _
  · split
    · exact faults_ok _
    · split
      · exact faults_ok _
      · exact faults_refuse _ _
  · exact faults_refuse _ _

theorem faults_integerPart (key : String) (value : Value) :
    Faults P (integerPart key value) := by
  unfold integerPart
  dsimp only
  split
  · exact faults_ok _
  · exact faults_ok _
  · exact faults_refuse _ _
  · exact faults_require _
  · split
    · exact faults_ok _
    · exact faults_refuse _ _
  · exact faults_refuse _ _

theorem faults_count (key : String) (value : Value) (least : Int) :
    Faults P (count key value least) := by
  refine (faults_integerPart _ _).bind fun _ => ?_
  split
  · exact faults_refuse _ _
  · split
    · exact faults_refuse _ _
    · exact faults_ok _

end Options

theorem Settings.faults_ofOptions (t : Target) (merged : Options) :
    Faults P (ofOptions t merged) := by
  have htext : ∀ value, Faults P (Options.text value) := Options.faults_text
  have hflag : ∀ key value, Faults P (Options.flag key value) := Options.faults_flag
  have hartifact : ∀ value base interfaceOnly,
      Faults P (readArtifact t value base interfaceOnly) := by
    intro value base interfaceOnly
    unfold readArtifact
    split
    · exact htext value
    · exact faults_ok _
  exact (hflag _ _).bind fun _ => (htext _).bind fun _ => (hartifact _ _ _).bind fun _ =>
    (htext _).bind fun _ => (htext _).bind fun _ => (hflag _ _).bind fun _ =>
      (htext _).bind fun _ => (htext _).bind fun _ => (htext _).bind fun _ =>
        (htext _).bind fun _ => (htext _).bind fun _ => (hflag _ _).bind fun _ =>
          (hflag _ _).bind fun _ => (hflag _ _).bind fun _ => (hflag _ _).bind fun _ =>
            (Options.faults_count _ _ _).bind fun _ => faults_pure _

namespace Step

theorem faults_andThen {α β : Type} {first : Step α} {next : Generator → α → Step β}
    (hf : Faults P first.result) (hn : ∀ g a, Faults P (next g a).result) :
    Faults P (first.andThen next).result := by
  unfold andThen
  split
  next h => exact hf.error_congr h
  next a _ => exact hn first.generator a

end Step

namespace Generator

theorem faults_advance (allowed : List Phase) (wanted : Phase) :
    Faults P (g.advance allowed wanted) := by
  unfold advance
  split <;> simp

theorem faults_processOptions : Faults P g.processOptions.result := by
  unfold processOptions
  split
  next h => exact (faults_advance _ _).error_congr h
  next =>
    split
    next h => exact (Settings.faults_ofOptions _ _).error_congr h
    next => exact faults_ok _

theorem faults_preprocess : Faults P (g.preprocess spec).result := by
  unfold preprocess
  split
  next h => exact (faults_advance _ _).error_congr h
  next => exact faults_ok _

theorem faults_startBuilding : Faults P g.startBuilding.result := by
  obtain ⟨_, _, phase, _, _⟩ := g
  cases phase with
  | preprocessed => exact faults_ok ()
  | _ => exact faults_error.mpr (blames_config _)

theorem faults_finishRendering : Faults P g.finishRendering.result := by
  obtain ⟨_, _, phase, _, _⟩ := g
  cases phase with
  | building => exact faults_ok ()
  | _ => exact faults_error.mpr (blames_config _)

theorem faults_prepare : Faults P (g.prepare spec).result :=
  Step.faults_andThen faults_processOptions fun _ _ =>
    Step.faults_andThen faults_preprocess fun _ _ =>
      Step.faults_andThen faults_startBuilding fun _ _ => faults_ok _

end Generator

/-! ## Components and endpoints -/

namespace Spec

theorem faults_schemas : Faults P spec.schemas :=
  (Value.faults_member _ _ _).bind fun _ => faults_pure _

end Spec

namespace Component

theorem faults_isInlined (schema : Value) : Faults P (isInlined schema) := by
  unfold isInlined
  split
  · exact Schema.faults_isAlias _
  · exact faults_ok _

/-- A model of any name that cannot be built is the subject of its fault. -/
theorem faults_model (name schema : Value) :
    Faults (fun subject _ => subject = name) (Model.ofSchema g spec name schema) := by
  cases name with
  | str s => exact Model.faults_ofSchema s schema
  | _ =>
      unfold Model.ofSchema
      split
      · simp
      · exact faults_build rfl

/-- The faults of a schema are recorded, so that none of them ends the run. -/
theorem faults_ofSchema (name schema : Value) :
    Faults P (ofSchema g spec name schema).result := by
  unfold ofSchema
  rw [Logged.result_bind, Logged.result_lift]
  refine (faults_isInlined _).bind fun inlined => ?_
  split
  · exact faults_ok _
  · split
    · exact faults_ok _
    · exact faults_ok _
    next failure hne hf =>
      have hblames := faults_model name schema failure hf
      cases failure with
      | build subject fault => exact (hne subject fault rfl).elim
      | render destination fault => exact hblames.elim
      | _ => exact faults_error.mpr trivial

theorem faults_entries : Faults P (entries spec) :=
  Spec.faults_schemas.bind fun _ => (Value.faults_entries _).bind fun _ => faults_require _

theorem faults_all : Faults P (all g spec).result := by
  simp only [all, Logged.result_bind, Logged.result_lift, Logged.result_mapM]
  exact faults_entries.bind fun _ => faults_mapM fun _ _ => faults_ofSchema _ _

/-- A model depends on one that has failed. -/
def IsDependence (_ : Value) (fault : BuildFault) : Prop := ∃ name, fault = .dependsOnFailed name

theorem faults_checkReferences (failed : List String) (models : List Model) :
    Faults IsDependence (checkReferences failed models) := by
  induction models with
  | nil => exact faults_ok _
  | cons m rest ih =>
      rw [checkReferences]
      split
      · exact faults_build ⟨_, rfl⟩
      · exact ih

theorem faults_checked : Faults IsDependence (checked g spec).result := by
  simp only [checked, Logged.result_bind, Logged.result_lift, Logged.result_pure]
  exact faults_all.bind fun _ => (faults_checkReferences _ _).bind fun _ => faults_ok _

end Component

namespace Endpoint

/-- The faults of an operation are recorded, so that none of them ends the run. -/
theorem faults_ofSlot (slot : Spec.Slot) : Faults P (ofSlot g spec slot).result := by
  unfold ofSlot
  split
  · exact faults_ok _
  · exact faults_ok _
  next failure hne hf =>
    have hblames := Operation.faults_ofSlot _ _ _ _ failure hf
    cases failure with
    | build subject fault => exact (hne subject fault rfl).elim
    | render destination fault => exact hblames.elim
    | _ => exact faults_error.mpr trivial

theorem faults_slotsUntil (items : Members) :
    ∀ failure, (Spec.slotsUntil items).2 = some failure → failure.Blames P := by
  induction items with
  | nil => simp [Spec.slotsUntil]
  | cons item rest ih =>
      obtain ⟨path, v⟩ := item
      intro failure h
      unfold Spec.slotsUntil at h
      split at h
      · cases h
      next heq =>
        cases heq
        exact ih failure h
      · cases h
        trivial

theorem faults_slots : ∀ failure, spec.slots.2 = some failure → failure.Blames P := by
  intro failure h
  have hread : Faults P (do require (← spec.paths.entries).sorted? : Attempt Members) :=
    (Value.faults_entries _).bind fun _ => faults_require _
  unfold Spec.slots at h
  split at h
  next => exact faults_slotsUntil _ failure h
  next hr =>
    cases h
    exact hread _ hr

theorem faults_all : Faults P (all g spec).result := by
  unfold all
  simp only [Logged.result_bind, Logged.result_mapM]
  refine (faults_mapM fun _ _ => faults_ofSlot _).bind fun _ => ?_
  split
  next h => exact faults_error.mpr (faults_slots _ h)
  next => exact faults_ok _

end Endpoint

theorem OperationGroup.faults_ofOperations (ops : List Operation) :
    Faults P (ofOperations ops) := by
  unfold ofOperations
  split <;> simp

theorem Operation.faults_distinguishAll (ops : List Operation) :
    Faults P (distinguishAll ops) := by
  unfold distinguishAll
  split <;> simp

/-! ## Tasks and files -/

namespace Spec

theorem faults_basePath : Faults P spec.basePath := by
  unfold basePath
  dsimp only
  split
  · exact faults_pure _
  · refine Faults.bind ?_ fun server => ?_
    · unfold firstServer
      split <;> first | exact faults_require _ | simp
    · split
      · exact (faults_require _).bind fun _ => (faults_require _).bind fun _ => faults_pure _
      · exact faults_pure _

end Spec

namespace Task

theorem faults_scope (m : Material) (t : Target) (s : Settings) : Faults P (m.scope t s) :=
  (Value.faults_member _ _ _).bind fun _ =>
    ((Value.faults_member _ _ _).bind fun _ => faults_require _).bind fun _ =>
      Spec.faults_basePath.bind fun _ => (Value.faults_member _ _ _).bind fun _ => faults_pure _

theorem faults_plan (m : Material) : Faults P (plan g m) := by
  refine Generator.faults_settings.bind fun _ => (faults_scope _ _ _).bind fun _ => ?_
  dsimp only
  split
  · simp
  · exact faults_pure _

/-- A file that cannot be rendered has a fault of its own destination, or none that has a name. -/
theorem library_render_error {library : Template.Library} {id destination : String}
    {scope : Template.Scope} {failure : Failure}
    (h : library.render id scope destination = .error failure) :
    (∃ fault, failure = .render destination fault) ∨ failure = .unsuitable := by
  unfold Template.Library.render at h
  cases hl : library.load id destination with
  | error found =>
      rw [hl] at h
      cases h
      unfold Template.Library.load at hl
      split at hl
      · cases hl
        exact .inl ⟨_, rfl⟩
      · split at hl
        · cases hl
          exact .inl ⟨_, rfl⟩
        · cases hl
          exact .inr rfl
        · cases hl
  | ok template =>
      simp only [hl, Bind.bind, Except.bind] at h
      split at h
      · cases h
        exact .inr rfl
      · split at h
        · cases h
        · split at h
          · cases h
            exact .inl ⟨_, rfl⟩
          · cases h
            exact .inr rfl

/-- The fault of a file is recorded, so that it does not end the run. -/
theorem faults_render (library : Template.Library) (task : Task) :
    Faults P (render library.render task) := by
  unfold render
  split
  · exact faults_ok _
  · exact faults_ok _
  next failure hne hf =>
    rcases library_render_error hf with ⟨fault, rfl⟩ | rfl
    · exact (hne _ fault rfl).elim
    · simp

theorem faults_renderAll (library : Template.Library) (tasks : List Task) :
    Faults P (renderAll library.render tasks).result := by
  have hall : Faults P (tasks.mapM (render library.render)) := faults_mapM fun _ _ => faults_render _ _
  unfold renderAll
  split
  next => exact faults_ok _
  next hf => exact hall.error_congr hf

end Task

namespace Sink

variable {sink : Sink}

theorem faults_rules : Faults P sink.rules := by
  unfold rules
  split
  · exact faults_ok _
  · split <;> simp

theorem faults_write (path text : String) : Faults P (sink.write path text).2.result := by
  unfold write
  split
  · simp
  · split
    · exact faults_ok _
    · dsimp only
      split
      · simp
      · split
        · exact faults_ok _
        · simp

theorem faults_writeAll (texts : List (String × String)) :
    Faults P (sink.writeAll texts).2.result := by
  induction texts generalizing sink with
  | nil => exact faults_ok _
  | cons t rest ih =>
      obtain ⟨path, text⟩ := t
      unfold writeAll
      dsimp only
      split
      next hw => exact (faults_write _ _).error_congr hw
      next => exact ih.map _

end Sink

/-! ## The run -/

namespace Draft

theorem faults_gather : Faults Component.IsDependence (gather g spec).result := by
  simp only [gather, Logged.result_bind, Logged.result_lift, Logged.result_report,
    Logged.result_pure]
  exact Component.faults_checked.bind fun _ => Endpoint.faults_all.bind fun _ =>
    (Operation.faults_distinguishAll _).bind fun _ =>
      (OperationGroup.faults_ofOperations _).bind fun _ => (faults_ok _).bind fun _ => faults_ok _

theorem faults_make {settings : Settings} {overrides : List Template.Override}
    {rules : Attempt IgnoreRules} (hr : Faults Component.IsDependence rules) :
    Faults Component.IsDependence (make g settings spec overrides rules).result := by
  simp only [make, makeBy, Logged.result_bind, Logged.result_lift, Logged.result_report,
    Logged.result_pure]
  exact (faults_ok _).bind fun _ => faults_gather.bind fun _ => (Task.faults_plan _).bind fun _ =>
    hr.bind fun _ => (Task.faults_renderAll _ _).bind fun _ => faults_ok _

end Draft

theorem Outcome.faults_finish {sink : Sink} {log : Log} {draft : Draft} :
    Faults P (finish g sink log draft).result := by
  unfold finish
  dsimp only
  split
  next hw => exact (Sink.faults_writeAll _).error_congr hw
  next =>
    split
    next hf => exact Generator.faults_finishRendering.error_congr hf
    next => exact faults_ok _

/-- The kinds of failure that a report records. -/
def Failure.IsRecorded : Failure → Prop
  | build _ _ | render _ _ => True
  | _ => False

namespace Draft

/-- A draft records faults of schemas, of operations and of files, and no others. -/
theorem recorded_of_make {settings : Settings} {overrides : List Template.Override}
    {rules : Attempt IgnoreRules} {draft : Draft}
    (h : (make g settings spec overrides rules).result = .ok draft) :
    ∀ failure ∈ draft.report.errors, failure.IsRecorded := by
  obtain ⟨_, material, failures, _, products, -, hg, -, -, -, hreport⟩ := make_ok h
  obtain ⟨components, endpoints, -, -, -, -, -, -, rfl⟩ := gather_ok hg
  intro failure hf
  rw [hreport, List.mem_append, List.mem_append] at hf
  rcases hf with (hf | hf) | hf
  · obtain ⟨c, -, hc⟩ := List.mem_filterMap.mp hf
    cases c <;> cases hc
    trivial
  · obtain ⟨e, -, he⟩ := List.mem_filterMap.mp hf
    cases e <;> cases he
    trivial
  · obtain ⟨p, -, hp⟩ := List.mem_filterMap.mp hf
    cases p <;> cases hp
    trivial

end Draft

theorem Generator.recorded_of_generate {overrides : List Template.Override} {sink : Sink}
    {report : Report} (h : (g.generate spec overrides sink).result = .ok report) :
    ∀ failure ∈ report.errors, failure.IsRecorded := by
  obtain ⟨draft, files, hd, rfl⟩ := generate_ok h
  obtain ⟨_, -, hmake⟩ := Attempt.bind_eq_ok.mp hd
  exact Draft.recorded_of_make hmake

/-- A run is not ended by a fault of the rendering, nor by one of the building other than that of a
model that depends on a failed one. -/
theorem Generator.faults_generate (overrides : List Template.Override) (sink : Sink) :
    Faults Component.IsDependence (g.generate spec overrides sink).result := by
  unfold generate generateBy
  dsimp only
  split
  next hp => exact faults_prepare.error_congr hp
  next =>
    split
    next hd => exact (Draft.faults_make Sink.faults_rules).error_congr hd
    next => exact Outcome.faults_finish

end ApiScaffold
