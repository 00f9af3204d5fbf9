import ApiScaffold.Proofs.Attempt
import ApiScaffold.Proofs.Output.Sink
import ApiScaffold.Run.Generate

/-!
# The stages of a run

A run that gives a report has passed all stages: the options, the normal form of the document, the
material, the plan, the rendering and the writing. One that stops before it writes leaves the output
as it was.

Each stage has a lemma that says what it comes to where it succeeds (`prepare_ok`, `gather_ok`,
`makeBy_ok`). `draft` is a run before anything is written, and the last lemmas reduce a run to it:
without a draft it stops and the output is as it was, and with one it puts its texts into memory up
to the first that cannot be written. Later modules speak of drafts and do not open a run again.
-/

namespace ApiScaffold

namespace Generator

theorem advance_eq_ok {g moved : Generator} {allowed : List Phase} {wanted : Phase} :
    g.advance allowed wanted = .ok moved ↔
      g.phase ∈ allowed ∧ moved = { g with phase := wanted } := by
  by_cases hm : g.phase ∈ allowed
  · simp [advance, hm, eq_comm]
  · simp [advance, hm]

/-- The options of a run: those given over the defaults. -/
def runOptions (g : Generator) : Options := (Options.defaultsOf g.target).merge g.options

/-- The generator while it builds with settings. -/
def building (g : Generator) (settings : Settings) : Generator :=
  { g with phase := .building, settings? := some settings
           supportingFiles := settings.supportingFiles g.target }

theorem processOptions_ok {g : Generator} {settings : Settings}
    (h : g.processOptions.result = .ok settings) :
    Settings.ofOptions g.target g.runOptions = .ok settings
      ∧ g.processOptions.generator = { g with
          phase := .configured, settings? := some settings
          supportingFiles := settings.supportingFiles g.target } := by
  unfold processOptions at h ⊢
  cases ha : g.advance [.created, .configured] .configured with
  | error failure => simp [ha] at h
  | ok moved =>
      obtain ⟨-, rfl⟩ := advance_eq_ok.mp ha
      simp only [ha, runOptions] at h ⊢
      cases hs : Settings.ofOptions g.target ((Options.defaultsOf g.target).merge g.options) with
      | error failure => simp [hs] at h
      | ok s =>
          simp only [hs, Except.ok.injEq] at h ⊢
          subst h
          exact ⟨rfl, rfl⟩

theorem preprocess_ok {g : Generator} {spec document : Spec}
    (h : (g.preprocess spec).result = .ok document) :
    document = { spec with members := normalize g.target spec.members }
      ∧ (g.preprocess spec).generator = { g with phase := .preprocessed } := by
  unfold preprocess at h ⊢
  cases ha : g.advance [.configured] .preprocessed with
  | error failure => simp [ha] at h
  | ok moved =>
      obtain ⟨-, rfl⟩ := advance_eq_ok.mp ha
      simp only [ha, Except.ok.injEq] at h ⊢
      exact ⟨h.symm, trivial⟩

theorem preprocess_of_configured {g : Generator} {document : Spec} (h : g.phase = .configured) :
    g.preprocess document = {
      generator := { g with phase := .preprocessed }
      result := .ok { document with members := normalize g.target document.members } } := by
  have ha : g.advance [.configured] .preprocessed = .ok { g with phase := .preprocessed } :=
    advance_eq_ok.mpr ⟨by simpa using h, rfl⟩
  simp only [preprocess, ha]

theorem startBuilding_of_preprocessed {g : Generator} (h : g.phase = .preprocessed) :
    g.startBuilding = { generator := { g with phase := .building }, result := .ok () } := by
  cases g
  cases h
  rfl

theorem finishRendering_of_building {g : Generator} (h : g.phase = .building) :
    g.finishRendering = { generator := { g with phase := .rendered }, result := .ok () } := by
  cases g
  cases h
  rfl

/-- Without options of its own, a run of a target that can be asked for by name has settings, and
types have to be known in it. -/
theorem exists_settings {t : Target} (ht : t ∈ [Target.jaxrsSpec, .spring, .python]) :
    ∃ settings, Settings.ofOptions t (ofTarget t []).runOptions = .ok settings
      ∧ settings.permissiveTypes = false := by
  refine Attempt.exists_of_toOption_map ?_
  simp only [List.mem_cons, List.not_mem_nil, or_false] at ht
  rcases ht with rfl | rfl | rfl <;> decide

/-- A prepared run builds with the settings of its options, on the normal form of its document. -/
theorem prepare_ok {g : Generator} {spec document : Spec} {settings : Settings}
    (h : (g.prepare spec).result = .ok (settings, document)) :
    Settings.ofOptions g.target g.runOptions = .ok settings
      ∧ document = { spec with members := normalize g.target spec.members }
      ∧ (g.prepare spec).generator = g.building settings := by
  unfold prepare Step.andThen at h ⊢
  cases hp : g.processOptions.result with
  | error failure => simp [hp] at h
  | ok s =>
      obtain ⟨hs, hg⟩ := processOptions_ok hp
      simp only [hp] at h ⊢
      cases hd : (g.processOptions.generator.preprocess spec).result with
      | error failure => simp [hd] at h
      | ok d =>
          obtain ⟨hd', hg'⟩ := preprocess_ok hd
          have hstart := startBuilding_of_preprocessed
            (g := (g.processOptions.generator.preprocess spec).generator) (by rw [hg'])
          simp only [hd, hstart, Step.pure, Except.ok.injEq, Prod.mk.injEq] at h ⊢
          obtain ⟨rfl, rfl⟩ := h
          refine ⟨hs, ?_, ?_⟩
          · rw [hd', hg]
          · rw [hg', hg]
            rfl

/-- A prepared run of a new generator. -/
theorem prepare_of_settings {g : Generator} {spec : Spec} {settings : Settings}
    (hp : g.phase = .created) (hs : Settings.ofOptions g.target g.runOptions = .ok settings) :
    (g.prepare spec).result
        = .ok (settings, { spec with members := normalize g.target spec.members })
      ∧ (g.prepare spec).generator = g.building settings := by
  obtain ⟨target, options, phase, settings?, files⟩ := g
  cases hp
  have hprocess : Settings.ofOptions target ((Options.defaultsOf target).merge options)
      = .ok settings := hs
  unfold prepare Step.andThen processOptions
  simp only [advance, List.contains_cons, BEq.rfl, Bool.true_or, if_true, hprocess]
  exact ⟨rfl, rfl⟩

end Generator

namespace Draft

/-- What the material of a document is gathered from. -/
theorem gather_ok {g : Generator} {spec : Spec} {material : Material} {failures : List Failure}
    (h : (gather g spec).result = .ok (material, failures)) :
    ∃ components endpoints, (Component.checked g spec).result = .ok components
      ∧ (Endpoint.all g spec).result = .ok endpoints
      ∧ Operation.distinguishAll (endpoints.filterMap Endpoint.operation?)
          = .ok material.operations
      ∧ OperationGroup.ofOperations material.operations = .ok material.groups
      ∧ material.spec = spec
      ∧ material.models = components.filterMap Component.model?
      ∧ failures = components.filterMap Component.failure?
          ++ endpoints.filterMap Endpoint.failure? := by
  simp only [gather, Logged.result_bind, Logged.result_report, Logged.result_lift,
    Attempt.bind_eq_ok, Logged.result_pure, Except.ok.injEq, Prod.mk.injEq] at h
  obtain ⟨components, hc, endpoints, he, operations, ho, groups, hg, -, -, rfl, rfl⟩ := h
  exact ⟨components, endpoints, hc, he, ho, hg, rfl, rfl, rfl⟩

/-- What a draft is made of: the material, the plan, and the products of the tasks that the rules
keep. -/
theorem makeBy_ok {engineOf : Target → Template.Engine} {g : Generator} {settings : Settings}
    {spec : Spec} {rules? : Attempt IgnoreRules} {draft : Draft}
    (h : (makeBy engineOf g settings spec rules?).result = .ok draft) :
    ∃ rules material failures tasks products, rules? = .ok rules
      ∧ (gather g spec).result = .ok (material, failures)
      ∧ Task.plan g material = .ok tasks
      ∧ List.Forall₂
          (fun task product => Task.render (engineOf g.target) task = .ok product)
          (tasks.filter fun task => !rules.ignored task.destination) products
      ∧ draft.texts = products.filterMap Task.Product.file?
      ∧ draft.report = {
          generatorId := g.target.id
          models := material.models
          operations := material.operations
          groups := material.groups
          files := []
          skipped := (tasks.map Task.destination).filter rules.ignored
          errors := failures ++ products.filterMap Task.Product.failure? } := by
  simp only [makeBy, Logged.result_bind, Logged.result_report, Logged.result_lift,
    Attempt.bind_eq_ok, Logged.result_pure, Except.ok.injEq] at h
  obtain ⟨_, -, ⟨material, failures⟩, hg, tasks, ht, rules, hrules, products, hp, rfl⟩ := h
  refine ⟨rules, material, failures, tasks, products, hrules, hg, ht, ?_, rfl, rfl⟩
  unfold Task.renderAll at hp
  cases hm : (tasks.filter fun task => !rules.ignored task.destination).mapM
      (Task.render (engineOf g.target)) with
  | error failure => simp [hm] at hp
  | ok built =>
      simp only [hm, Except.ok.injEq] at hp
      subst hp
      exact Attempt.mapM_eq_ok.mp hm

theorem make_ok {g : Generator} {settings : Settings} {spec : Spec}
    {overrides : List Template.Override} {rules? : Attempt IgnoreRules} {draft : Draft}
    (h : (make g settings spec overrides rules?).result = .ok draft) :
    ∃ rules material failures tasks products, rules? = .ok rules
      ∧ (gather g spec).result = .ok (material, failures)
      ∧ Task.plan g material = .ok tasks
      ∧ List.Forall₂
          (fun task product =>
            Task.render (Template.Library.ofTarget g.target overrides).render task = .ok product)
          (tasks.filter fun task => !rules.ignored task.destination) products
      ∧ draft.texts = products.filterMap Task.Product.file?
      ∧ draft.report = {
          generatorId := g.target.id
          models := material.models
          operations := material.operations
          groups := material.groups
          files := []
          skipped := (tasks.map Task.destination).filter rules.ignored
          errors := failures ++ products.filterMap Task.Product.failure? } :=
  makeBy_ok h

/-- A draft of a run whose rules ignore all tasks has no texts and no other faults than the
material. -/
theorem make_of_ignored {g : Generator} {settings : Settings} {spec : Spec}
    {overrides : List Template.Override} {rules : IgnoreRules} {material : Material}
    {failures : List Failure} {tasks : List Task}
    (hg : (gather g spec).result = .ok (material, failures)) (ht : Task.plan g material = .ok tasks)
    (hr : ∀ task ∈ tasks, rules.ignored task.destination = true) :
    ∃ draft, (make g settings spec overrides (.ok rules)).result = .ok draft
      ∧ draft.texts = [] ∧ draft.report.errors = failures := by
  have hkept : tasks.filter (fun task => !rules.ignored task.destination) = [] := by
    simpa using hr
  apply Exists.intro
  refine ⟨?_, ?_, ?_⟩
  · simp only [make, makeBy, Logged.result_bind, Logged.result_report, Logged.result_lift,
      Attempt.bind_eq_ok, Logged.result_pure, Except.ok.injEq]
    refine ⟨(), trivial, _, hg, tasks, ht, rules, rfl, [], ?_, rfl⟩
    rw [hkept]
    rfl
  · rfl
  · exact List.append_nil _

end Draft

namespace Generator

/-- The draft of a run, before anything is written. -/
def draftBy (engineOf : Target → Template.Engine) (g : Generator) (spec : Spec)
    (rules : Attempt IgnoreRules) : Attempt Draft := do
  let (settings, document) ← (g.prepare spec).result
  (Draft.makeBy engineOf (g.prepare spec).generator settings document rules).result

/-- The draft of a run with templates that come before the built-in ones. -/
def draft (g : Generator) (spec : Spec) (overrides : List Template.Override)
    (rules : Attempt IgnoreRules) : Attempt Draft := do
  let (settings, document) ← (g.prepare spec).result
  (Draft.make (g.prepare spec).generator settings document overrides rules).result

section

variable {engineOf : Target → Template.Engine} {g : Generator} {spec : Spec}

/-- A run without a draft stops, and its output is as it was. -/
theorem generateBy_of_draft_error {sink : Sink} {failure : Failure}
    (h : draftBy engineOf g spec sink.rules = .error failure) :
    (generateBy engineOf g spec sink).sink = sink
      ∧ (generateBy engineOf g spec sink).result = .error failure := by
  unfold draftBy at h
  unfold generateBy
  cases hp : (g.prepare spec).result with
  | error f =>
      simp only [hp, Bind.bind, Except.bind, Except.error.injEq] at h ⊢
      subst h
      exact ⟨rfl, rfl⟩
  | ok p =>
      obtain ⟨settings, document⟩ := p
      simp only [hp, Bind.bind, Except.bind] at h ⊢
      simp only [h]
      exact ⟨rfl, rfl⟩

/-- A run with a draft puts its texts into memory up to the first that cannot be written, and gives
a report if all of them can. -/
theorem generateBy_of_draft_ok {files : List (String × String)} {rules : IgnoreRules}
    {draft : Draft} (h : draftBy engineOf g spec (.ok rules) = .ok draft) :
    (generateBy engineOf g spec (.memory files rules)).sink
        = .memory (Sink.putAll files (draft.texts.takeWhile Sink.isWritable)) rules
      ∧ (generateBy engineOf g spec (.memory files rules)).result
        = if draft.texts.all Sink.isWritable then
            .ok { draft.report with files := draft.texts.map Prod.fst }
          else .error .unsuitable := by
  simp only [draftBy, Attempt.bind_eq_ok] at h
  obtain ⟨⟨settings, document⟩, hp, hd⟩ := h
  obtain ⟨-, -, hg⟩ := prepare_ok hp
  obtain ⟨hs, hr⟩ := Sink.writeAll_memory files rules draft.texts
  have hf := finishRendering_of_building (g := (g.prepare spec).generator) (by rw [hg]; rfl)
  unfold generateBy
  simp only [hp, Sink.rules, hd, Outcome.finish, hr]
  by_cases ha : draft.texts.all Sink.isWritable = true
  · simp only [ha, if_true, hf]
    exact ⟨hs, trivial⟩
  · simp only [ha]
    exact ⟨hs, rfl⟩

end

theorem generate_of_draft_error {g : Generator} {spec : Spec} {overrides : List Template.Override}
    {sink : Sink} {failure : Failure} (h : g.draft spec overrides sink.rules = .error failure) :
    (g.generate spec overrides sink).sink = sink
      ∧ (g.generate spec overrides sink).result = .error failure :=
  generateBy_of_draft_error h

theorem generate_of_draft_ok {g : Generator} {spec : Spec} {overrides : List Template.Override}
    {files : List (String × String)} {rules : IgnoreRules} {draft : Draft}
    (h : g.draft spec overrides (.ok rules) = .ok draft) :
    (g.generate spec overrides (.memory files rules)).sink
        = .memory (Sink.putAll files (draft.texts.takeWhile Sink.isWritable)) rules
      ∧ (g.generate spec overrides (.memory files rules)).result
        = if draft.texts.all Sink.isWritable then
            .ok { draft.report with files := draft.texts.map Prod.fst }
          else .error .unsuitable :=
  generateBy_of_draft_ok h

/-- A run with a report has a draft, and its report is that of the draft with the files. -/
theorem generate_ok {g : Generator} {spec : Spec} {overrides : List Template.Override}
    {sink : Sink} {report : Report} (h : (g.generate spec overrides sink).result = .ok report) :
    ∃ draft files, g.draft spec overrides sink.rules = .ok draft
      ∧ report = { draft.report with files } := by
  cases hd : g.draft spec overrides sink.rules with
  | error failure =>
      rw [(generate_of_draft_error hd).2] at h
      cases h
  | ok draft =>
      simp only [Generator.draft, Attempt.bind_eq_ok] at hd
      obtain ⟨⟨settings, document⟩, hp, hd⟩ := hd
      refine ⟨draft, ?_⟩
      unfold generate generateBy at h
      unfold Draft.make at hd
      simp only [hp, hd, Outcome.finish] at h
      split at h
      next => cases h
      next files _ =>
        split at h
        next => cases h
        next =>
          cases h
          exact ⟨files, rfl, rfl⟩

/-- A run with a draft whose texts can all be written gives its report. -/
theorem generate_ok_of_draft {g : Generator} {spec : Spec} {overrides : List Template.Override}
    {files : List (String × String)} {rules : IgnoreRules} {draft : Draft}
    (h : g.draft spec overrides (.ok rules) = .ok draft)
    (hw : draft.texts.all Sink.isWritable = true) :
    (g.generate spec overrides (.memory files rules)).result
      = .ok { draft.report with files := draft.texts.map Prod.fst } := by
  rw [(generate_of_draft_ok h).2, if_pos hw]

end Generator

end ApiScaffold
