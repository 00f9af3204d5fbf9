import ApiScaffold.Proofs.Run.Conservation
import ApiScaffold.Proofs.Run.Coverage

/-!
# Drafts

A draft of a run with settings has the text of each task that the rules keep and that can be
rendered, at the destination of the task (`Drafted`, `Drafted.text_of_task`).

What is proved of the files of a run is proved of drafts: `drafted_of_draft` opens a run once, and
`Drafted.exists_text` gives the text of a task whose template cannot fail. A template sees the
settings of the run under their names, whatever else it is given (`lookup_settings`).
-/

namespace ApiScaffold

/-- Where models are wanted, each of them has its task. -/
theorem Task.ofModel_mem_all {t : Target} {s : Settings} {files : List SupportingFile}
    {base : Template.Scope} {material : Material} {m : Model} (hw : s.generateModels = true)
    (hm : m ∈ material.models) : ofModel t s base m ∈ all t s files base material := by
  rw [all, if_pos hw, List.mem_append, List.mem_append]
  exact .inl (.inr (List.mem_map_of_mem hm))

namespace Generator

variable {g : Generator} {spec : Spec} {rules : IgnoreRules} {settings : Settings} {draft : Draft}
  {material : Material} {base : Template.Scope}

/-- What the draft of a run with settings is made of. -/
structure Drafted (g : Generator) (spec : Spec) (rules : IgnoreRules) (settings : Settings)
    (draft : Draft) (material : Material) (base : Template.Scope) : Prop where
  gathered : ∃ failures, (Draft.gather (g.building settings) (normalized g.target spec)).result
    = .ok (material, failures)
  scope : material.scope g.target settings = .ok base
  distinct : ((Task.all g.target settings (settings.supportingFiles g.target) base material).map
    Task.destination).Nodup
  texts : draft.texts
    = ((Task.all g.target settings (settings.supportingFiles g.target) base material).filter
        fun task => !rules.ignored task.destination).filterMap
          (Task.file? (.ofTarget g.target []))
  models : draft.report.models = material.models
  groups : draft.report.groups = material.groups
  /-- Each task that the rules keep comes to a product. -/
  rendered : ∀ task ∈ Task.all g.target settings (settings.supportingFiles g.target) base material,
    rules.ignored task.destination = false →
      ∃ product, Task.render (Template.Library.ofTarget g.target []).render task = .ok product

theorem drafted_of_draft (hs : Settings.ofOptions g.target g.runOptions = .ok settings)
    (h : g.draft spec [] (.ok rules) = .ok draft) :
    ∃ material base, Drafted g spec rules settings draft material base := by
  simp only [Generator.draft, Attempt.bind_eq_ok] at h
  obtain ⟨⟨used, document⟩, hp, hd⟩ := h
  obtain ⟨hused, rfl, hg⟩ := prepare_ok hp
  rw [hs] at hused
  cases hused
  rw [hg] at hd
  obtain ⟨_, material, failures, tasks, products, hrules, hgather, hplan, hr, htexts, hreport⟩ :=
    Draft.make_ok hd
  cases hrules
  obtain ⟨s, base, hsettings, hbase, rfl, hn⟩ := Task.plan_ok hplan
  cases hsettings
  refine ⟨material, base, ⟨failures, hgather⟩, hbase, hn, ?_, ?_, ?_, fun task hin hkept => ?_⟩
  · rw [htexts, Task.files_of_products hr]
    rfl
  · rw [hreport]
  · rw [hreport]
  · obtain ⟨product, -, hproduct⟩ := Attempt.exists_of_forall₂ hr.flip
      (List.mem_filter.mpr ⟨hin, by rw [hkept]; rfl⟩)
    exact ⟨product, hproduct⟩

/-- The text at the destination of a task is that of the task. -/
theorem Drafted.text_of_task (h : Drafted g spec rules settings draft material base)
    {task : Task} (ht : task ∈ Task.all g.target settings (settings.supportingFiles g.target) base material)
    {text : String} (hin : (task.destination, text) ∈ draft.texts) :
    (Template.Library.ofTarget g.target []).render task.template task.scope task.destination
      = .ok text := by
  rw [h.texts] at hin
  obtain ⟨other, ho, hfile⟩ := List.mem_filterMap.mp hin
  obtain ⟨found, htext, hpair⟩ := Option.map_eq_some_iff.mp hfile
  obtain ⟨hdestination, rfl⟩ := Prod.mk.injEq _ _ _ _ ▸ hpair
  have hsame : other = task :=
    List.inj_on_of_nodup_map h.distinct (List.mem_filter.mp ho).1 ht hdestination
  rw [← hsame]
  exact Task.text?_eq_some.mp htext

/-- A task that the rules keep has a text in the draft, if nothing but unsuitable data can keep it
from having one. -/
theorem Drafted.exists_text (h : Drafted g spec rules settings draft material base) {task : Task}
    (ht : task ∈ Task.all g.target settings (settings.supportingFiles g.target) base material)
    (hkept : rules.ignored task.destination = false) {P : String → Prop}
    (hr : (∃ text, (Template.Library.ofTarget g.target []).render task.template task.scope
          task.destination = .ok text ∧ P text)
      ∨ (Template.Library.ofTarget g.target []).render task.template task.scope task.destination
        = .error .unsuitable) :
    ∃ text, (task.destination, text) ∈ draft.texts ∧ P text := by
  rcases hr with ⟨text, hrender, hP⟩ | hstop
  · refine ⟨text, ?_, hP⟩
    rw [h.texts]
    refine List.mem_filterMap.mpr ⟨task, List.mem_filter.mpr ⟨ht, by rw [hkept]; rfl⟩, ?_⟩
    rw [Task.file?, Task.text?_eq_some.mpr hrender]
    rfl
  · obtain ⟨product, hproduct⟩ := h.rendered task ht hkept
    rw [Task.render, hstop] at hproduct
    cases hproduct

/-- Every template of a run sees its settings. -/
theorem lookup_settings {t : Target} (h : material.scope t settings = .ok base) :
    base.lookup "settings" = some settings.datum := by
  obtain ⟨title, -, h⟩ := Attempt.bind_eq_ok.mp h
  obtain ⟨version, -, h⟩ := Attempt.bind_eq_ok.mp h
  obtain ⟨basePath, -, h⟩ := Attempt.bind_eq_ok.mp h
  obtain ⟨description, -, h⟩ := Attempt.bind_eq_ok.mp h
  cases h
  rfl

end Generator

end ApiScaffold
