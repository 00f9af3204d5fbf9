import ApiScaffold.Proofs.Generator.Preprocess
import ApiScaffold.Proofs.Run.Components
import ApiScaffold.Proofs.Run.Conservation
import ApiScaffold.Proofs.Run.Endpoints
import ApiScaffold.Template.Builtin

/-!
# The classes that generated files import

In a run without faults each class that a file imports as a model is the class of exactly one model,
and it is imported from the file that is planned for that model.

* `Schema.imports_hasClass`: what the type of a schema imports is of the library of the target, or
  the class of a component that is no alias; so it is for models and operations.
* `model_of_hasClass`: without faults every such class is that of a model.
* `exists_of_mem_modelImports`: what the tasks of a run import as models is imported by one of its
  models or groups.
* `generate_imports`: the three together, with the destination of the file in the plan
  (`Report.Declares`).
-/

namespace ApiScaffold

/-! ## Where imported classes come from -/

/-- A name is the class of a component schema that is no alias. -/
def Component.HasClass (g : Generator) (spec : Spec) (cls : String) : Prop :=
  ∃ schemas name schema, spec.schemas = .ok (.map schemas)
    ∧ Members.get? schemas name = some (.map schema) ∧ Schema.isAlias schema = .ok false
    ∧ cls = g.target.modelName name

variable {g : Generator} {spec : Spec}

/-- What the type of a schema of a document imports is of the target's library, or the class of a
component. -/
theorem Schema.imports_hasClass (hn : spec.NamesComponents) {v : Value} {type : TargetType}
    (hv : ∀ reference, Refers v reference → spec.HasReference reference)
    (h : resolve g (some spec) v = .ok type) :
    ∀ s ∈ type.imports, s ∈ g.target.libraryImports ∨ Component.HasClass g spec s := by
  intro s hs
  rcases resolve_imports h s hs with hs | ⟨reference, hr, rfl⟩
  · exact .inl hs
  · obtain ⟨schemas, schema, hschemas, hget, ha⟩ := Spec.HasReference.reaches hn hv hr
    exact .inr ⟨schemas, _, schema, hschemas, hget, ha, rfl⟩

theorem Model.imports_hasClass (hn : spec.NamesComponents) {name : Value} {schema : Members}
    {m : Model} (hs : spec.HasSchema (.map schema))
    (h : ofSchema g spec name (.map schema) = .ok m) :
    ∀ s ∈ m.imports, s ∈ g.target.libraryImports ++ g.target.markerImports
      ∨ Component.HasClass g spec s := by
  intro s hin
  rcases ofSchema_imports h s hin with hmarker | ⟨v, type, hu, htype, htin⟩
  · exact .inl (List.mem_append_right _ hmarker)
  · rcases Schema.imports_hasClass hn (hs.usesType hn hu) htype s htin with hlib | hclass
    · exact .inl (List.mem_append_left _ hlib)
    · exact .inr hclass

theorem Operation.imports_hasClass (hn : spec.NamesComponents) {slot : Spec.Slot} {op : Operation}
    (hs : slot ∈ spec.slots.1)
    (h : ofSlot g spec slot.path slot.method slot.operation (.map slot.pathItem) = .ok op) :
    ∀ s ∈ op.imports, s ∈ g.target.libraryImports ∨ Component.HasClass g spec s := by
  obtain ⟨members, _, _, _, _, _, _, hoperation, -⟩ := ofSlot_ok h
  rw [hoperation] at h
  obtain ⟨item, hitem, himports⟩ := ofSlot_imports h
  have hsame : item = slot.pathItem := by
    cases hp : slot.pathItem with
    | nil =>
        rw [hp] at hitem
        cases hitem
        rfl
    | cons _ _ =>
        rw [hp] at hitem
        cases hitem
        rfl
  subst hsame
  intro s hin
  obtain ⟨v, type, hu, htype, htin⟩ := himports s hin
  have hschema : spec.HasSchema v := .ofOperation hs hoperation hu
  exact Schema.imports_hasClass hn (fun _ hr => hschema.refers hr) htype s htin

/-! ## What a run without faults has a model for -/

namespace Draft

variable {material : Material} {failures : List Failure}

theorem model_imports (hn : spec.NamesComponents)
    (h : (gather g spec).result = .ok (material, failures)) {m : Model} (hm : m ∈ material.models) :
    ∀ s ∈ m.imports, s ∈ g.target.libraryImports ++ g.target.markerImports
      ∨ Component.HasClass g spec s := by
  obtain ⟨components, _, hc, -, -, -, -, hmodels, -⟩ := gather_ok h
  rw [hmodels] at hm
  obtain ⟨sorted, name, schema, hsorted, hentry, -, hok⟩ := Component.exists_of_mem_models hc hm
  obtain ⟨schemas, hschemas, hmem⟩ := Component.entries_ok hsorted
  obtain ⟨_, members, -, rfl, -⟩ := Model.ofSchema_ok hok
  exact Model.imports_hasClass hn (.component hschemas ((hmem _).mp hentry)) hok

theorem group_imports (hn : spec.NamesComponents)
    (h : (gather g spec).result = .ok (material, failures)) {group : OperationGroup}
    (hg : group ∈ material.groups) :
    ∀ s ∈ group.imports, s ∈ g.target.libraryImports ∨ Component.HasClass g spec s := by
  obtain ⟨_, endpoints, -, he, hd, hgroups, -, -, -⟩ := gather_ok h
  have hall : ∀ op ∈ material.operations, ∀ s ∈ op.imports,
      s ∈ g.target.libraryImports ∨ Component.HasClass g spec s := by
    refine Operation.distinguishAll_forall ?_ ?_ ?_ hd
    · intro op n hop
      rwa [Operation.appendMethod_imports]
    · intro op n hop
      rwa [Operation.appendNumber_imports]
    · intro op hop
      obtain ⟨slot, hslot, hok⟩ := Endpoint.exists_of_mem_operations he hop
      exact Operation.imports_hasClass hn hslot hok
  intro s hs
  obtain ⟨-, -, -, hfrom⟩ := OperationGroup.ofOperations_ok hgroups group hg
  obtain ⟨op, hop, hs⟩ := hfrom s hs
  exact hall op hop s hs

/-- Without faults every class of a component is that of a model. -/
theorem model_of_hasClass (h : (gather g spec).result = .ok (material, failures))
    (hf : failures = []) {cls : String} (hc : Component.HasClass g spec cls) :
    ∃ m ∈ material.models, m.className = cls := by
  obtain ⟨schemas, name, schema, hschemas, hget, ha, rfl⟩ := hc
  obtain ⟨components, _, hchecked, -, -, -, -, hmodels, hfailures⟩ := gather_ok h
  obtain ⟨hall, -⟩ := Component.checked_ok hchecked
  obtain ⟨sorted, hsorted, houtcomes⟩ := Component.all_ok hall
  obtain ⟨found, hfound, hmem⟩ := Component.entries_ok hsorted
  rw [hschemas] at hfound
  cases hfound
  have hentry : (.str name, .map schema) ∈ sorted := (hmem _).mpr (Members.mem_of_get? hget)
  obtain ⟨c, hcin, hout⟩ := Attempt.exists_of_forall₂ houtcomes.flip hentry
  cases hout with
  | inlined hi =>
      have halias : Schema.isAlias schema = .ok true := hi
      rw [ha] at halias
      cases halias
  | model _ hok =>
      exact ⟨_, hmodels ▸ List.mem_filterMap.mpr ⟨_, hcin, rfl⟩, (Model.ofSchema_className hok).2⟩
  | failed _ _ =>
      -- a failed component would be among the faults
      rw [hf] at hfailures
      have hnone := List.filterMap_eq_nil_iff.mp (List.append_eq_nil_iff.mp hfailures.symm).1
      cases hnone _ hcin

end Draft

/-! ## What a plan has a file for -/

/-- A datum that is a text. -/
def Datum.asText? : Datum → Option String
  | .value (.str s) => some s
  | _ => none

/-- The classes of models that the template of a task imports. -/
def Task.modelImports (task : Task) : List String :=
  match task.scope.lookup "model_imports" with
  | some (.list names) => names.filterMap Datum.asText?
  | _ => []

namespace Task

variable {t : Target} {s : Settings} {base : Template.Scope}

theorem modelImports_of_lookup {task : Task} {names : List String}
    (h : task.scope.lookup "model_imports" = some (.list (names.map .str))) :
    task.modelImports = names := by
  rw [modelImports, h]
  show (names.map Datum.str).filterMap Datum.asText? = names
  rw [List.filterMap_map]
  exact List.filterMap_some

theorem modelImports_ofModel (m : Model) :
    (ofModel t s base m).modelImports = (t.splitImports m.imports).models :=
  modelImports_of_lookup rfl

theorem modelImports_ofGroup (group : OperationGroup) :
    (ofGroup t s base group).modelImports = (t.splitImports group.imports).models :=
  modelImports_of_lookup rfl

theorem modelImports_ofSupportingFile {m : Material} (h : m.scope t s = .ok base)
    (file : SupportingFile) : (ofSupportingFile base file).modelImports = [] := by
  obtain ⟨title, -, h⟩ := Attempt.bind_eq_ok.mp h
  obtain ⟨version, -, h⟩ := Attempt.bind_eq_ok.mp h
  obtain ⟨basePath, -, h⟩ := Attempt.bind_eq_ok.mp h
  obtain ⟨description, -, h⟩ := Attempt.bind_eq_ok.mp h
  cases h
  rfl

/-- What the tasks of a run import as models, its models and groups import. -/
theorem exists_of_mem_modelImports {m : Material} {files : List SupportingFile} {task : Task}
    (hb : m.scope t s = .ok base) (ht : task ∈ all t s files base m) {name : String}
    (hn : name ∈ task.modelImports) : t.importTargets.lookup name = none
      ∧ ((∃ model ∈ m.models, name ∈ model.imports)
        ∨ ∃ group ∈ m.groups, name ∈ group.imports) := by
  simp only [all, List.mem_append, List.mem_ite_nil_right, List.mem_map] at ht
  rcases ht with (⟨-, file, -, rfl⟩ | ⟨-, model, hm, rfl⟩) | ⟨-, group, hg, rfl⟩
  · rw [modelImports_ofSupportingFile hb] at hn
    cases hn
  · rw [modelImports_ofModel, Target.mem_splitImports_models] at hn
    exact ⟨hn.2, .inl ⟨model, hm, hn.1⟩⟩
  · rw [modelImports_ofGroup, Target.mem_splitImports_models] at hn
    exact ⟨hn.2, .inr ⟨group, hg, hn.1⟩⟩

/-- Models whose files are planned to different destinations have different classes. -/
theorem nodup_classNames {m : Material} {files : List SupportingFile}
    (hw : s.generateModels = true) (hn : ((all t s files base m).map destination).Nodup) :
    (m.models.map Model.className).Nodup := by
  simp only [destinations_all, hw, if_true] at hn
  have hmodels := (List.nodup_append.mp (List.nodup_append.mp hn).1).2.1
  refine List.Nodup.of_map (s.modelDestination t) ?_
  simpa only [List.map_map, Function.comp_def] using hmodels

theorem ofModel_destination (m : Model) :
    (ofModel t s base m).destination = s.modelDestination t m.className := by
  rw [ofModel]

theorem ofGroup_destination (group : OperationGroup) :
    (ofGroup t s base group).destination = s.apiDestination t group.className := by
  rw [ofGroup]

end Task

/-- The templates of the Python target import a class from the module of this name. -/
def Template.Builtin.Python.ImportsFrom (cls module : String) : Prop :=
  ∀ scope, (snake (name "name")).eval (("name", .str cls) :: scope) = .ok (.str module)

/-- A class has its place in a run: exactly one model of the report has it, and the plan has the
file of the class for that model. In Python the file is that of the module that templates import the
class from. -/
structure Report.Declares (r : Report) (t : Target) (s : Settings) (tasks : List Task)
    (cls : String) : Prop where
  once : (r.models.map Model.className).count cls = 1
  planned : ∃ m ∈ r.models, m.className = cls ∧ ∃ task ∈ tasks, task.purpose = .model m.name
    ∧ task.destination = s.modelDestination t cls
  imported : t = .python → ∃ module, Template.Builtin.Python.ImportsFrom cls module
    ∧ s.modelDestination t cls = inFolder (s.folder t.modelFolder) (module ++ ".py")

namespace Generator

variable {overrides : List Template.Override} {sink : Sink}

/-- The class of a model that is planned has its place. -/
theorem declares_of_mem {t : Target} {s : Settings} {files : List SupportingFile}
    {base : Template.Scope} {material : Material} {report : Report} {m : Model}
    (hr : report.models = material.models) (hw : s.generateModels = true)
    (hn : ((Task.all t s files base material).map Task.destination).Nodup)
    (hm : m ∈ material.models) :
    report.Declares t s (Task.all t s files base material) m.className where
  once := by
    rw [hr]
    exact List.count_eq_one_of_mem (Task.nodup_classNames hw hn) (List.mem_map_of_mem hm)
  planned := by
    refine ⟨m, hr ▸ hm, rfl, Task.ofModel t s base m, ?_, rfl, Task.ofModel_destination m⟩
    rw [Task.all, if_pos hw, List.mem_append, List.mem_append]
    exact .inl (.inr (List.mem_map_of_mem hm))
  imported := by
    rintro rfl
    exact ⟨Naming.snakeCase m.className, fun _ => rfl, rfl⟩

/-- In a run without faults every class that a file imports as a model has its place. -/
theorem generate_imports {settings : Settings} {report : Report}
    (ht : g.target ∈ [.jaxrsSpec, .spring, .python]) (hn : spec.NamesComponents)
    (hs : Settings.ofOptions g.target g.runOptions = .ok settings)
    (hw : settings.generateModels = true)
    (h : (g.generate spec overrides sink).result = .ok report) (he : report.errors = []) :
    ∃ tasks, g.plannedTasks spec = .ok tasks ∧ ∀ task ∈ tasks, ∀ cls ∈ task.modelImports,
      report.Declares g.target settings tasks cls := by
  obtain ⟨draft, files, hd, rfl⟩ := generate_ok h
  simp only [Generator.draft, Attempt.bind_eq_ok] at hd
  obtain ⟨⟨used, document⟩, hp, hd⟩ := hd
  obtain ⟨hused, hdocument, hg⟩ := prepare_ok hp
  rw [hs] at hused
  cases hused
  have hnames : document.NamesComponents := hdocument ▸ namesComponents_normalized hn
  obtain ⟨_, material, failures, tasks, products, -, hgather, hplan, -, -, hreport⟩ :=
    Draft.make_ok hd
  have hfailures : failures = [] := by
    rw [hreport] at he
    exact (List.append_eq_nil_iff.mp he).1
  refine ⟨tasks, ?_, ?_⟩
  · simp only [plannedTasks, Attempt.bind_eq_ok]
    exact ⟨_, hp, _, hgather, hplan⟩
  · rw [hg] at hgather hplan
    obtain ⟨s, base, hsettings, hbase, rfl, hnodup⟩ := Task.plan_ok hplan
    cases hsettings
    intro task htask cls hcls
    obtain ⟨hlookup, hfrom⟩ := Task.exists_of_mem_modelImports hbase htask hcls
    -- an import that is not of the library is the class of a component
    have hlibrary : cls ∉ g.target.libraryImports ++ g.target.markerImports := by
      intro hin
      have hsome : (g.target.importTargets.lookup cls).isSome = true :=
        Target.lookup_of_builtin ht cls hin
      change g.target.importTargets.lookup cls = none at hlookup
      rw [hlookup] at hsome
      cases hsome
    have hclass : Component.HasClass (g.building settings) document cls := by
      rcases hfrom with ⟨model, hm, hin⟩ | ⟨group, hgroup, hin⟩
      · exact (Draft.model_imports hnames hgather hm cls hin).resolve_left hlibrary
      · refine (Draft.group_imports hnames hgather hgroup cls hin).resolve_left fun hlib => ?_
        exact hlibrary (List.mem_append_left _ hlib)
    obtain ⟨m, hm, rfl⟩ := Draft.model_of_hasClass hgather hfailures hclass
    have hmodels : draft.report.models = material.models := by rw [hreport]
    exact declares_of_mem hmodels hw hnodup hm

/-! ## A household in Python -/

theorem ofSchema_pet (ht : g.target = .python) :
    ∃ pet, (Component.ofSchema g (.household "string") (.str "Pet")
      (.map (Schema.single "photo" [(.str "type", .str "string")]))).result = .ok (.model pet)
      ∧ pet.className = "Pet" := by
  have htype : Schema.resolve g (some (.household "string")) (.map [(.str "type", .str "string")])
      = .ok ({ name := "str", default := "None" } : TypeMapping).toType := by
    rw [Schema.resolve, Schema.typeWith_scalar rfl rfl rfl (by decide) (by decide)]
    simp only [Schema.scalarType, Schema.mapping?, ht]
    rfl
  obtain ⟨pet, hpet, -, -⟩ :=
    @Model.ofSchema_single g (.household "string") "Pet" "photo" _ _ _ htype rfl rfl rfl
  refine ⟨pet, Component.ofSchema_model rfl hpet, ?_⟩
  rw [(Model.ofSchema_className hpet).2, ht]
  decide

theorem gather_household (ht : g.target = .python) :
    ∃ material home pet, (Draft.gather g (.household "string")).result = .ok (material, [])
      ∧ material.spec = .household "string" ∧ material.models = [home, pet]
      ∧ material.groups = [] ∧ home.className = "Home" ∧ home.imports = ["Pet", "dataclass"]
      ∧ pet.className = "Pet" := by
  obtain ⟨pet, hpet, hpetclass⟩ := ofSchema_pet ht
  obtain ⟨home, hall, -, hclass, himports, -⟩ := Component.all_household hpet
  have hchecked : (Component.checked g (.household "string")).result
      = .ok [.model home, .model pet, .inlined (.str "Pets")] := by
    simp only [Component.checked, Logged.result_bind, Logged.result_lift, Attempt.bind_eq_ok]
    refine ⟨_, hall, (), ?_, rfl⟩
    rw [Component.checkReferences_eq_ok]
    simp [Component.failedName?]
  have hendpoints : (Endpoint.all g (.household "string")).result = .ok [] := by
    simp only [Endpoint.all, Spec.slots_household]
    rfl
  have hgroups : OperationGroup.ofOperations [] = .ok [] := by
    simp [OperationGroup.ofOperations, Target.sortedSet, Target.distinct]
  apply Exists.intro
  refine ⟨home, pet, ?_, ?_, ?_, ?_, ?_, ?_, hpetclass⟩
  · simp only [Draft.gather, Logged.result_bind, Logged.result_report, Logged.result_lift,
      Attempt.bind_eq_ok, Logged.result_pure, Except.ok.injEq]
    exact ⟨_, hchecked, _, hendpoints, [], rfl, [], hgroups, (), trivial, rfl⟩
  · rfl
  · rfl
  · rfl
  · rw [hclass, ht]
    decide
  · have hlisted : ((Target.python.listType (Target.python.modelType "Pet")).imports
        ++ Target.python.markerImports).filter (· ≠ Target.python.modelName "Home")
          = ["Pet", "dataclass"] := by
      decide
    rw [himports, ht, hlisted]
    exact Target.sortedSet_eq_self (by decide) (by decide)

/-- The destinations of a household in Python. -/
def householdFiles : List String := [
  "pyproject.toml", "openapi_client/__init__.py", "openapi_client/serialization.py",
  "openapi_client/models/__init__.py", "openapi_client/api/__init__.py",
  "openapi_client/api_client.py", "README.md", "openapi_client/models/home.py",
  "openapi_client/models/pet.py"]

theorem settings_household : ∃ settings,
    Settings.ofOptions .python (ofTarget .python []).runOptions = .ok settings
      ∧ settings.generateSupportingFiles = true ∧ settings.generateModels = true
      ∧ (settings.supportingFiles .python).map SupportingFile.path
          ++ ["Home", "Pet"].map (settings.modelDestination .python) = householdFiles := by
  have hbrief : (Settings.ofOptions .python (ofTarget .python []).runOptions).toOption.map
      (fun s => (s.generateSupportingFiles, s.generateModels,
        (s.supportingFiles .python).map SupportingFile.path
          ++ ["Home", "Pet"].map (s.modelDestination .python)))
        = some (true, true, householdFiles) := by
    decide
  obtain ⟨settings, hs, hb⟩ := Attempt.exists_of_toOption_map hbrief
  simp only [Prod.mk.injEq] at hb
  exact ⟨settings, hs, hb⟩

/-- A run over a household, all of whose files are ignored. -/
theorem generate_household : ∃ settings report tasks,
    Settings.ofOptions .python (ofTarget .python []).runOptions = .ok settings
      ∧ settings.generateModels = true
      ∧ ((ofTarget .python []).generate (.household "string") [] (.memory [] ⟨["*"]⟩)).result
          = .ok report
      ∧ report.errors = []
      ∧ (ofTarget .python []).plannedTasks (.household "string") = .ok tasks
      ∧ ∃ task ∈ tasks, "Pet" ∈ task.modelImports := by
  obtain ⟨settings, hs, hfiles, hmodels, hpaths⟩ := settings_household
  obtain ⟨hprepared, hbuilding⟩ :=
    @prepare_of_settings (ofTarget .python []) (.household "string") settings rfl hs
  obtain ⟨material, home, pet, hgather, hspec, hboth, hgroups, hhome, himports, hpet⟩ :=
    @gather_household ((ofTarget .python []).building settings) rfl
  obtain ⟨base, hbase⟩ : ∃ base, material.scope .python settings = .ok base := by
    simp only [Material.scope, hspec]
    exact ⟨_, rfl⟩
  obtain ⟨tasks, htasks⟩ : ∃ tasks, tasks
      = Task.all .python settings (settings.supportingFiles .python) base material := ⟨_, rfl⟩
  have hdestinations : tasks.map Task.destination = householdFiles := by
    rw [htasks, Task.destinations_all, hfiles, hmodels, hboth, hgroups, ← hpaths]
    simp [hhome, hpet]
  have hplan : Task.plan ((ofTarget .python []).building settings) material = .ok tasks := by
    rw [htasks] at hdestinations ⊢
    exact Task.plan_of_nodup rfl hbase (hdestinations ▸ by decide)
  have hignored : ∀ path ∈ householdFiles, (⟨["*"]⟩ : IgnoreRules).ignored path = true := by
    decide +kernel
  obtain ⟨draft, hmake, htexts, herrors⟩ :=
    @Draft.make_of_ignored _ settings _ [] ⟨["*"]⟩ _ _ _ hgather hplan fun task htask =>
      hignored _ (hdestinations ▸ List.mem_map_of_mem htask)
  have hdocument : normalized .python (.household "string") = .household "string" := rfl
  have hdraft : (ofTarget .python []).draft (.household "string") [] (.ok ⟨["*"]⟩)
      = .ok draft := by
    rw [Generator.draft, hprepared, hbuilding]
    show (Draft.make ((ofTarget .python []).building settings) settings
      (normalized .python (.household "string")) [] (.ok ⟨["*"]⟩)).result = .ok draft
    rw [hdocument]
    exact hmake
  refine ⟨settings, _, tasks, hs, hmodels,
    @generate_ok_of_draft _ _ _ [] _ draft hdraft (by rw [htexts]; rfl), herrors, ?_,
    Task.ofModel .python settings base home, ?_, ?_⟩
  · rw [plannedTasks, hprepared, hbuilding]
    show ((Draft.gather ((ofTarget .python []).building settings)
      (normalized .python (.household "string"))).result >>= _) = _
    rw [hdocument, hgather]
    exact hplan
  · rw [htasks, Task.all, hmodels, hboth]
    simp
  · rw [Task.modelImports_ofModel, Target.mem_splitImports_models, himports]
    decide

/-- In Python a home imports the class of a pet from the module of its file. -/
theorem generate_imports_household : ∃ settings report tasks,
    ((ofTarget .python []).generate (.household "string") [] (.memory [] ⟨["*"]⟩)).result
        = .ok report
      ∧ (ofTarget .python []).plannedTasks (.household "string") = .ok tasks
      ∧ (∃ task ∈ tasks, "Pet" ∈ task.modelImports)
      ∧ report.Declares .python settings tasks "Pet" := by
  obtain ⟨settings, report, tasks, hs, hw, hr, he, hplan, task, htask, hin⟩ := generate_household
  obtain ⟨planned, hplanned, hall⟩ := generate_imports (by simp [ofTarget])
    (Spec.namesComponents_household "string") hs hw hr he
  rw [hplan] at hplanned
  cases hplanned
  exact ⟨settings, report, tasks, hr, hplan, ⟨task, htask, hin⟩, hall task htask "Pet" hin⟩

end Generator

end ApiScaffold
