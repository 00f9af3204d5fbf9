import ApiScaffold.Proofs.Run.Coverage
import ApiScaffold.Proofs.Run.Dependence
import ApiScaffold.Proofs.Run.Drafted
import ApiScaffold.Proofs.Run.Imports
import ApiScaffold.Proofs.Target.ClassNames
import ApiScaffold.Proofs.Template.Python

/-!
# Instances from data in Python

The Python client makes instances of classes from data. A method does so for every class that its
file imports and its result has the type of, and only the class of a record has the function for it:
not an enumeration, and not a component without a model. So what a method calls is there exactly if
no result has the type of one of those.

* `Drafted.endsMethods`: the class of a group ends each method with the statement for it.
* `Drafted.endsWithFromDict`: the file of a record ends with the function that makes an instance of
  it.
* `fromDict_agrees_iff`: over all operations of a run, when what is called is there.
* `fromDict_missing_enum`: where colors are an enumeration, the method that reads one calls what is
  not there.
-/

namespace ApiScaffold

open Template.Builtin.Python (Returned EndsMethods EndsWithFromDict)

/-- The statements that the methods of a group end with in Python. -/
def OperationGroup.statements (group : OperationGroup) : List Returned :=
  group.operations.map fun op =>
    .ofType (Target.python.splitImports group.imports).models op.returnType

namespace Draft

/-- A draft has a text for the class of a group. -/
structure HasApi (d : Draft) (s : Settings) (group : OperationGroup) (text : String) : Prop where
  wanted : s.generateApis = true
  reported : group ∈ d.report.groups
  text : (s.apiDestination .python group.className, text) ∈ d.texts

/-- A draft has a text for the class of a model. -/
structure HasModel (d : Draft) (s : Settings) (m : Model) (text : String) : Prop where
  reported : m ∈ d.report.models
  text : (s.modelDestination .python m.className, text) ∈ d.texts

end Draft

/-- A class of a report has the function that makes an instance of it from data. -/
def Report.HasFromDict (r : Report) (cls : String) : Prop :=
  ∃ m ∈ r.models, m.className = cls ∧ m.isEnum = false

/-- A class is that of a component whose model can be built and is a record. -/
def Component.BuildsRecord (g : Generator) (spec : Spec) (cls : String) : Prop :=
  ∃ name schema m, spec.HasComponent name (.map schema) ∧ Schema.isAlias schema = .ok false
    ∧ (Members.has schema "enum" && !Members.has schema "properties") = false
    ∧ Model.ofSchema g spec (.str name) (.map schema) = .ok m ∧ m.className = cls

/-- A model is an enumeration exactly if its schema has allowed values and no properties. -/
theorem Model.isEnum_ofSchema {g : Generator} {spec : Spec} {name : Value} {schema : Members}
    {m : Model} (h : ofSchema g spec name (.map schema) = .ok m) :
    m.isEnum = (Members.has schema "enum" && !Members.has schema "properties") := by
  unfold ofSchema at h
  dsimp only at h
  split at h
  next =>
    split at h
    next henum =>
      obtain ⟨type, hm⟩ := Model.buildEnum_ok h
      rw [hm.assembled]
      exact henum.symm
    next henum =>
      obtain ⟨gathered, built, hm⟩ := Model.buildRecord_ok h
      rw [hm.assembled]
      exact (Bool.eq_false_iff.mpr henum).symm
  next => cases h

namespace Draft

variable {g : Generator} {spec : Spec} {material : Material} {failures : List Failure}

/-- The records among the models of a run are those that components build. -/
theorem exists_record_iff (h : (gather g spec).result = .ok (material, failures)) {cls : String} :
    (∃ m ∈ material.models, m.className = cls ∧ m.isEnum = false)
      ↔ Component.BuildsRecord g spec cls := by
  obtain ⟨components, _, hc, -, -, -, -, hmodels, -⟩ := gather_ok h
  obtain ⟨hall, -⟩ := Component.checked_ok hc
  rw [hmodels]
  constructor
  · rintro ⟨m, hm, rfl, he⟩
    obtain ⟨sorted, name, schema, hsorted, hentry, ha, hok⟩ := Component.exists_of_mem_models hc hm
    obtain ⟨schemas, hschemas, hmem⟩ := Component.entries_ok hsorted
    obtain ⟨text, members, rfl, rfl, -⟩ := Model.ofSchema_ok hok
    exact ⟨text, members, m, ⟨schemas, hschemas, (hmem _).mp hentry⟩, ha,
      (Model.isEnum_ofSchema hok).symm.trans he, hok, rfl⟩
  · rintro ⟨name, schema, m, hcomponent, ha, he, hok, rfl⟩
    obtain ⟨c, hcin, hout⟩ := Component.exists_of_hasComponent hall hcomponent
    cases hout with
    | inlined hi =>
        have halias : Schema.isAlias schema = .ok true := hi
        rw [ha] at halias
        cases halias
    | failed _ hf =>
        rw [hok] at hf
        cases hf
    | model _ hbuilt =>
        rw [hok] at hbuilt
        cases hbuilt
        exact ⟨m, List.mem_filterMap.mpr ⟨_, hcin, rfl⟩, rfl, (Model.isEnum_ofSchema hok).trans he⟩

/-- In Python an operation whose result has the type of a class imports the class. -/
theorem importsClass (ht : g.target = .python)
    (h : (gather g spec).result = .ok (material, failures)) {op : Operation}
    (hop : op ∈ material.operations) {name : String}
    (hr : op.returnType = Target.python.modelName name)
    (hl : Target.python.importTargets.lookup op.returnType = none) :
    op.returnType ∈ op.imports := by
  obtain ⟨_, endpoints, -, he, hd, -⟩ := gather_ok h
  obtain ⟨built, hbuilt, hrenamed⟩ :=
    Attempt.exists_of_forall₂ (Operation.distinguishAll_renamed hd) hop
  obtain ⟨slot, -, hok⟩ := Endpoint.exists_of_mem_operations he hbuilt
  rw [hrenamed.returnType] at hr hl ⊢
  rw [hrenamed.imports]
  exact Operation.ofSlot_importsClass ht hok hr hl

/-- What the operations of a run import is of the library, or a class. -/
theorem class_of_import (h : (gather g spec).result = .ok (material, failures)) {op : Operation}
    (hop : op ∈ material.operations) {cls : String} (hc : cls ∈ op.imports)
    (hl : cls ∉ g.target.libraryImports) : ∃ name, cls = g.target.modelName name := by
  obtain ⟨_, endpoints, -, he, hd, -⟩ := gather_ok h
  obtain ⟨built, hbuilt, hrenamed⟩ :=
    Attempt.exists_of_forall₂ (Operation.distinguishAll_renamed hd) hop
  obtain ⟨slot, -, hok⟩ := Endpoint.exists_of_mem_operations he hbuilt
  rw [hrenamed.imports] at hc
  obtain ⟨members, _, _, _, _, _, _, hoperation, -⟩ := Operation.ofSlot_ok hok
  rw [hoperation] at hok
  obtain ⟨item, -, himports⟩ := Operation.ofSlot_imports hok
  obtain ⟨v, type, -, htype, hin⟩ := himports cls hc
  rcases Schema.resolve_imports htype cls hin with hlib | ⟨reference, -, hclass⟩
  · exact absurd hlib hl
  · exact ⟨_, hclass⟩

end Draft

namespace Generator

variable {g : Generator} {spec : Spec} {rules : IgnoreRules} {settings : Settings} {draft : Draft}

variable {material : Material} {base : Template.Scope}

/-- The class of a group ends each method with the statement for it. -/
theorem Drafted.endsMethods (h : Drafted g spec rules settings draft material base)
    (ht : g.target = .python) (hi : settings.interfaceOnly = false) {group : OperationGroup}
    {text : String} (hg : draft.HasApi settings group text) :
    EndsMethods text group.statements := by
  have htask : Task.ofGroup g.target settings base group
      ∈ Task.all g.target settings (settings.supportingFiles g.target) base material := by
    rw [Task.all, if_pos hg.wanted]
    exact List.mem_append_right _ (List.mem_map_of_mem (h.groups ▸ hg.reported))
  have hdestination : (Task.ofGroup g.target settings base group).destination
      = settings.apiDestination .python group.className := by
    rw [Task.ofGroup_destination, ht]
  have hrender := h.text_of_task htask (hdestination ▸ hg.text)
  rw [ht] at hrender
  obtain ⟨embed, after, hrun⟩ := Template.Library.render_ok
    (Template.Builtin.Python.load_apiFile _) hrender
  refine Template.Builtin.Python.run_apiFile ?_ rfl rfl hrun
  have hsettings : Template.find (Task.ofGroup .python settings base group).scope "settings"
      = settings.datum := by
    have hbase := lookup_settings h.scope
    have hlookup : (Task.ofGroup .python settings base group).scope.lookup "settings"
        = base.lookup "settings" := rfl
    rw [Template.find, hlookup, hbase]
    rfl
  show (do (← (Template.Expr.name "settings").eval _).field "interface_only") = _
  rw [Template.Expr.eval, hsettings, ← hi]
  rfl

/-- The file of a record ends with the function that makes an instance of its class. -/
theorem Drafted.endsWithFromDict (h : Drafted g spec rules settings draft material base)
    (ht : g.target = .python) (hw : settings.generateModels = true) {m : Model} {text : String}
    (hm : draft.HasModel settings m text) (he : m.isEnum = false) :
    EndsWithFromDict text m.className := by
  have hdestination : (Task.ofModel g.target settings base m).destination
      = settings.modelDestination .python m.className := by
    rw [Task.ofModel_destination, ht]
  have hrender := h.text_of_task (Task.ofModel_mem_all hw (h.models ▸ hm.reported))
    (hdestination ▸ hm.text)
  rw [ht] at hrender
  obtain ⟨embed, after, hrun⟩ := Template.Library.render_ok
    (Template.Builtin.Python.load_modelFile _) hrender
  exact Template.Builtin.Python.run_modelFile rfl he hrun

/-- A method makes an instance of a class exactly if its result has the type of a class that is no
name of the library. -/
theorem Drafted.model_mem_statements (h : Drafted g spec rules settings draft material base)
    (ht : g.target = .python) {group : OperationGroup} (hg : group ∈ draft.report.groups)
    {cls : String} : .model cls ∈ group.statements ↔ ∃ op ∈ group.operations, ∃ name,
      op.returnType = cls ∧ cls = Target.python.modelName name
        ∧ Target.python.importTargets.lookup cls = none := by
  obtain ⟨failures, hgather⟩ := h.gathered
  obtain ⟨_, _, -, -, -, hgroups, -⟩ := Draft.gather_ok hgather
  obtain ⟨-, -, -, -, -, hunion⟩ := OperationGroup.ofOperations_partition hgroups
  have hgroup : group ∈ material.groups := h.groups ▸ hg
  obtain ⟨-, -, hsub, -⟩ := OperationGroup.ofOperations_ok hgroups group hgroup
  rw [OperationGroup.statements, List.mem_map]
  constructor
  · rintro ⟨op, hop, hreturned⟩
    obtain ⟨rfl, hin⟩ := Returned.ofType_eq_model.mp hreturned
    obtain ⟨himport, hlookup⟩ := Target.mem_splitImports_models.mp hin
    obtain ⟨other, ho, himports⟩ := (hunion group hgroup _).mp himport
    -- names of the library have targets of their own, so this one is a class
    have hlibrary : op.returnType ∉ (g.building settings).target.libraryImports := by
      intro hlib
      have hsome := Target.lookup_of_builtin (t := .python) (by simp) op.returnType
        (List.mem_append_left _ (ht ▸ hlib))
      rw [hlookup] at hsome
      cases hsome
    obtain ⟨name, hname⟩ := Draft.class_of_import hgather (hsub ho) himports hlibrary
    exact ⟨op, hop, name, rfl, hname.trans (by rw [show (g.building settings).target = _ from ht]),
      hlookup⟩
  · rintro ⟨op, hop, name, rfl, hname, hlookup⟩
    refine ⟨op, hop, Returned.ofType_eq_model.mpr ⟨rfl, ?_⟩⟩
    have himport := Draft.importsClass (show (g.building settings).target = .python from ht)
      hgather (hsub hop) hname hlookup
    exact Target.mem_splitImports_models.mpr
      ⟨(hunion group hgroup _).mpr ⟨op, hop, himport⟩, hlookup⟩

/-- In the Python client each method ends with its statement and each record with its function, and
the classes that methods make instances of have the function exactly if every class that a result
has the type of is that of a component that builds a record. -/
theorem fromDict_agrees_iff (ht : g.target = .python)
    (hs : Settings.ofOptions .python g.runOptions = .ok settings)
    (hw : settings.generateModels = true) (hi : settings.interfaceOnly = false)
    (h : g.draft spec [] (.ok rules) = .ok draft) :
    (∀ group text, draft.HasApi settings group text → EndsMethods text group.statements)
    ∧ (∀ m text, draft.HasModel settings m text → m.isEnum = false →
        EndsWithFromDict text m.className)
    ∧ ((∀ group text, draft.HasApi settings group text → ∀ cls, .model cls ∈ group.statements →
          draft.report.HasFromDict cls)
      ↔ ∀ group text, draft.HasApi settings group text → ∀ op ∈ group.operations, ∀ name,
          op.returnType = Target.python.modelName name →
          Target.python.importTargets.lookup op.returnType = none →
            Component.BuildsRecord (g.building settings) (normalized .python spec)
              op.returnType) := by
  obtain ⟨material, base, hd⟩ := drafted_of_draft (ht ▸ hs) h
  obtain ⟨failures, hgather⟩ := hd.gathered
  have hrecord : ∀ cls, draft.report.HasFromDict cls ↔
      Component.BuildsRecord (g.building settings) (normalized .python spec) cls := by
    intro cls
    rw [Report.HasFromDict, hd.models, Draft.exists_record_iff hgather, ht]
  refine ⟨fun group text hg => hd.endsMethods ht hi hg,
    fun m text hm he => hd.endsWithFromDict ht hw hm he, ?_, ?_⟩
  · intro hall group text hg op hop name hname hlookup
    refine (hrecord _).mp (hall group text hg op.returnType ?_)
    exact (hd.model_mem_statements ht hg.reported).mpr ⟨op, hop, name, rfl, hname, hlookup⟩
  · intro hall group text hg cls hcls
    obtain ⟨op, hop, name, rfl, hname, hlookup⟩ :=
      (hd.model_mem_statements ht hg.reported).mp hcls
    exact (hrecord _).mpr (hall group text hg op hop name hname hlookup)

end Generator

/-! ## The color of something -/

/-- The operation that reads a color. -/
def Spec.colorOperation : Value :=
  .map [(.str "responses", .map [(.str "200", .map [(.str "content",
    .map [(.str "application/json", .map [(.str "schema", .map (Schema.link "Color"))])])])])]

/-- A document with an operation whose result is a color, which is a component with a schema. -/
def Spec.colored (schema : Members) : Spec :=
  ofItem "/color" [(.str "get", colorOperation)] [(.str "Color", .map schema)]

namespace Generator

/-- The options of a run without supporting files. -/
def classesOnly : Options := [("generateSupportingFiles", .bool false)]

def classSettings : Settings :=
  (Settings.ofOptions .python (ofTarget .python classesOnly).runOptions).toOption.get (by decide)

theorem ofOptions_classesOnly :
    Settings.ofOptions .python (ofTarget .python classesOnly).runOptions = .ok classSettings :=
  Attempt.eq_ok_get _

/-- The classes of a draft, those of models with whether they are enumerations, and what it has a
text for. -/
def classes (d : Draft) :
    List (String × Bool) × List (String × List Returned) × List String :=
  (d.report.models.map fun m => (m.className, m.isEnum),
    d.report.groups.map fun group => (group.className, group.statements), d.texts.map Prod.fst)

theorem draft_colored {schema : Members} {isEnum : Bool}
    (hmake : (Draft.make ((ofTarget .python classesOnly).building classSettings) classSettings
      (.colored schema) [] (.ok ⟨[]⟩)).result.toOption.map classes
        = some ([("Color", isEnum)], [("ColorApi", [.model "Color"])],
          ["openapi_client/models/color.py", "openapi_client/api/color_api.py"])) :
    ∃ draft m group text code,
      (ofTarget .python classesOnly).draft (.colored schema) [] (.ok ⟨[]⟩) = .ok draft
        ∧ draft.report.models = [m] ∧ m.className = "Color" ∧ m.isEnum = isEnum
        ∧ draft.HasApi classSettings group text ∧ draft.HasModel classSettings m code
        ∧ draft.report.groups = [group] ∧ group.statements = [.model "Color"] := by
  obtain ⟨draft, hdraft, hclasses⟩ := Attempt.exists_of_toOption_map hmake
  simp only [classes, Prod.mk.injEq] at hclasses
  obtain ⟨hmodels, hgroups, htexts⟩ := hclasses
  obtain ⟨m, hm, hmodel⟩ := List.map_eq_singleton_iff.mp hmodels
  obtain ⟨group, hgroup, hstatements⟩ := List.map_eq_singleton_iff.mp hgroups
  simp only [Prod.mk.injEq] at hmodel hstatements
  have htext : ∀ path ∈ ["openapi_client/models/color.py", "openapi_client/api/color_api.py"],
      ∃ text, (path, text) ∈ draft.texts := by
    intro path hpath
    rw [← htexts] at hpath
    obtain ⟨⟨_, text⟩, hin, rfl⟩ := List.mem_map.mp hpath
    exact ⟨text, hin⟩
  obtain ⟨code, hcode⟩ := htext "openapi_client/models/color.py" (by simp)
  obtain ⟨text, hin⟩ := htext "openapi_client/api/color_api.py" (by simp)
  have hmodelPath : classSettings.modelDestination .python "Color"
      = "openapi_client/models/color.py" := by decide +kernel
  have hapiPath : classSettings.apiDestination .python "ColorApi"
      = "openapi_client/api/color_api.py" := by decide +kernel
  obtain ⟨hprepared, hbuilding⟩ :=
    @prepare_of_settings _ (.colored schema) _ rfl ofOptions_classesOnly
  refine ⟨draft, m, group, text, code, ?_, hm, hmodel.1, hmodel.2, ⟨by decide, ?_, ?_⟩,
    ⟨?_, ?_⟩, hgroup, hstatements.2⟩
  · rw [Generator.draft, hprepared, hbuilding]
    exact hdraft
  · rw [hgroup]
    exact List.mem_singleton_self _
  · rw [hstatements.1, hapiPath]
    exact hin
  · rw [hm]
    exact List.mem_singleton_self _
  · rw [hmodel.1, hmodelPath]
    exact hcode

/-- Colors that are records. -/
def recordSchema : Members := [(.str "type", .str "object")]

/-- Colors that are one of several texts. -/
def enumSchema : Members := [(.str "type", .str "string"), (.str "enum", .list [.str "red"])]

/-- Where colors are records, the method that reads one makes an instance of a class that has the
function for it. -/
theorem fromDict_agrees_record : ∃ draft group text m code,
    (ofTarget .python classesOnly).draft (.colored recordSchema) [] (.ok ⟨[]⟩) = .ok draft
      ∧ draft.HasApi classSettings group text ∧ EndsMethods text [.model "Color"]
      ∧ draft.HasModel classSettings m code ∧ EndsWithFromDict code "Color"
      ∧ draft.report.HasFromDict "Color"
      ∧ ∀ op ∈ group.operations, op.returnType = "Color" →
          Component.BuildsRecord ((ofTarget .python classesOnly).building classSettings)
            (normalized .python (.colored recordSchema)) "Color" := by
  obtain ⟨draft, m, group, text, code, hdraft, hmodels, hclass, henum, hg, hm, hgroups,
      hstatements⟩ :=
    @draft_colored recordSchema false (by decide +kernel)
  obtain ⟨hends, hfunctions, hagrees⟩ :=
    fromDict_agrees_iff rfl ofOptions_classesOnly (by decide) (by decide) hdraft
  have hrecord : draft.report.HasFromDict "Color" :=
    ⟨m, hmodels ▸ List.mem_singleton_self _, hclass, henum⟩
  have hall : ∀ other text, draft.HasApi classSettings other text → ∀ cls,
      .model cls ∈ other.statements → draft.report.HasFromDict cls := by
    intro other _ ho cls hcls
    have hother : other = group := List.mem_singleton.mp (hgroups ▸ ho.reported)
    rw [hother, hstatements, List.mem_singleton, Returned.model.injEq] at hcls
    exact hcls ▸ hrecord
  refine ⟨draft, group, text, m, code, hdraft, hg, hstatements ▸ hends group text hg, hm,
    hclass ▸ hfunctions m code hm henum, hrecord, fun op hop hr => ?_⟩
  have hname : op.returnType = Target.python.modelName "Color" := hr.trans (by decide)
  exact hr ▸ hagrees.mp hall group text hg op hop "Color" hname (hr ▸ by decide)

/-- Where colors are an enumeration, the method that reads one makes an instance of a class that has
no function for it. -/
theorem fromDict_missing_enum : ∃ draft group text m,
    Spec.ofValue (Spec.colored enumSchema).document (Spec.colored enumSchema).source
        = .ok (.colored enumSchema)
      ∧ (ofTarget .python classesOnly).draft (.colored enumSchema) [] (.ok ⟨[]⟩) = .ok draft
      ∧ draft.HasApi classSettings group text ∧ EndsMethods text [.model "Color"]
      ∧ draft.report.models = [m] ∧ m.className = "Color" ∧ m.isEnum = true
      ∧ ¬draft.report.HasFromDict "Color" := by
  obtain ⟨draft, m, group, text, _, hdraft, hmodels, hclass, henum, hg, -, -,
      hstatements⟩ :=
    @draft_colored enumSchema true (by decide +kernel)
  obtain ⟨material, base, hd⟩ := drafted_of_draft ofOptions_classesOnly hdraft
  have hends := hd.endsMethods rfl (by decide) hg
  rw [hstatements] at hends
  refine ⟨draft, group, text, m, Spec.ofValue_document (by decide +kernel), hdraft, hg, hends,
    hmodels, hclass, henum, ?_⟩
  rintro ⟨other, hin, -, hrecord⟩
  rw [hmodels, List.mem_singleton] at hin
  rw [hin, henum] at hrecord
  cases hrecord

end Generator

end ApiScaffold
