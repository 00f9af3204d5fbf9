import ApiScaffold.Proofs.Naming.Constants
import ApiScaffold.Proofs.Run.FromDict
import ApiScaffold.Proofs.Template.Enumeration

/-!
# The constants of a run

The file of every enumeration is written, whatever its values, with a legal constant for each of
them. So the constants are distinct exactly if no two values have the same words.

* `render_enumeration`: the template for an enumeration never fails, and declares the constants of
  the model.
* `Drafted.exists_enumeration`: so the file is in the draft, unless the options or the rules leave
  it out.
* `constantsDistinct_iff`: in every run, when the constants of an enumeration are distinct; two
  values of the same words are one constant, and nothing is rejected (`constants_meet`).
-/

namespace ApiScaffold

open Naming
open Template (EnumStyle)

/-- How a target writes enumerations. -/
def Target.enumStyle (t : Target) : EnumStyle :=
  if t.templateFolders.contains "java" then .java else .python

/-- The words that the constant of a value is made of. -/
def Value.constantWords (v : Value) : List String := Naming.constantWords v.display

theorem Value.constant_eq_iff {a b : Value} :
    a.constant = b.constant ↔ a.constantWords = b.constantWords :=
  Naming.constant_eq_iff

namespace Model

/-- A model has a literal for each of its values. -/
theorem length_enumLiterals {g : Generator} {spec : Spec} {name schema : Value} {m : Model}
    (h : ofSchema g spec name schema = .ok m) : m.allowedValues.length = m.enumLiterals.length := by
  obtain ⟨_, members, rfl, rfl, -⟩ := ofSchema_ok h
  unfold ofSchema at h
  dsimp only at h
  split at h
  · obtain ⟨type, hm⟩ := buildEnum_ok h
    exact (Attempt.forall₂_of_mapM? hm.written).length_eq
  · obtain ⟨gathered, built, hm⟩ := buildRecord_ok h
    rw [hm.assembled]
    rfl

end Model

namespace Template.Builtin

/-- Without templates of its own a run uses the template of models for its language. -/
theorem load_modelTemplate {t : Target} (ht : t ∈ [.jaxrsSpec, .spring, .python])
    (destination : String) : (Library.ofTarget t []).load t.modelTemplate destination
      = .ok (if t.templateFolders.contains "java" then Java.modelFile else Python.modelFile) := by
  simp only [List.mem_cons, List.not_mem_nil, or_false] at ht
  rcases ht with rfl | rfl | rfl
  · exact Library.load_builtin ⟨"java", "model.java.j2", Java.modelFile⟩ (by decide +kernel) rfl _
  · exact Library.load_builtin ⟨"java", "model.java.j2", Java.modelFile⟩ (by decide +kernel) rfl _
  · exact Python.load_modelFile _

end Template.Builtin

namespace Task

open Template (Library)

variable {t : Target} {s : Settings} {base : Template.Scope} {material : Material} {m : Model}

/-- The file of an enumeration declares its constants, unless data that are no use end the run. -/
theorem render_enumeration {task : Task} (ht : t ∈ [.jaxrsSpec, .spring, .python])
    (hbase : material.scope t s = .ok base) (he : m.isEnum = true)
    (hlen : m.allowedValues.length = m.enumLiterals.length) (htask : task = ofModel t s base m) :
    (∃ text, (Library.ofTarget t []).render task.template task.scope task.destination = .ok text
        ∧ t.enumStyle.Declares m text)
      ∨ (Library.ofTarget t []).render task.template task.scope task.destination
        = .error .unsuitable := by
  have htemplate : task.template = t.modelTemplate := by rw [htask]; rfl
  have hm : Template.find task.scope "model" = m.datum := by rw [htask]; rfl
  have hi : Template.find task.scope "library_imports"
      = .list ((t.splitImports m.imports).library.map .str) := by rw [htask]; rfl
  have hs : Template.find task.scope "settings" = s.datum := by
    have hlookup : task.scope.lookup "settings" = base.lookup "settings" := by rw [htask]; rfl
    rw [Template.find, hlookup, Generator.lookup_settings hbase]
    rfl
  rw [htemplate]
  refine Library.render_of_tells (Template.Builtin.load_modelTemplate ht _) fun embed => ?_
  unfold Target.enumStyle
  split
  · exact Template.Builtin.Java.tells_modelFile hs hi hm he hlen
  · exact Template.Builtin.Python.tells_modelFile hm he hlen

end Task

namespace Draft

/-- A model of a run has a literal for each of its values. -/
theorem length_enumLiterals {g : Generator} {spec : Spec} {material : Material}
    {failures : List Failure} (h : (gather g spec).result = .ok (material, failures)) {m : Model}
    (hm : m ∈ material.models) : m.allowedValues.length = m.enumLiterals.length := by
  obtain ⟨_, _, hok⟩ := exists_ofSchema h hm
  exact Model.length_enumLiterals hok

end Draft

namespace Generator

variable {g : Generator} {spec : Spec} {rules : IgnoreRules} {settings : Settings} {draft : Draft}
  {m : Model}

/-- The file of an enumeration is written, unless the options or the rules leave it out. -/
theorem Drafted.exists_enumeration {material : Material} {base : Template.Scope}
    (hd : Drafted g spec rules settings draft material base)
    (ht : g.target ∈ [.jaxrsSpec, .spring, .python]) (hm : m ∈ material.models)
    (he : m.isEnum = true) (hw : settings.generateModels = true)
    (hkept : rules.ignored (settings.modelDestination g.target m.className) = false) :
    ∃ text, (settings.modelDestination g.target m.className, text) ∈ draft.texts
      ∧ g.target.enumStyle.Declares m text := by
  obtain ⟨failures, hgather⟩ := hd.gathered
  have hlen := Draft.length_enumLiterals hgather hm
  rw [← @Task.ofModel_destination g.target settings base m] at hkept ⊢
  exact hd.exists_text (Task.ofModel_mem_all hw hm) hkept (Task.render_enumeration ht hd.scope he hlen rfl)

/-- In every run the file of an enumeration is written with a legal constant for each value, unless
the options or the rules leave it out; and the constants are distinct exactly if no two values have
the same words. -/
theorem constantsDistinct_iff (ht : g.target ∈ [.jaxrsSpec, .spring, .python])
    (hs : Settings.ofOptions g.target g.runOptions = .ok settings)
    (h : g.draft spec [] (.ok rules) = .ok draft) (hm : m ∈ draft.report.models)
    (he : m.isEnum = true) :
    (settings.generateModels = true →
      rules.ignored (settings.modelDestination g.target m.className) = false →
        ∃ text, (settings.modelDestination g.target m.className, text) ∈ draft.texts
          ∧ g.target.enumStyle.Declares m text)
    ∧ m.constants.map Prod.fst = m.allowedValues.map Value.constant
    ∧ (∀ v ∈ m.allowedValues, IsConstant v.constant)
    ∧ ((m.allowedValues.map Value.constant).Nodup
      ↔ (m.allowedValues.map Value.constantWords).Nodup) := by
  obtain ⟨material, base, hd⟩ := drafted_of_draft hs h
  obtain ⟨failures, hgather⟩ := hd.gathered
  have hin : m ∈ material.models := hd.models ▸ hm
  refine ⟨hd.exists_enumeration ht hin he,
    Model.map_fst_constants (Draft.length_enumLiterals hgather hin),
    fun v _ => isConstant_constant _, ?_⟩
  unfold List.Nodup
  rw [List.pairwise_map, List.pairwise_map]
  exact List.Pairwise.iff fun _ _ => not_congr Value.constant_eq_iff

/-- The schema of a color that is one of certain values. -/
def oneOfValues (values : List Value) : Members :=
  [(.str "type", .str "string"), (.str "enum", .list values)]

/-- The models of a draft with their constants, the texts of their values, and whether all of them
are enumerations and there is no fault. -/
def enumerations (d : Draft) :
    List (String × List (String × String)) × List (List String) × Bool :=
  (d.report.models.map fun m => (m.className, m.constants),
    d.report.models.map fun m => m.allowedValues.map Value.display,
    d.report.models.all Model.isEnum && d.report.errors.isEmpty)

theorem draft_oneOfValues {values : List Value} {texts : List String}
    {constants : List (String × String)}
    (hmake : (Draft.make ((ofTarget .python classesOnly).building classSettings) classSettings
      (.colored (oneOfValues values)) [] (.ok ⟨[]⟩)).result.toOption.map enumerations
        = some ([("Color", constants)], [texts], true)) :
    ∃ draft m, (ofTarget .python classesOnly).draft (.colored (oneOfValues values)) [] (.ok ⟨[]⟩)
        = .ok draft
      ∧ draft.report.models = [m] ∧ m.className = "Color" ∧ m.constants = constants
      ∧ m.allowedValues.map Value.display = texts ∧ m.isEnum = true ∧ draft.report.errors = [] := by
  obtain ⟨draft, hdraft, hbrief⟩ := Attempt.exists_of_toOption_map hmake
  simp only [enumerations, Prod.mk.injEq, Bool.and_eq_true] at hbrief
  obtain ⟨hmodels, htexts, hall, herrors⟩ := hbrief
  obtain ⟨m, hm, hmodel⟩ := List.map_eq_singleton_iff.mp hmodels
  rw [hm, List.map_singleton, List.singleton_inj] at htexts
  rw [hm, List.all_cons, List.all_nil, Bool.and_true] at hall
  obtain ⟨hclass, hconstants⟩ := Prod.mk.inj hmodel
  obtain ⟨hprepared, hbuilding⟩ :=
    @prepare_of_settings _ (.colored (oneOfValues values)) _ rfl ofOptions_classesOnly
  refine ⟨draft, m, ?_, hm, hclass, hconstants, htexts, hall, List.isEmpty_iff.mp herrors⟩
  rw [Generator.draft, hprepared, hbuilding]
  exact hdraft

theorem modelDestination_color :
    classSettings.modelDestination .python "Color" = "openapi_client/models/color.py" := by
  decide +kernel

/-- Two words, no word and a negative number are three constants. -/
theorem constantsDistinct_iff_three : ∃ draft m text,
    (ofTarget .python classesOnly).draft
        (.colored (oneOfValues [.str "light-blue", .str "", .int (-1)])) [] (.ok ⟨[]⟩) = .ok draft
      ∧ m ∈ draft.report.models ∧ m.isEnum = true
      ∧ m.constants = [("LIGHT_BLUE", "\"light-blue\""), ("EMPTY", "\"\""), ("_1", "-1")]
      ∧ ("openapi_client/models/color.py", text) ∈ draft.texts ∧ EnumStyle.python.Declares m text
      ∧ (∀ v ∈ m.allowedValues, IsConstant v.constant)
      ∧ (m.allowedValues.map Value.constantWords).Nodup := by
  obtain ⟨draft, m, hdraft, hmodels, hclass, hconstants, -, henum, -⟩ :=
    @draft_oneOfValues [.str "light-blue", .str "", .int (-1)] ["light-blue", "", "-1"]
      [("LIGHT_BLUE", "\"light-blue\""), ("EMPTY", "\"\""), ("_1", "-1")] (by decide +kernel)
  have hin : m ∈ draft.report.models := hmodels ▸ List.mem_singleton_self m
  obtain ⟨hwritten, hnames, hlegal, hdistinct⟩ :=
    constantsDistinct_iff (by simp [ofTarget]) ofOptions_classesOnly hdraft hin henum
  obtain ⟨text, htext, hdeclares⟩ := hwritten (by decide) rfl
  have hpath : classSettings.modelDestination .python m.className
      = "openapi_client/models/color.py" := hclass ▸ modelDestination_color
  refine ⟨draft, m, text, hdraft, hin, henum, hconstants, hpath ▸ htext, hdeclares, hlegal,
    hdistinct.mp ?_⟩
  rw [← hnames, hconstants]
  decide

/-- Two values of the same words have one constant, and nothing is rejected. -/
theorem constants_meet : ∃ draft m text,
    (ofTarget .python classesOnly).draft
        (.colored (oneOfValues [.str "light-blue", .str "light_blue"])) [] (.ok ⟨[]⟩) = .ok draft
      ∧ draft.report.models = [m] ∧ draft.report.errors = [] ∧ m.isEnum = true
      ∧ (m.allowedValues.map Value.display).Nodup
      ∧ m.constants = [("LIGHT_BLUE", "\"light-blue\""), ("LIGHT_BLUE", "\"light_blue\"")]
      ∧ ¬(m.constants.map Prod.fst).Nodup
      ∧ ("openapi_client/models/color.py", text) ∈ draft.texts
      ∧ EnumStyle.python.Declares m text := by
  obtain ⟨draft, m, hdraft, hmodels, hclass, hconstants, htexts, henum, herrors⟩ :=
    @draft_oneOfValues [.str "light-blue", .str "light_blue"] ["light-blue", "light_blue"]
      [("LIGHT_BLUE", "\"light-blue\""), ("LIGHT_BLUE", "\"light_blue\"")] (by decide +kernel)
  have hin : m ∈ draft.report.models := hmodels ▸ List.mem_singleton_self m
  obtain ⟨material, base, hd⟩ := drafted_of_draft ofOptions_classesOnly hdraft
  obtain ⟨text, htext, hdeclares⟩ :=
    hd.exists_enumeration (by simp [ofTarget]) (hd.models ▸ hin) henum (by decide) rfl
  have hpath : classSettings.modelDestination .python m.className
      = "openapi_client/models/color.py" := hclass ▸ modelDestination_color
  refine ⟨draft, m, text, hdraft, hmodels, herrors, henum, ?_, hconstants, ?_, hpath ▸ htext,
    hdeclares⟩
  · rw [htexts]
    decide
  · rw [hconstants]
    decide

end Generator

end ApiScaffold
