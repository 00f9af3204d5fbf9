import ApiScaffold.Proofs.Operation.Group
import ApiScaffold.Proofs.Run.Components
import ApiScaffold.Proofs.Run.Coverage
import ApiScaffold.Proofs.Run.Imports
import ApiScaffold.Proofs.Target.FileNames

/-!
# Where files land

The options of a run fix a folder for models, a folder for the classes of groups and the
destinations of the supporting files (`Settings.layout`). A document only chooses names for files in
those folders, and none of its texts can be a step out of them, since the classes of models and
groups are words (`isWord_className`).

`plannedTasks_hold` says this of all tasks that a run plans, for every document and all options. The
case at the end is a document whose component and tag are written as paths out of every folder.
-/

namespace ApiScaffold

/-- Where a run puts its files: two folders, and the destinations that are the same in every run. -/
structure Layout where
  models : String
  apis : String
  supporting : List String
  models_trimmed : Text.IsTrimmed models
  apis_trimmed : Text.IsTrimmed apis

def Settings.layout (s : Settings) (t : Target) : Layout where
  models := s.folder t.modelFolder
  apis := s.folder t.apiFolder
  supporting :=
    if s.generateSupportingFiles then (s.supportingFiles t).map SupportingFile.path else []
  models_trimmed := Text.isTrimmed_trimSlashes _
  apis_trimmed := Text.isTrimmed_trimSlashes _

/-- Whether a file is rendered once in a run, whatever the document has. -/
def Purpose.isSupportingFile : Purpose → Bool
  | supportingFile _ => true
  | _ => false

/-- A task for a model or a group has its file in the folder for it. -/
def Task.Lands (t : Target) (layout : Layout) (task : Task) : Prop :=
  match task.purpose with
  | .supportingFile _ => True
  | .model _ => ∃ file, t.NamesFile file ∧ task.destination = inFolder layout.models file
  | .api _ => ∃ file, t.NamesFile file ∧ task.destination = inFolder layout.apis file

/-- Tasks keep to a layout: models and groups have their files in the folders for them, and the
other files are those of the layout. -/
structure Layout.Holds (layout : Layout) (t : Target) (tasks : List Task) : Prop where
  lands : ∀ task ∈ tasks, task.Lands t layout
  supporting : (tasks.filter fun task => task.purpose.isSupportingFile).map Task.destination
    = layout.supporting

namespace Draft

variable {g : Generator} {spec : Spec} {material : Material} {failures : List Failure}

/-- The classes of models and groups are words. -/
theorem isWord_className (h : (gather g spec).result = .ok (material, failures)) :
    (∀ m ∈ material.models, Naming.IsWord m.className)
      ∧ ∀ group ∈ material.groups, Naming.IsWord group.className := by
  obtain ⟨_, _, -, -, -, hgroups, -, -, -⟩ := gather_ok h
  constructor
  · intro m hm
    obtain ⟨_, _, hok⟩ := exists_ofSchema h hm
    obtain ⟨name, _, rfl, -, -⟩ := Model.ofSchema_ok hok
    rw [(Model.ofSchema_className hok).2]
    exact Target.isWord_modelName g.target name
  · intro group hg
    rw [(OperationGroup.ofOperations_ok hgroups group hg).2.1]
    exact Target.isWord_apiName group.name

end Draft

namespace Task

variable {t : Target} {s : Settings} {base : Template.Scope} {m : Material}

/-- The tasks of a material whose classes are words keep to the layout of the settings. -/
theorem holds_all (ht : t ∈ [Target.jaxrsSpec, .spring, .python])
    (hmodels : ∀ model ∈ m.models, Naming.IsWord model.className)
    (hgroups : ∀ group ∈ m.groups, Naming.IsWord group.className) :
    (s.layout t).Holds t (all t s (s.supportingFiles t) base m) where
  lands := by
    intro task htask
    simp only [all, List.mem_append, List.mem_ite_nil_right, List.mem_map] at htask
    rcases htask with (⟨-, file, -, rfl⟩ | ⟨-, model, hm, rfl⟩) | ⟨-, group, hg, rfl⟩
    · trivial
    · exact ⟨t.fileName model.className, Target.namesFile_fileName ht (hmodels model hm),
        ofModel_destination model⟩
    · exact ⟨t.fileName group.className, Target.namesFile_fileName ht (hgroups group hg),
        ofGroup_destination group⟩
  supporting := by
    simp only [all, List.filter_append, apply_ite (List.filter _),
      apply_ite (List.map destination), List.filter_map, List.map_map, List.filter_nil,
      List.map_nil, ofSupportingFile, ofModel, ofGroup, Function.comp_def,
      Purpose.isSupportingFile, List.filter_true, List.filter_false, ite_self, List.append_nil]
    rfl

end Task

namespace Generator

/-- What a run plans keeps to a layout that its options alone decide. -/
theorem plannedTasks_hold {t : Target} {options : Options} {settings : Settings}
    (ht : t ∈ [Target.jaxrsSpec, .spring, .python])
    (hs : (ofTarget t options).processOptions.result = .ok settings) :
    ∃ layout : Layout, ∀ g : Generator, g.target = t → g.options = options →
      ∀ spec tasks, g.plannedTasks spec = .ok tasks → layout.Holds t tasks := by
  refine ⟨settings.layout t, ?_⟩
  rintro g rfl rfl spec tasks h
  simp only [plannedTasks, Attempt.bind_eq_ok] at h
  obtain ⟨⟨used, document⟩, hp, ⟨material, failures⟩, hgather, hplan⟩ := h
  obtain ⟨hused, -, hg⟩ := prepare_ok hp
  have hsame : settings = used := by
    have hown : Settings.ofOptions g.target g.runOptions = .ok settings :=
      (processOptions_ok hs).1
    rw [hown] at hused
    exact Except.ok.inj hused
  subst hsame
  rw [hg] at hgather hplan
  obtain ⟨s, base, hsettings, -, rfl, -⟩ := Task.plan_ok hplan
  cases hsettings
  obtain ⟨hmodels, hgroups⟩ := Draft.isWord_className hgather
  exact Task.holds_all ht hmodels hgroups

end Generator

/-! ## Names that climb -/

/-- A document whose component and tag are written as paths out of every folder. -/
def Spec.climbing : Spec :=
  ofItem "/pets" [(.str "get", .map [(.str "tags", .list [.str "../../outside"])])]
    [(.str "../../../etc/passwd", .map [(.str "type", .str "object")])]

namespace Generator

theorem plannedTasks_climbing : ∃ tasks,
    (ofTarget .python []).plannedTasks .climbing = .ok tasks
      ∧ (tasks.drop 7).map Task.destination
        = ["openapi_client/models/etc_passwd.py", "openapi_client/api/outside_api.py"] := by
  have hplan : (((ofTarget .python []).plannedTasks .climbing).toOption.map fun tasks =>
      (tasks.drop 7).map Task.destination)
        = some ["openapi_client/models/etc_passwd.py", "openapi_client/api/outside_api.py"] := by
    obtain ⟨hprepared, hbuilding⟩ :=
      @prepare_of_settings (ofTarget .python []) .climbing _ rfl ofOptions_python
    simp only [plannedTasks, hprepared, hbuilding]
    decide +kernel
  exact Attempt.exists_of_toOption_map hplan

/-- In Python the files of names that climb are in the folders of the package. -/
theorem plannedTasks_hold_climbing : ∃ (layout : Layout) (tasks : List Task),
    (ofTarget .python []).processOptions.result = .ok pythonSettings
      ∧ (ofTarget .python []).plannedTasks .climbing = .ok tasks
      ∧ layout.Holds .python tasks
      ∧ (tasks.drop 7).map Task.destination
        = ["openapi_client/models/etc_passwd.py", "openapi_client/api/outside_api.py"] := by
  have hs : (ofTarget .python []).processOptions.result = .ok pythonSettings := by rfl
  obtain ⟨tasks, hplan, hdestinations⟩ := plannedTasks_climbing
  obtain ⟨layout, hall⟩ := plannedTasks_hold (by simp) hs
  exact ⟨layout, tasks, hs, hplan, hall _ rfl rfl _ _ hplan, hdestinations⟩

end Generator

end ApiScaffold
