import ApiScaffold.Proofs.Run.Stages
import ApiScaffold.Proofs.Spec
import Mathlib.Data.List.Nodup
import Mathlib.Data.List.TakeWhile

/-!
# What becomes of the planned destinations

No two tasks of a run share a destination, and a report accounts for each of them once: it is left
out by the rules, or written with the text of its own task, or it has a recorded fault. Nothing else
in the output changes.

* `plan_ok`: a plan holds all tasks of its material, and they have different destinations.
* `files_of_products` and `failures_of_products`: what is written and what has failed are selections
  of the tasks that the rules keep. `accounts_of_selections` is what makes these exclude each other.
* `Received`: files in memory before and after a run, each path by what was written there.
* `generate_accounts`: a run that gives a report accounts for every planned destination. The case at
  the end has one file that is ignored, one that is written and one that cannot be rendered.
-/

namespace ApiScaffold

/-- The destination that a recorded fault is about, if it is about a file. -/
def Failure.destination? : Failure → Option String
  | render destination _ => some destination
  | _ => none

/-- The destinations that could not be rendered. -/
def Report.failed (r : Report) : List String := r.errors.filterMap Failure.destination?

/-- The tasks that a run over a document plans. -/
def Generator.plannedTasks (g : Generator) (spec : Spec) : Attempt (List Task) := do
  let (_, document) ← (g.prepare spec).result
  let (material, _) ← (Draft.gather (g.prepare spec).generator document).result
  Task.plan (g.prepare spec).generator material

/-- Exactly one of three statements holds. -/
def ExactlyOne (a b c : Prop) : Prop := (a ∧ ¬b ∧ ¬c) ∨ (¬a ∧ b ∧ ¬c) ∨ (¬a ∧ ¬b ∧ c)

/-- A report accounts for planned tasks. -/
structure Report.Accounts (r : Report) (rules : IgnoreRules) (tasks : List Task) : Prop where
  distinct : (tasks.map Task.destination).Nodup
  /-- What is left out is what the rules ignore, in the order of the plan. -/
  skipped : r.skipped = (tasks.map Task.destination).filter rules.ignored
  files_sublist : r.files.Sublist (tasks.map Task.destination)
  failed_sublist : r.failed.Sublist (tasks.map Task.destination)
  exactly_one : ∀ task ∈ tasks, ExactlyOne (task.destination ∈ r.skipped)
    (task.destination ∈ r.files) (task.destination ∈ r.failed)

/-- Files in memory before and after a run that wrote some destinations: each of them once, with the
text of its own task, and all else as it was. -/
structure Received (library : Template.Library) (tasks : List Task) (written : List String)
    (before after : List (String × String)) : Prop where
  puts : ∃ texts, texts.map Prod.fst = written ∧ after = Sink.putAll before texts
  own_text : ∀ task ∈ tasks, task.destination ∈ written → ∃ text,
    library.render task.template task.scope task.destination = .ok text
      ∧ after.lookup task.destination = some text
  untouched : ∀ path, path ∉ written → after.lookup path = before.lookup path

namespace Task

theorem firstShared?_eq_none {earlier tasks : List Task} :
    firstShared? earlier tasks = none ↔ (tasks.map destination).Nodup
      ∧ ∀ owner ∈ earlier, ∀ task ∈ tasks, owner.destination ≠ task.destination := by
  induction tasks generalizing earlier with
  | nil => simp [firstShared?]
  | cons task rest ih =>
      cases hf : earlier.find? fun owner => owner.destination = task.destination with
      | some owner =>
          have hm := List.mem_of_find?_eq_some hf
          have hd : owner.destination = task.destination := by
            simpa using List.find?_some hf
          simp only [firstShared?, hf, reduceCtorEq, false_iff, not_and]
          intro _ hall
          exact hall owner hm task (by simp) hd
      | none =>
          have hd : ∀ owner ∈ earlier, owner.destination ≠ task.destination := by
            simpa using hf
          simp only [firstShared?, hf, ih, List.map_cons, List.nodup_cons, List.mem_map,
            List.mem_append, List.mem_cons, List.not_mem_nil, or_false]
          constructor
          · rintro ⟨hn, hall⟩
            refine ⟨⟨?_, hn⟩, ?_⟩
            · rintro ⟨other, ho, hs⟩
              exact hall task (.inr rfl) other ho hs.symm
            · rintro owner ho other (rfl | hother)
              · exact hd owner ho
              · exact hall owner (.inl ho) other hother
          · rintro ⟨⟨hne, hn⟩, hall⟩
            refine ⟨hn, ?_⟩
            rintro owner (ho | rfl) other hother
            · exact hall owner ho other (.inr hother)
            · exact fun hs => hne ⟨other, hother, hs.symm⟩

/-- A plan holds all tasks of its material, and they have different destinations. -/
theorem plan_ok {g : Generator} {m : Material} {tasks : List Task} (h : plan g m = .ok tasks) :
    ∃ s base, g.settings = .ok s ∧ m.scope g.target s = .ok base
      ∧ tasks = all g.target s g.supportingFiles base m ∧ (tasks.map destination).Nodup := by
  simp only [plan, Attempt.bind_eq_ok] at h
  obtain ⟨s, hs, base, hb, h⟩ := h
  cases hf : firstShared? [] (all g.target s g.supportingFiles base m) with
  | some pair =>
      obtain ⟨owner, task⟩ := pair
      simp [hf] at h
  | none =>
      simp only [hf, Attempt.pure_eq_ok] at h
      subst h
      exact ⟨s, base, hs, hb, rfl, (firstShared?_eq_none.mp hf).1⟩

theorem destinations_all {t : Target} {s : Settings} {files : List SupportingFile}
    {base : Template.Scope} {m : Material} : (all t s files base m).map destination
      = (if s.generateSupportingFiles then files.map SupportingFile.path else [])
        ++ (if s.generateModels then m.models.map fun model => s.modelDestination t model.className
          else [])
        ++ (if s.generateApis then m.groups.map fun group => s.apiDestination t group.className
          else []) := by
  simp only [all, List.map_append, apply_ite (List.map destination), List.map_nil, List.map_map,
    Function.comp_def, ofSupportingFile, ofModel, ofGroup]

/-- Tasks with different destinations are a plan. -/
theorem plan_of_nodup {g : Generator} {m : Material} {s : Settings} {base : Template.Scope}
    (hs : g.settings = .ok s) (hb : m.scope g.target s = .ok base)
    (hn : ((all g.target s g.supportingFiles base m).map destination).Nodup) :
    plan g m = .ok (all g.target s g.supportingFiles base m) := by
  have hf : firstShared? [] (all g.target s g.supportingFiles base m) = none :=
    firstShared?_eq_none.mpr ⟨hn, by simp⟩
  simp only [plan, hs, hb, hf, Bind.bind, Except.bind]
  rfl

/-- The text of a task, if it can be rendered. -/
def text? (library : Template.Library) (task : Task) : Option String :=
  (library.render task.template task.scope task.destination).toOption

theorem text?_eq_some {library : Template.Library} {task : Task} {text : String} :
    task.text? library = some text ↔
      library.render task.template task.scope task.destination = .ok text := by
  unfold text?
  cases library.render task.template task.scope task.destination <;> simp [Except.toOption]

/-- What a product is: the text of its task, or the fault that there is none. -/
theorem render_ok {library : Template.Library} {task : Task} {product : Product}
    (h : render library.render task = .ok product) :
    (∃ text, task.text? library = some text ∧ product = .text task.destination text)
      ∨ (task.text? library = none ∧ ∃ fault, product = .failed task.destination fault) := by
  unfold render at h
  unfold text?
  cases hr : library.render task.template task.scope task.destination with
  | ok text =>
      simp only [hr, Except.ok.injEq] at h
      exact .inl ⟨text, rfl, h.symm⟩
  | error failure =>
      cases failure with
      | render destination fault =>
          simp only [hr, Except.ok.injEq] at h
          exact .inr ⟨rfl, fault, h.symm⟩
      | spec fault => simp [hr] at h
      | config fault => simp [hr] at h
      | build subject fault => simp [hr] at h
      | system => simp [hr] at h
      | unsuitable => simp [hr] at h

variable {library : Template.Library}

/-- Whether the rules keep a task and it can be rendered. -/
def isWritten (library : Template.Library) (rules : IgnoreRules) (task : Task) : Bool :=
  !rules.ignored task.destination && (task.text? library).isSome

/-- Whether the rules keep a task and it cannot be rendered. -/
def isFailed (library : Template.Library) (rules : IgnoreRules) (task : Task) : Bool :=
  !rules.ignored task.destination && (task.text? library).isNone

/-- The destination and the text of a task that can be rendered. -/
def file? (library : Template.Library) (task : Task) : Option (String × String) :=
  (task.text? library).map (task.destination, ·)

/-- The texts among products are those of the tasks that can be rendered. -/
theorem files_of_products {tasks : List Task} {products : List Product}
    (h : List.Forall₂ (fun task product => render library.render task = .ok product) tasks products) :
    products.filterMap Product.file? = tasks.filterMap (file? library) := by
  induction h with
  | nil => rfl
  | @cons task product tasks products hr _ ih =>
      rcases render_ok hr with ⟨text, ht, rfl⟩ | ⟨ht, fault, rfl⟩
      · simp [Product.file?, file?, ht, ih]
      · simp [List.filterMap_cons, Product.file?, file?, ht, ih]

/-- The faults among products are about the tasks that cannot be rendered. -/
theorem failures_of_products {tasks : List Task} {products : List Product}
    (h : List.Forall₂ (fun task product => render library.render task = .ok product) tasks products) :
    (products.filterMap Product.failure?).filterMap Failure.destination?
      = (tasks.filter fun task => (task.text? library).isNone).map destination := by
  induction h with
  | nil => rfl
  | @cons task product tasks products hr _ ih =>
      rcases render_ok hr with ⟨text, ht, rfl⟩ | ⟨ht, fault, rfl⟩
      · simp [List.filterMap_cons, Product.failure?, ht, ih]
      · simp [Product.failure?, Failure.destination?, ht, ih]

theorem destinations_of_files (tasks : List Task) :
    (tasks.filterMap (file? library)).map Prod.fst
      = (tasks.filter fun task => (task.text? library).isSome).map destination := by
  induction tasks with
  | nil => rfl
  | cons task rest ih => cases ht : task.text? library <;> simp [file?, ht, ih]

/-- Among tasks with different destinations, a destination is in a selection exactly if its task is
selected. -/
theorem mem_destinations_filter {tasks : List Task} {task : Task} (p : Task → Bool)
    (hn : (tasks.map destination).Nodup) (hm : task ∈ tasks) :
    task.destination ∈ (tasks.filter p).map destination ↔ p task = true := by
  constructor
  · intro h
    obtain ⟨other, ho, hd⟩ := List.mem_map.mp h
    obtain ⟨hother, hp⟩ := List.mem_filter.mp ho
    have heq : other = task := List.inj_on_of_nodup_map hn hother hm hd
    rwa [← heq]
  · intro hp
    exact List.mem_map.mpr ⟨task, List.mem_filter.mpr ⟨hm, hp⟩, rfl⟩

end Task

/-- The faults that are recorded before the rendering are not about files. -/
theorem Draft.gather_failures {g : Generator} {spec : Spec} {material : Material}
    {failures : List Failure} (h : (gather g spec).result = .ok (material, failures)) :
    failures.filterMap Failure.destination? = [] := by
  obtain ⟨components, endpoints, -, -, -, -, -, -, rfl⟩ := gather_ok h
  rw [List.filterMap_append, List.filterMap_filterMap, List.filterMap_filterMap,
    List.append_eq_nil_iff]
  constructor
  · apply List.filterMap_eq_nil_iff.mpr
    intro c _
    cases c <;> rfl
  · apply List.filterMap_eq_nil_iff.mpr
    intro e _
    cases e <;> rfl

/-- A draft in brief: the paths of its texts, what it leaves out, what has a fault, and whether all
of its texts can be written. -/
def Draft.brief (d : Draft) : List String × List String × List String × Bool :=
  (d.texts.map Prod.fst, d.report.skipped, d.report.failed,
    d.texts.all fun t => t.2.toList.all fun c => !Text.isHalf c)

namespace Generator

variable {g : Generator} {spec : Spec} {overrides : List Template.Override}
  {files : List (String × String)} {rules : IgnoreRules}

/-- What the draft of a run has made of the planned tasks. -/
theorem draft_ok {draft : Draft} (h : g.draft spec overrides (.ok rules) = .ok draft) :
    ∃ tasks, g.plannedTasks spec = .ok tasks ∧ (tasks.map Task.destination).Nodup
      ∧ draft.report.skipped = (tasks.map Task.destination).filter rules.ignored
      ∧ draft.texts = (tasks.filter fun task => !rules.ignored task.destination).filterMap
          (Task.file? (Template.Library.ofTarget g.target overrides))
      ∧ draft.report.failed
        = (tasks.filter (Task.isFailed (Template.Library.ofTarget g.target overrides) rules)).map
            Task.destination := by
  simp only [Generator.draft, Attempt.bind_eq_ok] at h
  obtain ⟨⟨settings, document⟩, hp, hd⟩ := h
  obtain ⟨_, material, failures, tasks, products, hrules, hg, ht, hr, htexts, hreport⟩ :=
    Draft.make_ok hd
  cases hrules
  obtain ⟨-, -, hgen⟩ := prepare_ok hp
  have htarget : (g.prepare spec).generator.target = g.target := by rw [hgen]; rfl
  rw [htarget] at hr
  obtain ⟨s, base, -, -, -, hn⟩ := Task.plan_ok ht
  refine ⟨tasks, ?_, hn, ?_, ?_, ?_⟩
  · simp only [plannedTasks, Attempt.bind_eq_ok]
    exact ⟨(settings, document), hp, (material, failures), hg, ht⟩
  · rw [hreport]
  · rw [htexts, Task.files_of_products hr]
  · rw [hreport]
    simp only [Report.failed, List.filterMap_append, Draft.gather_failures hg, List.nil_append]
    rw [Task.failures_of_products hr, List.filter_filter]
    simp only [Bool.and_comm]
    rfl

/-- A report whose lists are selections of planned destinations accounts for the plan. -/
theorem accounts_of_selections {library : Template.Library} {tasks : List Task} {report : Report}
    (hn : (tasks.map Task.destination).Nodup)
    (hs : report.skipped = (tasks.map Task.destination).filter rules.ignored)
    (hw : report.files = (tasks.filter (Task.isWritten library rules)).map Task.destination)
    (hf : report.failed = (tasks.filter (Task.isFailed library rules)).map Task.destination) :
    report.Accounts rules tasks where
  distinct := hn
  skipped := hs
  files_sublist := hw ▸ List.filter_sublist.map _
  failed_sublist := hf ▸ List.filter_sublist.map _
  exactly_one := by
    intro task hm
    have hskip : task.destination ∈ report.skipped ↔ rules.ignored task.destination = true := by
      rw [hs, List.mem_filter]
      exact and_iff_right (List.mem_map_of_mem hm)
    rw [hskip, hw, hf, Task.mem_destinations_filter _ hn hm, Task.mem_destinations_filter _ hn hm]
    unfold ExactlyOne Task.isWritten Task.isFailed
    cases rules.ignored task.destination <;> cases task.text? library <;> simp

/-- Putting the texts of a selection of tasks into memory is receiving them. -/
theorem received_of_texts {library : Template.Library} {tasks selected : List Task}
    (hn : (tasks.map Task.destination).Nodup) (hsub : selected.Sublist tasks) :
    Received library tasks ((selected.filterMap (Task.file? library)).map Prod.fst) files
      (Sink.putAll files (selected.filterMap (Task.file? library))) where
  puts := ⟨_, rfl, rfl⟩
  own_text := by
    intro task hm hd
    have hnodup : ((selected.filterMap (Task.file? library)).map Prod.fst).Nodup := by
      rw [Task.destinations_of_files]
      exact ((List.filter_sublist.trans hsub).map _).nodup hn
    rw [Task.destinations_of_files] at hd
    obtain ⟨other, ho, hsame⟩ := List.mem_map.mp hd
    obtain ⟨hother, htext⟩ := List.mem_filter.mp ho
    have heq : other = task := List.inj_on_of_nodup_map hn (hsub.subset hother) hm hsame
    subst heq
    obtain ⟨text, ht⟩ := Option.isSome_iff_exists.mp htext
    have hfile : (other.destination, text) ∈ selected.filterMap (Task.file? library) :=
      List.mem_filterMap.mpr ⟨other, hother, by simp [Task.file?, ht]⟩
    exact ⟨text, Task.text?_eq_some.mp ht, Sink.lookup_putAll_of_mem hnodup hfile⟩
  untouched := fun _ hp => Sink.lookup_putAll_of_not_mem hp

/-- A run that gives a report accounts for every planned destination, and leaves the output with the
files that it reports and all else as it was. -/
theorem generate_accounts {report : Report}
    (h : (g.generate spec overrides (.memory files rules)).result = .ok report) :
    ∃ tasks after, g.plannedTasks spec = .ok tasks
      ∧ report.Accounts rules tasks
      ∧ (g.generate spec overrides (.memory files rules)).sink = .memory after rules
      ∧ Received (Template.Library.ofTarget g.target overrides) tasks report.files files after := by
  cases hd : g.draft spec overrides (.ok rules) with
  | error failure =>
      have hr := (@generate_of_draft_error g spec overrides (.memory files rules) failure hd).2
      rw [hr] at h
      cases h
  | ok draft =>
      obtain ⟨hsink, hresult⟩ := @generate_of_draft_ok g spec overrides files rules draft hd
      obtain ⟨tasks, hplan, hn, hskip, htexts, hfailed⟩ := draft_ok hd
      rw [hresult] at h
      split at h
      case isFalse => cases h
      case isTrue hw =>
        cases h
        rw [List.takeWhile_eq_self_iff.mpr (by simpa using hw)] at hsink
        refine ⟨tasks, _, hplan, accounts_of_selections hn hskip ?_ hfailed, hsink, ?_⟩
        · rw [htexts, Task.destinations_of_files, List.filter_filter]
          simp only [Bool.and_comm]
          rfl
        · rw [htexts]
          exact received_of_texts hn List.filter_sublist

/-- A template that uses a name without a meaning. -/
def unboundTemplate (path : String) : Template.Override where
  path
  text? := some "\x7b\x7b x \x7d\x7d"

/-- A run over a document without paths: one file is ignored, one is written, and one has a template
that uses a name without a meaning. -/
theorem generate_accounts_bare :
    ∃ report, ((ofTarget .jaxrsSpec []).generate .bare [unboundTemplate "README.md.j2"]
          (.memory [("notes.txt", "kept")] ⟨["pom.xml"]⟩)).result = .ok report
      ∧ report.skipped = ["pom.xml"]
      ∧ report.files = ["src/gen/java/io/openapi/api/RestApplication.java"]
      ∧ report.failed = ["README.md"]
      ∧ ∃ tasks after, (ofTarget .jaxrsSpec []).plannedTasks .bare = .ok tasks
        ∧ report.Accounts ⟨["pom.xml"]⟩ tasks
        ∧ ((ofTarget .jaxrsSpec []).generate .bare [unboundTemplate "README.md.j2"]
            (.memory [("notes.txt", "kept")] ⟨["pom.xml"]⟩)).sink = .memory after ⟨["pom.xml"]⟩
        ∧ Received (.ofTarget .jaxrsSpec [unboundTemplate "README.md.j2"]) tasks report.files
            [("notes.txt", "kept")] after := by
  have hbrief : ((ofTarget .jaxrsSpec []).draft .bare [unboundTemplate "README.md.j2"]
      (.ok ⟨["pom.xml"]⟩)).toOption.map Draft.brief
        = some (["src/gen/java/io/openapi/api/RestApplication.java"], ["pom.xml"], ["README.md"],
          true) := by
    decide +kernel
  obtain ⟨draft, hdraft, hb⟩ := Attempt.exists_of_toOption_map hbrief
  simp only [Draft.brief, Prod.mk.injEq] at hb
  obtain ⟨hpaths, hskipped, hfailed, hwritable⟩ := hb
  have hw : draft.texts.all Sink.isWritable = true := by
    rw [funext Sink.isWritable_eq]
    exact hwritable
  have hr : ((ofTarget .jaxrsSpec []).generate .bare [unboundTemplate "README.md.j2"]
      (.memory [("notes.txt", "kept")] ⟨["pom.xml"]⟩)).result
        = .ok { draft.report with files := draft.texts.map Prod.fst } :=
    generate_ok_of_draft hdraft hw
  exact ⟨_, hr, hskipped, hpaths, hfailed, generate_accounts hr⟩

end Generator

end ApiScaffold
