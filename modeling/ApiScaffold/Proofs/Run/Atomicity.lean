import ApiScaffold.Proofs.Generator.Loaded
import ApiScaffold.Proofs.Run.Components
import ApiScaffold.Proofs.Run.Conservation
import ApiScaffold.Proofs.Run.Endpoints
import ApiScaffold.Proofs.Template.Library

/-!
# Runs without a report

A run that gives no report leaves the files as they were. Whatever stops it stops it before it
writes: options, life cycle, schemas, operations, destinations and rendering all come first. One
thing is left that can fail behind the first file, which is a text with a lone half: it cannot be
written, and the texts before it have been (`Generator.StoppedAtHalf`).

What a template makes of its scope is not looked into for this. A run goes by an engine, and
`Generator.generate_error_keeps_files` holds for each: for the templates that a run is given, which
may compute a text in any way, and for an engine that fails. Only where the templates are the
built-in ones is it shown that a run whose document and options have no lone halves renders no text
with one, by way of all that a template sees of a run.
-/

namespace ApiScaffold

/-- Material without lone halves. -/
structure Material.IsWhole (m : Material) : Prop where
  spec : m.spec.IsWhole
  models : ∀ model ∈ m.models, model.IsWhole
  groups : ∀ group ∈ m.groups, group.IsWhole

namespace Draft

variable {g : Generator} {spec : Spec}

/-- The material of a document without lone halves has none. -/
theorem isWhole_gather {material : Material} {failures : List Failure} (ht : g.target.IsWhole)
    (hspec : spec.IsWhole) (h : (gather g spec).result = .ok (material, failures)) :
    material.IsWhole := by
  obtain ⟨components, endpoints, hc, he, ho, hg, hs, hm, -⟩ := gather_ok h
  have hbuilt : ∀ op ∈ endpoints.filterMap Endpoint.operation?, op.IsWhole :=
    fun op hop => Endpoint.isWhole_of_mem_operations ht hspec he hop
  have hops : ∀ op ∈ material.operations, op.IsWhole :=
    Operation.distinguishAll_forall (fun _ n => Operation.isWhole_appendMethod n)
      (fun _ n => Operation.isWhole_appendNumber n) hbuilt ho
  refine ⟨hs ▸ hspec, ?_, OperationGroup.isWhole_ofOperations hops hg⟩
  intro model hmodel
  rw [hm] at hmodel
  exact Component.isWhole_of_mem_models ht hspec hc hmodel

end Draft

namespace Task

variable {t : Target} {s : Settings} {base : Template.Scope} {m : Material}

/-- What every template of a run sees has no lone halves. -/
theorem isWhole_scope (ht : t.IsWhole) (hs : s.IsWhole) (hm : m.IsWhole)
    (h : m.scope t s = .ok base) : Template.Scope.IsWhole base := by
  obtain ⟨title, htitle, h⟩ := Attempt.bind_eq_ok.mp h
  obtain ⟨version, hversion, h⟩ := Attempt.bind_eq_ok.mp h
  obtain ⟨basePath, hbase, h⟩ := Attempt.bind_eq_ok.mp h
  obtain ⟨description, hdescription, h⟩ := Attempt.bind_eq_ok.mp h
  cases h
  have hname : (title.orElse (.str s.baseName)).isWhole = true :=
    Value.isWhole_orElse (hm.spec.title htitle) (by rw [Value.isWhole_str]; exact hs.baseName)
  simp only [Template.Scope.IsWhole, List.forall_mem_cons, List.not_mem_nil, false_implies,
    implies_true, Datum.isWhole_str, Datum.isWhole_value, Datum.isWhole_list,
    List.forall_mem_map, and_true]
  exact ⟨hs.datum, ht.text _ (by simp [Target.texts]), hname, hm.spec.version hversion,
    hm.spec.basePath hbase, hm.spec.description hdescription,
    fun model hmodel => (hm.models model hmodel).datum,
    fun group hgroup => (hm.groups group hgroup).datum⟩

theorem isWhole_importScope (ht : t.IsWhole) {names : List String}
    (hn : ∀ s ∈ names, Text.isWhole s = true) :
    Template.Scope.IsWhole (importScope (t.splitImports names)) := by
  obtain ⟨hlibrary, hmodels⟩ := ht.splitImports hn
  simp only [Template.Scope.IsWhole, importScope, List.forall_mem_cons, List.not_mem_nil,
    false_implies, implies_true, Datum.isWhole_list, List.forall_mem_map, Datum.isWhole_str,
    and_true]
  exact ⟨hlibrary, hmodels⟩

/-- What the template of any task of a run sees has no lone halves. -/
theorem isWhole_of_mem_all {files : List SupportingFile} (ht : t.IsWhole) (hm : m.IsWhole)
    (hb : Template.Scope.IsWhole base) :
    ∀ task ∈ all t s files base m, Template.Scope.IsWhole task.scope := by
  intro task htask
  rcases List.mem_append.mp htask with htask | htask
  · rcases List.mem_append.mp htask with htask | htask
    · split at htask
      · obtain ⟨file, -, rfl⟩ := List.mem_map.mp htask
        exact hb
      · cases htask
    · split at htask
      · obtain ⟨model, hmodel, rfl⟩ := List.mem_map.mp htask
        have hw := hm.models model hmodel
        intro entry he
        rcases List.mem_cons.mp he with rfl | he
        · exact hw.datum
        · rcases List.mem_append.mp he with he | he
          · exact isWhole_importScope ht hw.imports entry he
          · exact hb entry he
      · cases htask
  · split at htask
    · obtain ⟨group, hgroup, rfl⟩ := List.mem_map.mp htask
      have hw := hm.groups group hgroup
      intro entry he
      rcases List.mem_cons.mp he with rfl | he
      · exact hw.datum
      · rcases List.mem_cons.mp he with rfl | he
        · rw [Datum.isWhole_tuple, List.forall_mem_map]
          exact hw.operations
        · rcases List.mem_append.mp he with he | he
          · exact isWhole_importScope ht hw.imports entry he
          · exact hb entry he
    · cases htask

end Task

namespace Generator

variable {g : Generator} {spec : Spec} {overrides : List Template.Override}
  {files : List (String × String)} {rules : IgnoreRules}

theorem isWhole_settings {settings : Settings} (ht : g.target.IsWhole) (ho : g.options.AreWhole)
    (h : Settings.ofOptions g.target g.runOptions = .ok settings) : settings.IsWhole :=
  Settings.isWhole_ofOptions ht ((Options.areWhole_defaultsOf ht).merge ho) h

/-- All texts that the built-in templates give of a document and options without lone halves can be
written. -/
theorem writable_of_draft {draft : Draft} (ht : g.target.IsWhole) (hspec : spec.IsWhole)
    (ho : g.options.AreWhole) (h : g.draft spec [] (.ok rules) = .ok draft) :
    draft.texts.all Sink.isWritable = true := by
  simp only [Generator.draft, Attempt.bind_eq_ok] at h
  obtain ⟨⟨settings, document⟩, hp, hd⟩ := h
  obtain ⟨hsettings, hdocument, hgen⟩ := prepare_ok hp
  obtain ⟨_, material, failures, tasks, products, hrules, hg, hplan, hr, htexts, -⟩ :=
    Draft.make_ok hd
  cases hrules
  obtain ⟨s, base, hs, hb, htasks, -⟩ := Task.plan_ok hplan
  rw [hgen] at hg hs hb htasks hr
  have hdoc : document.IsWhole := by
    rw [hdocument]
    exact areWhole_normalize g.target hspec
  have hm : material.IsWhole := Draft.isWhole_gather (g := g.building settings) ht hdoc hg
  have hsw : s.IsWhole := by
    cases hs
    exact isWhole_settings ht ho hsettings
  have hbase : Template.Scope.IsWhole base := Task.isWhole_scope ht hsw hm hb
  rw [List.all_eq_true]
  intro t hin
  rw [htexts, Task.files_of_products hr] at hin
  obtain ⟨task, htask, hfile⟩ := List.mem_filterMap.mp hin
  obtain ⟨text, htext, rfl⟩ := Option.map_eq_some_iff.mp hfile
  have hscope : Template.Scope.IsWhole task.scope := by
    have hmem := (List.mem_filter.mp htask).1
    rw [htasks] at hmem
    exact Task.isWhole_of_mem_all ht hm hbase task hmem
  have hwhole := (Template.Library.isWhole_builtin g.target).render hscope
    (Task.text?_eq_some.mp htext)
  rw [Sink.isWritable_eq]
  exact hwhole

/-- How a run stops while it writes: at the first text of its draft that has a lone half, with the
texts before it put into the files. -/
structure StoppedAtHalf (draft : Draft) (before after : List (String × String)) : Prop where
  first_half : ∃ written bad rest, draft.texts = written ++ bad :: rest
    ∧ (∀ text ∈ written, Text.isWhole text.2 = true) ∧ Text.isWhole bad.2 = false
    ∧ after = Sink.putAll before written

/-- A run with a draft that gives no report has come to a text with a lone half. -/
theorem stoppedAtHalf_of_draft {engineOf : Target → Template.Engine} {draft : Draft}
    {failure : Failure} (hd : draftBy engineOf g spec (.ok rules) = .ok draft)
    (h : (generateBy engineOf g spec (.memory files rules)).result = .error failure) :
    ∃ after, StoppedAtHalf draft files after
      ∧ (generateBy engineOf g spec (.memory files rules)).sink = .memory after rules := by
  obtain ⟨hsink, hresult⟩ :=
    @generateBy_of_draft_ok engineOf g spec files rules draft hd
  rw [hresult] at h
  have hsome : ¬draft.texts.all Sink.isWritable = true := fun hall => by
    rw [if_pos hall] at h
    cases h
  refine ⟨_, ⟨?_⟩, hsink⟩
  have hrest : draft.texts.dropWhile Sink.isWritable ≠ [] := fun hnil =>
    hsome (List.all_eq_true.mpr (List.dropWhile_eq_nil_iff.mp hnil))
  obtain ⟨bad, rest, hbad⟩ := List.exists_cons_of_ne_nil hrest
  refine ⟨draft.texts.takeWhile Sink.isWritable, bad, rest, ?_, fun text ht => ?_, ?_, rfl⟩
  · rw [← hbad, List.takeWhile_append_dropWhile]
  · exact (Sink.isWritable_eq text).symm.trans (List.mem_takeWhile_imp ht)
  · have hnot := List.head_dropWhile_not Sink.isWritable hrest
    simp only [hbad, List.head_cons] at hnot
    exact (Sink.isWritable_eq bad).symm.trans hnot

/-- A run that gives no report leaves the files as they were, in whatever phase its generator is and
whatever renders its templates, unless a rendered text has a lone half: then it stops at the first
one, and all texts before it have been written. If no lone half stands in the document and in the
options, then the built-in templates render none. -/
theorem generate_error_keeps_files {engineOf : Target → Template.Engine} {order : SetOrder}
    {d : Loaded} {failure : Failure}
    (h : (runBy engineOf g order d (.memory files rules)).result = .error failure) :
    ((runBy engineOf g order d (.memory files rules)).sink = .memory files rules
      ∨ ∃ draft after, draftBy engineOf g (d.copy order).padded (.ok rules) = .ok draft
        ∧ StoppedAtHalf draft files after
        ∧ (runBy engineOf g order d (.memory files rules)).sink = .memory after rules)
    ∧ (engineOf = Template.engineOf [] → g.target ∈ [.jaxrsSpec, .spring, .python] →
        d.spec.IsWhole → g.options.AreWhole →
      (runBy engineOf g order d (.memory files rules)).sink = .memory files rules) := by
  unfold runBy at h ⊢
  cases hd : draftBy engineOf g (d.copy order).padded (.ok rules) with
  | error stopped =>
      have hkept := (@generateBy_of_draft_error engineOf g (d.copy order).padded
        (.memory files rules) stopped hd).1
      exact ⟨.inl hkept, fun _ _ _ _ => hkept⟩
  | ok draft =>
      refine ⟨.inr ?_, fun hengine ht hspec ho => ?_⟩
      · obtain ⟨after, hstopped, hsink⟩ := stoppedAtHalf_of_draft hd h
        exact ⟨draft, after, rfl, hstopped, hsink⟩
      · -- all that is left to fail is the writing, and here it cannot
        subst hengine
        have hw := writable_of_draft (Target.isWhole_of_builtin ht)
          (Loaded.padded_copy ▸ Spec.isWhole_copy (Loaded.isWhole_padded hspec)) ho hd
        rw [(generateBy_of_draft_ok hd).2, if_pos hw] at h
        cases h

/-- A template without tags for the build descriptor, which is then short. -/
def shortDescriptor : Template.Override := { path := "pom.xml.j2", text? := some "kept" }

/-- A file that holds no text in the place of a template. -/
def textless (path : String) : Template.Override := { path, text? := none }

/-- A run stops at its last file, whose template is no text, and one with the built-in templates
stops because it was run before. Both leave the file that was there. -/
theorem generate_error_keeps_files_textless :
    (∃ failure, (runBy (Template.engineOf [shortDescriptor, textless "README.md.j2"])
          (ofTarget .jaxrsSpec [("groupId", .str "io.example")]) .asGiven ⟨.bare, []⟩
          (.memory [("notes.txt", "kept")] ⟨[]⟩)).result = .error failure
      ∧ (runBy (Template.engineOf [shortDescriptor, textless "README.md.j2"])
          (ofTarget .jaxrsSpec [("groupId", .str "io.example")]) .asGiven ⟨.bare, []⟩
          (.memory [("notes.txt", "kept")] ⟨[]⟩)).sink = .memory [("notes.txt", "kept")] ⟨[]⟩)
    ∧ ∃ failure, (runBy (Template.engineOf []) { ofTarget .spring [] with phase := .rendered }
          .asGiven ⟨.bare, []⟩ (.memory [("notes.txt", "kept")] ⟨[]⟩)).result = .error failure
      ∧ (runBy (Template.engineOf []) { ofTarget .spring [] with phase := .rendered }
          .asGiven ⟨.bare, []⟩ (.memory [("notes.txt", "kept")] ⟨[]⟩)).sink
          = .memory [("notes.txt", "kept")] ⟨[]⟩ := by
  constructor
  · have hnone : ((ofTarget .jaxrsSpec [("groupId", .str "io.example")]).draft
        (Loaded.copy .asGiven ⟨.bare, []⟩).padded [shortDescriptor, textless "README.md.j2"]
        (.ok ⟨[]⟩)).toOption.isNone = true := by
      decide +kernel
    cases hd : (ofTarget .jaxrsSpec [("groupId", .str "io.example")]).draft
        (Loaded.copy .asGiven ⟨.bare, []⟩).padded [shortDescriptor, textless "README.md.j2"]
        (.ok ⟨[]⟩) with
    | ok draft =>
        rw [hd] at hnone
        cases hnone
    | error failure =>
        have hr := (@generate_of_draft_error _ _ _ (.memory [("notes.txt", "kept")] ⟨[]⟩)
          failure hd).2
        refine ⟨failure, hr, (generate_error_keeps_files hr).1.resolve_right ?_⟩
        rintro ⟨draft, -, hdraft, -⟩
        exact absurd (hd.symm.trans hdraft) (by simp)
  · have hspec : Spec.bare.IsWhole := by
      show (Value.map Spec.bare.members).isWhole = true
      decide
    have hr : (runBy (Template.engineOf []) { ofTarget .spring [] with phase := .rendered }
        .asGiven ⟨.bare, []⟩ (.memory [("notes.txt", "kept")] ⟨[]⟩)).result
          = .error (.config (.illegalMove "spring" "configured" "rendered"
              ["created", "configured"])) := rfl
    have hoptions : (ofTarget .spring []).options.AreWhole := by simp [ofTarget, Options.AreWhole]
    exact ⟨_, hr, (generate_error_keeps_files hr).2 rfl (by simp [ofTarget]) hspec hoptions⟩

/-- A text that is a lone half. -/
def loneHalf : String := Text.ofPoints [0xD800]

/-- A template that prints a lone half, written as an escape. -/
def halfTemplate (path : String) : Template.Override where
  path
  text? := some "\x7b\x7b \"\\ud800\" \x7d\x7d"

/-- A draft in brief: which of its texts can be written. -/
def writable (d : Draft) : List Bool :=
  d.texts.map fun t => t.2.toList.all fun c => !Text.isHalf c

/-- A run whose first text can be written and whose texts cannot all be written leaves files. -/
theorem generate_partial_of_draft {flags : List Bool}
    (h : (g.draft spec overrides (.ok rules)).toOption.map writable = some (true :: flags))
    (hf : flags.all id = false) :
    (g.generate spec overrides (.memory files rules)).result = .error .unsuitable
      ∧ (g.generate spec overrides (.memory [] rules)).sink ≠ .memory [] rules := by
  obtain ⟨draft, hd, hflags⟩ := Attempt.exists_of_toOption_map h
  unfold writable at hflags
  rw [← funext Sink.isWritable_eq] at hflags
  obtain ⟨first, rest, htexts, hfirst, hrest⟩ := List.map_eq_cons_iff.mp hflags
  have hall : draft.texts.all Sink.isWritable = false := by
    rw [htexts, List.all_cons, hfirst, Bool.true_and, ← hf, ← hrest, List.all_map]
    rfl
  constructor
  · rw [(generate_of_draft_ok hd).2, hall]
    rfl
  · rw [(generate_of_draft_ok hd).1, htexts, List.takeWhile_cons_of_pos hfirst]
    intro hsame
    exact Sink.putAll_ne_nil (List.cons_ne_nil _ _) (Sink.memory.inj hsame).1

/-- With a lone half in the options, or in a template that it is given, a run over a document
without any stops after it has written. -/
theorem generate_error_partial : Spec.bare.IsWhole
    ∧ ((ofTarget .jaxrsSpec [("invokerPackage", .str loneHalf)]).generate .bare
        [shortDescriptor] (.memory [] ⟨["README.md"]⟩)).result = .error .unsuitable
    ∧ ((ofTarget .jaxrsSpec [("invokerPackage", .str loneHalf)]).generate .bare
        [shortDescriptor] (.memory [] ⟨["README.md"]⟩)).sink ≠ .memory [] ⟨["README.md"]⟩
    ∧ ((ofTarget .jaxrsSpec []).generate .bare [shortDescriptor, halfTemplate "README.md.j2"]
        (.memory [] ⟨["src/"]⟩)).result = .error .unsuitable
    ∧ ((ofTarget .jaxrsSpec []).generate .bare [shortDescriptor, halfTemplate "README.md.j2"]
        (.memory [] ⟨["src/"]⟩)).sink ≠ .memory [] ⟨["src/"]⟩ := by
  have hspec : Spec.bare.IsWhole := by
    show (Value.map Spec.bare.members).isWhole = true
    decide
  have hoptions : ((ofTarget .jaxrsSpec [("invokerPackage", .str loneHalf)]).draft .bare
      [shortDescriptor] (.ok ⟨["README.md"]⟩)).toOption.map writable = some [true, false] := by
    decide +kernel
  have htemplate : ((ofTarget .jaxrsSpec []).draft .bare
      [shortDescriptor, halfTemplate "README.md.j2"] (.ok ⟨["src/"]⟩)).toOption.map writable
        = some [true, false] := by
    decide +kernel
  exact ⟨hspec, (@generate_partial_of_draft _ _ _ [] _ _ hoptions rfl).1,
    (@generate_partial_of_draft _ _ _ [] _ _ hoptions rfl).2,
    (@generate_partial_of_draft _ _ _ [] _ _ htemplate rfl).1,
    (@generate_partial_of_draft _ _ _ [] _ _ htemplate rfl).2⟩

end Generator

end ApiScaffold
