import ApiScaffold.Proofs.Run.Constants
import ApiScaffold.Proofs.Run.TakenNames
import ApiScaffold.Proofs.Template.Comments

/-!
# The comments of a run

In the file of a model each comment ends behind its own closing exactly if the texts of the document
that stand in comments stay inside. They are written as they stand, so one that holds a closing
leaves its comment.

* `Drafted.hasComments`: the text for a model of a run is made of code and of the comments of the
  model, which its template names in order.
* `comments_closed_iff`: for every run, which descriptions keep the comments of a file closed.
* `comments_closed_iff_apart` and `description_leaves`: a color whose description has a star and a
  slash apart from each other, and one where they stand together.
-/

namespace ApiScaffold

open Template (CommentStyle HasComments Library)

/-- How a target comments the files of models. -/
def Target.commentStyle (t : Target) : CommentStyle :=
  if t.templateFolders.contains "java" then .java else .python

namespace Template.CommentStyle

theorem isLawful_rules (t : Target) : t.commentStyle.rules.IsLawful := by
  unfold Target.commentStyle
  split
  · exact CommentRules.isLawful_java
  · exact CommentRules.isLawful_python

/-- The comments of a model stay inside exactly if the texts of the document in them do. -/
theorem keeps_comments_iff (t : Target) {m : Model}
    (hn : ∀ p ∈ m.properties, Naming.IsPlain p.name) :
    (∀ s ∈ t.commentStyle.comments m, t.commentStyle.rules.Keeps s)
      ↔ ∀ s ∈ t.commentStyle.printed m, t.commentStyle.rules.Keeps s := by
  unfold Target.commentStyle
  split
  · exact keeps_java_comments hn
  · exact keeps_python_comments

end Template.CommentStyle

/-- The text of a model's task has the comments of the model. -/
theorem Task.hasComments {t : Target} {s : Settings} {base : Template.Scope} {m : Model}
    {text : String} (ht : t ∈ [.jaxrsSpec, .spring, .python])
    (h : (Library.ofTarget t []).render (ofModel t s base m).template (ofModel t s base m).scope
      (ofModel t s base m).destination = .ok text) :
    HasComments t.commentStyle.rules (t.commentStyle.comments m) text := by
  have hm : Template.find (ofModel t s base m).scope "model" = m.datum := rfl
  obtain ⟨embed, after, hrun⟩ := Library.render_ok (Template.Builtin.load_modelTemplate ht _) h
  unfold Target.commentStyle
  split at hrun
  next hjava =>
    rw [if_pos hjava]
    exact Template.Builtin.Java.lays_modelFile hm _ _ hrun
  next hpython =>
    rw [if_neg hpython]
    exact Template.Builtin.Python.lays_modelFile hm _ _ hrun

namespace Generator

variable {g : Generator} {spec : Spec} {rules : IgnoreRules} {settings : Settings} {draft : Draft}
  {m : Model} {text : String}

/-- The text for a model of a run has the comments of the model. -/
theorem Drafted.hasComments {material : Material} {base : Template.Scope}
    (hd : Drafted g spec rules settings draft material base)
    (ht : g.target ∈ [.jaxrsSpec, .spring, .python]) (hw : settings.generateModels = true)
    (hm : m ∈ material.models)
    (htext : (settings.modelDestination g.target m.className, text) ∈ draft.texts) :
    HasComments g.target.commentStyle.rules (g.target.commentStyle.comments m) text := by
  rw [← @Task.ofModel_destination g.target settings base m] at htext
  exact Task.hasComments ht (hd.text_of_task (Task.ofModel_mem_all hw hm) htext)

/-- The comments of a model of a run stay inside exactly if the texts of the document in them do:
the names of fields are plain. -/
theorem Drafted.keeps_comments_iff {material : Material} {base : Template.Scope}
    (hd : Drafted g spec rules settings draft material base)
    (ht : g.target ∈ [.jaxrsSpec, .spring, .python]) (hm : m ∈ material.models) :
    (∀ s ∈ g.target.commentStyle.comments m, g.target.commentStyle.rules.Keeps s)
      ↔ ∀ s ∈ g.target.commentStyle.printed m, g.target.commentStyle.rules.Keeps s := by
  obtain ⟨failures, hgather⟩ := hd.gathered
  refine CommentStyle.keeps_comments_iff _ fun p hp => ?_
  obtain ⟨_, -, hname, -⟩ := Draft.exists_type_of_mem hgather hm hp
  rw [hname]
  exact ((Target.escapes_of_builtin ht).legal_fieldName _).toIsPlain

/-- In every run the file of a model consists of code and the comments of the model, which end
behind their own closings exactly if the texts of the document that stand in them stay inside. -/
theorem comments_closed_iff (ht : g.target ∈ [.jaxrsSpec, .spring, .python])
    (hs : Settings.ofOptions g.target g.runOptions = .ok settings)
    (h : g.draft spec [] (.ok rules) = .ok draft) (hw : settings.generateModels = true)
    (hm : m ∈ draft.report.models)
    (htext : (settings.modelDestination g.target m.className, text) ∈ draft.texts) :
    ∃ parts, Part.textOf g.target.commentStyle.rules parts = text
      ∧ parts.filterMap Part.comment? = g.target.commentStyle.comments m
      ∧ (Part.AllClosed g.target.commentStyle.rules parts
        ↔ ∀ s ∈ g.target.commentStyle.printed m, g.target.commentStyle.rules.Keeps s) := by
  obtain ⟨material, base, hd⟩ := drafted_of_draft hs h
  have hin : m ∈ material.models := hd.models ▸ hm
  obtain ⟨parts, hparts, hcomments, hclosed⟩ :=
    (hd.hasComments ht hw hin htext).exists_parts (CommentStyle.isLawful_rules _)
  exact ⟨parts, hparts, hcomments, hclosed.trans (hd.keeps_comments_iff ht hin)⟩

/-! ## Colors with a description -/

/-- The schema of a color with a description, which has a shade that is one of two texts. -/
def describedSchema (description : String) : Members := [
  (.str "type", .str "object"), (.str "description", .str description),
  (.str "properties", .map [(.str "shade", .map [
    (.str "type", .str "string"), (.str "enum", .list [.str "light", .str "dark"])])])]

def javaSettings : Settings :=
  (Settings.ofOptions .jaxrsSpec (ofTarget .jaxrsSpec classesOnly).runOptions).toOption.get (by decide)

theorem ofOptions_java :
    Settings.ofOptions .jaxrsSpec (ofTarget .jaxrsSpec classesOnly).runOptions = .ok javaSettings :=
  Attempt.eq_ok_get _

/-- The file of colors in Java. -/
def javaColor : String := "src/gen/java/io/openapi/model/Color.java"

theorem modelDestination_java :
    javaSettings.modelDestination .jaxrsSpec "Color" = javaColor := by
  decide +kernel

/-- The models of a draft with the texts of the document that stand in their comments, whether there
is no fault, and what it has a text for. -/
def descriptions (d : Draft) : List (String × List String) × Bool × List String :=
  (d.report.models.map fun m => (m.className, CommentStyle.java.printed m), d.report.errors.isEmpty,
    d.texts.map Prod.fst)

theorem draft_described {description : String}
    (hmake : (Draft.make ((ofTarget .jaxrsSpec classesOnly).building javaSettings) javaSettings
      (normalized .jaxrsSpec (.colored (describedSchema description))) [] (.ok ⟨[]⟩)).result.toOption.map
        descriptions = some ([("Color", [description, "shade", "light", "dark"])], true,
          [javaColor, "src/gen/java/io/openapi/api/ColorApi.java"])) :
    ∃ draft m text, (ofTarget .jaxrsSpec classesOnly).draft (.colored (describedSchema description)) []
        (.ok ⟨[]⟩) = .ok draft
      ∧ draft.report.models = [m] ∧ draft.report.errors = []
      ∧ CommentStyle.java.printed m = [description, "shade", "light", "dark"]
      ∧ javaSettings.modelDestination .jaxrsSpec m.className = javaColor
      ∧ (javaColor, text) ∈ draft.texts := by
  obtain ⟨draft, hdraft, hbrief⟩ := Attempt.exists_of_toOption_map hmake
  simp only [descriptions, Prod.mk.injEq] at hbrief
  obtain ⟨hmodels, herrors, htexts⟩ := hbrief
  obtain ⟨m, hm, hmodel⟩ := List.map_eq_singleton_iff.mp hmodels
  obtain ⟨hclass, hprinted⟩ := Prod.mk.inj hmodel
  have hin : javaColor ∈ draft.texts.map Prod.fst := by
    rw [htexts]
    exact List.mem_cons_self ..
  obtain ⟨⟨path, text⟩, htext, hfirst⟩ := List.mem_map.mp hin
  have hpath : javaSettings.modelDestination .jaxrsSpec m.className = javaColor := by
    rw [hclass]
    exact modelDestination_java
  obtain ⟨hprepared, hbuilding⟩ := @prepare_of_settings _ (.colored (describedSchema description)) _
    rfl ofOptions_java
  refine ⟨draft, m, text, ?_, hm, List.isEmpty_iff.mp herrors, hprinted, hpath,
    hfirst ▸ htext⟩
  rw [Generator.draft, hprepared, hbuilding]
  exact hdraft

theorem commentStyle_java : (ofTarget .jaxrsSpec classesOnly).target.commentStyle = .java := rfl

/-- A star and a slash apart from each other stay in the comment of a class. -/
theorem comments_closed_iff_apart : ∃ draft m text parts,
    (ofTarget .jaxrsSpec classesOnly).draft (.colored (describedSchema "a * b / c")) [] (.ok ⟨[]⟩)
        = .ok draft
      ∧ m ∈ draft.report.models ∧ (javaColor, text) ∈ draft.texts
      ∧ Part.textOf .java parts = text
      ∧ parts.filterMap Part.comment? = CommentStyle.java.comments m
      ∧ CommentStyle.java.printed m = ["a * b / c", "shade", "light", "dark"]
      ∧ Part.AllClosed .java parts := by
  obtain ⟨draft, m, text, hdraft, hmodels, -, hprinted, hpath, htext⟩ :=
    @draft_described "a * b / c" (by decide +kernel)
  have hin : m ∈ draft.report.models := hmodels ▸ List.mem_singleton_self m
  have hwanted : javaSettings.generateModels = true := by decide +kernel
  have hkeeps : ∀ s ∈ ["a * b / c", "shade", "light", "dark"], CommentRules.java.Keeps s := by
    have hplain : ∀ s ∈ ["shade", "light", "dark"], s.toList.all CommentRules.isJavaPlain = true := by
      decide
    rw [List.forall_mem_cons]
    exact ⟨CommentRules.keeps_java_iff.mpr ⟨"a * b / c".toList, by decide, by decide +kernel⟩,
      fun s hs => CommentRules.keeps_java_of_plain (hplain s hs)⟩
  rw [← hpath] at htext
  obtain ⟨parts, hparts, hcomments, hclosed⟩ :=
    comments_closed_iff (by simp [ofTarget]) ofOptions_java hdraft hwanted hin htext
  rw [hpath] at htext
  rw [commentStyle_java] at hparts hcomments hclosed
  refine ⟨draft, m, text, parts, hdraft, hin, htext, hparts, hcomments, hprinted, hclosed.mpr ?_⟩
  rw [hprinted]
  exact hkeeps

/-- A description that holds a closing leaves the comment it is printed in. -/
theorem description_leaves : ∃ draft m text parts,
    Spec.ofValue (Spec.colored (describedSchema "a */ b")).document
        (Spec.colored (describedSchema "a */ b")).source = .ok (.colored (describedSchema "a */ b"))
      ∧ (ofTarget .jaxrsSpec classesOnly).draft (.colored (describedSchema "a */ b")) [] (.ok ⟨[]⟩)
        = .ok draft
      ∧ draft.report.models = [m] ∧ draft.report.errors = []
      ∧ (javaColor, text) ∈ draft.texts ∧ Part.textOf .java parts = text
      ∧ parts.filterMap Part.comment? = CommentStyle.java.comments m
      ∧ ¬Part.AllClosed .java parts := by
  obtain ⟨draft, m, text, hdraft, hmodels, herrors, hprinted, hpath, htext⟩ :=
    @draft_described "a */ b" (by decide +kernel)
  have hin : m ∈ draft.report.models := hmodels ▸ List.mem_singleton_self m
  have hwanted : javaSettings.generateModels = true := by decide +kernel
  obtain ⟨material, base, hd⟩ := drafted_of_draft ofOptions_java hdraft
  have hmodel : m ∈ material.models := hd.models ▸ hin
  have ht : (ofTarget .jaxrsSpec classesOnly).target ∈ [.jaxrsSpec, .spring, .python] := by
    simp [ofTarget]
  rw [← hpath] at htext
  have hfile := hd.hasComments ht hwanted hmodel htext
  have hkeeps := hd.keeps_comments_iff ht hmodel
  rw [hpath] at htext
  rw [commentStyle_java] at hfile hkeeps
  obtain ⟨parts, hparts, hcomments, hclosed⟩ := hfile.exists_parts CommentRules.isLawful_java
  refine ⟨draft, m, text, parts, Spec.ofValue_document (by decide +kernel), hdraft, hmodels, herrors,
    htext, hparts, hcomments, fun hall => ?_⟩
  have hdescription : "a */ b" ∈ CommentStyle.java.printed m := by
    rw [hprinted]
    exact List.mem_cons_self ..
  obtain ⟨meant, hmeant, hno⟩ := CommentRules.keeps_java_iff.mp
    (hkeeps.mp (hclosed.mp hall) _ hdescription)
  have hmeaning : CommentRules.java.meaning? .nothing "a */ b".toList = some "a */ b".toList := by
    decide
  rw [hmeaning, Option.some.injEq] at hmeant
  exact hno (hmeant ▸ ⟨['a', ' '], [' ', 'b'], rfl⟩)

end Generator

end ApiScaffold
