import ApiScaffold.Proofs.Template.Enumeration
import ApiScaffold.Proofs.Target.Identifiers
import ApiScaffold.Proofs.Text.Comment

/-!
# Comments as templates write them

The file of a model has a comment that tells what the class is, and that of a record more of them:
in Java one above each getter, in Python one inside the class. What they tell is the document's own,
and it is written as it stands.

* `CommentStyle`: how a language comments the file of a model, with which texts of the document in
  it.
* `keeps_java_comments` and `keeps_python_comments`: the comments of a file stay inside exactly if
  all texts of the document in them do. What the templates put around those texts keeps them apart.
* `HasComments` and `Lays`: a text is that of a file with certain comments, and a run of a template
  comes to such a text. `lays_modelFile` is shown part by part along the templates of both
  languages.
-/

namespace ApiScaffold

/-- What comments tell about a property. -/
def Property.account (p : Property) : String := (p.description.orElse (.str p.wireName)).display

/-- The texts of the document in the comment of a property. -/
def Property.accountTexts (p : Property) : List String :=
  p.account :: p.allowedValues.map Value.display

/-- The line about the values of a property, if only certain ones are allowed. -/
def Property.valuesLine? (p : Property) : List String :=
  if p.allowedValues.isEmpty then []
  else ["Allowed values: " ++ String.intercalate ", " (p.allowedValues.map Value.display)]

/-- The lines of the comment above the getter of a property. -/
def Property.accountLines (p : Property) : List String :=
  p.account :: (p.valuesLine? ++ ["@return " ++ p.name])

/-- What comments tell about a model. -/
def Model.account (m : Model) : String := (m.description.orElse (.str m.className)).display

namespace Template

open Datum (Stop)

/-- The text of a comment with lines under each other in Java. -/
def javadoc (indent : String) (lines : List String) : String :=
  "*" ++ ("\n" ++ indent ++ " * ") ++ String.intercalate ("\n" ++ indent ++ " * ") lines
    ++ ("\n" ++ indent ++ " ")

/-- How a language comments the file of a model. -/
structure CommentStyle where
  rules : CommentRules
  /-- The texts of the comments in order. -/
  comments : Model → List String
  /-- The texts of the document that stand in comments. -/
  printed : Model → List String

namespace CommentStyle

def java : CommentStyle where
  rules := .java
  comments m := javadoc "" [m.account]
    :: if m.isEnum then [] else m.properties.map fun p => javadoc "  " p.accountLines
  printed m := m.account :: if m.isEnum then [] else m.properties.flatMap Property.accountTexts

def python : CommentStyle where
  rules := .python
  comments m := m.account :: if m.isEnum then [] else [m.account]
  printed m := [m.account]

/-! ## What stands in comments -/

open CommentRules

theorem keeps_empty : CommentRules.java.Keeps "" := keeps_java_of_plain (by decide)

theorem keeps_star : CommentRules.java.Keeps "*" := ⟨['*'], rfl, 1, rfl, rfl⟩

theorem isBreak_space : CommentRules.java.IsBreak " " := isBreak_java rfl (by decide)

theorem isBreak_line : CommentRules.java.IsBreak "\n" := isBreak_java rfl (by decide)

/-- A line of a comment stays inside exactly if what stands behind its first words does. -/
theorem keeps_line {words s : String} (hw : words.toList.all isJavaPlain = true) :
    CommentRules.java.Keeps (words ++ " " ++ s) ↔ CommentRules.java.Keeps s := by
  rw [isBreak_space]
  exact and_iff_right (keeps_java_of_plain hw)

/-- A comment of lines stays inside exactly if all its lines do. -/
theorem keeps_javadoc {indent : String} (hi : CommentRules.java.Keeps indent) {lines : List String} :
    CommentRules.java.Keeps (javadoc indent lines) ↔ ∀ l ∈ lines, CommentRules.java.Keeps l := by
  have hend : CommentRules.java.IsBreak ("\n" ++ indent ++ " ") := isBreak_line.around hi isBreak_space
  have hbetween : CommentRules.java.IsBreak ("\n" ++ indent ++ " * ") := by
    have hstar : " * " = " " ++ ("*" ++ " ") := rfl
    have hsplit : "\n" ++ indent ++ " * " = "\n" ++ indent ++ " " ++ "*" ++ " " := by
      simp only [hstar, String.append_assoc]
    rw [hsplit]
    exact hend.around keeps_star isBreak_space
  have hlast : javadoc indent lines
      = "*" ++ ("\n" ++ indent ++ " * ") ++ String.intercalate ("\n" ++ indent ++ " * ") lines
        ++ ("\n" ++ indent ++ " ") ++ "" := (String.append_empty ..).symm
  rw [hlast, hend, hbetween, hbetween.keeps_intercalate keeps_empty]
  simp [keeps_star, keeps_empty]

/-- The comment of a property stays inside exactly if all texts of the document in it do. -/
theorem keeps_accountLines {p : Property} (hn : Naming.IsPlain p.name) :
    (∀ l ∈ p.accountLines, CommentRules.java.Keeps l)
      ↔ ∀ s ∈ p.accountTexts, CommentRules.java.Keeps s := by
  have hname : CommentRules.java.Keeps ("@return " ++ p.name) := by
    have hwords : "@return " = "@return" ++ " " := rfl
    rw [hwords, keeps_line (by decide)]
    refine keeps_java_of_plain (List.all_eq_true.mpr fun c hc => ?_)
    simp only [isJavaPlain, Bool.and_eq_true, bne_iff_ne]
    constructor <;> rintro rfl
    · exact absurd (hn.chars _ hc) (by decide)
    · exact absurd (hn.chars _ hc) (by decide)
  have hvalues : (∀ l ∈ p.valuesLine?, CommentRules.java.Keeps l)
      ↔ ∀ s ∈ p.allowedValues.map Value.display, CommentRules.java.Keeps s := by
    have hcomma : CommentRules.java.IsBreak ", " := by
      have hsplit : ", " = "," ++ "" ++ " " := rfl
      rw [hsplit]
      exact (isBreak_java rfl (by decide)).around keeps_empty isBreak_space
    have hwords : "Allowed values: " = "Allowed values:" ++ " " := rfl
    unfold Property.valuesLine?
    by_cases hnone : p.allowedValues.isEmpty = true
    · rw [if_pos hnone, List.isEmpty_iff.mp hnone]
      rfl
    · rw [if_neg hnone, List.forall_mem_singleton, hwords, keeps_line (by decide),
        hcomma.keeps_intercalate keeps_empty]
  rw [Property.accountLines, Property.accountTexts, List.forall_mem_cons, List.forall_mem_append,
    List.forall_mem_singleton, List.forall_mem_cons, hvalues, and_iff_left hname]

/-- The comments of a file stay inside exactly if all texts of the document in them do. -/
theorem keeps_java_comments {m : Model} (hn : ∀ p ∈ m.properties, Naming.IsPlain p.name) :
    (∀ s ∈ java.comments m, CommentRules.java.Keeps s)
      ↔ ∀ s ∈ java.printed m, CommentRules.java.Keeps s := by
  have hproperties : (∀ s ∈ m.properties.map fun p => javadoc "  " p.accountLines,
        CommentRules.java.Keeps s)
      ↔ ∀ s ∈ m.properties.flatMap Property.accountTexts, CommentRules.java.Keeps s := by
    rw [List.forall_mem_map, List.forall_mem_flatMap]
    refine forall₂_congr fun p hp => ?_
    rw [keeps_javadoc (keeps_java_of_plain (by decide)), keeps_accountLines (hn p hp)]
  rw [java, List.forall_mem_cons, List.forall_mem_cons, keeps_javadoc keeps_empty,
    List.forall_mem_singleton]
  cases m.isEnum with
  | true => rfl
  | false => exact and_congr_right fun _ => hproperties

theorem keeps_python_comments {m : Model} :
    (∀ s ∈ python.comments m, CommentRules.python.Keeps s)
      ↔ ∀ s ∈ python.printed m, CommentRules.python.Keeps s := by
  simp only [python, List.forall_mem_cons]
  refine and_congr_right fun h => ?_
  cases m.isEnum <;> simp [h]

end CommentStyle

/-! ## Parts of templates -/

/-- A text is that of a file with certain comments. -/
def HasComments (r : CommentRules) (comments : List String) (s : String) : Prop :=
  ∃ parts, Part.textOf r parts = s ∧ parts.filterMap Part.comment? = comments

theorem HasComments.append {r : CommentRules} {cs ds : List String} {s t : String}
    (hs : HasComments r cs s) (ht : HasComments r ds t) : HasComments r (cs ++ ds) (s ++ t) := by
  obtain ⟨ps, rfl, rfl⟩ := hs
  obtain ⟨qs, rfl, rfl⟩ := ht
  exact ⟨ps ++ qs, by rw [Part.textOf, List.map_append, String.join_append]; rfl,
    List.filterMap_append ..⟩

/-- The comments of a file end behind their own closings exactly if their texts stay inside. -/
theorem HasComments.exists_parts {r : CommentRules} {comments : List String} {s : String}
    (hr : r.IsLawful) (h : HasComments r comments s) :
    ∃ parts, Part.textOf r parts = s ∧ parts.filterMap Part.comment? = comments
      ∧ (Part.AllClosed r parts ↔ ∀ t ∈ comments, r.Keeps t) := by
  obtain ⟨parts, htext, rfl⟩ := h
  exact ⟨parts, htext, rfl, Part.allClosed_iff hr⟩

/-- The texts of a loop's turns, with the comments of each. -/
theorem hasComments_join {r : CommentRules} {css : List (List String)} {ss : List String}
    (h : List.Forall₂ (HasComments r) css ss) : HasComments r css.flatten (String.join ss) := by
  induction h with
  | nil => exact ⟨[], rfl, rfl⟩
  | cons hs _ ih =>
      rw [List.flatten_cons, String.join_cons]
      exact hs.append ih

/-- What a run comes to, if it comes to a text, is a file with certain comments. -/
def Lays (r : CommentRules) (comments : List String) (run : Except Stop (String × Scope)) : Prop :=
  ∀ s after, run = .ok (s, after) → HasComments r comments s

section Lays

variable {embed : String → Scope → Except Stop String} {scope : Scope} {r : CommentRules}
  {cs ds : List String} {run : Except Stop (String × Scope)} {front back : List Node}

/-- What may be code. -/
theorem lays_code : Lays r [] run := fun s _ _ => ⟨[.code s], by simp [Part.textOf, Part.text], rfl⟩

/-- A comment with code around it. -/
theorem lays_comment {before t behind : String}
    (h : Writes (· = before ++ (r.opening ++ t ++ r.closing) ++ behind) scope run) :
    Lays r [t] run := by
  rintro s after rfl
  obtain ⟨rfl, -⟩ := h
  refine ⟨[.code before, .comment t, .code behind], ?_, rfl⟩
  simp [Part.textOf, Part.text, String.append_assoc]

theorem Lays.append (hf : Lays r cs (runAll embed scope front)) (hq : assignsAny front = false)
    (hb : Lays r ds (runAll embed scope back)) :
    Lays r (cs ++ ds) (runAll embed scope (front ++ back)) := by
  intro s after h
  obtain ⟨first, between, second, hfirst, hsecond, rfl⟩ := runAll_append_ok.mp h
  rw [runAll_scope front hq scope between first hfirst] at hsecond
  exact (hf _ _ hfirst).append (hb _ _ hsecond)

theorem Lays.append_code (hf : Lays r cs (runAll embed scope front)) (hq : assignsAny front = false) :
    Lays r cs (runAll embed scope (front ++ back)) :=
  List.append_nil cs ▸ hf.append hq lays_code

theorem Lays.code_append (hb : Lays r ds (runAll embed scope back)) (hq : assignsAny front = false) :
    Lays r ds (runAll embed scope (front ++ back)) :=
  lays_code.append hq hb

theorem lays_assign {x : String} {e : Expr}
    (h : ∀ d, Lays r cs (runAll embed ((x, d) :: scope) back)) :
    Lays r cs (runAll embed scope (.assign x e :: back)) := by
  intro s after hrun
  obtain ⟨first, between, second, hfirst, hsecond, rfl⟩ := runAll_cons_ok.mp hrun
  rw [Node.run] at hfirst
  obtain ⟨d, -, hfirst⟩ := Attempt.bind_eq_ok.mp hfirst
  cases hfirst
  rw [String.empty_append]
  exact h d _ _ hsecond

/-- A loop lays the comments of its turns in order. -/
theorem lays_each {α : Type} {f : α → Datum} {comments : α → List String} {items : List α}
    {x : String} {source : Expr} {body : List Node} {line : Nat}
    (hs : source.eval scope = .ok (.tuple (items.map f)))
    (h : ∀ item index, Lays r (comments item)
      (runAll embed ((x, f item) :: ("loop", .turn index items.length) :: scope) body)) :
    Lays r (items.flatMap comments) ((Node.each x source body [] line).run embed scope) := by
  intro s after hrun
  obtain ⟨turns, rfl, hturns⟩ := run_each_ok hs hrun
  rw [List.length_map, List.forall₂_map_left_iff] at hturns
  rw [List.flatMap_def]
  refine hasComments_join (List.forall₂_map_left_iff.mpr (hturns.imp fun item turn hturn => ?_))
  obtain ⟨index, last, hbody⟩ := hturn
  exact h item index _ _ hbody

end Lays

namespace Builtin

variable {embed : String → Scope → Except Stop String} {scope : Scope} {m : Model} {p : Property}

/-- The part of a file that has comments only if the model is a record. -/
theorem lays_isEnum {r : CommentRules} {cs : List String} {yes no : List Node}
    (hm : find scope "model" = m.datum) (h : Lays r cs (runAll embed scope no)) :
    Lays r (if m.isEnum then [] else cs)
      ((Node.branch (model "is_enum") yes no).run embed scope) := by
  have henum : (model "is_enum").eval scope = .ok (.bool m.isEnum) := eval_field hm rfl
  rw [run_branch_ok henum]
  cases m.isEnum with
  | true => exact lays_code
  | false => exact h

/-! ## What is printed in comments -/

theorem writes_value {e : Expr} {v : Value} (h : e.eval scope = .ok (.value v)) :
    Writes (· = v.display) scope ((Node.print e).run embed scope) := by
  rw [Node.run, h]
  exact (gives_display_value v).bind fun text htext => gives_ok ⟨htext, rfl⟩

theorem eval_orElse {a b : Expr} {v w : Value} (ha : a.eval scope = .ok (.value v))
    (hb : b.eval scope = .ok (.value w)) :
    (orElse a b).eval scope = .ok (.value (v.orElse w)) := by
  rw [orElse, Expr.eval, ha, hb, Value.orElse]
  show (if v.isTruthy then _ else _) = _
  split <;> rfl

theorem writes_modelAccount (hm : find scope "model" = m.datum) :
    Writes (· = m.account) scope
      ((Node.print (orElse (model "description") (model "classname"))).run embed scope) :=
  writes_value (eval_orElse (eval_field hm rfl) (eval_field hm rfl))

theorem writes_propertyAccount (hp : find scope "var" = p.datum) :
    Writes (· = p.account) scope
      ((Node.print (orElse (prop "description") (prop "base_name"))).run embed scope) :=
  writes_value (eval_orElse (eval_field hp rfl) (eval_field hp rfl))

theorem eval_allowedValues (hp : find scope "var" = p.datum) :
    (prop "allowable_values").eval scope = .ok (.tuple (p.allowedValues.map .value)) :=
  eval_field hp rfl

/-- The texts of values with a separator between them. -/
theorem writes_joined {e : Expr} {vs : List Value} {separator : String}
    (h : e.eval scope = .ok (.tuple (vs.map .value))) :
    Writes (· = String.intercalate separator (vs.map Value.display)) scope
      ((Node.print (joined separator e)).run embed scope) := by
  have htexts : Gives (· = vs.map Value.display) ((vs.map Datum.value).mapM Datum.display) := by
    rw [List.mapM_map]
    refine (gives_mapM fun v _ => gives_display_value v).imp fun texts hall => ?_
    rw [← List.forall₂_eq_eq_eq, List.forall₂_map_right_iff]
    exact hall.flip
  refine writes_print ?_
  rw [joined, Expr.eval, h]
  refine htexts.bind fun texts ht => gives_ok ?_
  rw [ht]

/-- The line about the values of a property is written if there are any. -/
theorem writes_valuesLine (hp : find scope "var" = p.datum) :
    Writes (· = String.join (p.valuesLine?.map fun l => "   * " ++ l ++ "\n")) scope
      ((whenever (prop "allowable_values") [
        "   * Allowed values: ", joined ", " (prop "allowable_values"), "\n"]).run embed scope) := by
  have hvalues := @eval_allowedValues scope p hp
  have hrun : ∀ yes, (whenever (prop "allowable_values") yes).run embed scope
      = runAll embed scope (if p.allowedValues.isEmpty then [] else yes) := by
    intro yes
    rw [whenever, Node.run, hvalues]
    show (if !(p.allowedValues.map Datum.value).isEmpty then _ else _) = _
    rw [List.isEmpty_map]
    cases p.allowedValues.isEmpty <;> rfl
  rw [hrun, Property.valuesLine?]
  cases p.allowedValues.isEmpty with
  | true => exact writes_nil
  | false =>
      have hwords : "   * Allowed values: " = "   * " ++ "Allowed values: " := rfl
      refine Writes.imp (writes_text.cons ((writes_joined hvalues).cons
        (writes_text.cons writes_nil))) ?_
      rintro _ rfl
      simp only [hwords, if_neg Bool.false_ne_true, List.map_cons, List.map_nil, String.join_cons,
        String.join_nil, String.append_assoc, String.append_empty]

namespace Java

open CommentStyle

/-- The comment above a getter. -/
theorem writes_fieldAccount (hp : find scope "var" = p.datum) :
    Writes (· = "\n  " ++ (CommentRules.java.opening ++ javadoc "  " p.accountLines
        ++ CommentRules.java.closing) ++ "\n") scope (runAll embed scope fieldAccount) := by
  have hname : Writes (· = p.name) scope ((Node.print (prop "name")).run embed scope) :=
    writes_print (gives_of_eq (eval_field hp rfl) rfl)
  have hopening : "  /**\n" = "  " ++ ("/*" ++ ("*" ++ "\n")) := rfl
  have hclosing : "   */\n" = "   " ++ ("*/" ++ "\n") := rfl
  have hreturn : "   * @return " = "   * " ++ "@return " := rfl
  have hline : "\n" ++ "  " ++ " * " = "\n" ++ "   * " := rfl
  have hfirst : "\n" ++ "  " = "\n  " := rfl
  have hlast : "\n" ++ "  " ++ " " = "\n" ++ "   " := rfl
  refine Writes.imp (writes_text.cons (writes_text.cons (writes_text.cons
    ((writes_propertyAccount hp).cons (writes_text.cons ((writes_valuesLine hp).cons
      (writes_text.cons (hname.cons (writes_text.cons (writes_text.cons writes_nil)))))))))) ?_
  rintro _ rfl
  have hlines : "*" ++ "\n" ++ "   * " ++ p.account ++ "\n"
        ++ String.join (p.valuesLine?.map fun l => "   * " ++ l ++ "\n") ++ "   * " ++ "@return "
        ++ p.name ++ "\n" ++ "   " = javadoc "  " p.accountLines := by
    rw [javadoc, Property.accountLines, Property.valuesLine?, hline, hlast]
    cases p.allowedValues.isEmpty <;>
      simp only [if_pos, if_neg Bool.false_ne_true, List.nil_append, List.cons_append, List.map_cons,
        List.map_nil, String.join_cons, String.join_nil, String.intercalate_cons_cons,
        String.intercalate_singleton, String.append_assoc, String.append_empty]
  rw [← hlines, hopening, hclosing, hreturn, ← hfirst]
  simp only [CommentRules.java, String.append_assoc, String.append_empty]

/-- The account of a class, above it. -/
def classAccount : Template := [
  "\n",
  "/**\n",
  " * ", orElse (model "description") (model "classname"), "\n",
  " */\n"]

/-- The comment above a class. -/
theorem writes_classAccount (hm : find scope "model" = m.datum) :
    Writes (· = "\n" ++ (CommentRules.java.opening ++ javadoc "" [m.account]
        ++ CommentRules.java.closing) ++ "\n") scope (runAll embed scope classAccount) := by
  have hopening : "/**\n" = "/*" ++ ("*" ++ "\n") := rfl
  have hclosing : " */\n" = " " ++ ("*/" ++ "\n") := rfl
  refine Writes.imp (writes_text.cons (writes_text.cons (writes_text.cons
    ((writes_modelAccount hm).cons (writes_text.cons (writes_text.cons writes_nil)))))) ?_
  rintro _ rfl
  rw [hopening, hclosing]
  simp only [javadoc, CommentRules.java, String.intercalate_singleton, String.append_assoc,
    String.append_empty]

/-- The class of a record has a comment above each getter. -/
theorem lays_fields (hm : find scope "model" = m.datum) :
    Lays .java (m.properties.map fun p => javadoc "  " p.accountLines)
      (runAll embed scope fields) := by
  have hfields : fields = fields.dropLast
      ++ [forEach "var" (model "vars") (fieldAccount ++ (fieldGetter ++ fieldSetters))] := rfl
  have hvars : (model "vars").eval scope = .ok (.tuple (m.properties.map Property.datum)) :=
    eval_field hm rfl
  have hloop : Lays .java (m.properties.flatMap fun p => [javadoc "  " p.accountLines])
      ((forEach "var" (model "vars") (fieldAccount ++ (fieldGetter ++ fieldSetters))).run
        embed scope) := by
    refine lays_each hvars fun p index => ?_
    exact (lays_comment (writes_fieldAccount rfl)).append_code rfl
  rw [hfields, List.map_eq_flatMap]
  refine Lays.code_append ?_ rfl
  rwa [runAll_single]

/-- The file of a model in Java has its comments. -/
theorem lays_modelFile (hm : find scope "model" = m.datum) :
    Lays .java (java.comments m) (runAll embed scope modelFile) := by
  have hfile : modelFile = modelFile.take 6
      ++ (.assign "with_json" (Expr.among (text "JsonProperty") (model "imports"))
        :: (classAccount ++ ((modelFile.drop 13).take 3
          ++ [.branch (model "is_enum") (constants ++ constantValue ++ constantLookup)
            (fields ++ (equality ++ hashAndText))]))) := rfl
  rw [hfile]
  refine Lays.code_append (lays_assign fun d => ?_) rfl
  have hseen : find (("with_json", d) :: scope) "model" = m.datum := by
    rw [find_cons_ne (by decide), hm]
  refine (lays_comment (writes_classAccount hseen)).append rfl (Lays.code_append ?_ rfl)
  rw [runAll_single]
  exact lays_isEnum hseen ((lays_fields hseen).append_code rfl)

end Java

namespace Python

open CommentStyle

/-- The account of a class in triple quotes. -/
def docstring (indent : String) : Template := [
  .text (indent ++ "\"\"\""), orElse (model "description") (model "classname"), "\"\"\"\n"]

/-- A docstring with an indent in front. -/
theorem writes_docstring (hm : find scope "model" = m.datum) (indent : String) :
    Writes (· = indent ++ (CommentRules.python.opening ++ m.account ++ CommentRules.python.closing)
        ++ "\n") scope (runAll embed scope (docstring indent)) := by
  have hclosing : "\"\"\"\n" = "\"\"\"" ++ "\n" := rfl
  refine Writes.imp (writes_text.cons ((writes_modelAccount hm).cons
    (writes_text.cons writes_nil))) ?_
  rintro _ rfl
  rw [hclosing]
  simp only [CommentRules.python, String.append_assoc, String.append_empty]

/-- The class of a record has a docstring. -/
theorem lays_fields (hm : find scope "model" = m.datum) :
    Lays .python [m.account] (runAll embed scope fields) := by
  have hfields : fields = fields.take 4 ++ (docstring "    " ++ fields.drop 7) := rfl
  rw [hfields]
  exact ((lays_comment (writes_docstring hm _)).append_code rfl).code_append rfl

/-- The file of a model in Python has its docstrings. -/
theorem lays_modelFile (hm : find scope "model" = m.datum) :
    Lays .python (python.comments m) (runAll embed scope modelFile) := by
  have hfile : modelFile = docstring "" ++ ((modelFile.drop 3).take 3
      ++ [.branch (model "is_enum") enumeration (imports ++ (fields ++ (toDict ++ fromDict)))]) :=
    rfl
  rw [hfile]
  refine (lays_comment (writes_docstring hm _)).append rfl (Lays.code_append ?_ rfl)
  rw [runAll_single]
  exact lays_isEnum hm (((lays_fields hm).append_code rfl).code_append rfl)

end Python

end Builtin

end Template

end ApiScaffold
