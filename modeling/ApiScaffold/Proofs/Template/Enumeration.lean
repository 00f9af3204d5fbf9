import ApiScaffold.Naming
import ApiScaffold.Proofs.Template.Outcome
import ApiScaffold.Proofs.Template.Python

/-!
# Enumerations as templates write them

The file of an enumeration, in Java and in Python, has a line for each of its values, with the
constant of the value and its literal; and whatever the values are, nothing in the template keeps
the file from being written.

* `EnumStyle`: how a language writes the constants of a class, with what stands in their place if
  there are none.
* `Declares`: a text declares the class of an enumeration with a constant for each of its values.
* `writes_values`: the loop over the values writes their constants if each turn writes one, which
  `writes_java_line` and `writes_python_line` show for the two templates.
* `tells_modelFile`: so the file is written and declares the class, in both languages.
-/

namespace ApiScaffold

/-- The constant of a value. -/
def Value.constant (v : Value) : String := Naming.constant v.display

/-- The constants of the values of an enumeration, each with its literal. -/
def Model.constants (m : Model) : List (String × String) :=
  (m.allowedValues.map Value.constant).zip m.enumLiterals

theorem Model.map_fst_constants {m : Model}
    (hlen : m.allowedValues.length = m.enumLiterals.length) :
    m.constants.map Prod.fst = m.allowedValues.map Value.constant :=
  List.map_fst_zip (Nat.le_of_eq (by rw [List.length_map, hlen]))

theorem Model.constants_eq_nil_iff {m : Model}
    (hlen : m.allowedValues.length = m.enumLiterals.length) :
    m.constants = [] ↔ m.allowedValues = [] := by
  rw [Model.constants, List.zip_eq_nil_iff, List.map_eq_nil_iff]
  refine or_iff_left_of_imp fun h => List.eq_nil_of_length_eq_zero ?_
  rw [hlen, h, List.length_nil]

namespace Template

open Datum (Stop)

/-- How a language writes the constants of a class. -/
structure EnumStyle where
  header : String → String
  /-- The line of a constant with its literal, which may be the last one. -/
  line : String × String → Bool → String
  /-- What stands in place of constants. -/
  none : String

namespace EnumStyle

def java : EnumStyle where
  header cls := "public enum " ++ cls ++ " \x7b\n"
  line c isLast := "  " ++ c.1 ++ "(" ++ c.2 ++ ")" ++ (if isLast then ";" else ",") ++ "\n"
  none := "  ;\n"

def python : EnumStyle where
  header cls := "class " ++ cls ++ "(enum.Enum):\n"
  line c _ := "    " ++ c.1 ++ " = " ++ c.2 ++ "\n"
  none := "    pass\n"

/-- The lines of constants in order, or what stands in their place. -/
def body (style : EnumStyle) (constants : List (String × String)) : String :=
  if constants = [] then style.none
  else String.join (constants.zipIdx.map fun p => style.line p.1 (p.2 + 1 == constants.length))

/-- A text declares the class of an enumeration with a constant for each of its values. -/
def Declares (style : EnumStyle) (m : Model) (s : String) : Prop :=
  ∃ opening closing, s = opening ++ (style.header m.className ++ style.body m.constants) ++ closing

/-- What a text declares it declares with another text in front. -/
theorem Declares.append_left {style : EnumStyle} {m : Model} {s : String}
    (h : style.Declares m s) (front : String) : style.Declares m (front ++ s) := by
  obtain ⟨opening, closing, rfl⟩ := h
  exact ⟨front ++ opening, closing, by simp only [String.append_assoc]⟩

end EnumStyle

namespace Builtin

variable {embed : String → Scope → Except Stop String} {scope : Scope} {m : Model} {key : String}
  {d : Datum}

/-! ## What the templates of models see -/

theorem find_cons_ne {x y : String} (h : y ≠ x) : find ((x, d) :: scope) y = find scope y := by
  have hne : (y == x) = false := beq_eq_false_iff_ne.mpr h
  rw [find, List.lookup_cons, hne]
  rfl

theorem eval_field {x : String} {whole : Datum} (hx : find scope x = whole)
    (hd : whole.field key = .ok d) : (Expr.field (.name x) key).eval scope = .ok d := by
  show (do (← (Expr.name x).eval scope).field key) = _
  rw [Expr.eval, hx]
  exact hd

theorem eval_values (hm : find scope "model" = m.datum) :
    (model "allowable_values").eval scope = .ok (.ofValues m.allowedValues) := eval_field hm rfl

/-- A field of the model in front of the class name, where it is empty. -/
theorem gives_description (hm : find scope "model" = m.datum) :
    Gives IsThere ((orElse (model "description") (model "classname")).eval scope) := by
  have hdescription : (model "description").eval scope = .ok (.value m.description) :=
    eval_field hm rfl
  have hclass : (model "classname").eval scope = .ok (.str m.className) := eval_field hm rfl
  rw [orElse, Expr.eval, hdescription, hclass]
  show Gives IsThere (if m.description.isTruthy then .ok (.value m.description) else _)
  split
  · exact gives_ok trivial
  · exact gives_ok trivial

theorem gives_account (hm : find scope "model" = m.datum) :
    Gives IsThere ((json (model "description")).eval scope) := by
  have hdescription : (model "description").eval scope = .ok (.value m.description) :=
    eval_field hm rfl
  rw [json, Expr.eval, hdescription]
  exact (gives_jsonOf_value m.description).bind fun text _ => gives_ok trivial

/-! ## The turns of the constants -/

variable {v : Value} {index length : Nat} {literal : String}

/-- What the body of the loop over values sees. -/
def turnScope (scope : Scope) (v : Value) (index length : Nat) : Scope :=
  ("value", .value v) :: ("loop", .turn index length) :: scope

theorem gives_constant :
    Gives (· = Datum.str v.constant)
      ((constant (name "value")).eval (turnScope scope v index length)) := by
  have hvalue : (name "value").eval (turnScope scope v index length) = .ok (.value v) := rfl
  rw [constant, Expr.eval, hvalue]
  refine (gives_display_value v).bind fun text htext => gives_ok ?_
  rw [htext, Value.constant]

theorem find_model_turnScope (hm : find scope "model" = m.datum) :
    find (turnScope scope v index length) "model" = m.datum := by
  rw [turnScope, find_cons_ne (by decide), find_cons_ne (by decide), hm]

theorem eval_literal (hm : find scope "model" = m.datum) (hl : m.enumLiterals[index]? = some literal) :
    (Expr.item (model "enum_literals") (turn "index0")).eval (turnScope scope v index length)
      = .ok (.str literal) := by
  have hliterals : (model "enum_literals").eval (turnScope scope v index length)
      = .ok (.strs m.enumLiterals) := eval_field (find_model_turnScope hm) rfl
  have hturn : (turn "index0").eval (turnScope scope v index length) = .ok (.nat index) := rfl
  have hitem : Datum.itemAt? (m.enumLiterals.map Datum.str) (index : Int) = some (.str literal) := by
    rw [Datum.itemAt?, if_pos (Int.natCast_nonneg index), Int.toNat_natCast, List.getElem?_map, hl]
    rfl
  rw [Expr.eval, hliterals, hturn]
  show Except.ok ((Datum.itemAt? (m.enumLiterals.map Datum.str) (index : Int)).getD _) = _
  rw [hitem]
  rfl

/-- The loop over the values of an enumeration writes their constants, if a turn writes one. -/
theorem writes_values {style : EnumStyle} {turnNodes otherwise : List Node} {line : Nat}
    (hm : find scope "model" = m.datum) (hlen : m.allowedValues.length = m.enumLiterals.length)
    (hturn : ∀ v literal index length, m.enumLiterals[index]? = some literal →
      Writes (· = style.line (v.constant, literal) (index + 1 == length))
        (turnScope scope v index length)
        (runAll embed (turnScope scope v index length) turnNodes))
    (hnone : Writes (· = style.none) scope (runAll embed scope otherwise)) :
    Writes (· = style.body m.constants) scope
      ((Node.each "value" (model "allowable_values") turnNodes otherwise line).run embed scope) := by
  have hvalues : (m.allowedValues.zip m.enumLiterals).map Prod.fst = m.allowedValues :=
    List.map_fst_zip (Nat.le_of_eq hlen)
  have hitems : ((model "allowable_values").eval scope >>= Datum.items)
      = .ok ((m.allowedValues.zip m.enumLiterals).map fun e => .value e.1) := by
    rw [eval_values hm]
    show _ = Except.ok ((m.allowedValues.zip m.enumLiterals).map (Datum.value ∘ Prod.fst))
    rw [← List.map_map, hvalues]
    rfl
  have hconstants : m.constants
      = (m.allowedValues.zip m.enumLiterals).map (Prod.map Value.constant id) :=
    List.zip_map_left
  by_cases hempty : m.allowedValues.zip m.enumLiterals = []
  · rw [hempty] at hitems
    have hbody : style.body m.constants = style.none := by
      rw [EnumStyle.body, hconstants, hempty]
      rfl
    rw [hbody]
    exact writes_each_nil hitems hnone.tells
  · have hbody : style.body m.constants = String.join ((m.allowedValues.zip m.enumLiterals).zipIdx.map
        fun p => style.line (p.1.1.constant, p.1.2)
          (p.2 + 1 == (m.allowedValues.zip m.enumLiterals).length)) := by
      rw [EnumStyle.body, hconstants, if_neg (mt List.map_eq_nil_iff.mp hempty),
        List.zipIdx_map, List.map_map, List.length_map]
      rfl
    rw [hbody]
    refine writes_each_eq hitems hempty fun p hp => ?_
    have hentry := List.mem_zipIdx_iff_getElem?.mp hp
    have hliteral : m.enumLiterals[p.2]? = some p.1.2 := (List.getElem?_zip_eq_some.mp hentry).2
    exact (hturn p.1.1 p.1.2 p.2 _ hliteral).tells

/-- The line of a constant in Java. -/
theorem writes_java_line (hm : find scope "model" = m.datum)
    (hl : m.enumLiterals[index]? = some literal) :
    Writes (· = EnumStyle.java.line (v.constant, literal) (index + 1 == length))
      (turnScope scope v index length) (runAll embed (turnScope scope v index length) [
        "  ", constant (name "value"), "(", Expr.item (model "enum_literals") (turn "index0"), ")",
        oneOf (turn "last") ";" ",", "\n"]) := by
  have hlast : (oneOf (turn "last") ";" ",").eval (turnScope scope v index length)
      = .ok (.str (if index + 1 == length then ";" else ",")) := by
    rw [oneOf, Expr.eval]
    show (if (index + 1 == length) = true then _ else _) = _
    split <;> rfl
  refine Writes.imp (writes_text.cons ((writes_print gives_constant).cons (writes_text.cons
    ((writes_print (gives_of_eq (eval_literal hm hl) rfl)).cons (writes_text.cons
      ((writes_print (gives_of_eq hlast rfl)).cons (writes_text.cons writes_nil))))))) ?_
  rintro _ rfl
  simp only [EnumStyle.java, String.append_assoc, String.append_empty]

/-- The line of a constant in Python. -/
theorem writes_python_line (hm : find scope "model" = m.datum)
    (hl : m.enumLiterals[index]? = some literal) :
    Writes (· = EnumStyle.python.line (v.constant, literal) (index + 1 == length))
      (turnScope scope v index length) (runAll embed (turnScope scope v index length) [
        "    ", constant (name "value"), " = ",
        Expr.item (model "enum_literals") (turn "index0"), "\n"]) := by
  refine Writes.imp (writes_text.cons ((writes_print gives_constant).cons (writes_text.cons
    ((writes_print (gives_of_eq (eval_literal hm hl) rfl)).cons (writes_text.cons writes_nil))))) ?_
  rintro _ rfl
  simp only [EnumStyle.python, String.append_assoc, String.append_empty]

/-! ## The files of enumerations -/

/-- The part of the file of an enumeration that is for enumerations. -/
theorem writes_isEnum {P : String → Prop} {yes no : List Node} (hm : find scope "model" = m.datum)
    (he : m.isEnum = true) (h : Writes P scope (runAll embed scope yes)) :
    Writes P scope ((Node.branch (model "is_enum") yes no).run embed scope) :=
  writes_branch (b := true) (eval_field hm (by rw [← he]; rfl)) h

theorem writes_className (hm : find scope "model" = m.datum) :
    Writes (· = m.className) scope ((Node.print (model "classname")).run embed scope) :=
  writes_print (gives_of_eq (eval_field hm rfl) rfl)

namespace Python

/-- The class of an enumeration in Python. -/
theorem writes_enumeration (hm : find scope "model" = m.datum)
    (hlen : m.allowedValues.length = m.enumLiterals.length) :
    Writes (· = "import enum\n" ++ ("\n" ++ ("\n"
        ++ (EnumStyle.python.header m.className ++ EnumStyle.python.body m.constants))))
      scope (runAll embed scope enumeration) := by
  have hvalues := @writes_values embed scope m .python _ ["    pass\n"] 0 hm hlen
    (fun v literal index length hl => writes_python_line hm hl) (writes_text.cons writes_nil)
  refine Writes.imp (writes_text.cons (writes_text.cons (writes_text.cons (writes_text.cons
    ((writes_className hm).cons (writes_text.cons (hvalues.cons writes_nil))))))) ?_
  rintro _ rfl
  simp only [EnumStyle.python, String.append_assoc, String.append_empty]

/-- The file of an enumeration in Python. -/
theorem tells_modelFile (hm : find scope "model" = m.datum) (he : m.isEnum = true)
    (hlen : m.allowedValues.length = m.enumLiterals.length) :
    Tells (EnumStyle.python.Declares m) (runAll embed scope modelFile) := by
  have hfile : modelFile = modelFile.dropLast
      ++ [.branch (model "is_enum") enumeration (imports ++ fields ++ toDict ++ fromDict)] := rfl
  have hopening : WritesAny scope (runAll embed scope modelFile.dropLast) :=
    writesAny_text (writesAny_cons (writesAny_print (gives_description hm)) (writesAny_text
      (writesAny_text (writesAny_text (writesAny_text writesAny_nil)))))
  rw [hfile]
  refine hopening.append_tells
    (writes_single.mpr (writes_isEnum hm he (writes_enumeration hm hlen))).tells ?_
  rintro opening _ - rfl
  exact ⟨opening ++ "import enum\n" ++ "\n" ++ "\n", "", by
    simp only [String.append_assoc, String.append_empty]⟩

end Python

namespace Java

theorem eval_noValues (hm : find scope "model" = m.datum)
    (hlen : m.allowedValues.length = m.enumLiterals.length) :
    (Expr.negate (model "allowable_values")).eval scope
      = .ok (.bool (decide (m.constants = []))) := by
  have hnot : (!(!(m.allowedValues.map Datum.value).isEmpty)) = decide (m.constants = []) := by
    rw [Bool.not_not, Bool.eq_iff_iff, List.isEmpty_iff, List.map_eq_nil_iff, decide_eq_true_iff,
      Model.constants_eq_nil_iff hlen]
  rw [Expr.eval, eval_values hm, ← hnot]
  rfl

/-- The constants of an enumeration in Java. -/
theorem writes_constants (hm : find scope "model" = m.datum)
    (hlen : m.allowedValues.length = m.enumLiterals.length) :
    Writes (· = EnumStyle.java.header m.className ++ EnumStyle.java.body m.constants ++ "\n")
      scope (runAll embed scope constants) := by
  -- the loop writes nothing in the place of constants, the branch in front of it does
  have hloop := @writes_values embed scope m { EnumStyle.java with none := "" } _ [] 0 hm hlen
    (fun v literal index length hl => writes_java_line hm hl) writes_nil
  have hnone : Writes (· = if m.constants = [] then "  ;\n" else "") scope
      ((whenNot (model "allowable_values") ["  ;\n"]).run embed scope) := by
    refine writes_branch (eval_noValues hm hlen) ?_
    by_cases hempty : m.constants = []
    · rw [decide_eq_true hempty, if_pos rfl, if_pos hempty]
      exact writes_text.cons writes_nil
    · rw [decide_eq_false hempty, if_neg Bool.false_ne_true, if_neg hempty]
      exact writes_nil
  refine Writes.imp (writes_text.cons ((writes_className hm).cons (writes_text.cons
    (hnone.cons (hloop.cons (writes_text.cons writes_nil)))))) ?_
  rintro _ rfl
  by_cases hempty : m.constants = []
  · simp only [EnumStyle.body, EnumStyle.java, if_pos hempty, String.append_assoc,
      String.append_empty, String.empty_append]
  · simp only [EnumStyle.body, EnumStyle.java, if_neg hempty, String.append_assoc,
      String.append_empty, String.empty_append]

/-- The class of an enumeration in Java. -/
theorem writes_enumeration (hm : find scope "model" = m.datum)
    (hlen : m.allowedValues.length = m.enumLiterals.length) :
    Writes (fun s => ∃ closing,
        s = EnumStyle.java.header m.className ++ EnumStyle.java.body m.constants ++ closing)
      scope (runAll embed scope (constants ++ constantValue ++ constantLookup)) := by
  have hfields : ∀ p ∈ [("model", "classname"), ("model", "enum_datatype")],
      Gives IsThere ((find scope p.1).field p.2) := by
    rw [List.forall_mem_cons, List.forall_mem_singleton, hm]
    exact ⟨gives_of_eq (x := .str m.className) rfl trivial,
      gives_of_eq (x := .str m.enumType) rfl trivial⟩
  have hvalue : WritesAny scope (runAll embed scope constantValue) := writesAny_of_isPlain hfields rfl
  have hlookup : WritesAny scope (runAll embed scope constantLookup) :=
    writesAny_of_isPlain hfields rfl
  rw [List.append_assoc]
  refine (writes_constants hm hlen).append
    (hvalue.append (R := fun _ => True) hlookup fun _ _ _ _ => trivial) ?_
  rintro _ closing rfl -
  exact ⟨"\n" ++ closing, by rw [String.append_assoc]⟩

/-- What stands in front of the class: the package, and what the file imports. -/
theorem writesAny_opening {settings : Settings} {classes : List String}
    (hs : find scope "settings" = settings.datum)
    (hi : find scope "library_imports" = .list (classes.map .str)) :
    WritesAny scope (runAll embed scope (modelFile.take 6)) := by
  have hpackage : WritesAny scope
      ((Node.print (Builtin.settings "model_package")).run embed scope) :=
    writesAny_print (gives_of_eq (x := .str settings.modelPackage) (eval_field hs rfl) trivial)
  have himports : WritesAny scope ((forEach "imp" (name "library_imports")
      ["import ", name "imp", ";\n"]).run embed scope) := by
    have hitems : ((name "library_imports").eval scope >>= Datum.items)
        = .ok (classes.map Datum.str) := by
      rw [name, Expr.eval, hi]
      rfl
    refine writesAny_each hitems fun p hp => (writesAny_text (writesAny_cons
      (writesAny_print ?_) (writesAny_text writesAny_nil))).tells
    exact gives_of_eq (x := .str p.1) rfl trivial
  exact writesAny_text (writesAny_cons hpackage (writesAny_text (writesAny_text (writesAny_text
    (writesAny_cons himports writesAny_nil)))))

/-- The class with its description, behind the name that is set for it. -/
theorem tells_class (hm : find scope "model" = m.datum) (he : m.isEnum = true)
    (hlen : m.allowedValues.length = m.enumLiterals.length) :
    Tells (EnumStyle.java.Declares m) (runAll embed scope (modelFile.drop 6)) := by
  have hclass : modelFile.drop 6
      = .assign "with_json" (Expr.among (text "JsonProperty") (model "imports"))
        :: ((modelFile.drop 7).dropLast ++ [.branch (model "is_enum")
          (constants ++ constantValue ++ constantLookup) (fields ++ equality ++ hashAndText)]) := rfl
  have hmarked : Gives (fun _ => True)
      ((Expr.among (text "JsonProperty") (model "imports")).eval scope) := by
    have hclasses : (model "imports").eval scope = .ok (.strs m.imports) := eval_field hm rfl
    rw [Expr.eval, hclasses]
    show Gives _ ((Datum.str "JsonProperty").among (.list (m.imports.map .str)) >>= fun b =>
      return Datum.bool b)
    rw [Python.among_strs]
    exact gives_ok trivial
  rw [hclass]
  refine tells_assign hmarked fun d => ?_
  have hseen : find (("with_json", d) :: scope) "model" = m.datum := by
    rw [find_cons_ne (by decide), hm]
  have haccount : WritesAny (("with_json", d) :: scope)
      (runAll embed (("with_json", d) :: scope) (modelFile.drop 7).dropLast) :=
    writesAny_text (writesAny_text (writesAny_text (writesAny_cons
      (writesAny_print (gives_description hseen)) (writesAny_text (writesAny_text (writesAny_text
        (writesAny_cons (writesAny_print (gives_account hseen))
          (writesAny_text writesAny_nil))))))))
  refine haccount.append_tells
    (writes_single.mpr (writes_isEnum hseen he (writes_enumeration hseen hlen))).tells ?_
  rintro account _ - ⟨closing, rfl⟩
  exact ⟨account, closing, by simp only [String.append_assoc]⟩

/-- The file of an enumeration in Java. -/
theorem tells_modelFile {settings : Settings} {classes : List String}
    (hs : find scope "settings" = settings.datum)
    (hi : find scope "library_imports" = .list (classes.map .str))
    (hm : find scope "model" = m.datum) (he : m.isEnum = true)
    (hlen : m.allowedValues.length = m.enumLiterals.length) :
    Tells (EnumStyle.java.Declares m) (runAll embed scope modelFile) := by
  rw [← List.take_append_drop 6 modelFile]
  exact (writesAny_opening hs hi).append_tells (tells_class hm he hlen)
    fun front _ _ hdeclares => hdeclares.append_left front

end Java

end Builtin

end Template

end ApiScaffold
