import ApiScaffold.Proofs.Template.Sequence
import ApiScaffold.Run.Task

/-!
# What the Python templates emit

The class of a group ends each of its methods with one statement, which makes an instance of a class
only if the file imports that class; the file of a model that is no enumeration ends with the
function that such a statement calls.

* `Returned`: the statement at the end of a method, which follows from the type of the result and
  from what the file imports (`run_returned`).
* `EndsMethods` and `EndsWithFromDict` say where in a text these stand, and `run_apiFile` and
  `run_modelFile` that the templates write such texts.
-/

namespace ApiScaffold.Template

/-! ## Built-in templates in a run -/

namespace Library

/-- Without templates of its own a run uses the built-in one of a name. -/
theorem load_builtin {t : Target} {file : String} (entry : Builtin.Entry)
    (hs : segments? file = some [file]) (hb : (ofTarget t []).builtin? file = some entry)
    (destination : String) : (ofTarget t []).load file destination = .ok entry.template := by
  have hpath : String.intercalate "/" [file] = file := String.intercalate_singleton
  have hfind : (ofTarget t []).find? file = some (.builtin entry) := by
    have hoverride : (ofTarget t []).override? [file] = none := rfl
    simp only [find?, hs, Option.bind_some, hoverride, hpath, hb, Option.map_some]
  rw [load, hfind]
  rfl

/-- The text of a template that can be used is what the template is run to. -/
theorem render_ok {library : Library} {id destination text : String} {scope : Scope}
    {template : Template} (hl : library.load id destination = .ok template)
    (h : library.render id scope destination = .ok text) :
    ∃ embed after, runAll embed scope template = .ok (text, after) := by
  obtain ⟨loaded, hloaded, h⟩ := Attempt.bind_eq_ok.mp h
  rw [hl] at hloaded
  cases hloaded
  split at h
  · cases h
  · split at h
    next t after hrun =>
      cases h
      exact ⟨_, after, hrun⟩
    next => split at h <;> cases h

end Library

namespace Builtin.Python

theorem load_apiFile (destination : String) :
    (Library.ofTarget .python []).load "api.py.j2" destination = .ok apiFile :=
  Library.load_builtin ⟨"python", "api.py.j2", apiFile⟩ (by decide +kernel) rfl _

theorem load_modelFile (destination : String) :
    (Library.ofTarget .python []).load "model.py.j2" destination = .ok modelFile :=
  Library.load_builtin ⟨"python", "model.py.j2", modelFile⟩ (by decide +kernel) rfl _

/-! ## What the templates come to -/

open Datum (Stop)

/-- The statement at the end of a method. -/
inductive Returned where
  /-- An instance of a class that is made from the data. -/
  | model (cls : String)
  | nothing
  | data
deriving DecidableEq

namespace Returned

def text : Returned → String
  | model cls => "        return " ++ cls ++ ".from_dict(data)\n"
  | nothing => "        return None\n"
  | data => "        return data\n"

/-- The statement for a type of results, in a file that imports classes. -/
def ofType (classes : List String) (type : String) : Returned :=
  if type ∈ classes then model type else if type = "None" then nothing else data

theorem ofType_eq_model {classes : List String} {type cls : String} :
    ofType classes type = model cls ↔ type = cls ∧ cls ∈ classes := by
  unfold ofType
  split
  next h => exact ⟨fun he => by cases he; exact ⟨rfl, h⟩, fun he => by rw [he.1]⟩
  next h =>
    split
    · exact ⟨fun he => (by cases he), fun he => absurd (he.1 ▸ he.2) h⟩
    · exact ⟨fun he => (by cases he), fun he => absurd (he.1 ▸ he.2) h⟩

end Returned

/-- A text consists of an opening and methods, each of which ends with its statement. -/
def EndsMethods (s : String) (statements : List Returned) : Prop :=
  ∃ opening methods, s = opening ++ String.join methods
    ∧ List.Forall₂ (fun statement method => ∃ front, method = front ++ statement.text)
        statements methods

/-- The function that makes an instance of a class from data. -/
def fromDictText (cls : String) : String :=
  "    @classmethod\n" ++ ("    def from_dict(cls, data: dict[str, Any]) -> " ++ (cls ++ (":\n"
    ++ "        return cls(**\x7bf: data[w] for f, w in cls._WIRE_NAMES.items() if w in data\x7d)\n")))

/-- A text ends with the function that makes an instance of a class. -/
def EndsWithFromDict (s cls : String) : Prop := ∃ front, s = front ++ fromDictText cls

variable {embed : String → Scope → Except Stop String} {scope after : Scope} {s : String}
  {classes : List String}

theorem equal_strs (x y : String) : (Datum.str x).equal (.str y) = .ok (decide (x = y)) := by
  show Except.ok ((Value.str x).keyEq (.str y) || (Value.str x).same (.str y)) = _
  have hkey : (Value.str x).keyEq (.str y) = (x == y) := rfl
  have hsame : (Value.str x).same (.str y) = (x == y) := by rw [Value.same]
  rw [hkey, hsame, Bool.or_self]
  rfl

/-- A text is among texts in a list exactly if the list holds it. -/
theorem among_strs (x : String) (names : List String) :
    (Datum.str x).among (.list (names.map .str)) = .ok (decide (x ∈ names)) := by
  show Datum.amongItems (.str x) (names.map .str) = _
  induction names with
  | nil => rfl
  | cons name rest ih =>
      rw [List.map_cons, Datum.amongItems, equal_strs]
      by_cases hx : x = name
      · simp [hx]
      · simpa [hx] using ih

/-- What a method returns follows from the type of its results and the imports of its file. -/
theorem run_returned {op : Operation} (ho : find scope "op" = op.datum)
    (hm : find scope "model_imports" = .list (classes.map .str)) :
    runAll embed scope returned
      = .ok ((Returned.ofType classes op.returnType).text, scope) := by
  have htype : (Builtin.op "return_type").eval scope = .ok (.str op.returnType) := by
    show (do (← (Expr.name "op").eval scope).field "return_type") = _
    rw [Expr.eval, ho]
    rfl
  have hmodel : (Expr.among (Builtin.op "return_type") (name "model_imports")).eval scope
      = .ok (.bool (decide (op.returnType ∈ classes))) := by
    rw [Expr.eval, htype, name, Expr.eval, hm]
    show (do return Datum.bool (← (Datum.str op.returnType).among (.list (classes.map .str)))) = _
    rw [among_strs]
    rfl
  have hnone : (Expr.equal (Builtin.op "return_type") (Builtin.text "None")).eval scope
      = .ok (.bool (decide (op.returnType = "None"))) := by
    rw [Expr.eval, htype]
    show (do return Datum.bool (← (Datum.str op.returnType).equal (.str "None"))) = _
    rw [equal_strs]
    rfl
  unfold returned Returned.ofType
  rw [runAll_single, run_branch_ok hmodel]
  by_cases hin : op.returnType ∈ classes
  · rw [decide_eq_true hin, if_pos rfl, if_pos hin]
    rw [runAll_text, runAll_print htype, runAll_single, Returned.text, String.append_assoc]
    rfl
  · rw [decide_eq_false hin, if_neg Bool.false_ne_true, if_neg hin, runAll_single,
      run_branch_ok hnone]
    by_cases hno : op.returnType = "None"
    · rw [decide_eq_true hno, if_pos rfl, if_pos hno, runAll_single]
      rfl
    · rw [decide_eq_false hno, if_neg Bool.false_ne_true, if_neg hno, runAll_single]
      rfl

/-- The part of a method before its last statement. -/
def method : Template :=
  sections [[Node.assign "body" (Builtin.op "body_param"), "\n", "    "], signature, account, request]

theorem run_method (h : runAll embed scope method = .ok (s, after)) :
    ∃ body, after = ("body", body) :: scope := by
  have hsplit : method = .assign "body" (Builtin.op "body_param") :: method.tail := rfl
  rw [hsplit] at h
  obtain ⟨first, between, second, hassign, hrest, -⟩ := runAll_cons_ok.mp h
  rw [Node.run] at hassign
  obtain ⟨body, -, hassign⟩ := Attempt.bind_eq_ok.mp hassign
  cases hassign
  exact ⟨body, runAll_scope _ (by decide) _ _ _ hrest⟩

/-- The class of a group whose file imports classes ends each method with the statement for it. -/
theorem run_apiFile {ops : List Operation}
    (hi : (Builtin.settings "interface_only").eval scope = .ok (.bool false))
    (ho : find scope "operations" = .tuple (ops.map Operation.datum))
    (hm : find scope "model_imports" = .list (classes.map .str))
    (h : runAll embed scope apiFile = .ok (s, after)) :
    EndsMethods s (ops.map fun op => Returned.ofType classes op.returnType) := by
  -- the file ends with the class, and the class with the loop over its operations
  have hfile : apiFile = apiFile.dropLast
      ++ [.branch (Builtin.settings "interface_only") protocol implementation] := rfl
  have hclass : implementation = implementation.dropLast
      ++ [forEach "op" (name "operations") (method ++ returned)] := rfl
  rw [hfile] at h
  obtain ⟨opening, body, hbody, rfl⟩ := runAll_last_ok (by decide) h
  rw [run_branch_ok hi, if_neg (by decide), hclass] at hbody
  obtain ⟨head, loop, hloop, rfl⟩ := runAll_last_ok (by decide) hbody
  have hitems : (name "operations").eval scope = .ok (.tuple (ops.map Operation.datum)) := by
    rw [name, Expr.eval, ho]
  obtain ⟨methods, rfl, hmethods⟩ := run_each_ok hitems hloop
  refine ⟨opening ++ head, methods, (String.append_assoc ..).symm, ?_⟩
  rw [List.forall₂_map_left_iff] at hmethods ⊢
  refine hmethods.imp fun op turn hturn => ?_
  obtain ⟨index, last, hrun⟩ := hturn
  obtain ⟨front, between, back, hfront, hback, rfl⟩ := runAll_append_ok.mp hrun
  -- all that the method has bound is its body, which hides neither the operation nor the imports
  obtain ⟨bound, rfl⟩ := run_method hfront
  have hop : find (("body", bound) :: ("op", op.datum)
      :: ("loop", .turn index (ops.map Operation.datum).length) :: scope) "op" = op.datum := rfl
  rw [run_returned hop hm] at hback
  cases hback
  exact ⟨front, rfl⟩

/-- The file of a model that is no enumeration ends with the function that makes an instance of its
class from data. -/
theorem run_modelFile {m : Model} (hm : find scope "model" = m.datum) (he : m.isEnum = false)
    (h : runAll embed scope modelFile = .ok (s, after)) : EndsWithFromDict s m.className := by
  have hfile : modelFile = modelFile.dropLast
      ++ [.branch (Builtin.model "is_enum") enumeration (imports ++ fields ++ toDict ++ fromDict)] :=
    rfl
  have hfield : ∀ key d, m.datum.field key = .ok d →
      (Builtin.model key).eval scope = .ok d := by
    intro key d hd
    show (do (← (Expr.name "model").eval scope).field key) = _
    rw [Expr.eval, hm]
    exact hd
  have henum : (Builtin.model "is_enum").eval scope = .ok (.bool false) :=
    hfield "is_enum" _ (by rw [← he]; rfl)
  rw [hfile] at h
  obtain ⟨opening, body, hbody, rfl⟩ := runAll_last_ok (by decide) h
  rw [run_branch_ok henum, if_neg Bool.false_ne_true] at hbody
  obtain ⟨front, between, back, hfront, hback, rfl⟩ := runAll_append_ok.mp hbody
  have hclass : (Builtin.model "classname").eval scope = .ok (.str m.className) :=
    hfield "classname" _ rfl
  have hquiet : assignsAny (imports ++ fields ++ toDict) = false := rfl
  rw [runAll_scope _ hquiet _ _ _ hfront] at hback
  have hfunction : runAll embed scope fromDict = .ok (fromDictText m.className, scope) := by
    rw [fromDict, runAll_text, runAll_text, runAll_print hclass, runAll_text, runAll_single]
    rfl
  rw [hfunction] at hback
  cases hback
  exact ⟨opening ++ front, (String.append_assoc ..).symm⟩

end Builtin.Python

end ApiScaffold.Template
