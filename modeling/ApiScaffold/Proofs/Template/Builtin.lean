import ApiScaffold.Proofs.Template.Evaluate
import ApiScaffold.Template.Builtin

/-!
# Built-in templates without lone halves

The built-in templates have no lone halves, since all characters of their texts stand before those
that spell one. A text that is given by its characters is checked by going through them once
(`isWhole_of_chars`), and texts, sections and files are put together by the lemmas for lists, so
that the check of all templates (`areWhole_all`) is a computation on characters.
-/

namespace ApiScaffold.Template

/-- A text given by its characters. -/
theorem isWhole_of_chars {s : String} {cs : List Char} (h : s = String.ofList cs)
    (hc : (cs.all fun c => c.toNat < 0xE000) = true) : Text.isWhole s = true := by
  subst h
  rw [Text.isWhole_ofList]
  intro c hm
  exact Text.isHalf_of_lt (of_decide_eq_true (List.all_eq_true.mp hc c hm))

theorem areWhole_iff {template : List Node} :
    areWhole template = true ↔ ∀ n ∈ template, n.isWhole = true := by
  induction template with
  | nil => simp [areWhole]
  | cons n rest ih => simp [areWhole, ih]

theorem areWhole_append {a b : List Node} :
    areWhole (a ++ b) = true ↔ areWhole a = true ∧ areWhole b = true := by
  simp only [areWhole_iff, List.mem_append, or_imp, forall_and]

namespace Builtin

theorem isWhole_empty : Text.isWhole "" = true := rfl

theorem areWhole_sections_nil : areWhole (sections []) = true := rfl

theorem areWhole_sections_cons {part : Template} {parts : List Template} :
    areWhole (sections (part :: parts)) = true
      ↔ areWhole part = true ∧ areWhole (sections parts) = true := by
  rw [sections, List.flatten_cons, areWhole_append]
  rfl

theorem areWhole_lines {ls : List String} :
    areWhole (lines ls) = true ↔ ∀ l ∈ ls, Text.isWhole l = true := by
  simp only [lines, areWhole, Node.isWhole, Bool.and_true]
  constructor
  · intro h l hl
    rw [Text.isWhole_iff, String.toList_join] at h
    rw [Text.isWhole_iff]
    intro c hc
    exact h c (List.mem_flatMap.mpr ⟨l ++ "\n", List.mem_map_of_mem hl, by simp [hc]⟩)
  · intro h
    refine Text.isWhole_join fun t ht => ?_
    obtain ⟨l, hl, rfl⟩ := List.mem_map.mp ht
    exact Text.isWhole_append.mpr ⟨h l hl, isWhole_of_chars rfl (by decide)⟩

namespace Java

theorem areWhole_files :
    areWhole readme = true ∧ areWhole modelFile = true := by
  simp only [readme, constants, constantValue, constantLookup, field, fieldAccount, fieldGetter,
    fieldSetters, fields, equality, hashAndText, modelFile, name, text, settings, model, prop,
    group, op, turn, json, constant, joined, orElse, unlessLast, oneOf, whenever, whenNot,
    forEach, operationsTable, areWhole_sections_cons, areWhole_sections_nil, areWhole_lines,
    areWhole_append, areWhole, Node.isWhole, Expr.isWhole, Filter.isWhole, Value.isWhole_str,
    isWhole_empty, List.forall_mem_cons, List.not_mem_nil, false_implies, implies_true,
    Bool.and_eq_true, and_true, Bool.and_true, true_and]
  repeat' apply And.intro
  all_goals exact isWhole_of_chars rfl (by decide)

end Java

namespace Jaxrs

theorem areWhole_files :
    areWhole applicationFile = true ∧ areWhole apiFile = true ∧ areWhole buildDescriptor =
      true := by
  simp only [locationMark, parameter, signature, declaration, implementation, apiFile,
    applicationFile, projectOpening, compilerPlugin, packagingPlugin, dependencies,
    buildDescriptor, name, text, settings, group, op, param, turn, json, orElse, unlessLast,
    oneOf, travelsIn, whenever, whenNot, forEach, areWhole_sections_cons, areWhole_sections_nil,
    areWhole_lines, areWhole, Node.isWhole, Expr.isWhole, Filter.isWhole, Value.isWhole_str,
    Text.isWhole_append, isWhole_empty, List.forall_mem_cons, List.not_mem_nil, false_implies,
    implies_true, Bool.and_eq_true, and_true, Bool.and_true, true_and]
  repeat' apply And.intro
  all_goals exact isWhole_of_chars rfl (by decide)

end Jaxrs

namespace Spring

theorem areWhole_files :
    areWhole applicationFile = true ∧ areWhole apiFile = true ∧ areWhole propertiesFile = true
      ∧ areWhole buildDescriptor = true := by
  simp only [requiredFlag, namedMark, locationMark, parameter, apiFile, applicationFile,
    propertiesFile, projectOpening, dependencies, packaging, buildDescriptor, name, text,
    settings, group, op, param, turn, json, unlessLast, oneOf, travelsIn, whenever, whenNot,
    forEach, areWhole_sections_cons, areWhole_sections_nil, areWhole_lines, areWhole,
    Node.isWhole, Expr.isWhole, Filter.isWhole, Value.isWhole_str, Text.isWhole_append,
    isWhole_empty, List.forall_mem_cons, List.not_mem_nil, false_implies, implies_true,
    Bool.and_eq_true, and_true, Bool.and_true, true_and]
  repeat' apply And.intro
  all_goals exact isWhole_of_chars rfl (by decide)

end Spring

namespace Python

theorem areWhole_files :
    areWhole readme = true ∧ areWhole apiFile = true ∧ areWhole clientFile = true ∧ areWhole
      apiRoot = true ∧ areWhole modelFile = true ∧ areWhole modelsRoot = true ∧ areWhole
      packageRoot = true ∧ areWhole buildDescriptor = true ∧ areWhole serializationFile = true := by
  simp only [enumeration, imports, fields, toDict, fromDict, modelFile, signature, account,
    wireMap, request, returned, protocol, implementation, apiFile, clientOpening, clientClass,
    clientRequest, clientFile, serializationFile, packageRoot, modelsRoot, apiRoot,
    buildDescriptor, readme, name, text, settings, model, prop, group, op, param, turn, json,
    snake, constant, joined, packageOf, classOf, orElse, unlessLast, oneOf, whenever, whenNot,
    forEach, operationsTable, areWhole_sections_cons, areWhole_sections_nil, areWhole_lines,
    areWhole_append, areWhole, Node.isWhole, Expr.isWhole, Filter.isWhole, Value.isWhole_str,
    Text.isWhole_append, isWhole_empty, List.forall_mem_cons, List.not_mem_nil, false_implies,
    implies_true, Bool.and_eq_true, and_true, Bool.and_true, true_and]
  repeat' apply And.intro
  all_goals exact isWhole_of_chars rfl (by decide)

end Python

/-- No built-in template has a lone half. -/
theorem areWhole_all : ∀ entry ∈ all, areWhole entry.template = true := by
  obtain ⟨jr, jm⟩ := Java.areWhole_files
  obtain ⟨xa, xi, xb⟩ := Jaxrs.areWhole_files
  obtain ⟨pr, pa, pc, pi, pm, pn, pp, pb, ps⟩ := Python.areWhole_files
  obtain ⟨sa, si, sp, sb⟩ := Spring.areWhole_files
  simp only [all, List.forall_mem_cons, List.not_mem_nil, false_implies, implies_true, and_true]
  exact ⟨jr, jm, xa, xi, xb, pr, pa, pc, pi, pm, pn, pp, pb, ps, sa, si, sp, sb⟩

end Builtin

end ApiScaffold.Template
