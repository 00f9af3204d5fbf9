import ApiScaffold.Proofs.Naming.Words
import ApiScaffold.Proofs.Operation.Build

/-!
# Classes among the types of Python

A class starts with no small letter, which tells it from the names of all types that are no classes
and need no import. So a method whose result has the type of a class imports that class
(`ofSlot_importsClass`).

`ImportsClass` is closed under lists and maps, so it is only to be checked for the entries of the
type map (`closed_importsClass`), and then it holds for the type of every schema
(`resolve_importsClass`).
-/

namespace ApiScaffold

namespace Target

open Naming

/-- A class starts with no small letter. -/
theorem isLower_head_modelName {t : Target} {name : String} {c : Char}
    (h : (t.modelName name).toList.head? = some c) : c.isLower = false := by
  have hmodel : ∀ s : String, ("Model" ++ s).toList.head? = some c → c.isLower = false := by
    intro s hs
    rw [String.toList_append] at hs
    cases hs
    decide
  have hcls : (orDefault (pascalCase (sanitize name)) "Model").toList.head? = some c →
      c.isLower = false := by
    unfold orDefault
    split
    · intro hs
      cases hs
      decide
    · intro hs
      rw [pascalCase, String.toList_ofList] at hs
      exact isLower_head_capitalized hs
  unfold modelName at h
  dsimp only at h
  split at h
  · exact hmodel _ h
  · exact hcls h

/-- No class of Python has the name of the type without a value. -/
theorem modelName_ne_none (name : String) : python.modelName name ≠ "None" := by
  unfold modelName
  dsimp only
  split
  next =>
    intro h
    have hhead := congrArg (fun s => s.toList.head?) h
    rw [String.toList_append] at hhead
    cases hhead
  next hfree =>
    intro h
    rw [h] at hfree
    exact hfree (by decide)

end Target

namespace Schema

open Target (python)

/-- A type imports its name if that is the name of a class. -/
def ImportsClass (type : TargetType) : Prop :=
  ∀ name, type.name = python.modelName name → python.importTargets.lookup type.name = none →
    type.name ∈ type.imports

/-- A type whose name starts with a small letter is no class. -/
theorem importsClass_of_isLower {type : TargetType} {c : Char} {rest : List Char}
    (h : type.name.toList = c :: rest) (hc : c.isLower = true) : ImportsClass type := by
  intro name hname _
  have hhead : (python.modelName name).toList.head? = some c := by rw [← hname, h, List.head?_cons]
  rw [Target.isLower_head_modelName hhead] at hc
  cases hc

/-- The types of Python that are no classes start with a small letter or need an import. -/
theorem closed_importsClass : Closed python ImportsClass where
  mapping := by
    have hall : ∀ m ∈ python.mappings, (python.importTargets.lookup m.name).isSome = true
        ∨ m.name.toList.head?.any Char.isLower = true := by decide
    intro m hm
    rcases hall m hm with hsome | hlower
    · intro name _ hnone
      have hsame : python.importTargets.lookup m.name = none := hnone
      rw [hsame] at hsome
      cases hsome
    · cases hchars : m.name.toList with
      | nil =>
          rw [hchars] at hlower
          cases hlower
      | cons c rest =>
          rw [hchars] at hlower
          exact importsClass_of_isLower hchars hlower
  list := by
    intro item _
    have hchars : (python.listType item).name.toList
        = 'l' :: ("ist[".toList ++ item.name.toList ++ "]".toList) := by
      simp [Target.listType, Affixes.around, Target.python, Target.bare]
    exact importsClass_of_isLower hchars (by decide)
  map := by
    intro item _
    have hchars : (python.mapType item).name.toList
        = 'd' :: ("ict[str, ".toList ++ item.name.toList ++ "]".toList) := by
      simp [Target.mapType, Affixes.around, Target.python, Target.bare]
    exact importsClass_of_isLower hchars (by decide)

theorem resolve_importsClass {g : Generator} (ht : g.target = python) {spec : Spec} {v : Value}
    {type : TargetType} (h : resolve g (some spec) v = .ok type) : ImportsClass type := by
  have hclosed : Closed g.target ImportsClass := ht ▸ closed_importsClass
  exact resolve_closed hclosed (fun _ _ _ _ _ => List.mem_singleton_self _) h

end Schema

namespace Operation

open Target (python)

/-- The type of a response, unless it is empty. -/
def typed (r : Response) : Option String :=
  match r.type with
  | some type => if type = "" then none else some type
  | none => none

theorem type_of_typed {r : Response} {type : String} (h : typed r = some type) :
    r.type = some type := by
  unfold typed at h
  cases hr : r.type with
  | none =>
      rw [hr] at h
      cases h
  | some found =>
      rw [hr] at h
      dsimp only at h
      split at h
      · cases h
      · exact h

/-- The type that is found among responses is that of one of them. -/
theorem exists_of_findSome?_typed {p : Response → Bool} {responses : List Response} {type : String}
    (h : (responses.findSome? fun r => if p r then typed r else none) = some type) :
    ∃ r ∈ responses, r.type = some type := by
  obtain ⟨r, hr, hfound⟩ := List.exists_of_findSome?_eq_some h
  split at hfound
  · exact ⟨r, hr, type_of_typed hfound⟩
  · cases hfound

/-- The result of a method has no value, or the type of a response. -/
theorem resultType_cases (t : Target) (responses : List Response) :
    resultType t responses = t.voidType
      ∨ ∃ r ∈ responses, r.type = some (resultType t responses) := by
  have hresult : resultType t responses
      = ((responses.findSome? fun r => if r.code.startsWith "2" then typed r else none)
        <|> (responses.findSome? fun r => if r.isDefault then typed r else none)).getD t.voidType :=
    rfl
  rw [hresult]
  cases hs : responses.findSome? fun r => if r.code.startsWith "2" then typed r else none with
  | some type => exact .inr (exists_of_findSome?_typed hs)
  | none =>
      cases hd : responses.findSome? fun r => if r.isDefault then typed r else none with
      | some type => exact .inr (exists_of_findSome?_typed hd)
      | none => exact .inl rfl

/-- An operation whose result has the type of a class imports the class. -/
theorem ofSlot_importsClass {g : Generator} (ht : g.target = python) {spec : Spec}
    {path operation pathItem : Value} {method : String} {op : Operation}
    (h : ofSlot g spec path method operation pathItem = .ok op) {name : String}
    (hr : op.returnType = python.modelName name)
    (hl : python.importTargets.lookup op.returnType = none) : op.returnType ∈ op.imports := by
  obtain ⟨_, _, _, _, _, _, responses, -, -, hp⟩ := ofSlot_ok h
  have hresult : op.returnType = resultType g.target (responses.map Prod.fst) := by
    rw [hp.assembled]
  rcases resultType_cases g.target (responses.map Prod.fst) with hvoid | ⟨r, hin, htype⟩
  · -- without a value the type is `None`, and a class of that name is renamed
    rw [hvoid, ht, hr] at hresult
    exact absurd hresult (Target.modelName_ne_none name)
  · obtain ⟨b, hb, rfl⟩ := List.mem_map.mp hin
    rw [← hresult] at htype
    obtain ⟨_, code, raw, -, -, hbuilt⟩ := buildResponses_ok hp.responsesBuilt b hb
    obtain ⟨_, v, -, -, -, -, ⟨hnone, -⟩ | ⟨type, hok, hsome, himports⟩⟩ := buildResponse_ok hbuilt
    · rw [hnone] at htype
      cases htype
    · rw [hsome, Option.some.injEq] at htype
      have hin : op.returnType ∈ b.2 := by
        rw [himports, ← htype]
        exact Schema.resolve_importsClass ht hok name (htype ▸ hr) (htype ▸ hl)
      rw [hp.assembled]
      refine Target.mem_sortedSet.mpr (List.mem_append_right _ (List.mem_flatMap.mpr ⟨b, hb, ?_⟩))
      rw [← hresult]
      exact hin

end Operation

end ApiScaffold
