import ApiScaffold.Proofs.Document.Textual
import ApiScaffold.Proofs.Naming
import ApiScaffold.Proofs.Schema.Resolve
import ApiScaffold.Target.Java
import ApiScaffold.Target.Python
import Mathlib.Data.List.Induction

/-!
# The names and types of a target

Sets of names hold what they are made from, in order and once (`mem_sortedSet`,
`pairwise_lt_sortedSet`); and in a target without lone halves no name, type or literal has one.

* `Target.texts` are all texts that the names, types and literals of a target are made of, so that
  the targets that can be asked for by name are seen to have no lone halves by one computation
  (`isWhole_of_builtin`).
* `IsWhole.resolve`: the type of a schema has no lone halves, whatever the schema is.
* `Schema.resolve_imports`: what a type imports is of the library of the target, or a class that its
  schema reaches; and `Target.mem_splitImports_models` says which of them a file imports as models.
-/

namespace ApiScaffold

open Text

namespace Target

theorem distinct_concat (names : List String) (name : String) :
    distinct (names ++ [name])
      = if (distinct names).contains name then distinct names else distinct names ++ [name] := by
  rw [distinct, List.foldl_append]
  rfl

/-- The first occurrences are what is left when later ones are dropped. -/
theorem distinct_eq_eraseDups (names : List String) : distinct names = names.eraseDups := by
  induction names using List.reverseRecOn with
  | nil => rfl
  | append_singleton names name ih =>
      rw [distinct_concat, ih, List.eraseDups_append, List.removeAll, List.filter_cons,
        List.filter_nil]
      by_cases hin : name ∈ names
      · simp [hin]
      · simp [hin, List.eraseDups_cons]

theorem mem_distinct {names : List String} {name : String} :
    name ∈ distinct names ↔ name ∈ names := by
  rw [distinct_eq_eraseDups, List.mem_eraseDups]

theorem mem_sortedSet {names : List String} {name : String} :
    name ∈ sortedSet names ↔ name ∈ names := by
  rw [sortedSet, List.mem_mergeSort, mem_distinct]

theorem nodup_distinct (names : List String) : (distinct names).Nodup := by
  induction names using List.reverseRecOn with
  | nil => exact .nil
  | append_singleton names name ih =>
      rw [distinct_concat]
      split
      · exact ih
      next hnew =>
        rw [List.contains_iff_mem] at hnew
        exact List.nodup_append.mpr ⟨ih, List.nodup_singleton _, fun a ha b hb hab =>
          hnew (List.mem_singleton.mp hb ▸ hab ▸ ha)⟩

/-- A sorted set increases strictly. -/
theorem pairwise_lt_sortedSet (names : List String) : (sortedSet names).Pairwise (· < ·) :=
  Text.pairwise_lt_mergeSort (nodup_distinct names)

/-- A list in order that holds nothing twice is its own sorted set. -/
theorem sortedSet_eq_self {names : List String} (hd : distinct names = names)
    (hp : names.Pairwise fun a b => !(b < a)) : sortedSet names = names := by
  rw [sortedSet, hd, List.mergeSort_of_pairwise hp]

/-- The texts of a target that its names, types and literals are made of. -/
def texts (t : Target) : List String :=
  [t.id, t.nullLiteral, t.trueLiteral, t.falseLiteral, t.wideIntegerSuffix, t.voidType,
    t.listDefault, t.mapDefault, t.listShape.before, t.listShape.after, t.mapShape.before,
    t.mapShape.after, t.reservedAffixes.before, t.reservedAffixes.after]
  ++ t.mappings.flatMap (fun m => m.name :: m.default :: m.imports)
  ++ t.listImports ++ t.mapImports ++ t.markerImports ++ t.importTargets.filterMap Prod.snd
  ++ t.artifactSuffixes.toList.flatMap (fun s => [s.server, s.client])

/-- Whether a target has no lone halves. -/
structure IsWhole (t : Target) : Prop where
  text : ∀ s ∈ t.texts, Text.isWhole s = true
  defaults : ∀ o ∈ t.optionDefaults, Text.isWhole o.1 = true ∧ o.2.isWhole = true

/-- The targets that can be asked for by name have no lone halves. -/
theorem isWhole_of_builtin {t : Target} (h : t ∈ [jaxrsSpec, spring, python]) : t.IsWhole := by
  simp only [List.mem_cons, List.not_mem_nil, or_false] at h
  rcases h with rfl | rfl | rfl
  · exact ⟨by decide, by decide⟩
  · exact ⟨by decide, by decide⟩
  · exact ⟨by decide, by decide⟩

theorem isWhole_orDefault {name fallback : String} (hn : Text.isWhole name = true)
    (hf : Text.isWhole fallback = true) : Text.isWhole (orDefault name fallback) = true := by
  unfold orDefault
  split
  · exact hf
  · exact hn

@[simp] theorem isWhole_styled (style : CaseStyle) (name : String) :
    Text.isWhole (styled style name) = true := by
  cases style with
  | camel => exact Naming.isWhole_camelCase name
  | snake => exact Naming.isWhole_snakeCase name

@[simp] theorem isWhole_modelName (t : Target) (name : String) :
    Text.isWhole (t.modelName name) = true := by
  have hcls : Text.isWhole (orDefault (Naming.pascalCase (Naming.sanitize name)) "Model") = true :=
    isWhole_orDefault (Naming.isWhole_pascalCase _) (by decide)
  unfold modelName
  dsimp only
  split
  · exact isWhole_append.mpr ⟨by decide, hcls⟩
  · exact hcls

@[simp] theorem isWhole_apiName (group : String) : Text.isWhole (apiName group) = true :=
  isWhole_append.mpr ⟨isWhole_orDefault (Naming.isWhole_pascalCase _) (by decide), by decide⟩

section

variable {t : Target} (h : t.IsWhole)
include h

theorem IsWhole.fieldName (name : String) : Text.isWhole (t.fieldName name) = true :=
  Naming.isWhole_escapeReserved _ (isWhole_orDefault (isWhole_styled _ _) (by decide))
    (h.text _ (by simp [texts])) (h.text _ (by simp [texts]))

theorem IsWhole.operationName (name : String) : Text.isWhole (t.operationName name) = true := by
  unfold Target.operationName
  refine Naming.isWhole_escapeReserved _ ?_ (h.text _ (by simp [texts]))
    (h.text _ (by simp [texts]))
  split
  · exact isWhole_styled _ _
  · exact isWhole_orDefault (isWhole_styled _ _) (by decide)

omit h in
theorem isWhole_getter {field : String} (type : TargetType) (hf : Text.isWhole field = true) :
    Text.isWhole (t.getter field type) = true := by
  unfold Target.getter
  split
  · exact hf
  · refine isWhole_append.mpr ⟨?_, Naming.isWhole_pascalCase _⟩
    split <;> decide

omit h in
theorem isWhole_setter {field : String} (hf : Text.isWhole field = true) :
    Text.isWhole (t.setter field) = true := by
  unfold Target.setter
  split
  · exact hf
  · exact isWhole_append.mpr ⟨by decide, Naming.isWhole_pascalCase _⟩

theorem IsWhole.literal (value : Value) (type : TargetType) :
    Text.isWhole (t.literal value type) = true := by
  unfold Target.literal
  split
  · exact h.text _ (by simp [texts])
  · split
    · exact h.text _ (by simp [texts])
    · exact h.text _ (by simp [texts])
  · split
    · exact isWhole_append.mpr ⟨isWhole_toString_int _, h.text _ (by simp [texts])⟩
    · exact isWhole_toString_int _
  · exact Binary64.isWhole_text _
  · exact isWhole_literal _

theorem IsWhole.literal? {value : Value} {type : TargetType} {s : String}
    (hs : t.literal? value type = some s) : Text.isWhole s = true := by
  unfold Target.literal? at hs
  split at hs
  · cases hs
    exact h.literal value type
  · cases hs

theorem IsWhole.defaultLiteral? {schema : Members} {type : TargetType} {s : String}
    (ht : Text.isWhole type.default = true) (hs : t.defaultLiteral? schema type = some s) :
    Text.isWhole s = true := by
  unfold Target.defaultLiteral? at hs
  split at hs
  · cases hs
    exact ht
  · cases hs
    exact ht
  · split at hs
    · cases hs
      exact ht
    · exact h.literal? hs

end

/-- What imports are told apart into has no lone halves. -/
theorem IsWhole.splitImports {t : Target} (h : t.IsWhole) {names : List String}
    (hn : ∀ s ∈ names, Text.isWhole s = true) :
    (∀ s ∈ (t.splitImports names).library, Text.isWhole s = true)
      ∧ ∀ s ∈ (t.splitImports names).models, Text.isWhole s = true := by
  constructor
  · intro s hs
    obtain ⟨name, -, hl⟩ := List.mem_filterMap.mp (mem_sortedSet.mp hs)
    split at hl
    next found hf =>
      split at hl
      · cases hl
      · cases hl
        refine h.text _ ?_
        have hm : s ∈ t.importTargets.filterMap Prod.snd :=
          List.mem_filterMap.mpr ⟨_, mem_of_lookup hf, rfl⟩
        simp only [texts, List.mem_append]
        exact .inl (.inr hm)
    next => cases hl
  · intro s hs
    exact hn s (List.mem_filter.mp (mem_sortedSet.mp hs)).1

end Target

/-- Whether no text of a type has a lone half. -/
structure TargetType.IsWhole (t : TargetType) : Prop where
  name : Text.isWhole t.name = true
  base : Text.isWhole t.base = true
  default : Text.isWhole t.default = true
  imports : ∀ s ∈ t.imports, Text.isWhole s = true

namespace Target

theorem isWhole_distinct {before after : List String} (hb : ∀ s ∈ before, Text.isWhole s = true)
    (ha : ∀ s ∈ after, Text.isWhole s = true) :
    ∀ s ∈ distinct (before ++ after), Text.isWhole s = true := by
  intro s hs
  rcases List.mem_append.mp (mem_distinct.mp hs) with hs | hs
  · exact hb s hs
  · exact ha s hs

theorem IsWhole.closed {t : Target} (h : t.IsWhole) : Schema.Closed t TargetType.IsWhole where
  mapping := by
    intro m hm
    have hall : ∀ s ∈ m.name :: m.default :: m.imports, Text.isWhole s = true := by
      intro s hs
      refine h.text s ?_
      have hf : s ∈ t.mappings.flatMap (fun m => m.name :: m.default :: m.imports) :=
        List.mem_flatMap.mpr ⟨m, hm, hs⟩
      simp only [texts, List.mem_append]
      exact .inl (.inl (.inl (.inl (.inl (.inr hf)))))
    exact ⟨hall _ (by simp [TypeMapping.toType]), hall _ (by simp [TypeMapping.toType]),
      hall _ (by simp [TypeMapping.toType]),
      fun s hs => hall s (List.mem_cons_of_mem _ (List.mem_cons_of_mem _ hs))⟩
  list := by
    intro item hi
    refine ⟨?_, hi.base, h.text _ (by simp [texts, listType]), ?_⟩
    · exact isWhole_append.mpr ⟨isWhole_append.mpr ⟨h.text _ (by simp [texts]), hi.name⟩,
        h.text _ (by simp [texts])⟩
    · exact isWhole_distinct (fun s hs => h.text s (by simp [texts, hs])) hi.imports
  map := by
    intro item hi
    refine ⟨?_, hi.base, h.text _ (by simp [texts, mapType]), ?_⟩
    · exact isWhole_append.mpr ⟨isWhole_append.mpr ⟨h.text _ (by simp [texts]), hi.name⟩,
        h.text _ (by simp [texts])⟩
    · exact isWhole_distinct (fun s hs => h.text s (by simp [texts, hs])) hi.imports

/-- The type of a schema has no lone halves, whatever the schema is. -/
theorem IsWhole.resolve {g : Generator} (h : g.target.IsWhole) {spec : Spec} {v : Value}
    {type : TargetType} (ht : Schema.resolve g (some spec) v = .ok type) : type.IsWhole := by
  refine Schema.resolve_closed h.closed (fun reference _ => ?_) ht
  have hname := isWhole_modelName g.target (Pointer.lastKey reference)
  exact ⟨hname, hname, h.text _ (by simp [texts, modelType]), by simp [modelType]⟩

end Target

/-! ## Imports -/

/-- The names that types of a target import without a model. -/
def Target.libraryImports (t : Target) : List String :=
  t.mappings.flatMap TypeMapping.imports ++ t.listImports ++ t.mapImports

/-- What a type imports is of the target's library, or a class that its schema reaches. -/
theorem Schema.resolve_imports {g : Generator} {spec : Spec} {v : Value} {t : TargetType}
    (h : resolve g (some spec) v = .ok t) : ∀ s ∈ t.imports, s ∈ g.target.libraryImports
      ∨ ∃ reference, Reaches spec v reference
        ∧ s = g.target.modelName (Pointer.lastKey reference) := by
  have hclosed : Closed g.target fun t => ∀ s ∈ t.imports, s ∈ g.target.libraryImports
      ∨ ∃ reference, Reaches spec v reference
        ∧ s = g.target.modelName (Pointer.lastKey reference) := by
    refine ⟨fun m hm s hs => .inl ?_, fun item hi s hs => ?_, fun item hi s hs => ?_⟩
    · have hmapped : s ∈ g.target.mappings.flatMap TypeMapping.imports :=
        List.mem_flatMap.mpr ⟨m, hm, hs⟩
      simp [Target.libraryImports, hmapped]
    · rcases List.mem_append.mp (Target.mem_distinct.mp hs) with hs | hs
      · exact .inl (by simp [Target.libraryImports, hs])
      · exact hi s hs
    · rcases List.mem_append.mp (Target.mem_distinct.mp hs) with hs | hs
      · exact .inl (by simp [Target.libraryImports, hs])
      · exact hi s hs
  refine resolve_closed hclosed (fun reference hr s hs => .inr ⟨reference, hr, ?_⟩) h
  exact List.mem_singleton.mp hs

/-- What a file imports as a model is an import without an import target. -/
theorem Target.mem_splitImports_models {t : Target} {names : List String} {name : String} :
    name ∈ (t.splitImports names).models ↔ name ∈ names ∧ t.importTargets.lookup name = none := by
  rw [splitImports, mem_sortedSet, List.mem_filter, Option.isNone_iff_eq_none]

/-- What types and models of a target that can be asked for by name import without a model has an
entry among its import targets. -/
theorem Target.lookup_of_builtin {t : Target} (h : t ∈ [jaxrsSpec, spring, python]) :
    ∀ s ∈ t.libraryImports ++ t.markerImports, (t.importTargets.lookup s).isSome = true := by
  simp only [List.mem_cons, List.not_mem_nil, or_false] at h
  rcases h with rfl | rfl | rfl
  · decide
  · decide
  · decide

end ApiScaffold
