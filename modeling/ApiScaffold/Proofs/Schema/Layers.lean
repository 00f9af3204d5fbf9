import ApiScaffold.Proofs.Target.Names

/-!
# The layers of a type

A list or a map has the type of its items below it, and so on down to a type that is neither. A
layer tells of the next one what is to be known of it: it is written around its name, and it has its
base and its imports. So a type has the base of its innermost items, however deep they are, and it
imports what any of its layers imports.

* `IsLayer` is said of one layer, `IsLayered` of all of them and of what the type has from the lower
  ones.
* `isLayered_of_scalar` and `isLayered_of_container` are the two ways in which types are made, so
  that types from lists, maps and classes of a target are layered (`closed_isLayered`).
* `resolve_layers`: the type of every schema is, with a document or without one.
-/

namespace ApiScaffold

namespace TargetType

/-- A type, the type of its items, the type of theirs, and so on. -/
def layers : TargetType → List TargetType
  | type@{ item := none, .. } => [type]
  | type@{ item := some item, .. } => type :: item.layers

/-- The type of the innermost items; the type itself if it has no items. -/
def innermost : TargetType → TargetType
  | type@{ item := none, .. } => type
  | { item := some item, .. } => item.innermost

/-- A container of items, as its shape and its own imports make it from them. -/
structure Contains (shape : Affixes) (own : List String) (type item : TargetType) : Prop where
  name : type.name = shape.around item.name
  base : type.base = item.base
  /-- The imports of the container are in front; those of the items that are among them are dropped.
  -/
  imports : type.imports = (own ++ item.imports).eraseDups
  primitive : type.isPrimitive = false
  wide : type.isWideInteger = false

/-- What a type tells of itself and of its items in a target. -/
structure IsLayer (t : Target) (type : TargetType) : Prop where
  distinct : type.imports.Nodup
  item : type.item.isSome = true ↔ type.isContainer = true
  container : ∀ item ∈ type.item, type.Contains t.listShape t.listImports item
    ∨ type.Contains t.mapShape t.mapImports item
  other : type.isContainer = false → type.base = type.name

/-- A type all of whose layers tell what they should, and what the type has from the lower ones. -/
structure IsLayered (t : Target) (type : TargetType) : Prop where
  layer : ∀ layer ∈ type.layers, layer.IsLayer t
  base : type.base = type.innermost.name
  imports : ∀ layer ∈ type.layers, layer.imports ⊆ type.imports

theorem innermost_mem_layers : ∀ type : TargetType, type.innermost ∈ type.layers
  | { item := none, .. } => List.mem_cons_self
  | { item := some item, .. } => List.mem_cons_of_mem _ item.innermost_mem_layers

theorem innermost_item : ∀ type : TargetType, type.innermost.item = none
  | { item := none, .. } => rfl
  | { item := some item, .. } => item.innermost_item

variable {t : Target} {type item : TargetType}

theorem IsLayered.innermost (h : type.IsLayered t) : type.innermost.isContainer = false := by
  have hlayer := h.layer _ type.innermost_mem_layers
  rw [← Bool.not_eq_true, ← hlayer.item, type.innermost_item]
  exact Bool.false_ne_true

/-- A type without items is one layer. -/
theorem isLayered_of_scalar (hitem : type.item = none) (hc : type.isContainer = false)
    (hb : type.base = type.name) (hd : type.imports.Nodup) : type.IsLayered t := by
  obtain ⟨_, _, _, _, _, _, _, _⟩ := type
  obtain rfl := hitem
  have hlayer : IsLayer t _ := {
    distinct := hd
    item := by rw [hc]; exact iff_of_false Bool.false_ne_true Bool.false_ne_true
    container := fun item h => by cases h
    other := fun _ => hb }
  exact ⟨List.forall_mem_singleton.mpr hlayer, hb,
    List.forall_mem_singleton.mpr (List.Subset.refl _)⟩

/-- A container of layered items is one more layer. -/
theorem isLayered_of_container (hitem : type.item = some item) (hc : type.isContainer = true)
    (hd : type.imports.Nodup) (h : type.Contains t.listShape t.listImports item
      ∨ type.Contains t.mapShape t.mapImports item) (hi : item.IsLayered t) : type.IsLayered t := by
  obtain ⟨_, _, _, _, _, _, _, _⟩ := type
  obtain rfl := hitem
  have hlayer : IsLayer t _ := {
    distinct := hd
    item := iff_of_true rfl hc
    container := fun inner hin => by cases hin; exact h
    other := fun hno => absurd (hc.symm.trans hno) (by decide) }
  have hbase := h.elim Contains.base Contains.base
  have hbelow : item.imports ⊆ _ := fun name hname => by
    rcases h with h | h
    · exact h.imports ▸ List.mem_eraseDups.mpr (List.mem_append_right _ hname)
    · exact h.imports ▸ List.mem_eraseDups.mpr (List.mem_append_right _ hname)
  exact ⟨List.forall_mem_cons.mpr ⟨hlayer, hi.layer⟩, hbase.trans hi.base,
    List.forall_mem_cons.mpr ⟨List.Subset.refl _,
      fun layer hin => List.Subset.trans (hi.imports layer hin) hbelow⟩⟩

end TargetType

namespace Target

variable {t : Target} {item : TargetType}

theorem isLayered_listType (h : item.IsLayered t) : (t.listType item).IsLayered t :=
  TargetType.isLayered_of_container rfl rfl (nodup_distinct _)
    (.inl ⟨rfl, rfl, distinct_eq_eraseDups _, rfl, rfl⟩) h

theorem isLayered_mapType (h : item.IsLayered t) : (t.mapType item).IsLayered t :=
  TargetType.isLayered_of_container rfl rfl (nodup_distinct _)
    (.inr ⟨rfl, rfl, distinct_eq_eraseDups _, rfl, rfl⟩) h

theorem isLayered_modelType (name : String) : (t.modelType name).IsLayered t :=
  TargetType.isLayered_of_scalar rfl rfl rfl (List.nodup_singleton _)

theorem nodup_imports_of_builtin (ht : t ∈ [bare, jaxrsSpec, spring, python]) :
    ∀ m ∈ t.mappings, m.imports.Nodup := by
  simp only [List.mem_cons, List.not_mem_nil, or_false] at ht
  rcases ht with rfl | rfl | rfl | rfl <;> decide

theorem closed_isLayered (ht : ∀ m ∈ t.mappings, m.imports.Nodup) :
    Schema.Closed t (TargetType.IsLayered t) where
  mapping m hm := TargetType.isLayered_of_scalar rfl rfl rfl (ht m hm)
  list _ := isLayered_listType
  map _ := isLayered_mapType

end Target

namespace Schema

/-- The type of a schema is layered, with a document or without one. -/
theorem resolve_layers {g : Generator} (ht : g.target ∈ [.bare, .jaxrsSpec, .spring, .python])
    {spec? : Option Spec} {v : Value} {type : TargetType} (h : resolve g spec? v = .ok type) :
    (∀ layer ∈ type.layers, layer.IsLayer g.target)
      ∧ type.innermost ∈ type.layers ∧ type.innermost.isContainer = false
      ∧ type.base = type.innermost.name
      ∧ ∀ layer ∈ type.layers, layer.imports ⊆ type.imports := by
  have hclosed := Target.closed_isLayered (Target.nodup_imports_of_builtin ht)
  have hlayered : type.IsLayered g.target := by
    cases spec? with
    | some spec => exact resolve_closed hclosed (fun _ _ => Target.isLayered_modelType _) h
    | none =>
        refine typeWith_closed hclosed v type (fun reference found _ hfound => ?_) h
        cases hfound
        exact Target.isLayered_modelType _
  exact ⟨hlayered.layer, type.innermost_mem_layers, hlayered.innermost, hlayered.base,
    hlayered.imports⟩

/-- A list of maps of wide integers. -/
def listOfCounts : Value :=
  .map [(.str "type", .str "array"),
    (.str "items", .map [(.str "type", .str "object"),
      (.str "additionalProperties",
        .map [(.str "type", .str "integer"), (.str "format", .str "int64")])])]

/-- The list is written around the map, and imports what the map imports. -/
theorem resolve_layers_counts :
    ∃ type, resolve (.ofTarget .jaxrsSpec []) none listOfCounts = .ok type
      ∧ (type.name = "List<Map<String, Long>>" ∧ type.base = "Long"
        ∧ type.imports = ["List", "Map", "Long"] ∧ type.layers.length = 3)
      ∧ ∀ layer ∈ type.layers, layer.IsLayer .jaxrsSpec := by
  have hnames : ((resolve (.ofTarget .jaxrsSpec []) none listOfCounts).toOption.map fun type =>
      (type.name, type.base, type.imports, type.layers.length))
      = some ("List<Map<String, Long>>", "Long", ["List", "Map", "Long"], 3) := by
    decide +kernel
  obtain ⟨type, h, heq⟩ := Attempt.exists_of_toOption_map hnames
  obtain ⟨hn, hb, hi, hl⟩ : _ ∧ _ ∧ _ ∧ _ := by simpa only [Prod.mk.injEq] using heq
  exact ⟨type, h, ⟨hn, hb, hi, hl⟩,
    (resolve_layers (List.mem_cons_of_mem _ List.mem_cons_self) h).1⟩

end Schema

end ApiScaffold
