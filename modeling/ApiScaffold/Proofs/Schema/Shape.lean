import ApiScaffold.Proofs.Schema.Position
import ApiScaffold.Proofs.Schema.Reading

/-!
# What the type of a schema is made of

A type tells by its names only what it imports, and a class may have the name of a library type. Its
shape keeps apart which entries of the target and which components it comes from: a schema has a
type exactly if it has a shape, and its type is that of the shape.

* `Shape`: an entry of the target, a component, or a list or a map of such, with the type that it
  has in a target, the library types that it uses and the components that it refers to.
* `Shaped`: a value has a shape, by the cases in which a schema is read.
* `resolve_eq_ok`: a schema has a type exactly if it has a shape of that type.
-/

namespace ApiScaffold

namespace Schema

/-- What a type is made of: an entry of the target, a component, or a list or a map of such. -/
inductive Shape where
  | mapped (m : TypeMapping)
  | component (name : String)
  | list (item : Shape)
  | map (value : Shape)

namespace Shape

/-- The type of a shape in a target. -/
def type (t : Target) : Shape → TargetType
  | .mapped m => m.toType
  | .component name => t.modelType name
  | .list item => t.listType (item.type t)
  | .map value => t.mapType (value.type t)

/-- The library types that a shape uses in a target, by the names under which they are imported. -/
def library (t : Target) : Shape → List String
  | .mapped m => m.imports
  | .component _ => []
  | .list item => t.listImports ++ item.library t
  | .map value => t.mapImports ++ value.library t

/-- The components that a shape refers to. -/
def components : Shape → List String
  | .mapped _ => []
  | .component name => [name]
  | .list item => item.components
  | .map value => value.components

/-- A type imports the library types and the classes of the components of its shape. -/
theorem mem_imports_type {t : Target} {shape : Shape} {name : String} :
    name ∈ (shape.type t).imports ↔
      name ∈ shape.library t ∨ ∃ component ∈ shape.components, t.modelName component = name := by
  induction shape with
  | mapped m => simp [type, library, components, TypeMapping.toType]
  | component c => simp [type, library, components, Target.modelType, eq_comm]
  | list item ih =>
      simp [type, library, components, Target.listType, Target.mem_distinct, ih, or_assoc]
  | map value ih =>
      simp [type, library, components, Target.mapType, Target.mem_distinct, ih, or_assoc]

end Shape

variable {g : Generator} {spec : Spec} {hops : Nat} {seen : List String} {v : Value} {t : TargetType}
  {shape : Shape}

/-- A value has a shape, where `seen` holds the references to aliases on the way to it and at most
`hops` may follow: that of the alias or of the component that it refers to, or of the first member
of its composition with a type, or the one that it is read to have. -/
inductive Shaped (g : Generator) (spec : Spec) : Nat → List String → Value → Shape → Prop
  | component {hops : Nat} {seen : List String} {node schema : Members} {r : String}
      (h : Members.get? node "$ref" = some (.str r)) (hs : spec.resolve r = .ok schema)
      (ha : isAlias schema = .ok false) :
      Shaped g spec hops seen (.map node) (.component (Pointer.lastKey r))
  | through {hops : Nat} {seen : List String} {node schema : Members} {r : String} {shape : Shape}
      (h : Members.get? node "$ref" = some (.str r)) (hs : spec.resolve r = .ok schema)
      (ha : isAlias schema = .ok true) (hn : r ∉ seen)
      (hi : Shaped g spec hops (r :: seen) (.map schema) shape) :
      Shaped g spec (hops + 1) seen (.map node) shape
  | member {hops : Nat} {seen : List String} {node : Members} {keyword : String}
      {before after : List Value} {item : Value} {shape : Shape}
      (h : Members.get? node "$ref" = none)
      (hc : composition? node = some (keyword, .list (before ++ item :: after)))
      (hb : ∀ v ∈ before, Faulty (typeWith g (typeOfReference g spec hops seen) v))
      (hi : Shaped g spec hops seen item shape) : Shaped g spec hops seen (.map node) shape
  | list {hops : Nat} {seen : List String} {node : Members} {v : Value} {item : Shape}
      (h : ReadBy node (.str "array")) (hi : Members.get? node "items" = some v)
      (hs : Shaped g spec hops seen v item) : Shaped g spec hops seen (.map node) (.list item)
  | values {hops : Nat} {seen : List String} {node : Members} {type : Value} {m : Value × Value}
      {ms : Members} {value : Shape} (h : ReadBy node type) (ho : isObjectType node type = true)
      (ha : Members.get? node "additionalProperties" = some (.map (m :: ms)))
      (hs : Shaped g spec hops seen (.map (m :: ms)) value) :
      Shaped g spec hops seen (.map node) (.map value)
  | anyValues {hops : Nat} {seen : List String} {node : Members} {type : Value}
      (h : ReadBy node type) (ho : isObjectType node type = true)
      (ha : Members.get? node "additionalProperties" = some (.map [])
        ∨ Members.get? node "additionalProperties" = some (.bool true)) :
      Shaped g spec hops seen (.map node) (.map (.mapped g.target.genericObject))
  | object {hops : Nat} {seen : List String} {node : Members} {type : Value}
      (h : ReadBy node type) (ho : isObjectType node type = true) (ha : LeavesValues node) :
      Shaped g spec hops seen (.map node) (.mapped g.target.genericObject)
  | scalar {hops : Nat} {seen : List String} {node : Members} {type : Value} {m : TypeMapping}
      (h : ReadBy node type) (hl : type ≠ .str "array") (ho : isObjectType node type = false)
      (hm : HasMapping g type (Members.getD node "format" .null) m) :
      Shaped g spec hops seen (.map node) (.mapped m)

/-- The type of a reference is a class, or that of an alias that was not seen. -/
theorem typeOfReference_eq_ok {r : String} :
    typeOfReference g spec hops seen r = .ok t ↔
      ∃ schema, spec.resolve r = .ok schema
        ∧ (isAlias schema = .ok false ∧ t = g.target.modelType (Pointer.lastKey r)
          ∨ isAlias schema = .ok true ∧ r ∉ seen ∧ ∃ fewer, hops = fewer + 1
            ∧ typeWith g (typeOfReference g spec fewer (r :: seen)) (.map schema) = .ok t) := by
  have htarget : ∀ next?, typeOfTarget g spec seen r next? = .ok t ↔
      ∃ schema, spec.resolve r = .ok schema
        ∧ (isAlias schema = .ok false ∧ t = g.target.modelType (Pointer.lastKey r)
          ∨ isAlias schema = .ok true ∧ r ∉ seen ∧ ∃ next, next? = some next
            ∧ typeWith g next (.map schema) = .ok t) := by
    intro next?
    unfold typeOfTarget
    rw [Attempt.bind_eq_ok]
    refine exists_congr fun schema => and_congr_right fun _ => ?_
    cases isAlias schema with
    | error failure => simp [Bind.bind, Except.bind]
    | ok inlined =>
        cases inlined with
        | false => simp [Bind.bind, Except.bind, Pure.pure, Except.pure, eq_comm]
        | true =>
            by_cases hin : r ∈ seen
            · simp [Bind.bind, Except.bind, hin, refuse]
            · cases next? <;> simp [Bind.bind, Except.bind, hin, refuse]
  cases hops with
  | zero => simp [typeOfReference, htarget]
  | succ hops => simp [typeOfReference, htarget]

/-- A value with a shape has the type of the shape. -/
theorem Shaped.typeWith (h : Shaped g spec hops seen v shape) :
    typeWith g (typeOfReference g spec hops seen) v = .ok (shape.type g.target) := by
  induction h with
  | component h hs ha =>
      exact typeWith_eq_ok.mpr ⟨_, rfl, .reference h
        (typeOfReference_eq_ok.mpr ⟨_, hs, .inl ⟨ha, rfl⟩⟩)⟩
  | through h hs ha hn _ ih =>
      exact typeWith_eq_ok.mpr ⟨_, rfl, .reference h
        (typeOfReference_eq_ok.mpr ⟨_, hs, .inr ⟨ha, hn, _, rfl, ih⟩⟩)⟩
  | member h hc hb _ ih => exact typeWith_eq_ok.mpr ⟨_, rfl, .member h hc hb ih⟩
  | list h hi _ ih => exact typeWith_eq_ok.mpr ⟨_, rfl, .list h hi ih⟩
  | values h ho ha _ ih => exact typeWith_eq_ok.mpr ⟨_, rfl, .values h ho ha ih⟩
  | anyValues h ho ha => exact typeWith_eq_ok.mpr ⟨_, rfl, .anyValues h ho ha⟩
  | object h ho ha => exact typeWith_eq_ok.mpr ⟨_, rfl, .object h ho ha⟩
  | scalar h hl ho hm => exact typeWith_eq_ok.mpr ⟨_, rfl, .scalar h hl ho hm⟩

/-- A value has a shape if its references have one. -/
theorem exists_shaped_of_references
    (hr : ∀ node r t, Members.get? node "$ref" = some (.str r) →
      typeOfReference g spec hops seen r = .ok t →
        ∃ shape, Shaped g spec hops seen (.map node) shape)
    (h : Schema.typeWith g (typeOfReference g spec hops seen) v = .ok t) :
    ∃ shape, Shaped g spec hops seen v shape := by
  -- the parts that a type is read from are smaller values with the same references
  induction hn : sizeOf v using Nat.strongRecOn generalizing v t with
  | ind n ih =>
      subst hn
      obtain ⟨node, rfl, hreads⟩ := typeWith_eq_ok.mp h
      cases hreads with
      | reference href ht => exact hr _ _ _ href ht
      | @member keyword before after item _ hnone hc hb ht =>
          have hsize := sizeOf_lt_of_composition? hc
          have hlt : sizeOf item < sizeOf (before ++ item :: after) :=
            List.sizeOf_lt_of_mem (by simp)
          rw [Value.list.sizeOf_spec] at hsize
          obtain ⟨shape, hs⟩ := ih _ (by omega) ht rfl
          exact ⟨shape, .member hnone hc hb hs⟩
      | list hread hi ht =>
          obtain ⟨item, hs⟩ := ih _ (sizeOf_lt_of_get? hi) ht rfl
          exact ⟨.list item, .list hread hi hs⟩
      | values hread ho ha ht =>
          obtain ⟨value, hs⟩ := ih _ (sizeOf_lt_of_get? ha) ht rfl
          exact ⟨.map value, .values hread ho ha hs⟩
      | anyValues hread ho ha => exact ⟨_, .anyValues hread ho ha⟩
      | object hread ho ha => exact ⟨_, .object hread ho ha⟩
      | scalar hread hl ho hm => exact ⟨_, .scalar hread hl ho hm⟩

/-- A value with a type has a shape. -/
theorem exists_shaped (h : Schema.typeWith g (typeOfReference g spec hops seen) v = .ok t) :
    ∃ shape, Shaped g spec hops seen v shape := by
  induction hops generalizing seen v t with
  | zero =>
      refine exists_shaped_of_references (fun node r t href ht => ?_) h
      obtain ⟨schema, hs, ⟨ha, -⟩ | ⟨-, -, _, hfewer, -⟩⟩ := typeOfReference_eq_ok.mp ht
      · exact ⟨_, .component href hs ha⟩
      · cases hfewer
  | succ hops ih =>
      refine exists_shaped_of_references (fun node r t href ht => ?_) h
      obtain ⟨schema, hs, ⟨ha, -⟩ | ⟨ha, hn, _, hfewer, ht⟩⟩ := typeOfReference_eq_ok.mp ht
      · exact ⟨_, .component href hs ha⟩
      · cases hfewer
        obtain ⟨shape, hshape⟩ := ih ht
        exact ⟨shape, .through href hs ha hn hshape⟩

/-- A schema of a document has a shape. -/
def HasShape (g : Generator) (spec : Spec) (v : Value) (shape : Shape) : Prop :=
  Shaped g spec (Spec.chainBound spec.document) [] v shape

/-- A schema has a type exactly if it has a shape of that type. -/
theorem resolve_eq_ok :
    resolve g (some spec) v = .ok t ↔ ∃ shape, HasShape g spec v shape ∧ t = shape.type g.target := by
  constructor
  · intro h
    obtain ⟨shape, hs⟩ := exists_shaped h
    exact ⟨shape, hs, Except.ok.inj (h.symm.trans hs.typeWith)⟩
  · rintro ⟨shape, hs, rfl⟩
    exact hs.typeWith

/-- The components of a shape are those that its schema reaches. -/
theorem Shaped.reaches (h : Shaped g spec hops seen v shape) :
    ∀ name ∈ shape.components, ∃ r, Reaches spec v r ∧ name = Pointer.lastKey r := by
  -- what a part refers to, the whole refers to
  have lift : ∀ {part whole : Value}, (∀ r, Refers part r → Refers whole r) →
      ∀ r, Reaches spec part r → Reaches spec whole r := by
    intro part whole hsub r hr
    cases hr with
    | model hr hs ha => exact .model (hsub _ hr) hs ha
    | through hr hs ha hl => exact .through (hsub _ hr) hs ha hl
  induction h with
  | component h hs ha =>
      intro name hname
      exact ⟨_, .model (.direct h) hs ha, List.mem_singleton.mp hname⟩
  | through h hs ha _ _ ih =>
      intro name hname
      obtain ⟨r, hr, rfl⟩ := ih name hname
      exact ⟨r, .through (.direct h) hs ha hr, rfl⟩
  | member _ hc _ _ ih =>
      intro name hname
      obtain ⟨r, hr, rfl⟩ := ih name hname
      exact ⟨r, lift (fun _ => .member hc (by simp)) r hr, rfl⟩
  | list _ hi _ ih =>
      intro name hname
      obtain ⟨r, hr, rfl⟩ := ih name hname
      exact ⟨r, lift (fun _ => .items hi) r hr, rfl⟩
  | values _ _ ha _ ih =>
      intro name hname
      obtain ⟨r, hr, rfl⟩ := ih name hname
      exact ⟨r, lift (fun _ => .values ha) r hr, rfl⟩
  | anyValues | object | scalar =>
      intro name hname
      cases hname

end Schema

end ApiScaffold
