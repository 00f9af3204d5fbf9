import ApiScaffold.Generator.Lifecycle
import ApiScaffold.Target.Names

/-!
# The types of schemas

The type of a schema in the target language. References to models become their classes; references
to aliases are replaced by the type of the alias.

* `isAlias`: which component schemas are put in place of their references.
* `composition?`: a schema with members of a composition has the type of the first that can be
  resolved.
* `scalarType`: the type that a type and a format have by the type map, in strict and in permissive
  mode.
* `typeWith`: the type of a schema, given that of references. The recursion is on the size of the
  schema.
* `typeOfReference`: from alias to alias. Each step adds a reference to those that are being
  followed, so it is bounded by the number of references in the document, and a circle is a fault.

Without a document there are no aliases, and every reference is to a model.
-/

namespace ApiScaffold

namespace Schema

/-- The keywords of compositions, in the order in which they are read. -/
def compositionKeywords : List String := ["allOf", "oneOf", "anyOf"]

/-- The types of scalars and lists, which are never classes. -/
def inlineTypes : List String := ["string", "integer", "number", "boolean", "array"]

/-- Whether a schema is an alias, which is put in place of its references instead of becoming a
class: a scalar, a list, or a map without properties of its own. -/
def isAlias (schema : Members) : Attempt Bool :=
  if Members.has schema "properties" || Members.has schema "enum" then .ok false
  else if compositionKeywords.any (Members.has schema) then .ok false
  else match Members.getD schema "type" .null with
    | .list _ | .map _ => .error .unsuitable
    | .str type =>
      if inlineTypes.contains type then .ok true
      else .ok (type = "object" && (Members.getD schema "additionalProperties" .null).isTruthy)
    | _ => .ok false

/-- Whether any value is an alias. Only a mapping can be one; a list or a text is none if it holds
one of the keywords that rule an alias out. -/
def isAliasValue (v : Value) : Attempt Bool :=
  let keywords := "properties" :: "enum" :: compositionKeywords
  match v with
  | .map schema => isAlias schema
  | .list items =>
    if keywords.any fun k => items.any (·.keyEq (.str k)) then .ok false else .error .unsuitable
  | .str s =>
    if keywords.any fun k => (s.splitOn k).length > 1 then .ok false else .error .unsuitable
  | _ => .error .unsuitable

/-- A schema that has no type. -/
def refuse {α : Type} (fault : SchemaFault) : Attempt α :=
  .error (.build (.str "schema") (.schema fault))

/-- Gives a fault of a schema another subject and wording; other failures pass. -/
def reframe {α : Type} (subject : Value) (wrap : SchemaFault → BuildFault) :
    Attempt α → Attempt α
  | .error (.build _ (.schema fault)) => .error (.build subject (wrap fault))
  | attempt => attempt

/-- The first type that one of the members of a composition has; members after it are not tried. A
failure that is no fault of a schema ends the search. -/
def firstResolvable (keyword : String) (first : Option SchemaFault) :
    List (Unit → Attempt TargetType) → Attempt TargetType
  | [] => match first with
    | some fault => refuse (.noResolvableMember keyword fault)
    | none => .error .unsuitable
  | member :: rest => match member () with
    | .ok type => .ok type
    | .error (.build _ (.schema fault)) =>
      firstResolvable keyword (some (first.getD fault)) rest
    | .error failure => .error failure

/-- The composition that a schema is read as: the first keyword with a value that counts. -/
def composition? (schema : Members) : Option (String × Value) :=
  compositionKeywords.findSome? fun keyword =>
    match Members.get? schema keyword with
    | some v => if v.isTruthy then some (keyword, v) else none
    | none => none

/-- The type of a schema with a list of types: the one that is not null. -/
def concreteType (type : Value) : Attempt Value :=
  match type with
  | .list types =>
    match types.filter fun t => !t.keyEq (.str "null") with
    | [single] => .ok single
    | _ => refuse (.ambiguousTypes types)
  | _ => .ok type

/-- The entry of the type map for a type and a format. -/
def mapping? (t : Target) (type format : Value) : Option TypeMapping :=
  match type with
  | .str name =>
    let exact := match format with
      | .str f => t.typeMap.lookup (name, some f)
      | .null => t.typeMap.lookup (name, none)
      | _ => none
    exact <|> t.typeMap.lookup (name, none)
  | _ => none

/-- The type of a schema by its type and format alone. -/
def scalarType (g : Generator) (type format : Value) : Attempt TargetType :=
  if !type.isKey || !format.isKey then .error .unsuitable
  else match mapping? g.target type format with
    | some mapping => .ok mapping.toType
    | none => do
      let settings ← g.settings
      if settings.permissiveTypes then .ok g.target.genericObject.toType
      else match type with
        | .null => refuse .untyped
        | _ => refuse (.unsupported type format)

theorem sizeOf_lt_of_get? {members : Members} {key : String} {v : Value}
    (h : Members.get? members key = some v) : sizeOf v < sizeOf (Value.map members) := by
  have main : ∀ ms : Members, Members.get? ms key = some v → sizeOf v < sizeOf ms := by
    intro ms
    induction ms with
    | nil => intro h; simp [Members.get?] at h
    | cons m rest ih =>
      obtain ⟨k, w⟩ := m
      intro h
      have step : Members.get? rest key = some v → sizeOf v < sizeOf ((k, w) :: rest) := by
        intro hr
        have := ih hr
        simp only [List.cons.sizeOf_spec]
        omega
      cases k with
      | str s =>
        simp only [Members.get?] at h
        split at h
        · cases h
          simp only [List.cons.sizeOf_spec, Prod.mk.sizeOf_spec]
          omega
        · exact step h
      | _ => exact step (by simpa [Members.get?] using h)
  have := main members h
  simp only [Value.map.sizeOf_spec]
  omega

theorem sizeOf_lt_of_composition? {members : Members} {keyword : String} {v : Value}
    (h : composition? members = some (keyword, v)) :
    sizeOf v < sizeOf (Value.map members) := by
  obtain ⟨k, -, hk⟩ := List.exists_of_findSome?_eq_some h
  cases hg : Members.get? members k with
  | none => simp [hg] at hk
  | some w =>
    simp only [hg] at hk
    split at hk
    · cases hk
      exact sizeOf_lt_of_get? hg
    · cases hk

/-- The type of a schema, where `follow` gives the type of a reference. -/
def typeWith (g : Generator) (follow : String → Attempt TargetType) :
    Value → Attempt TargetType
  | .map schema =>
    match Members.get? schema "$ref" with
    | some (.str reference) => follow reference
    | some _ => .error .unsuitable
    | none =>
      match _hc : composition? schema with
      | some (keyword, .list items) =>
        firstResolvable keyword none (items.attach.map fun item _ => typeWith g follow item.1)
      | some (keyword, v) => match v.elements? with
        | some (first :: _) => refuse (.noResolvableMember keyword (.notMapping first.kindName))
        | _ => .error .unsuitable
      | none => do
        let type ← concreteType (Members.getD schema "type" .null)
        if type.keyEq (.str "array") then
          match _hi : Members.get? schema "items" with
          | none => refuse .arrayWithoutItems
          | some items => return g.target.listType (← typeWith g follow items)
        else if type.keyEq (.str "object")
            || (type.keyEq .null && Members.has schema "properties") then
          match _ha : Members.get? schema "additionalProperties" with
          | some (.map []) | some (.bool true) =>
            return g.target.mapType g.target.genericObject.toType
          | some (.map (m :: ms)) =>
            return g.target.mapType (← typeWith g follow (.map (m :: ms)))
          | _ => return g.target.genericObject.toType
        else scalarType g type (Members.getD schema "format" .null)
  | v => refuse (.notMapping v.kindName)
termination_by v => sizeOf v
decreasing_by
  · have h1 := sizeOf_lt_of_composition? _hc
    have h2 := List.sizeOf_lt_of_mem item.2
    simp only [Value.list.sizeOf_spec] at h1
    omega
  · exact sizeOf_lt_of_get? _hi
  · exact sizeOf_lt_of_get? _ha

/-- The type of a reference in a document: that of the alias that it stands for, or a class. `seen`
holds the references to aliases on the way to this one, and `next?` gives the types of those in the
alias, if any may follow. -/
def typeOfTarget (g : Generator) (spec : Spec) (seen : List String) (reference : String)
    (next? : Option (String → Attempt TargetType)) : Attempt TargetType := do
  let name := Pointer.lastKey reference
  let schema ← spec.resolve reference
  if ← isAlias schema then
    if seen.contains reference then refuse (.circularAlias name)
    else match next? with
      | none => refuse (.circularAlias name)
      | some next => typeWith g next (.map schema)
  else return g.target.modelType name

/-- The type of a reference in a document, where at most `hops` references may follow. -/
def typeOfReference (g : Generator) (spec : Spec) :
    Nat → List String → String → Attempt TargetType
  | 0, seen, reference => typeOfTarget g spec seen reference none
  | hops + 1, seen, reference =>
    typeOfTarget g spec seen reference (some (typeOfReference g spec hops (reference :: seen)))

/-- The type of a schema in the target language. Without a document every reference is to a model;
in one, the aliases that can follow each other are bounded by its size. -/
def resolve (g : Generator) (spec? : Option Spec) (schema : Value) : Attempt TargetType :=
  match spec? with
  | none => typeWith g (fun reference => .ok (g.target.modelType (Pointer.lastKey reference))) schema
  | some spec => typeWith g (typeOfReference g spec (Spec.chainBound spec.document) []) schema

end Schema

end ApiScaffold
