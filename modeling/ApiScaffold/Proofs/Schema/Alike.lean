import ApiScaffold.Proofs.Agreement
import ApiScaffold.Proofs.Document.Citation

/-!
# Documents whose references read alike

Documents whose references lead to mappings that read alike. What a reference points at is read by
certain keywords only (`Spec.keywords`), so that with as many hops schemas have one type in both
documents, and references are followed to mappings that read alike again.

* `ReadSame` and `Alike`: two mappings have the same under all keywords, and the references in them
  are of some kind.
* `Spec.Mirrors` and `Spec.Matches`: references of a kind lead in two documents to mappings that
  read alike, where the documents differ in size or have as many values.
* `typeStep`: one step to the type of a mapping, as a function of what references and parts have.
  Whatever is said of types by comparing two searches is said of the step first (`typeStep_congr`)
  and then of the search, by induction on the hops and on the value (`typeWith_same`).
-/

namespace ApiScaffold

open Attempt

/-- The keywords by which the mapping that a reference points at is read. -/
def Spec.keywords : List String := [
  "$ref", "properties", "enum", "allOf", "oneOf", "anyOf", "type", "additionalProperties", "items",
  "format", "required", "description", "name", "in", "schema", "content"]

namespace Members

/-- Two mappings have the same under all keywords. -/
def ReadSame (s t : Members) : Prop := ∀ key ∈ Spec.keywords, get? s key = get? t key

/-- Two mappings read alike, and the references in them have a property. -/
structure Alike (P : String → Prop) (s t : Members) : Prop where
  same : ReadSame s t
  cites : (Value.map s).CitesOnly P

variable {P : String → Prop} {s t : Members}

theorem Alike.refl (h : (Value.map s).CitesOnly P) : Alike P s s := ⟨fun _ _ => rfl, h⟩

theorem ReadSame.has (h : ReadSame s t) (key : String) (hk : key ∈ Spec.keywords := by decide) :
    has s key = has t key := by
  rw [Members.has, Members.has, h key hk]

theorem ReadSame.getD (h : ReadSame s t) (key : String) (default : Value)
    (hk : key ∈ Spec.keywords := by decide) : getD s key default = getD t key default := by
  rw [Members.getD, Members.getD, h key hk]

end Members

open Members

/-- References of a certain kind lead in two documents to mappings that read alike and have no other
references than such. -/
structure Spec.Mirrors (P : String → Prop) (a b : Spec) : Prop where
  resolve : ∀ reference, P reference →
    Agree (Alike P) (a.resolve reference) (b.resolve reference)

/-- References of a certain kind, which are all that one document has, lead to mappings in it and in
another that read alike; and both documents have as many values. -/
structure Spec.Matches (P : String → Prop) (a b : Spec) : Prop where
  cites : a.CitesOnly P
  resolve : ∀ reference, P reference →
    Agree ReadSame (a.resolve reference) (b.resolve reference)
  size : a.document.nodeCount = b.document.nodeCount

variable {P : String → Prop} {a b : Spec} {s t : Members} {g : Generator}

theorem Spec.Matches.mirrors (h : a.Matches P b) : a.Mirrors P b := by
  refine ⟨fun reference hr => ?_⟩
  have hcites := @Spec.CitesOnly.resolve a P h.cites reference
  have hagree := h.resolve reference hr
  generalize a.resolve reference = x at hagree hcites ⊢
  generalize b.resolve reference = y at hagree ⊢
  cases hagree with
  | ok hsame => exact .ok ⟨hsame, hcites rfl⟩
  | error failure => exact .error failure

namespace Schema

theorem composition?_same (h : ReadSame s t) : composition? s = composition? t := by
  simp only [composition?, compositionKeywords, List.findSome?_cons, List.findSome?_nil,
    h "allOf" (by decide), h "oneOf" (by decide), h "anyOf" (by decide)]

theorem isAlias_same (h : ReadSame s t) : isAlias s = isAlias t := by
  have hcompositions : compositionKeywords.any (has s) = compositionKeywords.any (has t) := by
    simp only [compositionKeywords, List.any_cons, List.any_nil,
      h.has "allOf", h.has "oneOf", h.has "anyOf"]
  rw [isAlias, isAlias, h.has "properties", h.has "enum", hcompositions, h.getD "type",
    h.getD "additionalProperties"]

/-- The type of a mapping, where `follow` gives the types of references and `part` those of schemas
in it. -/
def typeStep (g : Generator) (follow : String → Attempt TargetType)
    (part : Value → Attempt TargetType) (schema : Members) : Attempt TargetType :=
  match Members.get? schema "$ref" with
  | some (.str reference) => follow reference
  | some _ => .error .unsuitable
  | none =>
    match composition? schema with
    | some (keyword, .list items) => firstResolvable keyword none (items.map fun item _ => part item)
    | some (keyword, v) => match v.elements? with
      | some (first :: _) => refuse (.noResolvableMember keyword (.notMapping first.kindName))
      | _ => .error .unsuitable
    | none => do
      let type ← concreteType (Members.getD schema "type" .null)
      if type.keyEq (.str "array") then
        match Members.get? schema "items" with
        | none => refuse .arrayWithoutItems
        | some items => return g.target.listType (← part items)
      else if type.keyEq (.str "object")
          || (type.keyEq .null && Members.has schema "properties") then
        match Members.get? schema "additionalProperties" with
        | some (.map []) | some (.bool true) =>
          return g.target.mapType g.target.genericObject.toType
        | some (.map (m :: ms)) => return g.target.mapType (← part (.map (m :: ms)))
        | _ => return g.target.genericObject.toType
      else scalarType g type (Members.getD schema "format" .null)

theorem typeWith_map {follow : String → Attempt TargetType} {schema : Members} :
    typeWith g follow (.map schema) = typeStep g follow (typeWith g follow) schema := by
  rw [typeWith, typeStep]
  cases hr : Members.get? schema "$ref" with
  | some v => cases v <;> rfl
  | none =>
      simp only
      split
      next keyword items hc =>
        have hitems : (items.attach.map fun item (_ : Unit) => typeWith g follow item.1)
            = items.map fun item _ => typeWith g follow item := by
          simp only [List.map_attach_eq_pmap, List.pmap_eq_map]
        rw [hc]
        exact congrArg _ hitems
      next keyword v hv hc =>
        rw [hc]
        cases v with
        | list items => exact absurd rfl (hv items)
        | _ => rfl
      next hc =>
        rw [hc]
        refine bind_congr fun type => ?_
        split
        · split <;> rename_i hi <;> simp only [hi]
        · split
          · split <;> rename_i ha <;> simp only [ha]
          · rfl

theorem typeStep_same {follow : String → Attempt TargetType} {part : Value → Attempt TargetType}
    (h : ReadSame s t) : typeStep g follow part s = typeStep g follow part t := by
  unfold typeStep
  rw [h "$ref" (by decide), composition?_same h, h "items" (by decide),
    h "additionalProperties" (by decide), h.getD "type", h.getD "format", h.has "properties"]

/-- A mapping has one type if its reference has one and the parts that its type may come from have
one. -/
theorem typeStep_congr {follow follow' : String → Attempt TargetType}
    {part part' : Value → Attempt TargetType}
    (hf : ∀ reference, get? s "$ref" = some (.str reference) → follow reference = follow' reference)
    (hm : ∀ keyword items, composition? s = some (keyword, .list items) →
      ∀ item ∈ items, part item = part' item)
    (hi : ∀ v, get? s "items" = some v → part v = part' v)
    (ha : ∀ v, get? s "additionalProperties" = some v → part v = part' v) :
    typeStep g follow part s = typeStep g follow' part' s := by
  unfold typeStep
  cases hr : Members.get? s "$ref" with
  | some v =>
      cases v with
      | str reference => exact hf reference hr
      | _ => rfl
  | none =>
      cases hc : composition? s with
      | some entry =>
          obtain ⟨keyword, v⟩ := entry
          cases v with
          | list items =>
              refine congrArg _ (List.map_congr_left fun item hin => funext fun _ => ?_)
              exact hm keyword items hc item hin
          | _ => rfl
      | none =>
          refine bind_congr fun type => ?_
          by_cases harray : type.keyEq (.str "array") = true
          · rw [if_pos harray, if_pos harray]
            cases hitems : Members.get? s "items" with
            | none => rfl
            | some items => simp only [hi items hitems]
          · rw [if_neg harray, if_neg harray]
            split
            · cases hvalues : Members.get? s "additionalProperties" with
              | none => rfl
              | some v =>
                  have hv := ha v hvalues
                  cases v with
                  | map members =>
                      cases members with
                      | nil => rfl
                      | cons m ms => simp only [hv]
                  | bool b => cases b <;> rfl
                  | _ => rfl
            · rfl

/-- Mappings that read alike have one type if their references have one and their parts have one. -/
theorem typeStep_alike {follow follow' : String → Attempt TargetType}
    {part part' : Value → Attempt TargetType} (h : Alike P s t)
    (hf : ∀ reference, P reference → follow reference = follow' reference)
    (hp : ∀ v, v.CitesOnly P → sizeOf v < sizeOf (Value.map s) → part v = part' v) :
    typeStep g follow part s = typeStep g follow' part' t := by
  rw [← typeStep_same h.same]
  refine typeStep_congr (fun reference hr => hf reference (h.cites.reference hr)) ?_
    (fun v hi => hp v (h.cites.get? hi) (sizeOf_lt_of_get? hi))
    (fun v ha => hp v (h.cites.get? ha) (sizeOf_lt_of_get? ha))
  intro keyword items hc item hm
  have hcites := h.cites.get? (mem_of_composition? hc).2
  have hsize := sizeOf_lt_of_composition? hc
  have hlt := List.sizeOf_lt_of_mem hm
  rw [Value.list.sizeOf_spec] at hsize
  exact hp item (hcites.of_list hm) (by omega)

theorem typeWith_alike {follow follow' : String → Attempt TargetType}
    (hf : ∀ reference, P reference → follow reference = follow' reference) (h : Alike P s t) :
    typeWith g follow (.map s) = typeWith g follow' (.map t) := by
  induction hn : sizeOf (Value.map s) using Nat.strongRecOn generalizing s t with
  | ind n ih =>
      subst hn
      rw [typeWith_map, typeWith_map]
      refine typeStep_alike h hf fun v hv hlt => ?_
      cases v with
      | map members => exact ih _ hlt (.refl hv) rfl
      | _ => simp only [typeWith]

/-- A value has one type wherever the references that its type may come from have one. -/
theorem typeWith_congr {follow follow' : String → Attempt TargetType} {v : Value}
    (hf : ∀ reference, Refers v reference → follow reference = follow' reference) :
    typeWith g follow v = typeWith g follow' v := by
  induction hn : sizeOf v using Nat.strongRecOn generalizing v with
  | ind n ih =>
      subst hn
      cases v with
      | map schema =>
          rw [typeWith_map, typeWith_map]
          refine typeStep_congr (fun r hr => hf r (.direct hr)) ?_
            (fun v hi => ih _ (sizeOf_lt_of_get? hi) (fun r hr => hf r (.items hi hr)) rfl)
            (fun v ha => ih _ (sizeOf_lt_of_get? ha) (fun r hr => hf r (.values ha hr)) rfl)
          intro keyword items hc item hm
          have hsize := sizeOf_lt_of_composition? hc
          have hlt := List.sizeOf_lt_of_mem hm
          rw [Value.list.sizeOf_spec] at hsize
          exact ih _ (by omega) (fun r hr => hf r (.member hc hm hr)) rfl
      | _ => simp only [typeWith]

/-- A value has one type wherever its references have one. -/
theorem typeWith_same {follow follow' : String → Attempt TargetType}
    (hf : ∀ reference, P reference → follow reference = follow' reference) {v : Value}
    (hv : v.CitesOnly P) : typeWith g follow v = typeWith g follow' v := by
  cases v with
  | map members => exact typeWith_alike hf (.refl hv)
  | _ => simp only [typeWith]

theorem typeOfTarget_same (h : a.Mirrors P b) {seen : List String} {reference : String}
    {next? next?' : Option (String → Attempt TargetType)} (hr : P reference)
    (hn : Option.Rel (fun f k => ∀ r, P r → f r = k r) next? next?') :
    typeOfTarget g a seen reference next? = typeOfTarget g b seen reference next?' := by
  refine agree_eq.mp ((h.resolve reference hr).bind fun s t hst => agree_eq.mpr ?_)
  rw [isAlias_same hst.same]
  refine bind_congr fun inlined => ?_
  split
  · split
    · rfl
    · cases hn with
      | none => rfl
      | some hf => exact typeWith_alike hf hst
  · rfl

theorem typeOfReference_same (h : a.Mirrors P b) (hops : Nat) (seen : List String)
    {reference : String} (hr : P reference) :
    typeOfReference g a hops seen reference = typeOfReference g b hops seen reference := by
  induction hops generalizing seen reference with
  | zero => exact typeOfTarget_same h hr .none
  | succ hops ih => exact typeOfTarget_same h hr (.some fun r hr' => ih _ hr')

end Schema

namespace Spec

theorem derefFrom_agree (h : a.Mirrors P b) (hops : Nat) (seen : List String)
    (hst : Alike P s t) :
    Agree (Alike P) (derefFrom a.document hops seen s) (derefFrom b.document hops seen t) := by
  induction hops using Nat.strongRecOn generalizing seen s t with
  | ind hops ih =>
      unfold derefFrom
      rw [← hst.same "$ref" (by decide)]
      cases hr : Members.get? s "$ref" with
      | none => exact .ok hst
      | some v =>
          cases v with
          | str reference =>
              have hagree := h.resolve reference (hst.cites.reference hr)
              unfold resolve at hagree
              dsimp only
              split
              · exact .error _
              · generalize resolveIn a.document reference = x at hagree ⊢
                generalize resolveIn b.document reference = y at hagree ⊢
                cases hagree with
                | error failure => exact .error failure
                | ok hnext =>
                    cases hops with
                    | zero => exact .error _
                    | succ hops => exact ih hops (Nat.lt_succ_self _) _ hnext
          | _ => exact .error _

end Spec

end ApiScaffold
