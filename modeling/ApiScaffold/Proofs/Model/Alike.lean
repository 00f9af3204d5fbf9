import ApiScaffold.Proofs.Model.Depth
import ApiScaffold.Proofs.Schema.Mirror

/-!
# Models in documents that read alike

A schema has one model in documents whose references lead to mappings that read alike.

What a model is built from is gathered along its compositions, so the argument goes in the same
steps: a turn of a member comes to the same in both documents (`run_same`), then a flattening does
(`flatten_same`), then the properties, and with them the model (`ofSchema_same`). The number of
values in a document bounds the depth of a flattening, and documents that read alike may have
different numbers of them. `GathersSame` says that the result is one at both depths; it holds where
the numbers are one, and for proper documents, where each depth is enough.
-/

namespace ApiScaffold.Model

open Attempt Members

variable {P : String → Prop} {a b : Spec} {s t : Members} {g : Generator} {model : String}

theorem nonEmpty?_same (h : ReadSame s t) {key : String} (hk : key ∈ Spec.keywords) :
    nonEmpty? s key = nonEmpty? t key := by
  rw [nonEmpty?, nonEmpty?, h key hk]

theorem entriesUnder_same (h : ReadSame s t) {key : String} (hk : key ∈ Spec.keywords) :
    entriesUnder s key = entriesUnder t key := by
  rw [entriesUnder, entriesUnder, nonEmpty?_same h hk]

theorem elementsUnder_same (h : ReadSame s t) {key : String} (hk : key ∈ Spec.keywords) :
    elementsUnder s key = elementsUnder t key := by
  rw [elementsUnder, elementsUnder, nonEmpty?_same h hk]

theorem declareOwn_same (h : ReadSame s t) (origin : String) (gathered : Gathered) :
    declareOwn model origin s gathered = declareOwn model origin t gathered := by
  rw [declareOwn, declareOwn, entriesUnder_same h (by decide), elementsUnder_same h (by decide)]

theorem citesOnly_of_membersUnder {keyword : String} {members : List Member}
    (hs : (Value.map s).CitesOnly P) (h : membersUnder s keyword = .ok members) :
    ∀ member ∈ members, member.value.CitesOnly P := by
  intro member hm
  obtain ⟨vs, hvs, h⟩ := Attempt.bind_eq_ok.mp h
  cases h
  obtain ⟨⟨v, index⟩, hv, rfl⟩ := List.mem_map.mp hm
  have hin : v ∈ vs := List.mem_of_getElem? (List.mk_mem_zipIdx_iff_getElem?.mp hv)
  obtain ⟨w, hget, he⟩ := elementsUnder_ok hvs (List.ne_nil_of_mem hin)
  exact (hs.get? hget).elements he v hin

theorem listed_same (h : ReadSame s t) : listed s = listed t := by
  have hkeywords : ∀ keyword ∈ Schema.compositionKeywords, keyword ∈ Spec.keywords := by decide
  refine List.flatMap_congr fun keyword hk => ?_
  rw [membersUnder, membersUnder, elementsUnder_same h (hkeywords keyword hk)]

theorem citesOnly_of_listed {member : Member} (hs : (Value.map s).CitesOnly P)
    (hm : .ok member ∈ listed s) : member.value.CitesOnly P := by
  obtain ⟨keyword, -, hm⟩ := List.mem_flatMap.mp hm
  split at hm
  next members hmembers =>
    obtain ⟨read, hread, heq⟩ := List.mem_map.mp hm
    cases heq
    exact citesOnly_of_membersUnder hs hmembers member hread
  next => cases List.mem_singleton.mp hm

/-- The turn of a member comes to the same in both documents, if what it calls for does. -/
theorem run_same {follow follow' : String → List String → Members → Gathered → Attempt Gathered}
    (h : a.Mirrors P b)
    (hf : ∀ {s t} start way, Alike P s t → ∀ gathered,
      follow start way s gathered = follow' start way t gathered)
    {origin : String} {visiting : List String} {member : Member}
    (hm : member.value.CitesOnly P) (gathered : Gathered) :
    (turn a model origin visiting member gathered).run follow
      = (turn b model origin visiting member gathered).run follow' := by
  unfold turn
  cases hv : member.value with
  | map reference =>
      rw [hv] at hm
      have hd := Spec.deref_agree h (.refl hm)
      dsimp only
      generalize a.deref reference = x at hd ⊢
      generalize b.deref reference = y at hd ⊢
      cases hd with
      | error failure =>
          cases Spec.schemaTarget? reference with
          | none => rfl
          | some component =>
              dsimp only
              split
              · rfl
              · split <;> rfl
      | ok hst =>
          cases Spec.schemaTarget? reference with
          | none => exact hf _ _ hst _
          | some component =>
              dsimp only
              split
              · rfl
              · split
                · rfl
                · exact hf _ _ hst _
  | _ => rfl

/-- The same is gathered from a schema in both documents. -/
theorem flatten_same (h : a.Mirrors P b) (depth : Nat) (origin : String) (visiting : List String)
    (hst : Alike P s t) (gathered : Gathered) :
    flatten a model depth origin visiting s gathered
      = flatten b model depth origin visiting t gathered := by
  induction depth generalizing origin visiting s t gathered with
  | zero => rfl
  | succ depth ih =>
      rw [flatten_succ, flatten_succ, declareOwn_same hst.same, ← listed_same hst.same]
      refine bind_congr fun own => agree_eq.mp (agree_foldlM (fun member hin x y hxy => ?_) rfl)
      obtain rfl : x = y := hxy
      refine Agree.bind_same fun member hm => agree_eq.mpr ?_
      exact run_same h ih (citesOnly_of_listed hst.cites (hm ▸ hin)) x

/-- What the compositions of a schema lead to has no other references than those of the kind. -/
theorem citesOnly_of_visits (h : a.Mirrors P b) (hs : (Value.map s).CitesOnly P)
    (hv : Visits a s t) : (Value.map t).CitesOnly P := by
  induction hv with
  | refl => exact hs
  | tail _ hc ih =>
      obtain ⟨member, ⟨keyword, v, vs, hget, he, hm, -⟩, hd⟩ := hc
      exact h.derefs ((ih.get? hget).elements he _ hm) hd

/-- A declared property is built alike in both documents. -/
theorem buildProperty_same (h : a.Mirrors P b) (required : List Value) {d : Declared}
    (hd : d.schema.CitesOnly P) :
    buildProperty g a model required d = buildProperty g b model required d := by
  rw [buildProperty, buildProperty, Schema.resolve_same h hd]
  refine agree_eq.mp (Agree.bind_same fun type _ => Agree.bind_same fun schema hs => ?_)
  rw [Value.entries_ok hs] at hd
  refine (Spec.deref_agree h (.refl hd)).bind fun x y hxy => agree_eq.mpr ?_
  dsimp only
  rw [elementsUnder_same hxy.same (by decide), nonEmpty?_same hxy.same (by decide),
    hxy.same.getD "description"]

theorem buildProperties_same (h : a.Mirrors P b) (required : List Value) {declared : List Declared}
    (hd : ∀ d ∈ declared, d.schema.CitesOnly P) (built : List (Property × List String)) :
    buildProperties g a model required declared built
      = buildProperties g b model required declared built := by
  induction declared generalizing built with
  | nil => rfl
  | cons d rest ih =>
      rw [List.forall_mem_cons] at hd
      rw [buildProperties, buildProperties, buildProperty_same h required hd.1]
      refine bind_congr fun found => ?_
      dsimp only
      split
      · rfl
      · exact ih hd.2 _

theorem buildEnum_same (h : a.Mirrors P b) (hs : (Value.map s).CitesOnly P) :
    buildEnum g a model s = buildEnum g b model s := by
  rw [buildEnum, buildEnum, Schema.resolve_same h (hs.erase (by decide))]

/-- The compositions of a schema come to the same in two documents, in each to the depth that it
allows. -/
def GathersSame (a b : Spec) (schema : Value) : Prop :=
  ∀ model members, schema = .map members →
    flatten a model (depthBound a members) model [model] members {}
      = flatten b model (depthBound b members) model [model] members {}

/-- Documents with as many values allow one depth. -/
theorem gathersSame_of_matches (h : a.Matches P b) {schema : Value} (hs : schema.CitesOnly P) :
    GathersSame a b schema := by
  rintro model members rfl
  rw [flatten_same h.mirrors _ _ _ (.refl hs), depthBound, depthBound, h.size]

/-- The depths that proper documents allow are enough. -/
theorem gathersSame_of_proper (h : a.Mirrors P b) (ha : a.IsProper) (hb : b.IsProper)
    {schema : Value} (hs : schema.CitesOnly P) (hp : schema.isProper = true) :
    GathersSame a b schema := by
  rintro model members rfl
  rw [← flatten_depthBound ha hp (Nat.le_max_left _ (depthBound b members)),
    ← flatten_depthBound hb hp (Nat.le_max_right (depthBound a members) _),
    flatten_same h _ _ _ (.refl hs)]

theorem buildRecord_same (h : a.Mirrors P b) (hs : (Value.map s).CitesOnly P)
    (hg : GathersSame a b (.map s)) : buildRecord g a model s = buildRecord g b model s := by
  simp only [buildRecord]
  rw [← hg model s rfl]
  refine agree_eq.mp (Agree.bind_same fun gathered hg => agree_eq.mpr ?_)
  rw [buildProperties_same h]
  intro d hd
  obtain hd | ⟨visited, hv, own, hp, hm⟩ := (flatten_ok hg).properties d hd
  · cases hd
  · exact (((citesOnly_of_visits h hs hv).get? hp).of_map hm).2

/-- A component has one model in both documents, or fails for one reason. -/
theorem ofSchema_same (h : a.Mirrors P b) (name : Value) {schema : Value}
    (hs : schema.CitesOnly P) (hg : GathersSame a b schema) :
    ofSchema g a name schema = ofSchema g b name schema := by
  cases schema with
  | map members =>
      cases name with
      | str name =>
          simp only [ofSchema]
          rw [buildEnum_same h hs, buildRecord_same h hs hg]
      | _ => rfl
  | _ => rfl

end ApiScaffold.Model
