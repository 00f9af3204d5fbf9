import ApiScaffold.Operation.Build
import ApiScaffold.Proofs.Schema.Mirror

/-!
# Operations in documents that read alike

An operation is built alike in documents whose references lead to mappings that read alike: from
parameters, a body and responses that are read alike.

Parameters are read by name and location and merged before they are built. So it is first shown that
the entries agree one by one (`rawParameter_agree`, `mergedParameters_agree`), which is a matter of
what references lead to, and only then that parameters, body and responses have the same types.
`ofSlot_same` puts the parts together.
-/

namespace ApiScaffold.Operation

open Attempt Members Value

variable {P : String → Prop} {a b : Spec} {g : Generator} {s t : Members}

/-! ## The references in what is read -/

theorem citesOnly_schemaOfMedia {media v : Value} (h : media.CitesOnly P)
    (hv : schemaOfMedia media = .ok v) : v.CitesOnly P := by
  have hm := h.orElse citesOnly_emptyMap
  unfold schemaOfMedia at hv
  generalize media.orElse .emptyMap = found at hv hm
  cases found with
  | map members =>
      cases hv
      exact hm.getD "schema"
  | _ => cases hv

theorem citesOnly_contentSchema {content v : Value} (h : content.CitesOnly P)
    (hv : contentSchema content = .ok v) : v.CitesOnly P := by
  unfold contentSchema at hv
  split at hv
  next =>
    cases hv
    exact citesOnly_null
  next =>
    obtain ⟨members, hm, hv⟩ := bind_eq_ok.mp hv
    rw [entries_ok hm] at h
    split at hv
    next hf =>
      obtain ⟨key, -, hg⟩ := List.exists_of_findSome?_eq_some hf
      exact citesOnly_schemaOfMedia (h.get? hg) hv
    next =>
      split at hv
      next =>
        cases hv
        exact citesOnly_null
      next => exact citesOnly_schemaOfMedia (h.of_map List.mem_cons_self).2 hv

theorem citesOnly_parameterSchema {v : Value} (h : (Value.map s).CitesOnly P)
    (hv : parameterSchema s = .ok v) : v.CitesOnly P := by
  unfold parameterSchema at hv
  split at hv
  next => exact citesOnly_contentSchema (h.getD "content") hv
  next =>
    cases hv
    exact h.getD "schema"

theorem citesOnly_parameterEntries {entries : List Value} (h : (Value.map s).CitesOnly P)
    (he : parameterEntries s = .ok entries) : ∀ entry ∈ entries, entry.CitesOnly P := by
  unfold parameterEntries at he
  dsimp only at he
  split at he
  · exact (h.getD "parameters").elements (require_eq_ok.mp he)
  · cases he
    simp

/-! ## Parameters -/

/-- Parameters have one name and location as written, and mappings that read alike. -/
structure RawParameter.Alike (P : String → Prop) (p q : RawParameter) : Prop where
  name : p.name = q.name
  location : p.location = q.location
  members : Members.Alike P p.members q.members

theorem rawParameter_agree (h : a.Mirrors P b) (subject : String) {entry : Value}
    (he : entry.CitesOnly P) :
    Agree (RawParameter.Alike P) (rawParameter a subject entry) (rawParameter b subject entry) := by
  cases entry with
  | map members =>
      refine (Spec.deref_agree h (.refl he)).bind fun s t hst => ?_
      rw [← hst.same "name" (by decide), ← hst.same "in" (by decide)]
      split
      · split
        · exact .ok ⟨rfl, rfl, hst⟩
        · exact .error _
      · exact .error _
  | _ => exact .error _

theorem mergeParameter_alike {xs ys : List RawParameter} {p q : RawParameter}
    (h : List.Forall₂ (RawParameter.Alike P) xs ys) (hpq : p.Alike P q) :
    List.Forall₂ (RawParameter.Alike P) (mergeParameter xs p) (mergeParameter ys q) := by
  induction h with
  | nil => exact .cons hpq .nil
  | cons hxy hrest ih =>
      rw [mergeParameter, mergeParameter, hxy.name, hpq.name, hxy.location, hpq.location]
      split
      · exact .cons ⟨rfl, rfl, hpq.members⟩ hrest
      · exact .cons hxy ih

theorem mergedParameters_agree (h : a.Mirrors P b) {item item' operation : Members}
    (hi : (Value.map item).CitesOnly P) (hsame : parameterEntries item = parameterEntries item')
    (ho : (Value.map operation).CitesOnly P) (subject : String) :
    Agree (List.Forall₂ (RawParameter.Alike P)) (mergedParameters a item operation subject)
      (mergedParameters b item' operation subject) := by
  rw [mergedParameters, mergedParameters, ← hsame]
  refine Agree.bind_same fun shared hs => Agree.bind_same fun own hown => ?_
  refine agree_foldlM (fun entry hin merged merged' hmerged => ?_) List.Forall₂.nil
  have hentry : entry.CitesOnly P := by
    rcases List.mem_append.mp hin with hin | hin
    · exact citesOnly_parameterEntries hi hs entry hin
    · exact citesOnly_parameterEntries ho hown entry hin
  exact (rawParameter_agree h subject hentry).bind fun p q hpq =>
    .pure (mergeParameter_alike hmerged hpq)

theorem parameterSchema_same (h : ReadSame s t) : parameterSchema s = parameterSchema t := by
  rw [parameterSchema, parameterSchema, h.getD "schema", h.getD "content"]

theorem buildParameter_same (h : a.Mirrors P b) (id : Value) (subject : String)
    {p q : RawParameter} (hpq : p.Alike P q) :
    buildParameter g a id subject p = buildParameter g b id subject q := by
  have hsame := hpq.members.same
  simp only [buildParameter]
  rw [← parameterSchema_same hsame, ← hsame.getD "name", ← hsame.getD "in",
    ← hsame.getD "required", ← hsame.getD "description"]
  refine bind_congr fun location => ?_
  refine agree_eq.mp (Agree.bind_same fun schema hs => agree_eq.mpr ?_)
  rw [Schema.resolve_same h (citesOnly_parameterSchema hpq.members.cites hs)]

/-! ## Body and responses -/

theorem buildBody_same (h : a.Mirrors P b) (id : Value) {operation : Members}
    (ho : (Value.map operation).CitesOnly P) :
    buildBody g a id operation = buildBody g b id operation := by
  simp only [buildBody]
  split
  · rfl
  · rw [← bind_assoc, ← bind_assoc]
    refine agree_eq.mp ((Spec.derefValue_agree h (ho.getD _)).bind fun s t hst => ?_)
    rw [← hst.same.getD "content", ← hst.same.getD "required", ← hst.same.getD "description"]
    refine Agree.bind_same fun schema hs => agree_eq.mpr ?_
    rw [Schema.resolve_same h (citesOnly_contentSchema (hst.cites.getD _) hs)]

theorem responseMembers_agree (h : a.Mirrors P b) {raw : Value} (hr : raw.CitesOnly P) :
    Agree (Members.Alike P) (responseMembers a raw) (responseMembers b raw) := by
  cases raw with
  | map members => exact Spec.deref_agree h (.refl hr)
  | _ => exact .ok (.refl citesOnly_emptyMap)

theorem responseType_same (h : a.Mirrors P b) (id code : Value) {schema : Value}
    (hs : schema.CitesOnly P) : responseType g a id code schema = responseType g b id code schema := by
  unfold responseType
  rw [Schema.resolve_same h hs]

theorem buildResponse_same (h : a.Mirrors P b) (id code : Value) {raw : Value}
    (hr : raw.CitesOnly P) : buildResponse g a id code raw = buildResponse g b id code raw := by
  rw [buildResponse, buildResponse]
  refine agree_eq.mp ((responseMembers_agree h hr).bind fun s t hst => ?_)
  rw [← hst.same.getD "content", ← hst.same.getD "description"]
  refine Agree.bind_same fun schema hs => agree_eq.mpr ?_
  rw [responseType_same h id code (citesOnly_contentSchema (hst.cites.getD _) hs)]

theorem buildResponses_same (h : a.Mirrors P b) (id : Value) {operation : Members}
    (ho : (Value.map operation).CitesOnly P) :
    buildResponses g a id operation = buildResponses g b id operation := by
  simp only [buildResponses]
  split
  · rfl
  · refine agree_eq.mp (Agree.bind_same fun responses hr => agree_eq.mpr ?_)
    have hc := ho.getD "responses"
    rw [entries_ok hr] at hc
    refine mapM_eq_of_forall₂ (R := fun x y => x = y ∧ x ∈ responses)
      (List.forall₂_same.mpr fun x hx => ⟨rfl, hx⟩) ?_
    rintro ⟨code, raw⟩ _ ⟨rfl, hin⟩
    exact buildResponse_same h id code (hc.of_map hin).2

/-! ## Operations -/

/-- An operation is built alike in both documents, from path items with the same parameters. -/
theorem ofSlot_same (h : a.Mirrors P b) (path : Value) (method : String) {operation : Value}
    {item item' : Members} (ho : operation.CitesOnly P) (hi : (Value.map item).CitesOnly P)
    (hsame : Members.get? item "parameters" = Members.get? item' "parameters") :
    ofSlot g a path method operation (.map item) = ofSlot g b path method operation (.map item') := by
  have hentries : parameterEntries item = parameterEntries item' := by
    rw [parameterEntries, parameterEntries, Members.getD, Members.getD, hsame]
  cases operation with
  | map operation =>
      simp only [ofSlot, orElse_map]
      refine bind_congr fun id => ?_
      rw [Value.entries, Value.entries]
      refine agree_eq.mp ((mergedParameters_agree h hi hentries ho _).bind fun raws raws' hraws => ?_)
      rw [mapM_eq_of_forall₂ hraws fun p q => buildParameter_same h id _,
        buildBody_same h id ho, buildResponses_same h id ho]
      exact agree_eq.mpr rfl
  | _ => rfl

end ApiScaffold.Operation
