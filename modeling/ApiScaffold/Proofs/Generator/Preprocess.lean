import ApiScaffold.Generator.Lifecycle
import ApiScaffold.Proofs.Document.Textual
import ApiScaffold.Proofs.Schema.Position

/-!
# The normal form of a document

The normal form adds an empty mapping of schemas, and a server, where a document has none. So it has
no schemas and no references in the place of schemas that the document itself has not.

What is needed of it is said once for any property that passes to parts (`normalized_closed`), and
for what a way leads to: in the normal form it leads to what it leads to in the document, or to
nothing (`follow_normalize`). A server that is put in is no mapping, so no way goes through it.
-/

namespace ApiScaffold

/-- The component schemas of a document, if it has any. -/
def Spec.componentSchemas (spec : Spec) : Members :=
  Generator.mapAt (Generator.mapAt spec.members "components") "schemas"

namespace Generator

variable {t : Target} {members : Members} {spec : Spec}

/-- A spec in the normal form of a target. -/
def normalized (t : Target) (spec : Spec) : Spec :=
  { spec with members := normalize t spec.members }

theorem get?_withServer {key : String} (hk : key ≠ "servers") :
    Members.get? (withServer members) key = Members.get? members key := by
  unfold withServer
  split
  · rfl
  · rw [Members.get?_insert, if_neg hk]

theorem get?_normalize {key : String} (hk : key ≠ "servers") :
    Members.get? (normalize t members) key = Members.get? (withSchemas members) key := by
  unfold normalize
  split
  · exact get?_withServer hk
  · rfl

/-- Other keys than those of the components and of the servers keep their values. -/
theorem get?_normalize_of_ne {key : String} (hc : key ≠ "components") (hs : key ≠ "servers") :
    Members.get? (normalize t members) key = Members.get? members key := by
  rw [get?_normalize hs, withSchemas, Members.get?_insert, if_neg hc]

/-- The components of a normal form. -/
def components (members : Members) : Members := withMapping (mapAt members "components")

theorem get?_normalize_components :
    Members.get? (normalize t members) "components" = some (.map (components members)) := by
  rw [get?_normalize (by decide), withSchemas, Members.get?_insert, if_pos rfl]
  rfl

/-- A server that is put in is no mapping, so no way through it leads to one. -/
theorem get?_normalize_servers :
    Members.get? (normalize t members) "servers" = Members.get? members "servers"
      ∨ ∃ items, Members.get? (normalize t members) "servers" = some (.list items) := by
  have hkeeps : Members.get? (withSchemas members) "servers"
      = Members.get? members "servers" := by
    rw [withSchemas, Members.get?_insert, if_neg (by decide)]
  unfold normalize
  split
  · unfold withServer
    split
    · exact .inl hkeeps
    · exact .inr ⟨_, by rw [Members.get?_insert, if_pos rfl]⟩
  · exact .inl hkeeps

/-- Members that have the values of others, but for their schemas. -/
def Keeps (kept original : Members) : Prop :=
  ∀ key, key ≠ "schemas" → Members.get? kept key = Members.get? original key

theorem withMapping_keeps (parts : Members) : Keeps (withMapping parts) parts := by
  intro key hk
  unfold withMapping
  split
  · rfl
  · rw [Members.get?_insert, if_neg hk]

theorem withMapping_schemas (parts : Members) :
    Members.get? (withMapping parts) "schemas" = Members.get? parts "schemas"
      ∨ Members.get? (withMapping parts) "schemas" = some (.map []) := by
  unfold withMapping
  split
  · exact .inl rfl
  · exact .inr (by rw [Members.get?_insert, if_pos rfl]; rfl)

theorem mapAt_cases (members : Members) (key : String) :
    Members.get? members key = some (.map (mapAt members key)) ∨ mapAt members key = [] := by
  unfold mapAt
  split
  next inner hget => exact .inl hget
  next => exact .inr rfl

theorem mapAt_of_get? {inner : Members} {key : String}
    (h : Members.get? members key = some (.map inner)) : mapAt members key = inner := by
  simp only [mapAt, h]

/-- What holds of a document, of its parts and of what is put into its parts holds of its normal
form. -/
theorem normalized_closed {Q : Value → Prop} (hempty : Q .emptyMap)
    (hserver : Q (.list [.map [(.str "url", .str "/")]]))
    (hget : ∀ {members key v}, Q (.map members) → Members.get? members key = some v → Q v)
    (hinsert : ∀ {members name v}, name ≠ "$ref" → Q (.map members) → Q v →
      Q (.map (Members.insert members (.str name) v)))
    {spec : Spec} (h : Q spec.document) (t : Target) : Q (normalized t spec).document := by
  have hparts : Q (.map (mapAt spec.members "components")) := by
    rcases mapAt_cases spec.members "components" with hg | hnil
    · exact hget h hg
    · rw [hnil]
      exact hempty
  have hcomponents : Q (.map (components spec.members)) := by
    unfold components withMapping
    split
    · exact hparts
    · exact hinsert (by decide) hparts hempty
  have hschemas : Q (.map (withSchemas spec.members)) := hinsert (by decide) h hcomponents
  show Q (.map (normalize t spec.members))
  unfold normalize
  split
  · unfold withServer
    split
    · exact hschemas
    · exact hinsert (by decide) hschemas hserver
  · exact hschemas

theorem isTextual_mapAt (h : (Value.map members).isTextual = true) (key : String) :
    (Value.map (mapAt members key)).isTextual = true := by
  rcases mapAt_cases members key with hg | hnil
  · exact Value.isTextual_of_get? h hg
  · rw [hnil]
    rfl

theorem follow_nil_map {keys : List String} {target : Members}
    (h : Pointer.follow (.map []) keys = some (.map target)) : target = [] := by
  cases keys with
  | nil =>
      cases h
      rfl
  | cons key rest => cases h

/-- What a way leads to in members that keep others, it leads to in those, or to nothing. -/
theorem follow_keeps {kept original : Members} {keys : List String} {target : Members}
    (hk : Keeps kept original)
    (hs : Members.get? kept "schemas" = Members.get? original "schemas"
      ∨ Members.get? kept "schemas" = some (.map []))
    (h : Pointer.follow (.map kept) keys = some (.map target)) :
    (∃ found, Pointer.follow (.map original) keys = some (.map found) ∧ Keeps target found)
      ∨ Keeps target [] := by
  cases keys with
  | nil =>
      cases h
      exact .inl ⟨original, rfl, hk⟩
  | cons key rest =>
      simp only [Pointer.follow, Value.get?] at h ⊢
      by_cases hkey : key = "schemas"
      · subst hkey
        rcases hs with hs | hs
        · rw [hs] at h
          exact .inl ⟨target, h, fun _ _ => rfl⟩
        · rw [hs] at h
          rw [follow_nil_map h]
          exact .inr fun _ _ => rfl
      · rw [hk key hkey] at h
        exact .inl ⟨target, h, fun _ _ => rfl⟩

theorem keys_ne_nil (body : List Char) : Pointer.keys body ≠ [] := by
  unfold Pointer.keys
  cases body with
  | nil => simp [Text.splitOn]
  | cons c cs =>
      rw [Text.splitOn]
      split
      · simp
      · split <;> simp

/-- What a way leads to in the normal form of a document, it leads to in the document, or to
nothing but schemas. -/
theorem follow_normalize {keys : List String} {target : Members} (hkeys : keys ≠ [])
    (h : Pointer.follow (.map (normalize t members)) keys = some (.map target)) :
    (∃ found, Pointer.follow (.map members) keys = some (.map found) ∧ Keeps target found)
      ∨ Keeps target [] := by
  cases keys with
  | nil => exact absurd rfl hkeys
  | cons key rest =>
      simp only [Pointer.follow, Value.get?] at h ⊢
      by_cases hc : key = "components"
      · subst hc
        rw [get?_normalize_components] at h
        have hfollow := follow_keeps (withMapping_keeps _) (withMapping_schemas _) h
        rcases mapAt_cases members "components" with hget | hnil
        · rw [hget]
          exact hfollow
        · rw [hnil] at hfollow
          rcases hfollow with ⟨found, hf, hkeep⟩ | hkeep
          · rw [follow_nil_map hf] at hkeep
            exact .inr hkeep
          · exact .inr hkeep
      · by_cases hsv : key = "servers"
        · subst hsv
          rcases @get?_normalize_servers t members with hs | ⟨items, hs⟩
          · rw [hs] at h
            exact .inl ⟨target, h, fun _ _ => rfl⟩
          · rw [hs] at h
            cases rest <;> cases h
        · rw [get?_normalize_of_ne hc hsv] at h
          exact .inl ⟨target, h, fun _ _ => rfl⟩

theorem resolve_normalized {reference : String} {target : Members}
    (h : (normalized t spec).resolve reference = .ok target) :
    (∃ found, spec.resolve reference = .ok found ∧ Keeps target found) ∨ Keeps target [] := by
  unfold Spec.resolve Spec.resolveIn at h ⊢
  split at h
  next => cases h
  next body hb =>
    split at h
    next => cases h
    next hf =>
      cases h
      rcases follow_normalize (keys_ne_nil body) hf with ⟨found, hfound, hkeep⟩ | hkeep
      · refine .inl ⟨found, ?_, hkeep⟩
        dsimp only [Spec.document]
        rw [hfound]
      · exact .inr hkeep
    next => cases h

/-- What references lead to in the normal form of a document, they lead to in the document, or to
nothing but schemas. -/
theorem derefs_normalized {kept original target : Members} (hk : Keeps kept original)
    (h : (normalized t spec).Derefs kept target) :
    (∃ found, spec.Derefs original found ∧ Keeps target found) ∨ Keeps target [] := by
  induction h generalizing original with
  | done hnone =>
      exact .inl ⟨original, .done (by rw [← hk _ (by decide)]; exact hnone), hk⟩
  | @step members next target reference href hr hd ih =>
      rcases resolve_normalized hr with ⟨found, hfound, hkeep⟩ | hkeep
      · rcases ih hkeep with ⟨last, hlast, hkeep'⟩ | hkeep'
        · exact .inl ⟨last, .step (by rw [← hk _ (by decide)]; exact href) hfound hlast, hkeep'⟩
        · exact .inr hkeep'
      · -- nothing but schemas has no reference to follow
        cases hd with
        | done _ => exact .inr hkeep
        | step href' _ _ =>
            rw [hkeep _ (by decide)] at href'
            cases href'

theorem Keeps.parameterSchema {kept original : Members} (h : Keeps kept original) :
    Operation.parameterSchema kept = Operation.parameterSchema original := by
  simp only [Operation.parameterSchema, Members.getD, h "schema" (by decide),
    h "content" (by decide)]

theorem Keeps.getD_content {kept original : Members} (h : Keeps kept original) :
    Members.getD kept "content" .null = Members.getD original "content" .null := by
  simp only [Members.getD, h "content" (by decide)]

theorem usesType_normalized {operation pathItem : Members} {v : Value}
    (h : Operation.UsesType (normalized t spec) operation pathItem v) :
    Operation.UsesType spec operation pathItem v ∨ v = .null := by
  have hcontent : Operation.contentSchema (Members.getD [] "content" .null) = .ok .null := rfl
  cases h with
  | parameter hl he hd hv =>
      rcases derefs_normalized (fun _ _ => rfl) hd with ⟨found, hfound, hkeep⟩ | hkeep
      · exact .inl (.parameter hl he hfound (hkeep.parameterSchema ▸ hv))
      · rw [hkeep.parameterSchema] at hv
        cases hv
        exact .inr rfl
  | body hr hd hv =>
      rcases derefs_normalized (fun _ _ => rfl) hd with ⟨found, hfound, hkeep⟩ | hkeep
      · exact .inl (.body hr hfound (hkeep.getD_content ▸ hv))
      · rw [hkeep.getD_content, hcontent] at hv
        cases hv
        exact .inr rfl
  | response hr hc hd hv =>
      rcases derefs_normalized (fun _ _ => rfl) hd with ⟨found, hfound, hkeep⟩ | hkeep
      · exact .inl (.response hr hc hfound (hkeep.getD_content ▸ hv))
      · rw [hkeep.getD_content, hcontent] at hv
        cases hv
        exact .inr rfl

theorem paths_normalized : (normalized t spec).paths = spec.paths := by
  simp only [Spec.paths, normalized, Members.getD,
    get?_normalize_of_ne (show "paths" ≠ "components" by decide) (by decide)]

theorem slots_normalized : (normalized t spec).slots = spec.slots := by
  simp only [Spec.slots, paths_normalized]

/-- The schemas of a normal form are those of the document. -/
theorem schemas_of_normalized (t : Target) (spec : Spec) :
    (normalized t spec).schemas = .ok (.map spec.componentSchemas) := by
  refine Spec.schemas_of_get? get?_normalize_components ?_
  unfold components withMapping Spec.componentSchemas
  split
  next found hfound => rw [hfound, mapAt_of_get? hfound]
  next hnone =>
    rw [Members.get?_insert, if_pos rfl]
    congr 2
    unfold mapAt
    split
    next inner hinner => exact absurd hinner (hnone inner)
    next => rfl

theorem schemas_normalized {schemas : Members} {entry : Value × Value}
    (h : (normalized t spec).schemas = .ok (.map schemas)) (hm : entry ∈ schemas) :
    spec.schemas = .ok (.map schemas) := by
  rw [schemas_of_normalized] at h
  cases h
  unfold Spec.componentSchemas at hm ⊢
  rcases mapAt_cases spec.members "components" with hparts | hnil
  · rcases mapAt_cases (mapAt spec.members "components") "schemas" with hs | hnil
    · exact Spec.schemas_of_get? hparts hs
    · rw [hnil] at hm
      cases hm
  · rw [hnil] at hm
    cases hm

/-- A schema of the normal form of a document is one of the document, or nothing. -/
theorem hasSchema_normalized {v : Value} (h : (normalized t spec).HasSchema v) :
    spec.HasSchema v ∨ v = .null := by
  induction h with
  | component hs hm => exact .inl (.component (schemas_normalized hs hm) hm)
  | ofOperation hs ho hu =>
      rcases usesType_normalized hu with hu | hnull
      · exact .inl (.ofOperation (slots_normalized ▸ hs) ho hu)
      · exact .inr hnull
  | property _ hp hm ih => exact .inl (.property (ih.resolve_right (by simp)) hp hm)
  | items _ hi ih => exact .inl (.items (ih.resolve_right (by simp)) hi)
  | values _ ha ih => exact .inl (.values (ih.resolve_right (by simp)) ha)
  | member _ hk hl he hm ih => exact .inl (.member (ih.resolve_right (by simp)) hk hl he hm)

/-- If all references in the place of schemas name components, they do in the normal form. -/
theorem namesComponents_normalized (h : spec.NamesComponents) :
    (normalized t spec).NamesComponents := by
  rintro reference ⟨schema, hs, href⟩
  exact h reference ⟨schema, (hasSchema_normalized hs).resolve_right (by simp), href⟩

end Generator

/-! ## Textual keys -/

namespace Spec

theorem IsTextual.componentSchemas {spec : Spec} (h : spec.IsTextual) :
    spec.componentSchemas.HasNames :=
  Value.hasNames_of_textual (Generator.isTextual_mapAt (Generator.isTextual_mapAt h _) _)

theorem IsTextual.paths {spec : Spec} (h : spec.IsTextual) : spec.paths.isTextual = true := by
  have hfound : (Members.getD spec.members "paths" .null).isTextual = true := by
    rw [Members.getD]
    cases hg : Members.get? spec.members "paths" with
    | none => rfl
    | some v => exact Value.isTextual_of_get? h hg
  unfold Spec.paths Value.orElse
  split
  · exact hfound
  · rfl

end Spec

end ApiScaffold
