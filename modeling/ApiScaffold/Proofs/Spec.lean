import ApiScaffold.Proofs.Document.Value
import ApiScaffold.Spec

/-!
# Documents without lone halves

If no text of a document has a lone half (`Spec.IsWhole`), then neither has anything that is read
from it: what references in it point at, its account of the service, its schemas and its operations.

Where references lead is said by a relation (`Derefs`), since the statement is about all that
following them may come to. What holds of a document and passes to what stands under a key holds of
its component schemas (`schemas_closed`); other properties of documents use that as well.
-/

namespace ApiScaffold

open Text

namespace Value

theorem isWhole_orElse {v fallback : Value} (hv : v.isWhole = true)
    (hf : fallback.isWhole = true) : (v.orElse fallback).isWhole = true := by
  unfold orElse
  split
  · exact hv
  · exact hf

/-- A mapping stays, whether it counts or not. -/
theorem orElse_map (members : Members) : (Value.map members).orElse .emptyMap = .map members := by
  cases members <;> rfl

theorem entries_ok {v : Value} {members : Members} (h : v.entries = .ok members) :
    v = .map members := by
  cases v <;> cases h
  rfl

theorem areWhole_of_entries {v : Value} {members : Members} (hv : v.isWhole = true)
    (h : v.entries = .ok members) : Members.AreWhole members := by
  rw [entries_ok h] at hv
  exact hv

theorem isWhole_of_elements {v : Value} {vs : List Value} (hv : v.isWhole = true)
    (h : v.elements = .ok vs) : ∀ x ∈ vs, x.isWhole = true :=
  isWhole_elements hv (Attempt.require_eq_ok.mp h)

theorem isWhole_of_member {v default found : Value} {key : String} (hv : v.isWhole = true)
    (hd : default.isWhole = true) (h : v.member key default = .ok found) :
    found.isWhole = true := by
  cases v with
  | map members =>
      cases h
      exact Members.AreWhole.getD hv hd
  | _ => cases h

theorem eq_str_of_asStr? {v : Value} {s : String} (h : v.asStr? = some s) : v = .str s := by
  cases v with
  | str s => exact congrArg Value.str (Option.some.inj h)
  | _ => cases h

theorem isWhole_of_asStr? {v : Value} {s : String} (hv : v.isWhole = true)
    (h : v.asStr? = some s) : Text.isWhole s = true := by
  rw [eq_str_of_asStr? h] at hv
  simpa using hv

end Value

namespace Spec

/-! ## References -/

theorem areWhole_of_resolveIn {document : Value} {reference : String} {members : Members}
    (hd : document.isWhole = true) (h : resolveIn document reference = .ok members) :
    Members.AreWhole members := by
  unfold resolveIn at h
  split at h
  next => cases h
  next =>
    split at h
    next => cases h
    next hf =>
      cases h
      exact Pointer.isWhole_follow hd hf
    next => cases h

/-- References lead from members that may be one to members that are none. -/
inductive Derefs (spec : Spec) : Members → Members → Prop
  | done {members : Members} (h : Members.get? members "$ref" = none) : Derefs spec members members
  | step {members next target : Members} {reference : String}
      (h : Members.get? members "$ref" = some (.str reference))
      (hr : spec.resolve reference = .ok next) (hd : Derefs spec next target) :
      Derefs spec members target

theorem derefs_of_derefFrom {spec : Spec} {hops : Nat} {seen : List String}
    {members target : Members} (h : derefFrom spec.document hops seen members = .ok target) :
    Derefs spec members target := by
  induction hops generalizing seen members with
  | zero =>
      unfold derefFrom at h
      split at h
      next hnone =>
        cases h
        exact .done hnone
      next =>
        split at h
        · cases h
        · split at h <;> cases h
      next => cases h
  | succ hops ih =>
      unfold derefFrom at h
      split at h
      next hnone =>
        cases h
        exact .done hnone
      next reference href =>
        split at h
        · cases h
        · split at h
          next => cases h
          next next hn => exact .step href hn (ih h)
      next => cases h

theorem derefs_of_deref {spec : Spec} {members target : Members}
    (h : spec.deref members = .ok target) : Derefs spec members target := by
  unfold deref at h
  split at h
  · exact derefs_of_derefFrom h
  next hnone =>
    cases h
    exact .done (by simpa [Members.has] using hnone)

/-- Only a mapping leads to a mapping. -/
theorem derefs_of_derefValue {spec : Spec} {v : Value} {target : Members}
    (h : spec.derefValue v = .ok (.map target)) :
    ∃ members, v = .map members ∧ Derefs spec members target := by
  unfold derefValue at h
  split at h
  next members =>
    obtain ⟨found, hf, h⟩ := Attempt.bind_eq_ok.mp h
    cases h
    exact ⟨members, rfl, derefs_of_deref hf⟩
  next => split at h <;> cases h
  next => split at h <;> cases h
  next => cases h

/-- A document without lone halves. -/
def IsWhole (spec : Spec) : Prop := Members.AreWhole spec.members

variable {spec : Spec}

/-- What references in a document without lone halves lead to has none. -/
theorem IsWhole.derefs (h : spec.IsWhole) {members target : Members}
    (hm : Members.AreWhole members) (hd : spec.Derefs members target) :
    Members.AreWhole target := by
  induction hd with
  | done _ => exact hm
  | step _ hr _ ih => exact ih (areWhole_of_resolveIn h hr)

theorem isWhole_of_schemaNameOf? {reference name : String} (h : isWhole reference = true)
    (hn : schemaNameOf? reference = some name) : isWhole name = true := by
  unfold schemaNameOf? at hn
  split at hn
  · cases hn
    exact Pointer.isWhole_lastKey h
  · cases hn

theorem isWhole_of_schemaTarget? {members : Members} {name : String}
    (h : Members.AreWhole members) (hn : schemaTarget? members = some name) :
    isWhole name = true := by
  unfold schemaTarget? at hn
  split at hn
  next reference href =>
    exact isWhole_of_schemaNameOf? (by simpa using h.get? href) hn
  next => cases hn

/-! ## The account of the service -/

theorem IsWhole.info (h : spec.IsWhole) : spec.info.isWhole = true :=
  Members.AreWhole.getD h rfl

theorem IsWhole.title (h : spec.IsWhole) {v : Value} (hv : spec.title = .ok v) :
    v.isWhole = true :=
  Value.isWhole_of_member h.info (by simp; decide) hv

theorem IsWhole.description (h : spec.IsWhole) {v : Value} (hv : spec.description = .ok v) :
    v.isWhole = true :=
  Value.isWhole_of_member h.info (by simp; decide) hv

theorem IsWhole.version (h : spec.IsWhole) {s : String} (hs : spec.version = .ok s) :
    isWhole s = true := by
  obtain ⟨v, hv, hs⟩ := Attempt.bind_eq_ok.mp hs
  have hw : v.isWhole = true := Value.isWhole_of_member h.info (by simp; decide) hv
  exact Value.isWhole_of_display? hw (Attempt.require_eq_ok.mp hs)

theorem isWhole_of_firstServer {servers v : Value} (h : servers.isWhole = true)
    (hv : firstServer servers = .ok v) : v.isWhole = true := by
  unfold firstServer at hv
  split at hv
  next =>
    cases hv
    exact Value.isWhole_list.mp h _ List.mem_cons_self
  next => exact Members.AreWhole.find? h (Attempt.require_eq_ok.mp hv)
  next =>
    cases hv
    rfl
  next =>
    cases hv
    rfl
  next => cases hv

theorem IsWhole.basePath (h : spec.IsWhole) {s : String} (hs : spec.basePath = .ok s) :
    isWhole s = true := by
  have hservers : (Members.getD spec.members "servers" .null).isWhole = true :=
    Members.AreWhole.getD h rfl
  unfold Spec.basePath at hs
  dsimp only at hs
  split at hs
  · cases hs
    rfl
  · obtain ⟨first, hf, hs⟩ := Attempt.bind_eq_ok.mp hs
    have hfirst := isWhole_of_firstServer hservers hf
    split at hs
    next server =>
      obtain ⟨url, hu, hs⟩ := Attempt.bind_eq_ok.mp hs
      obtain ⟨path, hp, hs⟩ := Attempt.bind_eq_ok.mp hs
      cases hs
      have hurl : (Members.getD server "url" (.str "")).isWhole = true :=
        Members.AreWhole.getD hfirst (by simp; decide)
      have hpath := Url.isWhole_path
        (Value.isWhole_of_asStr? hurl (Attempt.require_eq_ok.mp hu)) (Attempt.require_eq_ok.mp hp)
      rw [isWhole_ofList]
      exact (isWhole_iff.mp hpath).of_subset (dropTail_subset _ _)
    next =>
      cases hs
      rfl

/-! ## Schemas and operations -/

/-- What holds of a document and passes to what stands under a key holds of its component schemas.
-/
theorem schemas_closed {P : Value → Prop} (hnull : P .null) (hempty : P .emptyMap)
    (hget : ∀ {members key v}, P (.map members) → Members.get? members key = some v → P v)
    (h : P spec.document) {v : Value} (hv : spec.schemas = .ok v) : P v := by
  have hgetD : ∀ {members : Members} {key : String}, P (.map members) →
      P (Members.getD members key .null) := by
    intro members key hm
    rw [Members.getD]
    cases hg : Members.get? members key with
    | none => exact hnull
    | some w => exact hget hm hg
  have horElse : ∀ {w : Value}, P w → P (w.orElse .emptyMap) := by
    intro w hw
    rw [Value.orElse]
    split
    · exact hw
    · exact hempty
  obtain ⟨found, hf, hv⟩ := Attempt.bind_eq_ok.mp hv
  cases hv
  have hparts := horElse (@hgetD spec.members "components" h)
  cases hp : (Members.getD spec.members "components" .null).orElse .emptyMap with
  | map parts =>
      rw [hp] at hparts hf
      cases hf
      exact horElse (hgetD hparts)
  | _ =>
      rw [hp] at hf
      cases hf

theorem IsWhole.schemas (h : spec.IsWhole) {v : Value} (hv : spec.schemas = .ok v) :
    v.isWhole = true :=
  @schemas_closed spec (fun v => v.isWhole = true) rfl rfl (fun hm hg => Members.AreWhole.get? hm hg)
    h v hv

/-- An operation where it stands, without lone halves. -/
structure Slot.IsWhole (slot : Slot) : Prop where
  path : slot.path.isWhole = true
  method : isWhole slot.method = true
  operation : slot.operation.isWhole = true
  pathItem : Members.AreWhole slot.pathItem

theorem mem_slotsOf {path : Value} {item : Members} {slot : Slot} :
    slot ∈ slotsOf path item ↔ slot.path = path ∧ slot.pathItem = item
      ∧ slot.method ∈ methods ∧ Members.get? slot.pathItem slot.method = some slot.operation := by
  simp only [slotsOf, List.mem_filterMap, Option.map_eq_some_iff]
  constructor
  · rintro ⟨method, hm, operation, ho, rfl⟩
    exact ⟨rfl, rfl, hm, ho⟩
  · rintro ⟨rfl, rfl, hm, ho⟩
    exact ⟨slot.method, hm, slot.operation, ho, rfl⟩

/-- An operation that path items are read to have is one of theirs. -/
theorem mem_of_slotsUntil {members : Members} {slot : Slot} (hs : slot ∈ (slotsUntil members).1) :
    (slot.path, .map slot.pathItem) ∈ members ∧ slot.method ∈ methods
      ∧ Members.get? slot.pathItem slot.method = some slot.operation := by
  fun_induction slotsUntil members with
  | case1 => cases hs
  | case2 path item rest slots stop heq ih =>
      rw [heq] at ih
      rcases List.mem_append.mp hs with hs | hs
      · obtain ⟨rfl, rfl, hfound⟩ := mem_slotsOf.mp hs
        exact ⟨List.mem_cons_self, hfound⟩
      · exact ⟨List.mem_cons_of_mem _ (ih hs).1, (ih hs).2⟩
  | case3 => cases hs

theorem mem_of_slots {slot : Slot} (hs : slot ∈ spec.slots.1) :
    ∃ paths, spec.paths = .map paths ∧ (slot.path, .map slot.pathItem) ∈ paths
      ∧ slot.method ∈ methods ∧ Members.get? slot.pathItem slot.method = some slot.operation := by
  unfold Spec.slots at hs
  split at hs
  next members hm =>
    obtain ⟨entries, he, hm⟩ := Attempt.bind_eq_ok.mp hm
    obtain ⟨hin, hfound⟩ := mem_of_slotsUntil hs
    exact ⟨entries, Value.entries_ok he,
      (Members.mem_sorted? (Attempt.require_eq_ok.mp hm)).mp hin, hfound⟩
  next => cases hs

theorem IsWhole.slots (h : spec.IsWhole) {slot : Slot} (hs : slot ∈ spec.slots.1) :
    slot.IsWhole := by
  have hmethods : ∀ method ∈ methods, isWhole method = true := by decide
  obtain ⟨paths, hp, hin, hm, ho⟩ := mem_of_slots hs
  have hpaths : spec.paths.isWhole = true :=
    Value.isWhole_orElse (Members.AreWhole.getD h rfl) rfl
  rw [hp, Value.isWhole_map] at hpaths
  obtain ⟨hpath, hitem⟩ := hpaths _ hin
  have hitem' : Members.AreWhole slot.pathItem := hitem
  exact ⟨hpath, hmethods _ hm, hitem'.get? ho, hitem⟩

/-- A document that is accepted at all is accepted as it is. -/
theorem ofValue_document {spec : Spec} (h : (ofValue spec.document spec.source).isOk = true) :
    ofValue spec.document spec.source = .ok spec := by
  cases hf : ofValue spec.document spec.source with
  | error failure =>
      rw [hf] at h
      cases h
  | ok found =>
      obtain ⟨members, hm, hf⟩ := Attempt.bind_eq_ok.mp hf
      obtain ⟨_, -, hf⟩ := Attempt.bind_eq_ok.mp hf
      cases hf
      obtain ⟨version, -, hm⟩ := Attempt.bind_eq_ok.mp hm
      split at hm
      next => cases hm
      next =>
        split at hm
        next => cases hm
        next =>
          cases hm
          rfl

/-- A document without paths and schemas. -/
def bare : Spec where
  members := [(.str "openapi", .str "3.0.0"), (.str "info", .map []), (.str "paths", .map [])]
  source := "<memory>"

end Spec

end ApiScaffold
