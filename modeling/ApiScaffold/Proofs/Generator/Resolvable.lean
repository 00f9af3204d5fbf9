import ApiScaffold.Proofs.Document.Chain
import ApiScaffold.Proofs.Generator.Loaded
import ApiScaffold.Proofs.Run.Stages

/-!
# References in the copy of a run

The references of a document are checked once, when it is accepted. A run then works on a copy of it
in its normal form, of which parts were replaced after the check. What was checked still holds
there: a reference into the components that points at a mapping points in the copy at the copy of
that mapping, since nothing is put where a way through the components led to a mapping before, and
following references ends, since a chain has no more references than the document
(`Generator.staysResolvable_iff`).

This is so wherever the check has come to, and the walk of the check passes pairs by. So what stands
in a pair stays resolvable if its references point somewhere, which nothing has checked; a document
with a pair whose reference points nowhere is accepted (`Generator.pair_dangles`).
-/

namespace ApiScaffold

/-- Whether a value is a reference into the components of a document. -/
def Value.pointsIntoComponents : Value → Bool
  | .str reference => reference.startsWith "#/components/"
  | _ => false

/-- The keys of a reference into the components. -/
theorem Pointer.keys_of_component {reference : String}
    (h : reference.startsWith "#/components/" = true) :
    ∃ body rest, Pointer.body? reference = some body ∧ rest ≠ []
      ∧ Pointer.keys body = "components" :: rest := by
  rw [String.startsWith_string_iff] at h
  obtain ⟨rest, hr⟩ := h
  refine ⟨"components".toList ++ '/' :: rest, Pointer.keys rest, ?_, Generator.keys_ne_nil rest, ?_⟩
  · rw [Pointer.body?, ← hr]
    rfl
  · rw [Pointer.keys, Text.splitOn_append_cons (by decide)]
    rfl

namespace Generator

variable {t : Target} {members parts target : Members} {keys : List String} {spec : Spec}

/-! ## What references point at -/

/-- A way to a mapping leads past schemas that are none, so it stays when a mapping is put in their
place. -/
theorem follow_withMapping (hkeys : keys ≠ [])
    (h : Pointer.follow (.map parts) keys = some (.map target)) :
    Pointer.follow (.map (withMapping parts)) keys = some (.map target) := by
  cases keys with
  | nil => exact absurd rfl hkeys
  | cons key rest =>
      by_cases hkey : key = "schemas"
      · subst hkey
        rw [Pointer.follow, Value.get?] at h
        unfold withMapping
        split
        next schemas hs =>
          rw [Pointer.follow, Value.get?]
          exact h
        next hnone =>
          -- schemas that are no mapping lead nowhere
          cases hs : Members.get? parts "schemas" with
          | none =>
              rw [hs] at h
              cases h
          | some v =>
              rw [hs] at h
              cases rest with
              | nil =>
                  cases h
                  exact absurd hs (hnone target)
              | cons next rest =>
                  cases v with
                  | map schemas => exact absurd hs (hnone schemas)
                  | _ => cases h
      · rw [Pointer.follow, Value.get?] at h ⊢
        rw [withMapping_keeps parts key hkey]
        exact h

theorem follow_normalize_components (hkeys : keys ≠ [])
    (h : Pointer.follow (.map members) ("components" :: keys) = some (.map target)) :
    Pointer.follow (.map (normalize t members)) ("components" :: keys) = some (.map target) := by
  rw [Pointer.follow, Value.get?] at h ⊢
  rw [get?_normalize_components, components]
  cases hp : Members.get? members "components" with
  | none =>
      rw [hp] at h
      cases h
  | some v =>
      rw [hp] at h
      cases v with
      | map parts =>
          rw [mapAt_of_get? hp]
          exact follow_withMapping hkeys h
      | _ =>
          -- only a mapping has keys to follow
          cases keys with
          | nil => exact absurd rfl hkeys
          | cons _ _ => cases h

/-- A reference into the components points in the normal form at the mapping at which it points in
the document. -/
theorem resolve_normalized_components {reference : String}
    (hr : reference.startsWith "#/components/" = true)
    (h : spec.resolve reference = .ok target) :
    (normalized t spec).resolve reference = .ok target := by
  obtain ⟨body, rest, hbody, hrest, hkeys⟩ := Pointer.keys_of_component hr
  unfold Spec.resolve Spec.resolveIn at h ⊢
  rw [hbody] at h ⊢
  dsimp only at h ⊢
  rw [hkeys] at h ⊢
  have hfound : Pointer.follow spec.document ("components" :: rest) = some (.map target) := by
    split at h
    next => cases h
    next hf =>
      cases h
      exact hf
    next => cases h
  have hnormal : Pointer.follow (normalized t spec).document ("components" :: rest)
      = some (.map target) := follow_normalize_components hrest hfound
  rw [hnormal]

/-! ## Which references there are -/

/-- What is put into a document has no references. -/
theorem isRefRule_normalized {P Q : Value → Prop} (h : Value.IsRefRule P Q) (hd : Q spec.document)
    (t : Target) : Q (normalized t spec).document := by
  have hserver : Q (.map (Members.insert [] (.str "url") (.str "/"))) :=
    h.insert (by decide) h.emptyMap h.str
  exact normalized_closed h.emptyMap
    (h.list.mpr fun v hv => List.mem_singleton.mp hv ▸ hserver)
    (fun hm hv => h.get? hm hv) (fun hname hm hv => h.insert hname.symm hm hv) hd t

theorem eachRef_normalized {P : Value → Prop} (h : spec.document.EachRef P) :
    (normalized t spec).document.EachRef P :=
  isRefRule_normalized Value.eachRef_isRefRule h t

end Generator

/-! ## The run copy -/

/-- What stands in a copy can be resolved as it can in the document: each reference points at the
copy of the mapping at which it points in the document; from each mapping references are followed to
the mapping without one that ends their chain, or a circular reference is reported; and this exactly
if the chain comes to a reference twice. -/
structure StaysResolvable (stands : Value → Value → Prop) (order : SetOrder) (spec copy : Spec) :
    Prop where
  points : ∀ w, stands copy.document w → ∀ v ∈ w.get? "$ref", ∃ reference target,
    v = .str reference ∧ spec.resolve reference = .ok target
      ∧ copy.resolve reference = .ok (Value.copyMembers order target)
  ends : ∀ members, stands copy.document (.map members) →
    (∃ refs last, copy.deref members = .ok last ∧ copy.Chain members refs last
      ∧ Members.get? last "$ref" = none)
    ∨ ∃ reference, copy.deref members = .error (.spec (.circularReference (.str reference)))
  circular : ∀ members, stands copy.document (.map members) →
    ((∃ reference, copy.deref members = .error (.spec (.circularReference (.str reference))))
      ↔ copy.Circles members)

namespace Generator

variable {order : SetOrder} {d copy : Loaded} {document : Value} {source : String} {g : Generator}
  {target : Members}

/-- Where a mapping of schemas was put in at the places of twins, no way through the components
leads to another mapping. -/
theorem resolve_padded {reference : String} (hr : reference.startsWith "#/components/" = true) :
    d.padded.resolve reference = d.spec.resolve reference := by
  obtain ⟨body, rest, hbody, -, hkeys⟩ := Pointer.keys_of_component hr
  have hget : d.padded.document.get? "components" = d.spec.document.get? "components" :=
    d.get?_padded_components
  unfold Spec.resolve Spec.resolveIn
  rw [hbody]
  dsimp only
  rw [hkeys, Pointer.follow, Pointer.follow, hget]

/-- The preprocessing of a copy gives the copy of the normal form. -/
theorem spec_of_preprocessInPlace (hp : (g.preprocessInPlace (d.copy order)).result = .ok copy) :
    copy.spec = (normalized g.target d.padded).copy order := by
  unfold preprocessInPlace at hp
  obtain ⟨spec, hs, rfl⟩ := Attempt.map_eq_ok.mp hp
  obtain ⟨rfl, -⟩ := preprocess_ok hs
  rw [copy_normalized, ← Loaded.padded_copy]
  rfl

/-- What a reference into the components points at in a document, its copy points at in the run
copy. -/
theorem resolve_runCopy (hs : copy.spec = (normalized g.target d.padded).copy order)
    {reference : String} (hr : reference.startsWith "#/components/" = true)
    (h : d.spec.resolve reference = .ok target) :
    copy.spec.resolve reference = .ok (Value.copyMembers order target) := by
  rw [hs]
  exact Spec.resolve_copy (resolve_normalized_components hr ((resolve_padded hr).trans h))

/-- The run copy has no references that the document has not. A rule is carried over if it is about
texts only, which are the same in the copy. -/
theorem isRefRule_runCopy (hs : copy.spec = (normalized g.target d.padded).copy order)
    {P Q : Value → Prop} (h : Value.IsRefRule P Q) (htext : ∀ v, P v → ∃ s, v = .str s)
    (hd : Q d.spec.document) : Q copy.spec.document := by
  rw [hs, Spec.document_copy]
  refine h.copy (fun v hv => ?_) (isRefRule_normalized h (Loaded.isRefRule_padded h ?_ hd) _)
  · obtain ⟨s, rfl⟩ := htext v hv
    rwa [Value.copy_str]
  · intro v route hv
    obtain ⟨s, rfl⟩ := htext v hv
    rwa [Value.changeAt_str (fun _ => rfl)]

/-- Where all references that stand in a copy point somewhere in the document, all stays resolvable.
-/
theorem staysResolvable_of_points {stands : Value → Value → Prop}
    (hs : copy.spec = (normalized g.target d.padded).copy order)
    (hwalk : copy.spec.Resolves)
    (hpoints : ∀ w, stands copy.spec.document w → ∀ v ∈ w.get? "$ref",
      v.pointsIntoComponents = true ∧ d.spec.Points v) :
    StaysResolvable stands order d.spec copy.spec := by
  have hall : ∀ w, stands copy.spec.document w → ∀ v ∈ w.get? "$ref", ∃ reference target,
      v = .str reference ∧ d.spec.resolve reference = .ok target
        ∧ copy.spec.resolve reference = .ok (Value.copyMembers order target) := by
    intro w hw v hv
    obtain ⟨hinto, reference, target, rfl, ht⟩ := hpoints w hw v hv
    exact ⟨reference, target, rfl, ht, resolve_runCopy hs hinto ht⟩
  have hcases := fun members hm => @Spec.deref_cases copy.spec members hwalk fun v hv =>
    have ⟨reference, target, hv, _, ht⟩ := hall (.map members) hm v hv
    ⟨reference, _, hv, ht⟩
  refine ⟨hall, fun members hm => ?_, fun members hm => ?_⟩
  · rcases hcases members hm with ⟨refs, last, hd, hc, hend, -⟩ | ⟨r, hd, -⟩
    · exact .inl ⟨refs, last, hd, hc, hend⟩
    · exact .inr ⟨r, hd⟩
  · rcases hcases members hm with ⟨refs, last, hd, -, -, hcircles⟩ | ⟨r, hd, hcircles⟩
    · refine iff_of_false ?_ hcircles
      rintro ⟨reference, herror⟩
      -- the result is known, so it is no failure
      exact absurd (hd.symm.trans herror) (by simp)
    · exact iff_of_true ⟨r, hd⟩ hcircles

/-- After the preprocessing of the copy of an accepted document whose references all lead into its
components, whatever a walk comes to is as resolvable as it was. So is all else exactly if each
reference in the copy points at a mapping in the document, in pairs as well, which is so if each
reference of the document does. -/
theorem staysResolvable_iff (ha : Spec.ofValue document source = .ok d.spec)
    (hr : d.spec.document.EveryRef (Value.pointsIntoComponents ·))
    (hp : (g.preprocessInPlace (d.copy order)).result = .ok copy) :
    StaysResolvable Value.Nests order d.spec copy.spec
      ∧ (StaysResolvable Value.Contains order d.spec copy.spec
        ↔ copy.spec.document.EveryRef d.spec.Points)
      ∧ (d.spec.document.EveryRef d.spec.Points →
        StaysResolvable Value.Contains order d.spec copy.spec) := by
  have hs := spec_of_preprocessInPlace hp
  have htext : ∀ v : Value, v.pointsIntoComponents = true → ∃ s, v = .str s := by
    intro v hv
    cases v with
    | str s => exact ⟨s, rfl⟩
    | _ => cases hv
  have hinto : copy.spec.document.EveryRef (Value.pointsIntoComponents ·) :=
    isRefRule_runCopy hs Value.everyRef_isRefRule htext hr
  -- the check has come to each reference that a walk over the document comes to
  have hchecked : d.spec.document.EachRef d.spec.Points := by
    intro w hw v hv
    obtain ⟨s, rfl⟩ := htext v (hr w hw.contains v hv)
    obtain ⟨target, ht⟩ := Spec.resolves_of_ofValue ha hw hv
    exact ⟨s, target, rfl, ht⟩
  have htext' : ∀ v : Value, d.spec.Points v → ∃ s, v = .str s :=
    fun v ⟨reference, _, hv, _⟩ => ⟨reference, hv⟩
  have heach : copy.spec.document.EachRef d.spec.Points :=
    isRefRule_runCopy hs Value.eachRef_isRefRule htext' hchecked
  have hwalk : copy.spec.Resolves := by
    intro w hw v hv
    obtain ⟨reference, target, rfl, ht⟩ := heach w hw v hv
    exact ⟨reference, _, rfl, resolve_runCopy hs (hinto w hw.contains _ hv) ht⟩
  have hevery (h : copy.spec.document.EveryRef d.spec.Points) :
      StaysResolvable Value.Contains order d.spec copy.spec :=
    staysResolvable_of_points hs hwalk fun w hw v hv => ⟨hinto w hw v hv, h w hw v hv⟩
  refine ⟨staysResolvable_of_points hs hwalk fun w hw v hv =>
      ⟨hinto w hw.contains v hv, heach w hw v hv⟩, ⟨fun h w hw v hv => ?_, hevery⟩,
    fun h => hevery (isRefRule_runCopy hs Value.everyRef_isRefRule htext' h)⟩
  obtain ⟨reference, target, hv, ht, -⟩ := h.points w hw v hv
  exact ⟨reference, target, hv, ht⟩

end Generator

/-- A document without schemas and servers, two responses of which refer to each other, with a pair
that refers to a third. -/
def Spec.ring : Spec where
  members := [
    (.str "openapi", .str "3.0.0"),
    (.str "info", .map []),
    (.str "paths", .map [(.str "/a", .map [(.str "get", .map [(.str "responses", .map [
      (.str "200", .map [(.str "$ref", .str "#/components/responses/Gone")])])])])]),
    (.str "components", .map [(.str "responses", .map [
      (.str "There", .map [(.str "$ref", .str "#/components/responses/Back")]),
      (.str "Back", .map [(.str "$ref", .str "#/components/responses/There")]),
      (.str "Gone", .map [(.str "description", .str "gone")])])]),
    (.str "x-links", .list [
      .pair (.str "a") (.map [(.str "$ref", .str "#/components/responses/Gone")])])]
  source := "<memory>"

/-- In the copy that one target gets of such a document, with schemas and a server, all stays
resolvable, and the two responses lead in a circle. -/
theorem Generator.staysResolvable_ring :
    ∃ copy, (({ ofTarget .jaxrsSpec [] with phase := .configured } :
        Generator).preprocessInPlace (Loaded.copy .asGiven ⟨.ring, []⟩)).result = .ok copy
      ∧ StaysResolvable Value.Contains .asGiven .ring copy.spec
      ∧ copy.spec.resolve "#/components/responses/Gone" = .ok [(.str "description", .str "gone")]
      ∧ copy.spec.Circles [(.str "$ref", .str "#/components/responses/Back")] := by
  refine ⟨_, rfl, ?_⟩
  have haccepted : Spec.ofValue Spec.ring.document "<memory>" = .ok .ring :=
    Spec.ofValue_document (by decide +kernel)
  have hp : (({ ofTarget .jaxrsSpec [] with phase := .configured } : Generator).preprocessInPlace
      (Loaded.copy .asGiven ⟨.ring, []⟩)).result = .ok _ := rfl
  obtain ⟨hring, -, hall⟩ := staysResolvable_iff (d := ⟨.ring, []⟩) haccepted
    (by decide +kernel) hp
  refine ⟨hall (by decide +kernel), rfl, ?_⟩
  have hthere : Pointer.follow (normalized .jaxrsSpec .ring).document
      ["components", "responses", "There"]
        = some (.map [(.str "$ref", .str "#/components/responses/Back")]) := rfl
  exact (hring.circular _ (Value.Nests.follow hthere)).mp ⟨_, rfl⟩

/-- A document with a pair that refers to a component which it has not. -/
def Spec.dangling : Spec where
  members := [
    (.str "openapi", .str "3.0.3"),
    (.str "paths", .map []),
    (.str "x-links", .list [
      .pair (.str "a") (.map [(.str "$ref", .str "#/components/schemas/Missing")])])]
  source := "<memory>"

/-- The document is accepted, all its references lead into the components, and the one in the pair
points nowhere, in the document and in its run copy. -/
theorem Generator.pair_dangles :
    Spec.ofValue Spec.dangling.document "<memory>" = .ok .dangling
      ∧ Spec.dangling.document.EveryRef (Value.pointsIntoComponents ·)
      ∧ ∃ copy, (({ ofTarget .spring [] with phase := .configured } :
          Generator).preprocessInPlace (Loaded.copy .asGiven ⟨.dangling, []⟩)).result = .ok copy
        ∧ copy.spec.document.Contains
          (.map [(.str "$ref", .str "#/components/schemas/Missing")])
        ∧ copy.spec.resolve "#/components/schemas/Missing"
          = .error (.spec (.unresolvable "#/components/schemas/Missing")) := by
  refine ⟨Spec.ofValue_document (by decide +kernel), by decide +kernel, _, rfl, ?_, rfl⟩
  exact .value (.tail _ (.tail _ (.head _))) (.item (.head _) (.second (.refl _)))

end ApiScaffold
