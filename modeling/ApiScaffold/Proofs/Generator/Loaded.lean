import ApiScaffold.Proofs.Document.Route
import ApiScaffold.Proofs.Generator.Preprocess
import ApiScaffold.Proofs.Generator.Settings
import ApiScaffold.Proofs.Schema.Mention

/-!
# Documents with twins

What is put into the mapping of components shows at its twins too. Here is what the padded form of a
loaded document keeps: the keys of the document and its components, which are no twin of themselves,
and every rule that a mapping of schemas more or less does not break. A document whose components
have schemas, or that has no twins, is its own padded form, and so is a member that no twin stands
in.

Padding and copying can be done in either order, since both go through the value part by part.
-/

namespace ApiScaffold

open Value (copyMembers)

namespace Generator

variable {order : SetOrder} {parts : Members}

theorem copyMembers_withMapping (parts : Members) :
    copyMembers order (withMapping parts) = withMapping (copyMembers order parts) := by
  unfold withMapping
  rw [Value.get?_copyMembers]
  cases hs : Members.get? parts "schemas" with
  | none => rw [Value.copyMembers_insert]; rfl
  | some v =>
      cases v with
      | map schemas => simp
      | _ => simp [Value.copy, Value.copyMembers_insert, Value.emptyMap, copyMembers]

theorem mapAt_copyMembers (members : Members) (key : String) :
    mapAt (copyMembers order members) key = copyMembers order (mapAt members key) := by
  unfold mapAt
  rw [Value.get?_copyMembers]
  cases Members.get? members key with
  | none => rfl
  | some v => cases v <;> simp [Value.copy, copyMembers]

end Generator

namespace Spec

variable {order : SetOrder} {spec : Spec}

theorem document_copy : (spec.copy order).document = spec.document.copy order :=
  (Value.copy_map spec.members).symm

theorem isWhole_copy (h : spec.IsWhole) : (spec.copy order).IsWhole := by
  show (spec.copy order).document.isWhole = true
  rw [document_copy]
  exact Value.isWhole_copy h

/-- A reference points in a copy at the copy of what it points at. -/
theorem resolve_copy {reference : String} {target : Members}
    (h : spec.resolve reference = .ok target) :
    (spec.copy order).resolve reference = .ok (copyMembers order target) := by
  unfold resolve resolveIn at h ⊢
  split at h
  next => cases h
  next body hb =>
    rw [document_copy, Value.follow_copy]
    split at h
    next => cases h
    next hf =>
      cases h
      rw [hf, Option.map_some, Value.copy_map]
    next => cases h

end Spec

namespace Loaded

variable {order : SetOrder} {d : Loaded} {v : Value}

/-! ## Padding -/

theorem pad_copy (v : Value) : (pad v).copy order = pad (v.copy order) := by
  cases v with
  | map parts => rw [pad, Value.copy_map, Value.copy_map, pad, Generator.copyMembers_withMapping]
  | list items => simp [pad]
  | _ => simp [pad, Value.copy]

/-- What one change of a value at a route keeps is kept by all of them. -/
theorem pads_closed {Q : Value → Prop} (hQ : ∀ v route, Q v → Q (v.changeAt pad route))
    (routes : List Route) (h : Q v) :
    Q (routes.foldl (fun v route => v.changeAt pad route) v) := by
  induction routes generalizing v with
  | nil => exact h
  | cons route rest ih => exact ih (hQ v route h)

theorem paddedMember_fst (m : Value × Value) : (d.paddedMember m).1 = m.1 := by
  unfold paddedMember
  split <;> rfl

theorem paddedMember_closed {Q : Value → Prop} (hQ : ∀ v route, Q v → Q (v.changeAt pad route))
    {m : Value × Value} (h : Q m.2) : Q (d.paddedMember m).2 := by
  unfold paddedMember
  split
  · exact pads_closed hQ _ h
  · exact h

/-- A member in which no twin stands is kept. -/
theorem paddedMember_eq_self {m : Value × Value}
    (h : d.lacksSchemas = false ∨ d.routesUnder m.1 = []) : d.paddedMember m = m := by
  unfold paddedMember
  rcases h with h | h
  · rw [if_neg (by simp [h])]
  · rw [h]
    split <;> rfl

theorem routesUnder_components (d : Loaded) : d.routesUnder (.str "components") = [] := by
  rw [routesUnder, List.map_eq_nil_iff, List.filter_eq_nil_iff]
  exact fun twin _ => by simp [twin.apart]

theorem alongside_padded {below : Value → Value → Value → Prop}
    (h : ∀ m ∈ d.spec.members, below m.1 m.2 (d.paddedMember m).2) :
    Members.Alongside below d.spec.members d.padded.members :=
  Members.alongside_map paddedMember_fst h

theorem get?_padded (d : Loaded) (key : String) : Members.get? d.padded.members key
    = (Members.get? d.spec.members key).map fun v => (d.paddedMember (.str key, v)).2 := by
  have hpadded := @alongside_padded d (fun key v w => w = (d.paddedMember (key, v)).2) fun _ _ => rfl
  have hrel := hpadded.get? key
  generalize Members.get? d.spec.members key = before at hrel ⊢
  generalize Members.get? d.padded.members key = after at hrel ⊢
  cases hrel with
  | none => rfl
  | some heq => exact congrArg some heq

/-- Under a key without twins the padded form has what the document has. -/
theorem get?_padded_of_apart {key : String}
    (h : d.lacksSchemas = false ∨ d.routesUnder (.str key) = []) :
    Members.get? d.padded.members key = Members.get? d.spec.members key := by
  rw [get?_padded]
  cases Members.get? d.spec.members key with
  | none => rfl
  | some v => rw [Option.map_some, paddedMember_eq_self h]

theorem get?_padded_components (d : Loaded) :
    Members.get? d.padded.members "components" = Members.get? d.spec.members "components" :=
  get?_padded_of_apart (.inr d.routesUnder_components)

theorem isWhole_pad (h : v.isWhole = true) : (pad v).isWhole = true := by
  cases v with
  | map parts => exact Generator.areWhole_withMapping h
  | _ => exact h

theorem isWhole_padded (h : d.spec.IsWhole) : d.padded.IsWhole := by
  show (Value.map (d.spec.members.map d.paddedMember)).isWhole = true
  rw [Value.isWhole_map, List.forall_mem_map]
  intro m hm
  obtain ⟨hkey, hv⟩ := Value.isWhole_map.mp h m hm
  exact ⟨by rwa [paddedMember_fst], paddedMember_closed (Q := fun v => v.isWhole = true)
    (fun _ _ => Value.isWhole_changeAt fun _ => isWhole_pad) hv⟩

theorem isRefRule_pad {P Q : Value → Prop} (h : Value.IsRefRule P Q) (hv : Q v) : Q (pad v) := by
  cases v with
  | map parts =>
      rw [pad, Generator.withMapping]
      split
      · exact hv
      · exact h.insert (by decide) hv h.emptyMap
  | _ => exact hv

/-- A rule about references that a change inside what stands under their key does not break holds of
the padded form. -/
theorem isRefRule_padded {P Q : Value → Prop} (h : Value.IsRefRule P Q)
    (hP : ∀ v route, P v → P (v.changeAt pad route)) (hd : Q d.spec.document) :
    Q d.padded.document :=
  h.of_alongside (alongside_padded fun _ _ =>
    ⟨paddedMember_closed hP, paddedMember_closed fun _ _ =>
      h.changeAt (fun x hx route => hP x route hx) fun _ => isRefRule_pad h⟩) hd

theorem lacksSchemas_copy : (d.copy order).lacksSchemas = d.lacksSchemas := by
  have hget : Members.get? (d.copy order).spec.members "components" = _ :=
    Value.get?_copyMembers d.spec.members "components"
  rw [lacksSchemas, lacksSchemas]
  rw [hget]
  cases Members.get? d.spec.members "components" with
  | none => rfl
  | some v =>
      cases v with
      | map parts =>
          rw [Option.map_some, Value.copy_map]
          dsimp only
          rw [Value.get?_copyMembers]
          cases Members.get? parts "schemas" with
          | none => rfl
          | some schemas => cases schemas <;> simp [Value.copy]
      | _ => simp [Value.copy]

theorem foldl_changeAt_copy (routes : List Route) (v : Value) :
    (routes.foldl (fun v route => v.changeAt pad route) v).copy order
      = routes.foldl (fun v route => v.changeAt pad route) (v.copy order) := by
  induction routes generalizing v with
  | nil => rfl
  | cons route rest ih =>
      rw [List.foldl_cons, List.foldl_cons, ih, Value.copy_changeAt pad_copy]

/-- A copy is padded where the document is. -/
theorem padded_copy : (d.copy order).padded = d.padded.copy order := by
  have hmembers : (copyMembers order d.spec.members).map (d.copy order).paddedMember
      = copyMembers order (d.spec.members.map d.paddedMember) := by
    rw [Value.copyMembers_eq, Value.copyMembers_eq, List.map_map, List.map_map]
    refine List.map_congr_left fun m _ => ?_
    show (d.copy order).paddedMember (m.1, m.2.copy order)
      = ((d.paddedMember m).1, (d.paddedMember m).2.copy order)
    rw [paddedMember, paddedMember, lacksSchemas_copy]
    split
    · rw [foldl_changeAt_copy]
      rfl
    · rfl
  exact congrArg (Spec.mk · d.spec.source) hmembers

end Loaded

namespace Generator

variable {order : SetOrder} {spec : Spec} {t : Target}

theorem copyMembers_withSchemas (members : Members) :
    copyMembers order (withSchemas members) = withSchemas (copyMembers order members) := by
  rw [withSchemas, Value.copyMembers_insert, Value.copy_map, copyMembers_withMapping,
    ← mapAt_copyMembers, withSchemas]

theorem copyMembers_withServer (members : Members) :
    copyMembers order (withServer members) = withServer (copyMembers order members) := by
  have hcounts : (Members.getD (copyMembers order members) "servers" .null).isTruthy
      = (Members.getD members "servers" .null).isTruthy := by
    rw [Members.getD, Members.getD, Value.get?_copyMembers]
    cases Members.get? members "servers" with
    | none => rfl
    | some v => exact Value.isTruthy_copy v
  rw [withServer, withServer, hcounts]
  split
  · rfl
  · rw [Value.copyMembers_insert]
    rfl

/-- The copy of a normal form is the normal form of the copy. -/
theorem copy_normalized (t : Target) (spec : Spec) :
    (normalized t spec).copy order = normalized t (spec.copy order) := by
  refine congrArg (Spec.mk · spec.source) ?_
  show copyMembers order (normalize t spec.members) = normalize t (copyMembers order spec.members)
  rw [normalize, normalize]
  split
  · rw [copyMembers_withServer, copyMembers_withSchemas]
  · exact copyMembers_withSchemas _

end Generator

end ApiScaffold
