import ApiScaffold.Operation.Build
import ApiScaffold.Proofs.Model.Fault

/-!
# Whose fault it is that an operation cannot be built

Every fault in the building of an operation has its id as the subject, be it of a parameter, of the
body or of a response (`IsOf`). There is one lemma for each function of the building, in the order
in which they are called, and `faults_ofSlot` is that of the last: the failure that is recorded for
a slot names the operation that stands there.
-/

namespace ApiScaffold

open Attempt

variable {g : Generator} {spec : Spec} {P : Value → BuildFault → Prop}

theorem Value.faults_member (v : Value) (key : String) (default : Value) :
    Faults P (v.member key default) := by
  cases v <;> simp [Value.member]

theorem Spec.faults_derefValue (v : Value) : Faults P (spec.derefValue v) := by
  unfold derefValue
  split
  · exact (Spec.faults_deref _).bind fun _ => faults_pure _
  · split <;> simp
  · split <;> simp
  · simp

namespace Operation

/-- The fault is that of an operation. -/
def IsOf (id : Value) (subject : Value) (_ : BuildFault) : Prop := subject = id

variable {id : Value}

theorem faults_contentSchema (content : Value) : Faults P (contentSchema content) := by
  unfold contentSchema
  split
  · exact faults_ok _
  · refine (Value.faults_entries _).bind fun members => ?_
    split
    · exact Value.faults_member _ _ _
    · split
      · exact faults_pure _
      · exact Value.faults_member _ _ _

/-! ## Parameters -/

theorem faults_rawParameter (subject : String) (entry : Value) :
    Faults P (rawParameter spec subject entry) := by
  unfold rawParameter
  split
  · refine (Spec.faults_deref _).bind fun members => ?_
    split
    · split
      · exact faults_pure _
      · simp
    · simp
  · simp

theorem faults_parameterEntries (members : Members) : Faults P (parameterEntries members) := by
  unfold parameterEntries
  dsimp only
  split
  · exact Value.faults_elements _
  · exact faults_ok _

theorem faults_mergedParameters (pathItem operation : Members) (subject : String) :
    Faults P (mergedParameters spec pathItem operation subject) :=
  (faults_parameterEntries _).bind fun _ => (faults_parameterEntries _).bind fun _ =>
    faults_foldlM (fun _ _ _ => (faults_rawParameter _ _).bind fun _ => faults_pure _) _

theorem faults_parameterSchema (members : Members) : Faults P (parameterSchema members) := by
  unfold parameterSchema
  split
  · exact faults_contentSchema _
  · exact faults_ok _

theorem faults_locationOf (subject : String) (name place : Value) :
    Faults P (locationOf subject name place) := by
  unfold locationOf
  split <;> simp

theorem faults_buildParameter (subject : String) (raw : RawParameter) :
    Faults (IsOf id) (buildParameter g spec id subject raw) := by
  refine (faults_locationOf _ _ _).bind fun _ => (faults_parameterSchema _).bind fun schema => ?_
  split
  · exact faults_build rfl
  · exact (Schema.faults_reframe (Schema.faults_resolve _)).bind fun _ =>
      (faults_require _).bind fun _ => (Value.faults_entries _).bind fun _ =>
        (faults_require _).bind fun _ => faults_pure _

/-! ## Body and responses -/

theorem faults_buildBody (operation : Members) :
    Faults (IsOf id) (buildBody g spec id operation) := by
  unfold buildBody
  dsimp only
  split
  · exact faults_pure _
  · refine (Spec.faults_derefValue _).bind fun _ => (Value.faults_entries _).bind fun _ =>
      (faults_contentSchema _).bind fun schema => ?_
    split
    · exact faults_build rfl
    · exact (Schema.faults_reframe (Schema.faults_resolve _)).bind fun _ => faults_pure _

theorem faults_responseMembers (raw : Value) : Faults P (responseMembers spec raw) := by
  unfold responseMembers
  split
  · exact Spec.faults_deref _
  · exact faults_ok _

theorem faults_responseType (code schema : Value) :
    Faults (IsOf id) (responseType g spec id code schema) := by
  unfold responseType
  split
  · exact faults_ok _
  · exact (Schema.faults_reframe (Schema.faults_resolve _)).map _

theorem faults_buildResponse (code raw : Value) :
    Faults (IsOf id) (buildResponse g spec id code raw) :=
  (faults_responseMembers _).bind fun _ => (faults_contentSchema _).bind fun _ =>
    (faults_responseType _ _).bind fun _ => faults_pure _

theorem faults_buildResponses (operation : Members) :
    Faults (IsOf id) (buildResponses g spec id operation) := by
  unfold buildResponses
  dsimp only
  split
  · exact faults_pure _
  · exact (Value.faults_entries _).bind fun _ => faults_mapM fun _ _ => faults_buildResponse _ _

/-! ## The operation -/

theorem faults_identify (path : Value) (method : String) (members : Members) :
    Faults P (identify path method members) := by
  unfold identify
  dsimp only
  split
  · exact faults_ok _
  · exact (faults_require _).bind fun _ => faults_pure _

theorem faults_tagsOf (members : Members) : Faults P (tagsOf members) := by
  unfold tagsOf
  dsimp only
  split
  · exact Value.faults_elements _
  · exact faults_ok _

theorem faults_groupOf (path : Value) (tags : List Value) : Faults P (groupOf path tags) := by
  unfold groupOf
  split
  · exact faults_ok _
  · exact (faults_require _).bind fun _ => faults_pure _

/-- An operation that cannot be built is the subject of its fault, under its id. -/
theorem faults_ofSlot (path : Value) (method : String) (operation pathItem : Value) :
    Faults (fun subject _ => ∃ members, operation = .map members
        ∧ identify path method members = .ok subject)
      (ofSlot g spec path method operation pathItem) := by
  unfold ofSlot
  dsimp only
  split
  next members =>
    refine (faults_identify _ _ _).bind_of_ok fun id hid => ?_
    have hof : ∀ subject fault, IsOf id subject fault → ∃ found, Value.map members = .map found
        ∧ identify path method found = .ok subject := by
      rintro subject fault rfl
      exact ⟨members, rfl, hid⟩
    refine Faults.imp (P := IsOf id) ?_ hof
    refine (Value.faults_entries _).bind fun _ => (faults_mergedParameters _ _ _).bind fun _ =>
      (faults_mapM fun _ _ => faults_buildParameter _ _).bind fun _ =>
        (faults_buildBody _).bind fun _ => ?_
    split
    · simp
    · exact (faults_buildResponses _).bind fun _ => (faults_tagsOf _).bind fun _ =>
        (faults_require _).bind fun _ => (faults_groupOf _ _).bind fun _ => faults_pure _
  next => simp

end Operation

end ApiScaffold
