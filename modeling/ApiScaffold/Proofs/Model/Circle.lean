import ApiScaffold.Proofs.Model.Round
import ApiScaffold.Proofs.Model.Site

/-!
# When circles of compositions are reported

A flattening reports the circle that it comes to, by a member of a component on the way or by
references that circle. It can pass a circle by where a name hides it, or be refused for another
reason before; and members that refer to no component lead it round unnoticed, so that it declares a
property again or has no end.

* `HasCircle` is said of the schemas of the document, `ReportsCircles` of what the building of a
  component comes to, and `NoticesCircles` of the stages that its flattening comes to.
* `Rooted`: a schema all of whose compositions have an end. It has no circle, and to be rooted is
  hereditary, which is how a flattening that has a result excludes circles.
* `reportsCircles_iff`: a component of an accepted document reports its circles exactly if they are
  noticed.
* `reportsCircles_fails_letter`: letters are made of copies of themselves, which are no component
  schemas, and have no end.
-/

namespace ApiScaffold

namespace Model

open Attempt

/-! ## Circles -/

/-- The compositions of a schema lead to one that leads to itself, or to a member whose references
circle. -/
def HasCircle (spec : Spec) (top : Members) : Prop :=
  (∃ s, Visits spec top s ∧ Relation.TransGen (Composes spec) s s)
    ∨ ∃ s member, Visits spec top s ∧ HasMember s member ∧ spec.Circles member

/-- The schemas to which the compositions of a schema lead have an end, and all members lead to one.
-/
inductive Rooted (spec : Spec) : Members → Prop
  | intro {schema : Members}
      (members : ∀ member, HasMember schema member → ∃ target, spec.Derefs member target)
      (targets : ∀ target, Composes spec schema target → Rooted spec target) : Rooted spec schema

variable {spec : Spec} {schema top : Members}

theorem Rooted.visits {s : Members} (h : Rooted spec top) (hv : Visits spec top s) :
    Rooted spec s := by
  induction hv with
  | refl => exact h
  | tail _ hc ih =>
      cases ih with
      | intro _ targets => exact targets _ hc

/-- No schema that is rooted leads to itself. -/
theorem Rooted.not_transGen (h : Rooted spec schema) :
    ¬Relation.TransGen (Composes spec) schema schema := by
  -- along the compositions there is no way without an end
  have hacc : Acc (fun t s => Composes spec s t) schema := by
    induction h with
    | intro _ _ ih => exact .intro _ fun target ht => ih target ht
  exact fun hcircle => not_transGen_of_acc hacc (Relation.transGen_swap.mpr hcircle)

end Model

namespace Spec

variable {spec : Spec} {members target : Members} {name : String}

/-- References with an end do not circle. -/
theorem Derefs.not_circles (h : spec.Derefs members target) : ¬spec.Circles members := by
  rintro ⟨refs, last, hc, hrepeats⟩
  obtain ⟨⟨others, ho⟩, hend⟩ := exists_chain_iff.mpr h
  exact hrepeats ((ho.nodup_of_end hend).sublist (ho.prefix_of_end hend hc).sublist)

end Spec

namespace Model

open Attempt

variable {spec : Spec} {schema top : Members}

theorem Rooted.not_hasCircle (h : Rooted spec top) : ¬HasCircle spec top := by
  rintro (⟨s, hv, hcircle⟩ | ⟨s, member, hv, hm, hcircles⟩)
  · exact (h.visits hv).not_transGen hcircle
  · cases h.visits hv with
    | intro members _ =>
        obtain ⟨target, hd⟩ := members member hm
        exact hd.not_circles hcircles

/-- To be rooted is hereditary. -/
theorem hereditary_rooted : Hereditary spec fun _ schema => Rooted spec schema where
  mono _ hrooted := hrooted
  step _ hmembers := by
    refine .intro (fun member hm => ?_) fun target ⟨member, hm, hd⟩ => ?_
    · obtain ⟨target, hd, -⟩ := hmembers member hm
      exact ⟨target, hd⟩
    · obtain ⟨other, ho, hrooted⟩ := hmembers member hm
      cases hd.unique ho
      exact hrooted

/-! ## Reports -/

/-- A schema is read as a record. An enumeration has allowed values and no properties of its own,
and its compositions are not followed. -/
def IsRecord (schema : Members) : Prop :=
  Members.has schema "enum" = true → Members.has schema "properties" = true

/-- The flattening of a component comes to a stage. -/
structure Reached (spec : Spec) (name : String) (schema : Members) (stage : Stage) : Prop where
  isRecord : IsRecord schema
  comes : (Stage.start name schema).Comes spec name stage

/-- The model of a component can be built or is refused with an error, and a circle of its
compositions is what it is refused for. -/
structure ReportsCircles (g : Generator) (spec : Spec) (name : String) (schema : Members) :
    Prop where
  ends : Ends (ofSchema g spec (.str name) (.map schema))
  reported : HasCircle spec schema → ∃ failure, IsCircularity failure
    ∧ collected spec name schema = .error failure
    ∧ ofSchema g spec (.str name) (.map schema) = .error failure

/-- Nothing of a kind that no rule covers is met while a component is built, apart from the
flattening. -/
structure Builds (g : Generator) (spec : Spec) (name : String) (schema : Members) : Prop where
  record : IsRecord schema → ∀ gathered, collected spec name schema = .ok gathered →
    Ends (buildProperties g spec name gathered.required gathered.properties [])
  enumeration : ¬IsRecord schema → Ends (buildEnum g spec name schema)

/-- What it takes for circles to be reported: the flattening meets nothing of a kind that no rule
covers; wherever it comes to a schema on its way, it is caught; and it comes to a circle, if there
is one: to a schema on its way or to the report of a circle. -/
structure NoticesCircles (spec : Spec) (name : String) (schema : Members) : Prop where
  suitable : ∀ stage, Reached spec name schema stage → ¬stage.Fails spec name .unsuitable
  caught : ∀ stage, Reached spec name schema stage → stage.schema ∈ stage.passed →
    Bare stage.schema
      ∧ Caught spec stage.visiting stage.gathered.flattened (listed stage.schema)
  met : HasCircle spec schema → ∃ stage, Reached spec name schema stage
    ∧ (stage.schema ∈ stage.passed
      ∨ ∃ failure, IsCircularity failure ∧ stage.Fails spec name failure)

variable {name : String} {failure : Failure} {stage : Stage} {generator : Generator}
  {document : Value} {source : String}

theorem not_isCircularity_of_buildEnum
    (h : buildEnum generator spec name schema = .error failure) : ¬IsCircularity failure := by
  intro hc
  rcases bind_eq_error.mp h with h | ⟨type, -, h⟩
  · unfold Schema.reframe at h
    split at h
    · cases h
      cases hc
    · cases Schema.raises_resolve _ _ h <;> cases hc
  rcases bind_eq_error.mp h with h | ⟨values, -, h⟩
  · cases eq_unsuitable_of_require h ▸ hc
  rcases bind_eq_error.mp h with h | ⟨literals, -, h⟩
  · cases eq_unsuitable_of_require h ▸ hc
  · cases h

theorem ofSchema_of_isRecord (h : IsRecord schema) :
    ofSchema generator spec (.str name) (.map schema)
      = buildRecord generator spec name schema := by
  have hrecord : (Members.has schema "enum" && !Members.has schema "properties") ≠ true := by
    simpa [IsRecord] using h
  simp only [ofSchema, hrecord]
  rfl

theorem ofSchema_of_not_isRecord (h : ¬IsRecord schema) :
    ofSchema generator spec (.str name) (.map schema)
      = buildEnum generator spec name schema := by
  have henum : (Members.has schema "enum" && !Members.has schema "properties") = true := by
    simpa [IsRecord] using h
  simp only [ofSchema, henum, if_true]

/-- A record whose flattening is refused is refused. -/
theorem ofSchema_eq_error (hr : IsRecord schema)
    (h : collected spec name schema = .error failure) :
    ofSchema generator spec (.str name) (.map schema) = .error failure := by
  rw [ofSchema_of_isRecord hr, buildRecord]
  show (collected spec name schema >>= _) = _
  rw [h]
  rfl

/-- Where the flattening of a record has a result, the record ends as the building of its properties
does. -/
theorem ends_ofSchema_iff {gathered : Gathered} (hr : IsRecord schema)
    (h : collected spec name schema = .ok gathered) :
    Ends (ofSchema generator spec (.str name) (.map schema))
      ↔ Ends (buildProperties generator spec name gathered.required gathered.properties []) := by
  rw [ofSchema_of_isRecord hr, buildRecord]
  show Ends (collected spec name schema >>= _) ↔ _
  rw [h]
  show Ends (buildProperties _ _ _ _ _ _ >>= _) ↔ _
  cases buildProperties generator spec name gathered.required gathered.properties [] with
  | ok built => exact iff_of_true (ends_ok _) (ends_ok _)
  | error failure => simp [Ends, Bind.bind, Except.bind]

section Component

variable (hp : spec.IsProper) (hn : spec.HasComponent name (.map schema))

include hp hn

/-- What the flattening of a component comes to with enough depth is what is collected. -/
theorem endsAt_collected :
    (Stage.start name schema).EndsAt spec name (collected spec name schema) :=
  ⟨depthBound spec schema, fun _ hd => flatten_depthBound hp (hn.within hp).proper hd⟩

/-- A failure at which a stage ends that is reached is that of the component. -/
theorem collected_of_reached (h : Reached spec name schema stage)
    (hs : stage.EndsAt spec name (.error failure)) :
    collected spec name schema = .error failure :=
  (endsAt_collected hp hn).unique (h.comes.endsAt hs)

/-- A component that is refused is refused by a stage that is reached, or its flattening comes to a
schema on its way. -/
theorem exists_of_collected (hr : IsRecord schema)
    (h : collected spec name schema = .error failure) :
    (∃ stage, Reached spec name schema stage ∧ stage.Fails spec name failure)
      ∨ failure = .unsuitable ∧ ∃ stage, Reached spec name schema stage
        ∧ stage.schema ∈ stage.passed := by
  replace h : (Stage.start name schema).result spec name (depthBound spec schema)
    = .error failure := h
  rcases Stage.exists_of_error h with ⟨stage, hcomes, hfails⟩ | ⟨rfl, stage, hcomes, hlength⟩
  · exact .inl ⟨stage, ⟨hr, hcomes⟩, hfails⟩
  · obtain ⟨closing, hcomes, hin⟩ :=
      Stage.exists_closing_of_length hp (hn.within hp).proper hcomes (by
        rw [hlength, depthBound, Stage.start, List.length_nil]
        omega)
    exact .inr ⟨rfl, closing, ⟨hr, hcomes⟩, hin⟩

/-- A circle that the flattening is caught in is what the component is refused for. -/
theorem collected_of_caught (h : Reached spec name schema stage) (hb : Bare stage.schema)
    (hc : Caught spec stage.visiting stage.gathered.flattened (listed stage.schema)) :
    ∃ failure, IsCircularity failure ∧ collected spec name schema = .error failure := by
  obtain ⟨failure, hcircular, hends⟩ :=
    hb.refused (hc.refused name stage.origin) stage.gathered (List.Subset.refl _)
  exact ⟨failure, hcircular, collected_of_reached hp hn h hends⟩

/-- Where a component is refused for a circle, the flattening is caught wherever it goes round. -/
theorem caught_of_collected (h : Reached spec name schema stage)
    (hin : stage.schema ∈ stage.passed) (hcircular : IsCircularity failure)
    (hcollected : collected spec name schema = .error failure) :
    Bare stage.schema
      ∧ Caught spec stage.visiting stage.gathered.flattened (listed stage.schema) := by
  have hcircle := h.comes.way.circle hin
  -- with some depth the stage ends, at the failure of the component
  by_cases hends : ∃ depth, Ends (stage.result spec name depth)
  · obtain ⟨depth, hends⟩ := hends
    cases hresult : stage.result spec name depth with
    | ok g => exact absurd hresult (hcircle.ne_ok hin)
    | error first =>
        have hends := hresult ▸ Stage.endsAt_of_ends hends
        have heq := hcollected.symm.trans (collected_of_reached hp hn h hends)
        cases heq
        exact Settled.caught hcircle (.inr hin) (.refl _) hresult hcircular
  · -- without an end it would be refused for that, and not for a circle
    have hends : stage.EndsAt spec name (.error .unsuitable) :=
      ⟨0, fun depth _ => eq_of_not_ends fun h => hends ⟨depth, h⟩⟩
    have heq := hcollected.symm.trans (collected_of_reached hp hn h hends)
    cases heq
    cases hcircular

end Component

/-- A component whose circles are noticed reports them. -/
theorem reportsCircles_of_notices (hp : spec.IsProper) (hn : spec.HasComponent name (.map schema))
    (hb : Builds generator spec name schema) (hc : NoticesCircles spec name schema) :
    ReportsCircles generator spec name schema := by
  refine ⟨?_, fun hcircle => ?_⟩
  · by_cases hr : IsRecord schema
    · cases hcollected : collected spec name schema with
      | ok gathered => exact (ends_ofSchema_iff hr hcollected).mpr (hb.record hr gathered hcollected)
      | error failure =>
          rw [ofSchema_eq_error hr hcollected]
          rintro ⟨⟩
          -- nothing unsuitable is met, and no way is without an end
          rcases exists_of_collected hp hn hr hcollected with
            ⟨stage, hreached, hfails⟩ | ⟨-, stage, hreached, hin⟩
          · exact hc.suitable stage hreached hfails
          · obtain ⟨hbare, hcaught⟩ := hc.caught stage hreached hin
            obtain ⟨failure, hcircular, herror⟩ :=
              collected_of_caught hp hn hreached hbare hcaught
            cases hcollected.symm.trans herror
            cases hcircular
    · rw [ofSchema_of_not_isRecord hr]
      exact hb.enumeration hr
  · obtain ⟨stage, hreached, hmet⟩ := hc.met hcircle
    obtain ⟨failure, hcircular, herror⟩ : ∃ failure, IsCircularity failure
        ∧ collected spec name schema = .error failure := by
      rcases hmet with hin | ⟨failure, hcircular, hfails⟩
      · obtain ⟨hbare, hcaught⟩ := hc.caught stage hreached hin
        exact collected_of_caught hp hn hreached hbare hcaught
      · exact ⟨failure, hcircular, collected_of_reached hp hn hreached hfails.endsAt⟩
    exact ⟨failure, hcircular, herror, ofSchema_eq_error hreached.isRecord herror⟩

/-- A component that reports circles has them noticed. -/
theorem ReportsCircles.notices (h : ReportsCircles generator spec name schema)
    (hp : spec.IsProper) (hn : spec.HasComponent name (.map schema)) :
    Builds generator spec name schema ∧ NoticesCircles spec name schema := by
  refine ⟨⟨fun hr gathered hcollected => ?_, fun hr => ?_⟩, fun stage hreached hfails => ?_,
    fun stage hreached hin => ?_, fun hcircle => ?_⟩
  · exact (ends_ofSchema_iff hr hcollected).mp h.ends
  · rw [← ofSchema_of_not_isRecord hr]
    exact h.ends
  · have herror := collected_of_reached hp hn hreached hfails.endsAt
    exact h.ends (ofSchema_eq_error hreached.isRecord herror)
  · obtain ⟨hvisits, hpassed⟩ := hreached.comes.visits
    obtain ⟨failure, hcircular, herror, -⟩ :=
      h.reported (.inl ⟨stage.schema, hvisits, (hpassed _ hin).2⟩)
    exact caught_of_collected hp hn hreached hin hcircular herror
  · obtain ⟨failure, hcircular, herror, hmodel⟩ := h.reported hcircle
    have hr : IsRecord schema := by
      by_contra hr
      rw [ofSchema_of_not_isRecord hr] at hmodel
      exact not_isCircularity_of_buildEnum hmodel hcircular
    rcases exists_of_collected hp hn hr herror with
      ⟨stage, hreached, hfails⟩ | ⟨rfl, -⟩
    · exact ⟨stage, hreached, .inr ⟨failure, hcircular, hfails⟩⟩
    · cases hcircular

/-- A component of an accepted document reports its circles exactly if they are noticed; and where
references to components name them, none is passed over in silence. -/
theorem reportsCircles_iff (g : Generator) (ha : Spec.ofValue document source = .ok spec)
    (hp : spec.IsProper) (hn : spec.HasComponent name (.map schema)) :
    (ReportsCircles g spec name schema
        ↔ Builds g spec name schema ∧ NoticesCircles spec name schema)
      ∧ (spec.CitesComponents → HasCircle spec schema → ∀ gathered,
        collected spec name schema ≠ .ok gathered) := by
  refine ⟨⟨fun h => h.notices hp hn, fun h => reportsCircles_of_notices hp hn h.1 h.2⟩,
    fun hc hcircle gathered hcollected => ?_⟩
  have hrooted := holds_of_collected ha hp hc hereditary_rooted hn hcollected
  exact hrooted.not_hasCircle hcircle

end Model

/-- The schema of what is composed of one thing. -/
def Schema.madeOf (reference : String) : Members :=
  [(.str "allOf", .list [.map (referTo reference)])]

/-- Hens are made of eggs, and eggs of hens. -/
def Spec.henSchemas : Members := [
  (.str "Hen", .map (Schema.madeOf "#/components/schemas/Egg")),
  (.str "Egg", .map (Schema.madeOf "#/components/schemas/Hen"))]

/-- Letters are made of copies, and copies of copies, which are no component schemas. -/
def Spec.letters : Spec where
  members := Spec.bare.members ++ [(.str "components", .map [
    (.str "schemas", .map [(.str "Letter", .map (Schema.madeOf "#/components/parts/Copy"))]),
    (.str "parts", .map [(.str "Copy", .map (Schema.madeOf "#/components/parts/Copy"))])])]
  source := Spec.bare.source

namespace Model

theorem hasMember_madeOf (reference : String) :
    HasMember (Schema.madeOf reference) (Schema.referTo reference) :=
  ⟨"allOf", _, _, rfl, rfl, List.mem_cons_self, by decide⟩

theorem isRecord_madeOf (reference : String) : IsRecord (Schema.madeOf reference) :=
  fun h => absurd h Bool.false_ne_true

theorem bare_madeOf (reference : String) : Bare (Schema.madeOf reference) :=
  ⟨⟨[], rfl, nofun⟩, [], rfl, rfl⟩

theorem listed_madeOf (reference : String) : listed (Schema.madeOf reference)
    = [.ok { keyword := "allOf", index := 0, value := .map (Schema.referTo reference) }] := rfl

theorem composes_madeOf {spec : Spec} {reference : String} {target : Members}
    (hr : spec.resolve reference = .ok target) (hn : Members.get? target "$ref" = none) :
    Composes spec (Schema.madeOf reference) target :=
  ⟨_, hasMember_madeOf reference, .step rfl hr (.done hn)⟩

/-- Hens are refused for the circle of hens and eggs. -/
theorem reportsCircles_iff_hen :
    Spec.ofValue (Spec.ofSchemas Spec.henSchemas).document "<memory>"
        = .ok (.ofSchemas Spec.henSchemas)
      ∧ HasCircle (.ofSchemas Spec.henSchemas) (Schema.madeOf "#/components/schemas/Egg")
      ∧ NoticesCircles (.ofSchemas Spec.henSchemas) "Hen"
        (Schema.madeOf "#/components/schemas/Egg") := by
  have ha : Spec.ofValue (Spec.ofSchemas Spec.henSchemas).document "<memory>"
      = .ok (.ofSchemas Spec.henSchemas) := Spec.ofValue_document (by decide +kernel)
  have hp : (Spec.ofSchemas Spec.henSchemas).IsProper := by
    show Value.isProper _ = true
    decide
  have hn : (Spec.ofSchemas Spec.henSchemas).HasComponent "Hen"
      (.map (Schema.madeOf "#/components/schemas/Egg")) :=
    ⟨Spec.henSchemas, rfl, List.mem_cons_self⟩
  have hcircle : HasCircle (.ofSchemas Spec.henSchemas) (Schema.madeOf "#/components/schemas/Egg") :=
    .inl ⟨_, .refl, .tail (.single (composes_madeOf rfl rfl)) (composes_madeOf rfl rfl)⟩
  have herror : collected (.ofSchemas Spec.henSchemas) "Hen" (Schema.madeOf "#/components/schemas/Egg")
      = .error (.build (.str "Hen") (.circularComposition "Hen")) := by
    with_unfolding_all rfl
  have hmodel : ofSchema (.ofTarget .python []) (.ofSchemas Spec.henSchemas) (.str "Hen")
      (.map (Schema.madeOf "#/components/schemas/Egg"))
        = .error (.build (.str "Hen") (.circularComposition "Hen")) :=
    ofSchema_eq_error (isRecord_madeOf _) herror
  have hreports : ReportsCircles (.ofTarget .python []) (.ofSchemas Spec.henSchemas) "Hen"
      (Schema.madeOf "#/components/schemas/Egg") :=
    ⟨by rw [hmodel]; exact nofun, fun _ => ⟨_, .composition _ _, herror, hmodel⟩⟩
  exact ⟨ha, hcircle, ((reportsCircles_iff (.ofTarget .python []) ha hp hn).1.mp hreports).2⟩

/-- No depth is enough for a copy. -/
theorem flatten_copy (depth : Nat) (origin : String) (visiting : List String) (g : Gathered) :
    flatten .letters "Letter" depth origin visiting (Schema.madeOf "#/components/parts/Copy") g
      = .error .unsuitable := by
  induction depth generalizing origin visiting g with
  | zero => rfl
  | succ depth ih =>
      have hnone : Spec.schemaTarget? (Schema.referTo "#/components/parts/Copy") = none := by
        decide +kernel
      have htarget : Spec.letters.deref (Schema.referTo "#/components/parts/Copy")
          = .ok (Schema.madeOf "#/components/parts/Copy") := rfl
      obtain ⟨own, hown⟩ := (bare_madeOf "#/components/parts/Copy").declareOwn "Letter" origin g
      rw [flatten_of_declareOwn hown, listed_madeOf, takeTurns_cons_ok,
        turn_of_inner rfl hnone htarget]
      show (flatten _ _ _ _ _ _ _ >>= _) = _
      rw [ih]
      rfl

/-- Letters have no end. -/
theorem reportsCircles_fails_letter :
    Spec.ofValue Spec.letters.document "<memory>" = .ok .letters
      ∧ Spec.letters.HasComponent "Letter" (.map (Schema.madeOf "#/components/parts/Copy"))
      ∧ HasCircle .letters (Schema.madeOf "#/components/parts/Copy")
      ∧ (∀ depth, flatten .letters "Letter" depth "Letter" ["Letter"]
        (Schema.madeOf "#/components/parts/Copy") {} = .error .unsuitable)
      ∧ ¬ReportsCircles (.ofTarget .python []) .letters "Letter"
        (Schema.madeOf "#/components/parts/Copy") := by
  have hdepth := fun depth => flatten_copy depth "Letter" ["Letter"] {}
  refine ⟨Spec.ofValue_document (by decide +kernel), ⟨_, rfl, List.mem_cons_self⟩,
    .inl ⟨_, .refl, .single (composes_madeOf rfl rfl)⟩, hdepth, fun h => h.ends ?_⟩
  exact ofSchema_eq_error (isRecord_madeOf _) (hdepth _)

end Model

end ApiScaffold
