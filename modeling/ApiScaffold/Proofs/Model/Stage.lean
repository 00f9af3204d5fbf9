import ApiScaffold.Proofs.Model.Depth

/-!
# The stages of a flattening

A flattening goes on from stage to stage by what the turns of members call for. Where it fails, a
stage to which it comes fails by itself, and then the whole fails so; or else no depth is enough for
it, and then it comes to a schema that is on its way.

* `Stage`: the schemas on the way, where declarations start, and what has been gathered. `Leads` is
  one step to another stage, `Comes` any number of them, and `Fails` a failure that is not that of
  another stage.
* `Comes.endsAt`: a failure of a stage is one of all stages from which the flattening comes to it.
* `exists_of_error`: a stage that comes to no result comes to one that fails by itself, or uses up
  its depth.
* `exists_closing_of_length`: a flattening without an end comes to a schema that is on its way,
  since a document has only so many schemas.
-/

namespace ApiScaffold

namespace Model

open Attempt

/-- Where a flattening stands: the schemas on the way, the last first, where the declarations of the
schema come from, the components on the way, the schema, and what has been gathered. -/
structure Stage where
  passed : List Members
  origin : String
  visiting : List String
  schema : Members
  gathered : Gathered

namespace Stage

/-- The stage at which the flattening of a component starts. -/
def start (name : String) (schema : Members) : Stage :=
  { passed := [], origin := name, visiting := [name], schema, gathered := {} }

/-- What a stage comes to with so much depth. -/
def result (spec : Spec) (model : String) (stage : Stage) (depth : Nat) : Attempt Gathered :=
  flatten spec model depth stage.origin stage.visiting stage.schema stage.gathered

/-- What a stage comes to with enough depth. -/
def EndsAt (spec : Spec) (model : String) (stage : Stage) (x : Attempt Gathered) : Prop :=
  ∃ least, ∀ depth, least ≤ depth → stage.result spec model depth = x

/-- The turn of a member has come: the schema has declared its properties, and the members before
have had their turns. -/
inductive Faces (spec : Spec) (model : String) (stage : Stage) (entry : Attempt Member)
    (g : Gathered) : Prop
  | intro {depth : Nat} {own : Gathered} {before after : List (Attempt Member)}
      (hown : declareOwn model stage.origin stage.schema stage.gathered = .ok own)
      (hlisted : listed stage.schema = before ++ entry :: after)
      (hturns : takeTurns spec model (flatten spec model depth) stage.origin stage.visiting before own
        = .ok g)

/-- The turn of a member of the schema calls for the flattening of another schema, which is the next
stage. -/
inductive Leads (spec : Spec) (model : String) (stage : Stage) : Stage → Prop
  | intro {member : Member} {g g' : Gathered} {start : String} {way : List String} {target : Members}
      (h : stage.Faces spec model (.ok member) g)
      (ht : turn spec model stage.origin stage.visiting member g = .call start way target g') :
      Leads spec model stage ⟨stage.schema :: stage.passed, start, way, target, g'⟩

/-- A stage fails by itself: the schema cannot declare its properties, the members of a keyword
cannot be read, or the turn of a member stops. -/
inductive Fails (spec : Spec) (model : String) (stage : Stage) : Failure → Prop
  | own {failure : Failure}
      (h : declareOwn model stage.origin stage.schema stage.gathered = .error failure) :
      Fails spec model stage failure
  | entry {failure : Failure} {g : Gathered} (h : stage.Faces spec model (.error failure) g) :
      Fails spec model stage failure
  | stop {failure : Failure} {member : Member} {g : Gathered}
      (h : stage.Faces spec model (.ok member) g)
      (ht : turn spec model stage.origin stage.visiting member g = .stop failure) :
      Fails spec model stage failure

/-- A flattening comes from one stage to another. -/
def Comes (spec : Spec) (model : String) : Stage → Stage → Prop :=
  Relation.ReflTransGen (Leads spec model)

variable {spec : Spec} {model : String} {stage next last : Stage} {entry : Attempt Member}
  {g : Gathered} {failure : Failure} {x y : Attempt Gathered} {depth : Nat}

/-! ## Failures -/

theorem EndsAt.unique (hx : stage.EndsAt spec model x) (hy : stage.EndsAt spec model y) : x = y := by
  obtain ⟨least, hx⟩ := hx
  obtain ⟨other, hy⟩ := hy
  exact (hx _ (Nat.le_max_left least other)).symm.trans (hy _ (Nat.le_max_right least other))

/-- A stage ends where some depth is enough. -/
theorem endsAt_of_ends (h : Ends (stage.result spec model depth)) :
    stage.EndsAt spec model (stage.result spec model depth) :=
  ⟨depth, fun _ hd => flatten_eq_of_le hd h⟩

/-- The failure of a member's turn is that of the stage. -/
theorem Faces.endsAt (h : stage.Faces spec model entry g) (least : Nat)
    (hrun : ∀ depth, least ≤ depth → (entry >>= fun member =>
      (turn spec model stage.origin stage.visiting member g).run (flatten spec model depth))
        = .error failure) : stage.EndsAt spec model (.error failure) := by
  obtain @⟨enough, own, before, after, hown, hlisted, hturns⟩ := h
  refine ⟨max enough least + 1, fun depth hd => ?_⟩
  obtain ⟨depth, rfl⟩ := Nat.exists_eq_succ_of_ne_zero (Nat.ne_zero_of_lt hd)
  have hmax := Nat.le_of_succ_le_succ hd
  -- the turns before are the same with more depth
  have hextends : Extends (flatten spec model depth) (flatten spec model enough) :=
    fun _ _ _ _ hends => flatten_eq_of_le (Nat.le_trans (Nat.le_max_left _ _) hmax) hends
  have hbefore := hextends.turns (hturns ▸ ends_ok g)
  rw [result, flatten_succ, hown, hlisted]
  show takeTurns _ _ _ _ _ (before ++ entry :: after) own = _
  rw [takeTurns_append, hbefore, hturns]
  show takeTurns _ _ _ _ _ (entry :: after) g = _
  rw [takeTurns, List.foldlM_cons, hrun depth (Nat.le_trans (Nat.le_max_right _ _) hmax)]
  rfl

/-- A stage that fails by itself comes to its failure. -/
theorem Fails.endsAt (h : stage.Fails spec model failure) :
    stage.EndsAt spec model (.error failure) := by
  cases h with
  | own h =>
      refine ⟨1, fun depth hd => ?_⟩
      obtain ⟨depth, rfl⟩ := Nat.exists_eq_succ_of_ne_zero (Nat.ne_zero_of_lt hd)
      rw [result, flatten_succ, h]
      rfl
  | entry h => exact h.endsAt 0 fun _ _ => rfl
  | stop h ht =>
      refine h.endsAt 0 fun depth _ => ?_
      show (turn _ _ _ _ _ _).run _ = _
      rw [ht]
      rfl

theorem Leads.endsAt (h : stage.Leads spec model next)
    (hnext : next.EndsAt spec model (.error failure)) :
    stage.EndsAt spec model (.error failure) := by
  obtain ⟨least, hnext⟩ := hnext
  cases h with
  | intro h ht =>
      refine h.endsAt least fun depth hd => ?_
      show (turn _ _ _ _ _ _).run _ = _
      rw [ht]
      exact hnext depth hd

/-- A failure of a stage is one of all stages from which the flattening comes to it. -/
theorem Comes.endsAt (h : stage.Comes spec model last)
    (hlast : last.EndsAt spec model (.error failure)) :
    stage.EndsAt spec model (.error failure) := by
  induction h using Relation.ReflTransGen.head_induction_on with
  | refl => exact hlast
  | head hl _ ih => exact hl.endsAt ih

/-- A stage that does not come to a result comes to one that fails by itself, or uses up its depth.
-/
theorem exists_of_error (h : stage.result spec model depth = .error failure) :
    (∃ last, stage.Comes spec model last ∧ last.Fails spec model failure)
      ∨ failure = .unsuitable ∧ ∃ last, stage.Comes spec model last
        ∧ last.passed.length = stage.passed.length + depth := by
  -- the first member whose turn has no result decides, and by a call it leaves one depth less
  induction depth generalizing stage with
  | zero =>
      cases h
      exact .inr ⟨rfl, stage, .refl, rfl⟩
  | succ depth ih =>
      rw [result, flatten_succ] at h
      cases hown : declareOwn model stage.origin stage.schema stage.gathered with
      | error first =>
          rw [hown] at h
          cases h
          exact .inl ⟨stage, .refl, .own hown⟩
      | ok own =>
          rw [hown] at h
          obtain ⟨before, entry, after, between, hlisted, hturns, hstep⟩ := exists_of_foldlM_error h
          have hfaces : stage.Faces spec model entry between := .intro hown hlisted hturns
          cases entry with
          | error first =>
              cases hstep
              exact .inl ⟨stage, .refl, .entry hfaces⟩
          | ok member =>
              replace hstep : (turn spec model stage.origin stage.visiting member between).run
                (flatten spec model depth) = .error failure := hstep
              cases ht : turn spec model stage.origin stage.visiting member between with
              | stop first =>
                  rw [ht] at hstep
                  cases hstep
                  exact .inl ⟨stage, .refl, .stop hfaces ht⟩
              | pass g =>
                  rw [ht] at hstep
                  cases hstep
              | call start way target g =>
                  rw [ht] at hstep
                  have hleads : stage.Leads spec model _ := .intro hfaces ht
                  replace hstep : Stage.result spec model
                    ⟨stage.schema :: stage.passed, start, way, target, g⟩ depth = .error failure :=
                    hstep
                  rcases ih hstep with ⟨last, hcomes, hfails⟩ | ⟨rfl, last, hcomes, hlength⟩
                  · exact .inl ⟨last, .head hleads hcomes, hfails⟩
                  · refine .inr ⟨rfl, last, .head hleads hcomes, ?_⟩
                    rw [hlength, List.length_cons]
                    omega

/-! ## The way to a stage -/

variable {name : String} {top : Members}

theorem Leads.calls (h : stage.Leads spec model next) : ∃ depth,
    Calls spec model depth stage.origin stage.visiting stage.schema stage.gathered next.origin
      next.visiting next.schema next.gathered := by
  obtain ⟨⟨hown, hlisted, hturns⟩, ht⟩ := h
  exact ⟨_, .intro hown hlisted hturns ht⟩

theorem Leads.passed (h : stage.Leads spec model next) :
    next.passed = stage.schema :: stage.passed := by
  cases h with
  | intro => rfl

theorem Leads.composes (h : stage.Leads spec model next) :
    Composes spec stage.schema next.schema := by
  obtain ⟨_, hcalls⟩ := h.calls
  exact hcalls.composes

/-- The schemas on the way to a stage await each other. -/
theorem Comes.way (h : (start name top).Comes spec name stage) :
    Way spec stage.visiting stage.gathered stage.passed stage.schema := by
  induction h with
  | refl => exact .start top
  | tail _ hl ih =>
      obtain ⟨_, hcalls⟩ := hl.calls
      rw [hl.passed]
      exact .step (ih.mono hcalls.subset hcalls.within) hcalls.awaits

/-- The schemas on the way to a stage are such as the compositions lead to, and lead to its schema.
-/
theorem Comes.visits (h : (start name top).Comes spec name stage) :
    Visits spec top stage.schema ∧ ∀ s ∈ stage.passed, Visits spec top s
      ∧ Relation.TransGen (Composes spec) s stage.schema := by
  induction h with
  | refl => exact ⟨.refl, fun s hs => by cases hs⟩
  | tail _ hl ih =>
      obtain ⟨hschema, hpassed⟩ := ih
      refine ⟨hschema.tail hl.composes, fun s hs => ?_⟩
      rw [hl.passed] at hs
      rcases List.mem_cons.mp hs with rfl | hs
      · exact ⟨hschema, .single hl.composes⟩
      · exact ⟨(hpassed s hs).1, (hpassed s hs).2.tail hl.composes⟩

/-- A way with a schema twice comes to a schema that is on it. -/
theorem Comes.exists_closing (h : (start name top).Comes spec name stage)
    (hn : ¬stage.passed.Nodup) :
    ∃ closing, (start name top).Comes spec name closing ∧ closing.schema ∈ closing.passed := by
  induction h with
  | refl => exact absurd List.nodup_nil hn
  | @tail middle last hcomes hl ih =>
      rw [hl.passed, List.nodup_cons, not_and_or, not_not] at hn
      -- the schema that was put on the way last was on it, or the way had one twice before
      rcases hn with hin | hn
      · exact ⟨middle, hcomes, hin⟩
      · exact ih hn

theorem stands_of_visits {s : Members} (hd : spec.IsProper) (ht : (Value.map top).isProper = true)
    (hv : Visits spec top s) : Stands spec top s := by
  induction hv with
  | refl => exact .inr (.refl _)
  | tail _ hc ih => exact ih.composes hd ht hc

/-- A flattening that has no end comes to a schema that is on its way: the schemas of the document
are too few for the way to be without one. -/
theorem exists_closing_of_length (hd : spec.IsProper) (ht : (Value.map top).isProper = true)
    (h : (start name top).Comes spec name stage)
    (hlength : spec.document.nodeCount + (Value.map top).nodeCount < stage.passed.length) :
    ∃ closing, (start name top).Comes spec name closing ∧ closing.schema ∈ closing.passed := by
  refine h.exists_closing fun hnodup => ?_
  have hle := length_le_of_stands hnodup fun s hs => stands_of_visits hd ht (h.visits.2 s hs).1
  omega

end Stage

end Model

end ApiScaffold
