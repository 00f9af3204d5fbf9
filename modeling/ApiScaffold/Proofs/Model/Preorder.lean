import ApiScaffold.Proofs.Document.Textual
import ApiScaffold.Proofs.Model.Flatten
import ApiScaffold.Proofs.Schema.Mention

/-!
# The preorder of a composition

The schemas that a composition is made of, in preorder: a schema first, then each member of its
compositions with what that is made of. A member that refers to a component stands for the schema of
the component, and is left out where the component has been visited before.

None of this speaks of the flattening. `Regular` says that a schema has properties, required names
and compositions of the kinds that they should be, `Contributes` and `IsCircular` speak of the graph
of schemas, and `Walk` is the preorder as a relation, one case for each kind of member. There is one
preorder for a component of composed schemas: `Walk.unique` says that there is no other, and
`exists_walk` that there is one, by induction on the components that have not been visited and then
on the size of a schema.
-/

namespace ApiScaffold

namespace Model

/-! ## One schema -/

/-- The items that a schema lists under a key. -/
def itemsOf (schema : Members) (key : String) : List Value :=
  match Members.get? schema key with
  | some (.list items) => items
  | _ => []

/-- The names of the properties that a schema declares itself. -/
def ownNames (schema : Members) : List Value :=
  match Members.get? schema "properties" with
  | some (.map own) => own.map Prod.fst
  | _ => []

/-- Names no two of which are one key. -/
def Differ (names : List Value) : Prop := names.Pairwise fun a b => a.keyEq b = false

/-- The names that a schema requires itself. -/
def ownRequired (schema : Members) : List Value := itemsOf schema "required"

/-- The mapping that a value is. -/
def mapping? : Value → Option Members
  | .map members => some members
  | _ => none

/-- The members of the compositions of a schema, by keyword and place. -/
def compositionMembers (schema : Members) : List Members :=
  Schema.compositionKeywords.flatMap fun keyword => (itemsOf schema keyword).filterMap mapping?

/-- A schema that is no reference, with properties, required names and compositions of the kinds
that they should have, and whose members refer to components only. -/
structure Regular (schema : Members) : Prop where
  concrete : Members.get? schema "$ref" = none
  properties : ∀ v ∈ Members.get? schema "properties", ∃ own, v = .map own
  required : ∀ v ∈ Members.get? schema "required",
    ∃ names, v = .list names ∧ ∀ n ∈ names, n.isKey = true
  compositions : ∀ keyword ∈ Schema.compositionKeywords, ∀ v ∈ Members.get? schema keyword,
    ∃ items, v = .list items ∧ ∀ item ∈ items, ∃ member, item = .map member
  references : ∀ member ∈ compositionMembers schema, ∀ v ∈ Members.get? member "$ref",
    ∃ reference, v = .str reference ∧ Spec.NamesComponent reference

/-! ## From schema to schema -/

/-- The schema that a member of a composition stands for. -/
def meaning? (spec : Spec) (member : Members) : Option Members :=
  match Members.get? member "$ref" with
  | none => some member
  | some (.str reference) => (spec.resolve reference).toOption
  | some _ => none

/-- A member of a composition of one schema stands for the other. -/
def Joins (spec : Spec) (schema target : Members) : Prop :=
  ∃ member ∈ compositionMembers schema, meaning? spec member = some target

/-- The schemas that a schema is composed of, itself included. -/
def Contributes (spec : Spec) : Members → Members → Prop := Relation.ReflTransGen (Joins spec)

/-- The compositions of a schema lead to one that is composed of itself. -/
def IsCircular (spec : Spec) (top : Members) : Prop :=
  ∃ s, Contributes spec top s ∧ Relation.TransGen (Joins spec) s s

/-! ## The preorder -/

/-- The schemas to which members lead, in preorder, each component once: what has been visited
before, the members, the schemas, and what has been visited then. -/
inductive Walk (spec : Spec) : List String → List Members → List Members → List String → Prop
  | done (visited : List String) : Walk spec visited [] [] visited
  | again {visited after : List String} {member : Members} {rest nodes : List Members}
      {reference : String} (href : Members.get? member "$ref" = some (.str reference))
      (hv : Pointer.lastKey reference ∈ visited) (hrest : Walk spec visited rest nodes after) :
      Walk spec visited (member :: rest) nodes after
  | component {visited between after : List String} {member target : Members}
      {rest inner nodes : List Members} {reference : String}
      (href : Members.get? member "$ref" = some (.str reference))
      (hv : Pointer.lastKey reference ∉ visited) (ht : spec.resolve reference = .ok target)
      (hin : Walk spec (visited ++ [Pointer.lastKey reference]) (compositionMembers target) inner
        between)
      (hrest : Walk spec between rest nodes after) :
      Walk spec visited (member :: rest) (target :: inner ++ nodes) after
  | inline {visited between after : List String} {member : Members}
      {rest inner nodes : List Members} (href : Members.get? member "$ref" = none)
      (hin : Walk spec visited (compositionMembers member) inner between)
      (hrest : Walk spec between rest nodes after) :
      Walk spec visited (member :: rest) (member :: inner ++ nodes) after

/-- The schemas that a component is composed of, in preorder. -/
def Preorder (spec : Spec) (name : String) (schema : Members) (nodes : List Members) : Prop :=
  ∃ inner after, Walk spec [name] (compositionMembers schema) inner after
    ∧ nodes = schema :: inner

variable {spec : Spec} {visited after : List String} {schema member target top : Members}
  {members nodes : List Members} {reference : String}

theorem forall_mem_itemsOf {key : String} {P : Value → Prop}
    (h : ∀ v ∈ Members.get? schema key, ∃ items, v = .list items ∧ ∀ item ∈ items, P item) :
    ∀ item ∈ itemsOf schema key, P item := by
  unfold itemsOf
  split
  next items hget =>
    obtain ⟨found, heq, hall⟩ := h _ hget
    cases heq
    exact hall
  next => simp

/-- A member of a composition is an item of a list in its schema. -/
theorem exists_of_mem_compositionMembers (hm : member ∈ compositionMembers schema) :
    ∃ keyword items, Members.get? schema keyword = some (.list items) ∧ .map member ∈ items := by
  obtain ⟨keyword, -, hm⟩ := List.mem_flatMap.mp hm
  obtain ⟨item, hitem, hmap⟩ := List.mem_filterMap.mp hm
  cases item with
  | map found =>
      cases hmap
      unfold itemsOf at hitem
      split at hitem
      next items hget => exact ⟨keyword, items, hget, hitem⟩
      next => cases hitem
  | _ => cases hmap

theorem meaning?_of_reference (href : Members.get? member "$ref" = some (.str reference))
    (ht : spec.resolve reference = .ok target) : meaning? spec member = some target := by
  simp only [meaning?, href, ht, Except.toOption]

theorem meaning?_of_inline (href : Members.get? member "$ref" = none) :
    meaning? spec member = some member := by
  rw [meaning?, href]

/-- What a member of a schema that contributes stands for contributes too. -/
theorem contributes_of_meaning
    (hs : ∃ s, Contributes spec top s ∧ member ∈ compositionMembers s)
    (hmean : meaning? spec member = some target) : Contributes spec top target := by
  obtain ⟨s, hs, hin⟩ := hs
  exact hs.tail ⟨member, hin, hmean⟩

theorem Walk.subset (h : Walk spec visited members nodes after) : visited ⊆ after := by
  induction h with
  | done => exact List.Subset.refl _
  | again _ _ _ ih => exact ih
  | component _ _ _ _ _ ihin ihrest =>
      exact List.Subset.trans (List.subset_append_left _ _) (List.Subset.trans ihin ihrest)
  | inline _ _ _ ihin ihrest => exact List.Subset.trans ihin ihrest

/-- There is one preorder. -/
theorem Walk.unique {others : List Members} {after' : List String}
    (h : Walk spec visited members nodes after) (h' : Walk spec visited members others after') :
    nodes = others ∧ after = after' := by
  induction h generalizing others after' with
  | done =>
      cases h'
      exact ⟨rfl, rfl⟩
  | again href hv _ ih =>
      cases h' with
      | again _ _ hrest => exact ih hrest
      | component href' hv' =>
          cases href.symm.trans href'
          exact absurd hv hv'
      | inline href' => cases href.symm.trans href'
  | component href hv ht _ _ ihin ihrest =>
      cases h' with
      | again href' hv' =>
          cases href.symm.trans href'
          exact absurd hv' hv
      | component href' hv' ht' hin' hrest' =>
          cases href.symm.trans href'
          cases ht.symm.trans ht'
          obtain ⟨rfl, rfl⟩ := ihin hin'
          obtain ⟨rfl, rfl⟩ := ihrest hrest'
          exact ⟨rfl, rfl⟩
      | inline href' => cases href.symm.trans href'
  | inline href _ _ ihin ihrest =>
      cases h' with
      | again href' => cases href.symm.trans href'
      | component href' => cases href.symm.trans href'
      | inline _ hin' hrest' =>
          obtain ⟨rfl, rfl⟩ := ihin hin'
          obtain ⟨rfl, rfl⟩ := ihrest hrest'
          exact ⟨rfl, rfl⟩

/-- A walk leads to schemas to which its members contribute. -/
theorem Walk.contributes (h : Walk spec visited members nodes after)
    (hm : ∀ m ∈ members, ∃ s, Contributes spec top s ∧ m ∈ compositionMembers s) :
    ∀ n ∈ nodes, Contributes spec top n := by
  induction h with
  | done => simp
  | again _ _ _ ih => exact ih (List.forall_mem_cons.mp hm).2
  | component href _ ht _ _ ihin ihrest =>
      obtain ⟨hs, hm⟩ := List.forall_mem_cons.mp hm
      have htarget := contributes_of_meaning hs (meaning?_of_reference href ht)
      have hinner := ihin fun x hx => ⟨_, htarget, hx⟩
      exact List.forall_mem_append.mpr
        ⟨List.forall_mem_cons.mpr ⟨htarget, hinner⟩, ihrest hm⟩
  | inline href _ _ ihin ihrest =>
      obtain ⟨hs, hm⟩ := List.forall_mem_cons.mp hm
      have htarget := contributes_of_meaning hs (meaning?_of_inline href)
      have hinner := ihin fun x hx => ⟨_, htarget, hx⟩
      exact List.forall_mem_append.mpr
        ⟨List.forall_mem_cons.mpr ⟨htarget, hinner⟩, ihrest hm⟩

/-- All schemas of the preorder of a component contribute to it. -/
theorem Preorder.contributes {name : String} (h : Preorder spec name schema nodes) :
    ∀ n ∈ nodes, Contributes spec schema n := by
  obtain ⟨inner, after, hwalk, rfl⟩ := h
  exact List.forall_mem_cons.mpr ⟨.refl, hwalk.contributes fun m hm => ⟨schema, .refl, hm⟩⟩

/-! ## Schemas that are composed as they should be -/

/-- The schemas that contribute to one are regular and do not name a property twice, and the members
of their compositions refer to something. -/
structure Composed (spec : Spec) (top : Members) : Prop where
  proper : spec.IsProper
  regular : ∀ s, Contributes spec top s → Regular s
  distinct : ∀ s, Contributes spec top s → Differ (ownNames s)
  resolves : ∀ s, Contributes spec top s → ∀ member ∈ compositionMembers s, ∀ reference,
    Members.get? member "$ref" = some (.str reference) →
      ∃ target, spec.resolve reference = .ok target

/-- What a member of a composition is: a schema that stands there, or a reference to a component. -/
inductive Part (spec : Spec) (schema member : Members) : Prop
  | inline (href : Members.get? member "$ref" = none) (hj : Joins spec schema member)
  | component {reference : String} {target : Members}
      (href : Members.get? member "$ref" = some (.str reference))
      (hn : Spec.NamesComponent reference) (ht : spec.resolve reference = .ok target)
      (hj : Joins spec schema target)

theorem sizeOf_lt_of_mem_compositionMembers (hm : member ∈ compositionMembers schema) :
    sizeOf member < sizeOf schema := by
  obtain ⟨keyword, items, hget, hitem⟩ := exists_of_mem_compositionMembers hm
  have hlist := Schema.sizeOf_lt_of_get? hget
  have hlt := List.sizeOf_lt_of_mem hitem
  simp only [Value.list.sizeOf_spec, Value.map.sizeOf_spec] at hlist hlt
  omega

/-- The names of the components of a document. -/
def componentNames (spec : Spec) : List String :=
  match spec.schemas with
  | .ok (.map schemas) => Members.names schemas
  | _ => []

/-- How many components have not been visited. -/
def unvisited (spec : Spec) (visited : List String) : Nat :=
  (componentNames spec).countP fun c => !visited.contains c

theorem countP_unvisited_le (h : visited ⊆ after) (names : List String) :
    (names.countP fun c => !after.contains c) ≤ names.countP fun c => !visited.contains c := by
  refine List.countP_mono_left fun c _ hc => ?_
  simp only [Bool.not_eq_true', List.contains_eq_mem, decide_eq_false_iff_not] at hc ⊢
  exact fun hin => hc (h hin)

theorem unvisited_le (h : visited ⊆ after) : unvisited spec after ≤ unvisited spec visited :=
  countP_unvisited_le h _

theorem unvisited_lt {component : String} (hc : component ∈ componentNames spec)
    (hv : component ∉ visited) :
    unvisited spec (visited ++ [component]) < unvisited spec visited := by
  obtain ⟨before, behind, hsplit⟩ := List.append_of_mem hc
  have hle := countP_unvisited_le (List.subset_append_left visited [component])
  have hbefore := hle before
  have hbehind := hle behind
  unfold unvisited
  rw [hsplit, List.countP_append, List.countP_append, List.countP_cons_of_neg (by simp),
    List.countP_cons_of_pos (by simpa using hv)]
  omega

theorem mem_componentNames (hn : Spec.NamesComponent reference)
    (ht : spec.resolve reference = .ok target) :
    Pointer.lastKey reference ∈ componentNames spec := by
  obtain ⟨schemas, hs, hget⟩ := hn.resolve ht
  unfold componentNames
  rw [hs]
  exact List.mem_map.mpr ⟨_, Members.mem_of_get? hget, rfl⟩

namespace Composed

theorem part (h : Composed spec top) (hs : Contributes spec top schema)
    (hm : member ∈ compositionMembers schema) : Part spec schema member := by
  cases hr : Members.get? member "$ref" with
  | none => exact .inline hr ⟨member, hm, meaning?_of_inline hr⟩
  | some v =>
      obtain ⟨reference, rfl, hn⟩ := (h.regular schema hs).references member hm v hr
      obtain ⟨target, ht⟩ := h.resolves schema hs member hm reference hr
      exact .component hr hn ht ⟨member, hm, meaning?_of_reference hr ht⟩

/-- The walk comes to its end: it goes down in a schema, or on to a component that it has not
visited. -/
theorem exists_walk (h : Composed spec top) {bound : Nat} {visited : List String}
    {members : List Members} (hb : unvisited spec visited ≤ bound)
    (hm : ∀ m ∈ members, ∃ s, Contributes spec top s ∧ m ∈ compositionMembers s) :
    ∃ nodes after, Walk spec visited members nodes after := by
  induction bound using Nat.strongRecOn generalizing visited members with
  | ind bound ihBound =>
  obtain ⟨size, hsize⟩ : ∃ size, ∀ m ∈ members, sizeOf m < size :=
    ⟨sizeOf members, fun m hin => List.sizeOf_lt_of_mem hin⟩
  induction size generalizing visited members with
  | zero =>
      cases members with
      | nil => exact ⟨[], visited, .done visited⟩
      | cons m rest => exact absurd (hsize m List.mem_cons_self) (Nat.not_lt_zero _)
  | succ size ihSize =>
      induction members generalizing visited with
      | nil => exact ⟨[], visited, .done visited⟩
      | cons m rest ih =>
          rw [List.forall_mem_cons] at hm hsize
          obtain ⟨⟨s, hs, hin⟩, hm⟩ := hm
          cases h.part hs hin with
          | inline href hj =>
              have hcontributes : Contributes spec top m := hs.tail hj
              obtain ⟨inner, between, hinner⟩ := ihSize hb
                (fun x hx => ⟨m, hcontributes, hx⟩) fun x hx =>
                Nat.lt_of_lt_of_le (sizeOf_lt_of_mem_compositionMembers hx)
                  (Nat.le_of_lt_succ hsize.1)
              obtain ⟨nodes, after, hrest⟩ :=
                ih (Nat.le_trans (unvisited_le hinner.subset) hb) hm hsize.2
              exact ⟨_, _, .inline href hinner hrest⟩
          | @component reference target href hn ht hj =>
              by_cases hv : Pointer.lastKey reference ∈ visited
              · obtain ⟨nodes, after, hrest⟩ := ih hb hm hsize.2
                exact ⟨_, _, .again href hv hrest⟩
              · have hlt : unvisited spec (visited ++ [Pointer.lastKey reference]) < bound :=
                  Nat.lt_of_lt_of_le (unvisited_lt (mem_componentNames hn ht) hv) hb
                have hcontributes : Contributes spec top target := hs.tail hj
                obtain ⟨inner, between, hinner⟩ := ihBound _ hlt (Nat.le_refl _)
                  fun x hx => ⟨target, hcontributes, hx⟩
                obtain ⟨nodes, after, hrest⟩ := ihBound _
                  (Nat.lt_of_le_of_lt (unvisited_le hinner.subset) hlt) (Nat.le_refl _) hm
                exact ⟨_, _, .component href hv ht hinner hrest⟩

/-- A component has one preorder. -/
theorem exists_unique_preorder (h : Composed spec top) (name : String) :
    ∃ nodes, ∀ others, Preorder spec name top others ↔ others = nodes := by
  obtain ⟨inner, after, hwalk⟩ := h.exists_walk (Nat.le_refl (unvisited spec [name]))
    fun m hm => ⟨top, .refl, hm⟩
  refine ⟨top :: inner, fun others => ⟨?_, ?_⟩⟩
  · rintro ⟨inner', after', hwalk', rfl⟩
    rw [(hwalk'.unique hwalk).1]
  · rintro rfl
    exact ⟨inner, after, hwalk, rfl⟩

end Composed

end Model

end ApiScaffold
