import ApiScaffold.Model.Build
import ApiScaffold.Proofs.Attempt
import ApiScaffold.Proofs.Spec

/-!
# The flattening of a schema turn by turn

A schema declares its own properties; then each member of its compositions has its turn, which stops
the flattening, passes, or calls for the flattening of another schema (`Turn`).

The definition of the flattening goes keyword by keyword and follows references on the way.
`flatten_succ` shows that it is to declare and to take the turns of the listed members in order, and
all that is proved of it starts there. What a turn does is said by one lemma for each of its
outcomes (`stop_cases`, `pass_cases`, `call_cases`), and `rel_of_takeTurns` goes from one turn to
all of them, for any relation that is reflexive and transitive.
-/

namespace ApiScaffold

namespace Model

open Attempt

/-! ## Members of compositions -/

/-- A mapping among the members that a keyword of a schema lists. -/
def HasMember (schema member : Members) : Prop :=
  ∃ keyword v vs, Members.get? schema keyword = some v ∧ v.elements? = some vs
    ∧ .map member ∈ vs ∧ keyword ∈ Schema.compositionKeywords

/-- One step from a schema to a schema that a composition of it has as a member. -/
def Composes (spec : Spec) (schema target : Members) : Prop :=
  ∃ member, HasMember schema member ∧ spec.Derefs member target

variable {schema : Members}

theorem nonEmpty?_eq_some {members : Members} {key : String} {v : Value}
    (h : nonEmpty? members key = some v) : Members.get? members key = some v := by
  obtain ⟨w, hw, h⟩ := Option.bind_eq_some_iff.mp h
  split at h
  · cases h
    exact hw
  · cases h

theorem elementsUnder_ok {members : Members} {key : String} {vs : List Value}
    (h : elementsUnder members key = .ok vs) (hn : vs ≠ []) :
    ∃ v, Members.get? members key = some v ∧ v.elements? = some vs := by
  unfold elementsUnder at h
  split at h
  next =>
    cases h
    exact absurd rfl hn
  next v hv => exact ⟨v, nonEmpty?_eq_some hv, Attempt.require_eq_ok.mp h⟩

theorem membersUnder_ok {keyword : String} {members : List Member}
    (hk : keyword ∈ Schema.compositionKeywords) (h : membersUnder schema keyword = .ok members)
    {member : Member} {reference : Members} (hm : member ∈ members)
    (hv : member.value = .map reference) : HasMember schema reference := by
  obtain ⟨vs, he, h⟩ := Attempt.bind_eq_ok.mp h
  cases h
  obtain ⟨⟨value, index⟩, hz, rfl⟩ := List.mem_map.mp hm
  have hin := List.mem_of_getElem? (List.mk_mem_zipIdx_iff_getElem?.mp hz)
  obtain ⟨v, hget, hvs⟩ := elementsUnder_ok he (List.ne_nil_of_mem hin)
  exact ⟨keyword, v, vs, hget, hvs, hv ▸ hin, hk⟩

/-- The members of the compositions of a schema in the order of their turns; a keyword whose members
cannot be read has its failure there. -/
def listed (schema : Members) : List (Attempt Member) :=
  Schema.compositionKeywords.flatMap fun keyword => match membersUnder schema keyword with
    | .ok members => members.map .ok
    | .error failure => [.error failure]

theorem mem_listed {member : Member} {reference : Members} (hm : .ok member ∈ listed schema)
    (hv : member.value = .map reference) : HasMember schema reference := by
  obtain ⟨keyword, hk, hin⟩ := List.mem_flatMap.mp hm
  split at hin
  next members hmembers =>
    obtain ⟨other, ho, he⟩ := List.mem_map.mp hin
    cases he
    exact membersUnder_ok hk hmembers ho hv
  next => cases List.mem_singleton.mp hin

/-- What can be iterated over and is not empty counts. -/
theorem isTruthy_of_elements? {v x : Value} {vs : List Value} (h : v.elements? = some vs)
    (hx : x ∈ vs) : v.isTruthy = true := by
  have hn := List.ne_nil_of_mem hx
  cases v with
  | str s =>
      obtain rfl : (Text.letters s.toList).map (fun l => Value.str (String.ofList l)) = vs :=
        Option.some.inj h
      simpa [Value.isTruthy] using hn
  | bytes bs =>
      obtain rfl : bs.map (fun b => Value.int (Int.ofNat b.toNat)) = vs := Option.some.inj h
      simpa [Value.isTruthy] using hn
  | list items =>
      obtain rfl : items = vs := Option.some.inj h
      simpa [Value.isTruthy] using hn
  | set elements =>
      obtain rfl : elements = vs := Option.some.inj h
      simpa [Value.isTruthy] using hn
  | map members =>
      obtain rfl : members.map Prod.fst = vs := Option.some.inj h
      simpa [Value.isTruthy] using hn
  | _ => cases h

/-- Each member of the compositions of a schema has its turn. -/
theorem exists_listed {reference : Members} (h : HasMember schema reference) :
    ∃ member, .ok member ∈ listed schema ∧ member.value = .map reference := by
  obtain ⟨keyword, v, vs, hget, he, hin, hk⟩ := h
  obtain ⟨index, hindex⟩ := List.getElem?_of_mem hin
  have helements : elementsUnder schema keyword = .ok vs := by
    simp only [elementsUnder, nonEmpty?, hget, Option.bind_some, isTruthy_of_elements? he hin,
      if_true]
    exact require_eq_ok.mpr he
  refine ⟨{ keyword, index, value := .map reference }, List.mem_flatMap.mpr ⟨keyword, hk, ?_⟩, rfl⟩
  obtain ⟨members, hmembers, hmember⟩ : ∃ members, membersUnder schema keyword = .ok members
      ∧ { keyword, index, value := .map reference } ∈ members :=
    ⟨_, bind_eq_ok.mpr ⟨vs, helements, rfl⟩, List.mem_map.mpr
      ⟨(.map reference, index), List.mk_mem_zipIdx_iff_getElem?.mpr hindex, rfl⟩⟩
  rw [hmembers]
  exact List.mem_map_of_mem hmember

/-! ## Turns -/

/-- What is gathered when the turn of a component comes, which is noted if the schema of the model
has it as a member. -/
def Gathered.noted (model origin component : String) (g : Gathered) : Gathered :=
  if origin = model then g.note component else g

@[simp] theorem Gathered.noted_flattened (model origin component : String) (g : Gathered) :
    (g.noted model origin component).flattened = g.flattened := by
  unfold noted note
  split
  · split <;> rfl
  · rfl

@[simp] theorem Gathered.noted_properties (model origin component : String) (g : Gathered) :
    (g.noted model origin component).properties = g.properties := by
  unfold noted note
  split
  · split <;> rfl
  · rfl

/-- A component is flattened now. -/
def Gathered.enter (g : Gathered) (component : String) : Gathered :=
  { g with flattened := g.flattened ++ [component] }

/-- What the turn of a member comes to. -/
inductive Turn where
  | stop (failure : Failure)
  | pass (g : Gathered)
  /-- Another schema is to be flattened, from where, on which way, and onto what. -/
  | call (origin : String) (visiting : List String) (target : Members) (g : Gathered)

/-- The flattening goes on, where `follow` flattens what a turn calls for. -/
def Turn.run (follow : String → List String → Members → Gathered → Attempt Gathered) :
    Turn → Attempt Gathered
  | .stop failure => .error failure
  | .pass g => .ok g
  | .call origin visiting target g => follow origin visiting target g

/-- The turn of a member. -/
def turn (spec : Spec) (model origin : String) (visiting : List String) (member : Member)
    (g : Gathered) : Turn :=
  match member.value with
  | .map reference => match Spec.schemaTarget? reference with
    | some component =>
      if visiting.contains component then
        .stop (.build (.str model) (.circularComposition component))
      else
        let noted := g.noted model origin component
        if noted.flattened.contains component then .pass noted
        else match spec.deref reference with
          | .error failure => .stop failure
          | .ok target => .call component (visiting ++ [component]) target (noted.enter component)
    | none => match spec.deref reference with
      | .error failure => .stop failure
      | .ok target => .call
          (origin ++ "." ++ member.keyword ++ "[" ++ toString member.index ++ "]") visiting target g
  | _ => .stop (.build (.str model) (.memberNotSchema member.keyword member.index))

/-- The turns of members in order. -/
def takeTurns (spec : Spec) (model : String)
    (follow : String → List String → Members → Gathered → Attempt Gathered) (origin : String)
    (visiting : List String) (members : List (Attempt Member)) (g : Gathered) : Attempt Gathered :=
  members.foldlM (fun g member => do (turn spec model origin visiting (← member) g).run follow) g

variable {spec : Spec} {model origin : String} {visiting : List String} {member : Member}
  {members : List (Attempt Member)} {g g' : Gathered} {depth : Nat}
  {follow : String → List String → Members → Gathered → Attempt Gathered}

theorem flattenKeywords_eq {step : Member → Gathered → Attempt Gathered} {keywords : List String} :
    flattenKeywords step schema keywords g
      = (keywords.flatMap fun keyword => match membersUnder schema keyword with
          | .ok members => members.map .ok
          | .error failure => [.error failure]).foldlM (fun g member => do step (← member) g) g := by
  induction keywords generalizing g with
  | nil => rfl
  | cons keyword rest ih =>
      rw [flattenKeywords, List.flatMap_cons, List.foldlM_append]
      cases membersUnder schema keyword with
      | error failure => rfl
      | ok members =>
          rw [List.foldlM_map]
          exact bind_congr fun _ => ih

/-- To flatten a schema is to declare its own properties and to take the turns of its members. -/
theorem flatten_succ : flatten spec model (depth + 1) origin visiting schema g = (do
    takeTurns spec model (flatten spec model depth) origin visiting (listed schema)
      (← declareOwn model origin schema g)) := by
  rw [flatten]
  refine bind_congr fun own => ?_
  rw [flattenKeywords_eq, takeTurns, listed]
  refine congrArg (fun step => List.foldlM step own _) (funext fun g => funext fun member => ?_)
  refine bind_congr fun member => ?_
  unfold turn Gathered.noted Gathered.enter
  cases member.value with
  | map reference =>
      dsimp only
      cases Spec.schemaTarget? reference with
      | some component =>
          dsimp only
          generalize (if origin = model then g.note component else g) = noted
          split
          · rfl
          · split
            · rfl
            · cases spec.deref reference <;> rfl
      | none => cases spec.deref reference <;> rfl
  | _ => rfl

theorem takeTurns_append (first rest : List (Attempt Member)) :
    takeTurns spec model follow origin visiting (first ++ rest) g = (do
      takeTurns spec model follow origin visiting rest
        (← takeTurns spec model follow origin visiting first g)) :=
  List.foldlM_append

theorem takeTurns_cons_ok : takeTurns spec model follow origin visiting (.ok member :: members) g
    = (do
      takeTurns spec model follow origin visiting members
        (← (turn spec model origin visiting member g).run follow)) := by
  rw [takeTurns, List.foldlM_cons]
  rfl

/-! ## What a turn does -/

/-- A turn stops with a fault of the schema at the top, or where a reference leads nowhere. -/
theorem stop_cases {failure : Failure}
    (ht : turn spec model origin visiting member g = .stop failure) :
    (∃ fault, failure = .build (.str model) fault)
      ∨ ∃ reference, spec.deref reference = .error failure := by
  unfold turn at ht
  split at ht
  next reference hv =>
    split at ht
    next component hc =>
      split at ht
      next =>
        cases ht
        exact .inl ⟨_, rfl⟩
      next =>
        dsimp only at ht
        split at ht
        next => cases ht
        next =>
          split at ht
          next hd =>
            cases ht
            exact .inr ⟨reference, hd⟩
          next => cases ht
    next hc =>
      split at ht
      next hd =>
        cases ht
        exact .inr ⟨reference, hd⟩
      next => cases ht
  next =>
    cases ht
    exact .inl ⟨_, rfl⟩

/-- A member that passes refers to a component that is flattened and not on the way. -/
theorem pass_cases (ht : turn spec model origin visiting member g = .pass g') :
    ∃ reference component, member.value = .map reference
      ∧ Spec.schemaTarget? reference = some component ∧ component ∉ visiting
      ∧ component ∈ g.flattened ∧ g' = g.noted model origin component := by
  unfold turn at ht
  split at ht
  next reference hv =>
    split at ht
    next component hc =>
      split at ht
      next => cases ht
      next hvisiting =>
        dsimp only at ht
        split at ht
        next hflattened =>
          cases ht
          exact ⟨reference, component, hv, hc, by simpa using hvisiting,
            by simpa using hflattened, rfl⟩
        next => split at ht <;> cases ht
    next => split at ht <;> cases ht
  next => cases ht

/-- What a member calls for: the schema that its reference leads to, which is a component that is
not flattened and not on the way, or no component. -/
theorem call_cases {start : String} {way : List String} {target : Members}
    (ht : turn spec model origin visiting member g = .call start way target g') :
    ∃ reference, member.value = .map reference ∧ spec.deref reference = .ok target
      ∧ ((∃ component, Spec.schemaTarget? reference = some component ∧ component ∉ visiting
            ∧ component ∉ g.flattened ∧ way = visiting ++ [component]
            ∧ g' = (g.noted model origin component).enter component)
        ∨ Spec.schemaTarget? reference = none ∧ way = visiting ∧ g' = g) := by
  unfold turn at ht
  split at ht
  next reference hv =>
    split at ht
    next component hc =>
      split at ht
      next => cases ht
      next hvisiting =>
        dsimp only at ht
        split at ht
        next => cases ht
        next hflattened =>
          split at ht
          next => cases ht
          next target hd =>
            cases ht
            exact ⟨reference, hv, hd, .inl ⟨_, hc, by simpa using hvisiting,
              by simpa using hflattened, rfl, rfl⟩⟩
    next hc =>
      split at ht
      next => cases ht
      next target hd =>
        cases ht
        exact ⟨reference, hv, hd, .inr ⟨hc, rfl, rfl⟩⟩
  next => cases ht

/-- A turn after which the flattening goes on is one that passes, or a call that comes to a result.
-/
theorem run_ok (h : (turn spec model origin visiting member g).run follow = .ok g') :
    turn spec model origin visiting member g = .pass g'
      ∨ ∃ start way target between,
        turn spec model origin visiting member g = .call start way target between
          ∧ follow start way target between = .ok g' := by
  cases ht : turn spec model origin visiting member g with
  | stop failure =>
      rw [ht] at h
      cases h
  | pass next =>
      rw [ht] at h
      cases h
      exact .inl rfl
  | call start way target between =>
      rw [ht] at h
      exact .inr ⟨start, way, target, between, rfl, h⟩

/-- Turns that lead from what is gathered to what is related to it do so together. -/
theorem rel_of_takeTurns {R : Gathered → Gathered → Prop} (hrefl : ∀ g, R g g)
    (htrans : ∀ g between g', R g between → R between g' → R g g')
    (hrun : ∀ member, .ok member ∈ members → ∀ g g',
      (turn spec model origin visiting member g).run follow = .ok g' → R g g')
    (h : takeTurns spec model follow origin visiting members g = .ok g') : R g g' := by
  refine rel_of_foldlM hrefl htrans (fun member hin g g' hstep => ?_) h
  obtain ⟨member, rfl, hstep⟩ := bind_eq_ok.mp hstep
  exact hrun member hin g g' hstep

end Model

end ApiScaffold
