import ApiScaffold.Proofs.Operation.Parameters
import ApiScaffold.Proofs.Target.Spelling

/-!
# The arguments of a method

An operation is built whatever its arguments are called. So they are distinct exactly if no two of
its parameters, the body among them, share a spelling.

`Parts.ofSlot` is the converse of what the building of an operation gives: parts that are built are
built into an operation, whatever their names. With it `argumentsDistinct_iff` speaks of all
operations whose parts can be built, and `arguments_meet` of one that no step refuses although two
of its arguments are one.
-/

namespace ApiScaffold.Operation

/-- No two parameters of an operation are one argument of its method. -/
def ArgumentsDistinct (op : Operation) : Prop := (op.parameters.map Parameter.name).Nodup

instance (op : Operation) : Decidable op.ArgumentsDistinct :=
  inferInstanceAs (Decidable (List.Nodup _))

variable {g : Generator} {spec : Spec} {path pathItem id : Value} {method : String}
  {members item : Members} {op : Operation} {raws : List RawParameter} {declared : List Parameter}
  {body : Option Parameter} {responses : List (Response × List String)}

/-- What parts are built for is built of them. -/
theorem Parts.ofSlot
    (hp : Parts g spec path method members item op id raws declared body responses)
    (hitem : (pathItem.orElse .emptyMap).entries = .ok item) :
    ofSlot g spec path method (.map members) pathItem = .ok op := by
  have hdeclared := Attempt.mapM_eq_ok.mpr hp.parametersBuilt
  refine Attempt.bind_eq_ok.mpr ⟨id, hp.identified, ?_⟩
  refine Attempt.bind_eq_ok.mpr ⟨item, hitem, ?_⟩
  refine Attempt.bind_eq_ok.mpr ⟨raws, hp.merged, ?_⟩
  refine Attempt.bind_eq_ok.mpr ⟨declared, hdeclared, ?_⟩
  refine Attempt.bind_eq_ok.mpr ⟨body, hp.bodyBuilt, ?_⟩
  dsimp only
  rw [if_neg (Nat.not_lt.mpr hp.oneBody)]
  refine Attempt.bind_eq_ok.mpr ⟨responses, hp.responsesBuilt, ?_⟩
  refine Attempt.bind_eq_ok.mpr ⟨op.tags, hp.tagged, ?_⟩
  refine Attempt.bind_eq_ok.mpr ⟨op.operationId, Attempt.require_eq_ok.mpr hp.named, ?_⟩
  refine Attempt.bind_eq_ok.mpr ⟨op.group, hp.grouped, ?_⟩
  exact congrArg Except.ok hp.assembled.symm

/-- An argument is called after the name of its parameter. -/
theorem Parts.named_arguments
    (hp : Parts g spec path method members item op id raws declared body responses) :
    ∀ p ∈ declared ++ body.toList, p.name = g.target.fieldName p.wireName := by
  intro p hin
  rcases List.mem_append.mp hin with hin | hin
  · obtain ⟨raw, -, hraw⟩ := Attempt.exists_of_forall₂ hp.parametersBuilt hin
    obtain ⟨v, schema, type, hfrom⟩ := buildParameter_ok hraw
    exact hfrom.name
  · have hbody := hp.bodyBuilt
    rw [Option.mem_toList.mp hin] at hbody
    obtain ⟨_, _, _, _, -, -, -, -, rfl⟩ := buildBody_ok hbody
    rfl

/-- An operation all of whose parts can be built is built of them, and its arguments are distinct
exactly if its parameters and its body have different spellings. -/
theorem argumentsDistinct_iff (ht : g.target ∈ [Target.jaxrsSpec, .spring, .python])
    (hitem : (pathItem.orElse .emptyMap).entries = .ok item)
    (hp : Parts g spec path method members item op id raws declared body responses) :
    ofSlot g spec path method (.map members) pathItem = .ok op
      ∧ (op.ArgumentsDistinct ↔
        ((declared ++ body.toList).map fun p => g.target.spelling p.wireName).Nodup) := by
  refine ⟨hp.ofSlot hitem, ?_⟩
  have hperm : op.parameters.Perm (declared ++ body.toList) := by
    rw [hp.assembled]
    show (orderParameters _).Perm _
    rw [orderParameters_eq_mergeSort]
    exact List.mergeSort_perm _ _
  have hnamed := hp.named_arguments
  rw [ArgumentsDistinct, (hperm.map _).nodup_iff]
  unfold List.Nodup
  rw [List.pairwise_map, List.pairwise_map]
  refine List.Pairwise.iff_of_mem fun {p q} hpin hqin => not_congr ?_
  rw [hnamed p hpin, hnamed q hqin]
  exact (Target.escapes_of_builtin ht).fieldName_eq_iff

/-- An operation with parameters of certain names in its query. -/
def queryOperation (names : List String) : Members :=
  [(.str "operationId", .str "findPets"),
    (.str "parameters", .list (names.map fun name => plainEntry name "query" "string"))]

theorem exists_queryOperation {names arguments : List String}
    (h : (ofSlot (.ofTarget .jaxrsSpec []) .bare (.str "/pets") "get" (.map (queryOperation names))
      .null).toOption.map (fun op => op.parameters.map Parameter.name) = some arguments) :
    ∃ op, ofSlot (.ofTarget .jaxrsSpec []) .bare (.str "/pets") "get" (.map (queryOperation names))
        .null = .ok op ∧ op.parameters.map Parameter.name = arguments :=
  Attempt.exists_of_toOption_map h

/-- A reserved word is another argument than a name of two words. -/
theorem argumentsDistinct_iff_class : ∃ op item id raws declared body responses,
    Parts (.ofTarget .jaxrsSpec []) .bare (.str "/pets") "get" (queryOperation ["user-id", "class"])
        item op id raws declared body responses
      ∧ ofSlot (.ofTarget .jaxrsSpec []) .bare (.str "/pets") "get"
        (.map (queryOperation ["user-id", "class"])) .null = .ok op
      ∧ op.parameters.map Parameter.name = ["userId", "_class"]
      ∧ ((declared ++ body.toList).map fun p => Target.jaxrsSpec.spelling p.wireName).Nodup := by
  obtain ⟨op, hop, hnames⟩ :=
    @exists_queryOperation ["user-id", "class"] ["userId", "_class"] (by decide +kernel)
  have hdistinct : op.ArgumentsDistinct := by
    rw [ArgumentsDistinct, hnames]
    decide
  obtain ⟨_, item, id, raws, declared, body, responses, hmap, hitem, hp⟩ := ofSlot_ok hop
  cases hmap
  obtain ⟨hbuilt, hiff⟩ := argumentsDistinct_iff (by simp [Generator.ofTarget]) hitem hp
  exact ⟨op, item, id, raws, declared, body, responses, hp, hbuilt, hnames, hiff.mp hdistinct⟩

/-- Two parameters of one spelling are one argument. -/
theorem arguments_meet : ∃ op,
    ofSlot (.ofTarget .jaxrsSpec []) .bare (.str "/pets") "get"
        (.map (queryOperation ["user-id", "user_id"])) .null = .ok op
      ∧ op.parameters.map Parameter.name = ["userId", "userId"] ∧ ¬op.ArgumentsDistinct := by
  obtain ⟨op, hop, hnames⟩ :=
    @exists_queryOperation ["user-id", "user_id"] ["userId", "userId"] (by decide +kernel)
  refine ⟨op, hop, hnames, ?_⟩
  rw [ArgumentsDistinct, hnames]
  decide

end ApiScaffold.Operation
