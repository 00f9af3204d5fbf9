import ApiScaffold.Operation.Build
import ApiScaffold.Proofs.Model.Build

/-!
# What an operation is built from

* `mergedParameters_ok` and `exists_entry`: a merged parameter is what an entry of the path item or
  of the operation leads to, a mapping with a name and a location (`Reads`).
* `BuiltFrom`, `Parts`: a parameter with its schema, and an operation with its parameters, its body
  and its responses. `ofSlot_ok` shows that each operation is built from parts.
* `ofSlot_imports`: what an operation imports, it imports for a type that it uses.
* `isWhole_ofSlot`: from a document without lone halves an operation has none, neither in what
  templates see of it nor in its group and its imports.
-/

namespace ApiScaffold.Operation

variable {g : Generator} {spec : Spec}

/-! ## What an operation is built from -/

/-- The schemas whose types an operation uses: those of the parameters that it lists or that its
path item lists, that of its body, and those of its responses. -/
inductive UsesType (spec : Spec) (operation pathItem : Members) : Value → Prop
  | parameter {entries : List Value} {entry members : Members} {v : Value}
      (hl : parameterEntries pathItem = .ok entries ∨ parameterEntries operation = .ok entries)
      (he : .map entry ∈ entries) (hd : spec.Derefs entry members)
      (hv : parameterSchema members = .ok v) : UsesType spec operation pathItem v
  | body {raw body : Members} {v : Value}
      (hr : Members.get? operation "requestBody" = some (.map raw)) (hd : spec.Derefs raw body)
      (hv : contentSchema (Members.getD body "content" .null) = .ok v) :
      UsesType spec operation pathItem v
  | response {responses raw members : Members} {code v : Value}
      (hr : Members.get? operation "responses" = some (.map responses))
      (hc : (code, .map raw) ∈ responses) (hd : spec.Derefs raw members)
      (hv : contentSchema (Members.getD members "content" .null) = .ok v) :
      UsesType spec operation pathItem v

theorem mem_mergeParameter {merged : List RawParameter} {p q : RawParameter}
    (h : q ∈ mergeParameter merged p) :
    q.members = p.members ∨ ∃ r ∈ merged, q.members = r.members := by
  induction merged with
  | nil =>
      rw [mergeParameter, List.mem_singleton] at h
      exact .inl (congrArg RawParameter.members h)
  | cons r rest ih =>
      rw [mergeParameter] at h
      split at h
      · rcases List.mem_cons.mp h with rfl | h
        · exact .inl rfl
        · exact .inr ⟨q, List.mem_cons_of_mem _ h, rfl⟩
      · rcases List.mem_cons.mp h with rfl | h
        · exact .inr ⟨q, List.mem_cons_self, rfl⟩
        · rcases ih h with hp | ⟨s, hs, hq⟩
          · exact .inl hp
          · exact .inr ⟨s, List.mem_cons_of_mem _ hs, hq⟩

/-- Merged parameters have the members of entries. -/
theorem mem_foldl_mergeParameter {entries before : List RawParameter} {q : RawParameter}
    (h : q ∈ entries.foldl mergeParameter before) :
    ∃ p ∈ before ++ entries, q.members = p.members := by
  induction entries generalizing before with
  | nil => exact ⟨q, List.mem_append_left _ h, rfl⟩
  | cons p rest ih =>
      obtain ⟨r, hr, hq⟩ := ih h
      rcases List.mem_append.mp hr with hr | hr
      · rcases mem_mergeParameter hr with hp | ⟨s, hs, hrs⟩
        · exact ⟨p, List.mem_append_right _ List.mem_cons_self, hq.trans hp⟩
        · exact ⟨s, List.mem_append_left _ hs, hq.trans hrs⟩
      · exact ⟨r, List.mem_append_right _ (List.mem_cons_of_mem _ hr), hq⟩

/-- An entry of a document leads to a mapping with a name and a location. -/
structure Reads (spec : Spec) (entry : Value) (p : RawParameter) : Prop where
  leads : ∃ members, entry = .map members ∧ spec.deref members = .ok p.members
  name : Members.get? p.members "name" = some p.name
  location : Members.get? p.members "in" = some p.location

theorem rawParameter_reads {subject : String} {entry : Value} {p : RawParameter}
    (h : rawParameter spec subject entry = .ok p) : Reads spec entry p := by
  unfold rawParameter at h
  split at h
  next members =>
    obtain ⟨found, hd, h⟩ := Attempt.bind_eq_ok.mp h
    split at h
    next name location hname hlocation =>
      split at h
      · cases h
        exact ⟨⟨members, rfl, hd⟩, hname, hlocation⟩
      · cases h
    next => cases h
  next => cases h

/-- Entries are read one by one and merged as they are read. -/
theorem exists_read {subject : String} {values : List Value} {before raws : List RawParameter}
    (h : values.foldlM (fun merged entry =>
      return mergeParameter merged (← rawParameter spec subject entry)) before = .ok raws) :
    ∃ entries, List.Forall₂ (Reads spec) values entries
      ∧ raws = entries.foldl mergeParameter before := by
  induction values generalizing before with
  | nil =>
      cases h
      exact ⟨[], .nil, rfl⟩
  | cons entry rest ih =>
      rw [List.foldlM_cons] at h
      obtain ⟨merged, hm, hrest⟩ := Attempt.bind_eq_ok.mp h
      obtain ⟨p, hp, hmerge⟩ := Attempt.bind_eq_ok.mp hm
      rw [Attempt.pure_eq_ok] at hmerge
      subst hmerge
      obtain ⟨entries, hread, hfold⟩ := ih hrest
      exact ⟨p :: entries, .cons (rawParameter_reads hp) hread, hfold⟩

/-- The entries of the path item and of the operation are read and merged. -/
theorem mergedParameters_ok {pathItem operation : Members} {subject : String}
    {raws : List RawParameter} (h : mergedParameters spec pathItem operation subject = .ok raws) :
    ∃ shared own entries, parameterEntries pathItem = .ok shared
      ∧ parameterEntries operation = .ok own ∧ List.Forall₂ (Reads spec) (shared ++ own) entries
      ∧ raws = entries.foldl mergeParameter [] := by
  obtain ⟨shared, hs, h⟩ := Attempt.bind_eq_ok.mp h
  obtain ⟨own, ho, h⟩ := Attempt.bind_eq_ok.mp h
  obtain ⟨entries, hread, hraws⟩ := exists_read h
  exact ⟨shared, own, entries, hs, ho, hread, hraws⟩

/-- A merged parameter has the members that an entry leads to. -/
theorem exists_entry {pathItem operation : Members} {subject : String}
    {raws : List RawParameter} (h : mergedParameters spec pathItem operation subject = .ok raws) :
    ∀ raw ∈ raws, ∃ entries entry,
      (parameterEntries pathItem = .ok entries ∨ parameterEntries operation = .ok entries)
        ∧ .map entry ∈ entries ∧ spec.Derefs entry raw.members := by
  obtain ⟨shared, own, entries, hs, ho, hread, rfl⟩ := mergedParameters_ok h
  intro raw hraw
  obtain ⟨p, hp, hmembers⟩ := mem_foldl_mergeParameter hraw
  obtain ⟨entry, he, hreads⟩ := Attempt.exists_of_forall₂ hread hp
  obtain ⟨members, rfl, hd⟩ := hreads.leads
  rw [hmembers]
  rcases List.mem_append.mp he with he | he
  · exact ⟨shared, members, .inl hs, he, Spec.derefs_of_deref hd⟩
  · exact ⟨own, members, .inr ho, he, Spec.derefs_of_deref hd⟩

/-- A parameter with what it is built from: its schema with the type of that. -/
structure BuiltFrom (g : Generator) (spec : Spec) (raw : RawParameter) (p : Parameter)
    (v : Value) (schema : Members) (type : TargetType) : Prop where
  read : parameterSchema raw.members = .ok v
  entries : v = .map schema
  resolved : Schema.resolve g (some spec) v = .ok type
  wireName : (Members.getD raw.members "name" .null).asStr? = some p.wireName
  name : p.name = g.target.fieldName p.wireName
  location : (Members.getD raw.members "in" .null).asStr? = some p.location.name
  required : p.required
    = ((Members.getD raw.members "required" (.bool false)).isTruthy || p.location = .path)
  typeName : p.type = type.name
  description : p.description = Members.getD raw.members "description" (.str "")
  default : g.target.defaultLiteral? schema type = some p.default
  imports : p.imports = type.imports

theorem locationOf_ok {subject : String} {name place : Value} {location : Location}
    (h : locationOf subject name place = .ok location) : place.asStr? = some location.name := by
  unfold locationOf at h
  split at h
  next found hfound =>
    cases h
    obtain ⟨s, hs, hname⟩ := Option.bind_eq_some_iff.mp hfound
    have hsame := List.find?_some hname
    rw [hs, decide_eq_true_eq.mp hsame]
  next => cases h

theorem buildParameter_ok {id : Value} {subject : String} {raw : RawParameter} {p : Parameter}
    (h : buildParameter g spec id subject raw = .ok p) :
    ∃ v schema type, BuiltFrom g spec raw p v schema type := by
  obtain ⟨location, hl, h⟩ := Attempt.bind_eq_ok.mp h
  obtain ⟨v, hv, h⟩ := Attempt.bind_eq_ok.mp h
  split at h
  next => cases h
  next =>
    obtain ⟨type, htype, h⟩ := Attempt.bind_eq_ok.mp h
    obtain ⟨wireName, hname, h⟩ := Attempt.bind_eq_ok.mp h
    obtain ⟨schema, hs, h⟩ := Attempt.bind_eq_ok.mp h
    obtain ⟨default, hd, h⟩ := Attempt.bind_eq_ok.mp h
    cases h
    exact ⟨v, schema, type, hv, Value.entries_ok hs, Schema.reframe_ok htype,
      Attempt.require_eq_ok.mp hname, rfl, locationOf_ok hl, rfl, rfl, rfl,
      Attempt.require_eq_ok.mp hd, rfl⟩

/-- The body of an operation that has one, as a parameter of the type of its content. -/
theorem buildBody_ok {id : Value} {operation : Members} {p : Parameter}
    (h : buildBody g spec id operation = .ok (some p)) :
    ∃ raw body v type, Members.get? operation "requestBody" = some (.map raw)
      ∧ spec.Derefs raw body
      ∧ contentSchema (Members.getD body "content" .null) = .ok v
      ∧ Schema.resolve g (some spec) v = .ok type
      ∧ p = {
          wireName := bodyName
          name := g.target.fieldName bodyName
          location := .body
          required := (Members.getD body "required" (.bool false)).isTruthy
          type := type.name
          description := Members.getD body "description" (.str "")
          default := type.default
          imports := type.imports } := by
  unfold buildBody at h
  dsimp only at h
  split at h
  next => cases h
  next htruthy =>
    obtain ⟨found, hd, h⟩ := Attempt.bind_eq_ok.mp h
    obtain ⟨body, hbody, h⟩ := Attempt.bind_eq_ok.mp h
    obtain ⟨v, hv, h⟩ := Attempt.bind_eq_ok.mp h
    rw [Value.entries_ok hbody] at hd
    split at h
    next => cases h
    next =>
      obtain ⟨type, htype, h⟩ := Attempt.bind_eq_ok.mp h
      cases h
      cases hraw : Members.get? operation "requestBody" with
      | none => simp [Members.getD, hraw, Value.isTruthy] at htruthy
      | some raw =>
          have hget : Members.getD operation "requestBody" .null = raw := by
            simp [Members.getD, hraw]
          rw [hget] at hd
          obtain ⟨members, rfl, hleads⟩ := Spec.derefs_of_derefValue hd
          exact ⟨members, body, v, type, rfl, hleads, hv, Schema.reframe_ok htype, rfl⟩

/-- A response without a type, or with that of its content. -/
theorem buildResponse_ok {id code raw : Value} {built : Response × List String}
    (h : buildResponse g spec id code raw = .ok built) :
    ∃ members v, responseMembers spec raw = .ok members
      ∧ contentSchema (Members.getD members "content" .null) = .ok v
      ∧ built.1.code = code.display
      ∧ built.1.description = Members.getD members "description" (.str "")
      ∧ ((built.1.type = none ∧ built.2 = [])
        ∨ ∃ type, Schema.resolve g (some spec) v = .ok type ∧ built.1.type = some type.name
          ∧ built.2 = type.imports) := by
  obtain ⟨members, hm, h⟩ := Attempt.bind_eq_ok.mp h
  obtain ⟨v, hv, h⟩ := Attempt.bind_eq_ok.mp h
  obtain ⟨type?, htype, h⟩ := Attempt.bind_eq_ok.mp h
  cases h
  refine ⟨members, v, hm, hv, rfl, rfl, ?_⟩
  unfold responseType at htype
  split at htype
  next =>
    cases htype
    exact .inl ⟨rfl, rfl⟩
  next =>
    obtain ⟨type, ht, htype⟩ := Attempt.map_eq_ok.mp htype
    subst htype
    exact .inr ⟨type, Schema.reframe_ok ht, rfl, rfl⟩

theorem buildResponses_ok {id : Value} {operation : Members}
    {built : List (Response × List String)} (h : buildResponses g spec id operation = .ok built) :
    ∀ b ∈ built, ∃ responses code raw, Members.get? operation "responses" = some (.map responses)
      ∧ (code, raw) ∈ responses ∧ buildResponse g spec id code raw = .ok b := by
  intro b hb
  unfold buildResponses at h
  dsimp only at h
  split at h
  next =>
    cases h
    cases hb
  next htruthy =>
    obtain ⟨responses, hr, h⟩ := Attempt.bind_eq_ok.mp h
    obtain ⟨⟨code, raw⟩, hm, hok⟩ := Attempt.exists_of_mem_mapM h hb
    have hv := Value.entries_ok hr
    cases hget : Members.get? operation "responses" with
    | none => simp [Members.getD, hget, Value.isTruthy] at htruthy
    | some v =>
        simp only [Members.getD, hget, Option.getD_some] at hv
        exact ⟨responses, code, raw, congrArg some hv, hm, hok⟩

/-- An operation with the parts that it is built from. -/
structure Parts (g : Generator) (spec : Spec) (path : Value) (method : String)
    (members item : Members) (op : Operation) (id : Value) (raws : List RawParameter)
    (declared : List Parameter) (body : Option Parameter)
    (responses : List (Response × List String)) : Prop where
  identified : identify path method members = .ok id
  merged : mergedParameters spec item members (Text.upper method ++ " " ++ path.display) = .ok raws
  parametersBuilt : List.Forall₂ (fun raw p =>
    buildParameter g spec id (Text.upper method ++ " " ++ path.display) raw = .ok p) raws declared
  bodyBuilt : buildBody g spec id members = .ok body
  oneBody : ((declared ++ body.toList).filter fun p => p.location = .body).length ≤ 1
  responsesBuilt : buildResponses g spec id members = .ok responses
  tagged : tagsOf members = .ok op.tags
  named : id.asStr? = some op.operationId
  grouped : groupOf path op.tags = .ok op.group
  assembled : op = {
    httpMethod := Text.upper method
    path
    operationId := op.operationId
    nickname := g.target.operationName op.operationId
    group := op.group
    parameters := orderParameters (declared ++ body.toList)
    responses := responses.map Prod.fst
    returnType := resultType g.target (responses.map Prod.fst)
    summary := Members.getD members "summary" (.str "")
    notes := Members.getD members "description" (.str "")
    tags := op.tags
    imports := Target.sortedSet ((declared ++ body.toList).flatMap Parameter.imports
      ++ responses.flatMap Prod.snd)
    deprecated := (Members.getD members "deprecated" (.bool false)).isTruthy }

theorem ofSlot_ok {path operation pathItem : Value} {method : String} {op : Operation}
    (h : ofSlot g spec path method operation pathItem = .ok op) :
    ∃ members item id raws declared body responses,
      operation = .map members ∧ (pathItem.orElse .emptyMap).entries = .ok item
      ∧ Parts g spec path method members item op id raws declared body responses := by
  unfold ofSlot at h
  dsimp only at h
  split at h
  next members =>
    obtain ⟨id, hid, h⟩ := Attempt.bind_eq_ok.mp h
    obtain ⟨item, hitem, h⟩ := Attempt.bind_eq_ok.mp h
    obtain ⟨raws, hraws, h⟩ := Attempt.bind_eq_ok.mp h
    obtain ⟨declared, hdeclared, h⟩ := Attempt.bind_eq_ok.mp h
    obtain ⟨body, hbody, h⟩ := Attempt.bind_eq_ok.mp h
    split at h
    next => cases h
    next hbodies =>
      obtain ⟨responses, hresponses, h⟩ := Attempt.bind_eq_ok.mp h
      obtain ⟨tags, htags, h⟩ := Attempt.bind_eq_ok.mp h
      obtain ⟨operationId, hoperationId, h⟩ := Attempt.bind_eq_ok.mp h
      obtain ⟨group, hgroup, h⟩ := Attempt.bind_eq_ok.mp h
      cases h
      exact ⟨members, item, id, raws, declared, body, responses, rfl, hitem, hid, hraws,
        Attempt.mapM_eq_ok.mp hdeclared, hbody, Nat.not_lt.mp hbodies, hresponses, htags,
        Attempt.require_eq_ok.mp hoperationId, hgroup, rfl⟩
  next => cases h

/-- What an operation imports, it imports for a type that it uses. -/
theorem ofSlot_imports {path pathItem : Value} {members : Members} {method : String}
    {op : Operation} (h : ofSlot g spec path method (.map members) pathItem = .ok op) :
    ∃ item, (pathItem.orElse .emptyMap).entries = .ok item
      ∧ ∀ s ∈ op.imports, ∃ v type, UsesType spec members item v
        ∧ Schema.resolve g (some spec) v = .ok type ∧ s ∈ type.imports := by
  obtain ⟨_, item, id, raws, declared, body, responses, hm, hitem, hp⟩ := ofSlot_ok h
  cases hm
  refine ⟨item, hitem, fun s hs => ?_⟩
  rw [hp.assembled] at hs
  rcases List.mem_append.mp (Target.mem_sortedSet.mp hs) with hs | hs
  · obtain ⟨p, hpin, hs⟩ := List.mem_flatMap.mp hs
    rcases List.mem_append.mp hpin with hpin | hpin
    · obtain ⟨raw, hraw, hbuilt⟩ := Attempt.exists_of_forall₂ hp.parametersBuilt hpin
      obtain ⟨v, schema, type, hfrom⟩ := buildParameter_ok hbuilt
      obtain ⟨entries, entry, hl, he, hd⟩ := exists_entry hp.merged raw hraw
      exact ⟨v, type, .parameter hl he hd hfrom.read, hfrom.resolved, hfrom.imports ▸ hs⟩
    · have hbody := hp.bodyBuilt
      rw [Option.mem_toList.mp hpin] at hbody
      obtain ⟨raw, found, v, type, hr, hd, hv, htype, rfl⟩ := buildBody_ok hbody
      exact ⟨v, type, .body hr hd hv, htype, hs⟩
  · obtain ⟨b, hb, hs⟩ := List.mem_flatMap.mp hs
    obtain ⟨entries, code, raw, hr, hc, hbuilt⟩ := buildResponses_ok hp.responsesBuilt b hb
    obtain ⟨found, v, hmembers, hv, -, -, ⟨-, hnone⟩ | ⟨type, htype, -, himports⟩⟩ :=
      buildResponse_ok hbuilt
    · rw [hnone] at hs
      cases hs
    · refine ⟨v, type, ?_, htype, himports ▸ hs⟩
      unfold responseMembers at hmembers
      split at hmembers
      next => exact .response hr hc (Spec.derefs_of_deref hmembers) hv
      next =>
        -- a response that is no mapping has no content, and so no type
        cases hmembers
        cases hv
        simp [Schema.resolve, Schema.typeWith, Schema.refuse] at htype

/-! ## Operations without lone halves -/

theorem isWhole_of_parameterEntries {members : Members} {entries : List Value}
    (hm : Members.AreWhole members) (h : parameterEntries members = .ok entries) :
    ∀ v ∈ entries, v.isWhole = true := by
  unfold parameterEntries at h
  dsimp only at h
  split at h
  · exact Value.isWhole_of_elements (hm.getD (by decide)) h
  · cases h
    simp

theorem isWhole_datum_parameter {p : Parameter} (hwire : Text.isWhole p.wireName = true)
    (hname : Text.isWhole p.name = true) (htype : Text.isWhole p.type = true)
    (hdescription : p.description.isWhole = true) (hdefault : Text.isWhole p.default = true)
    (himports : ∀ s ∈ p.imports, Text.isWhole s = true) : p.datum.isWhole = true := by
  refine Datum.isWhole_recordOf (by decide) (by simp only [List.map]; decide) ?_ ?_
  · simp only [List.map, List.forall_mem_cons, List.not_mem_nil, false_implies, implies_true,
      Datum.isWhole_str, Datum.isWhole_bool, Datum.isWhole_value, and_true, true_and]
    exact ⟨hwire, hname, by rw [Datum.isWhole], htype, hdescription, hdefault,
      Datum.isWhole_strs himports⟩
  · simp

theorem isWhole_buildParameter {id : Value} {subject : String} {raw : RawParameter}
    {p : Parameter} (ht : g.target.IsWhole) (hraw : Members.AreWhole raw.members)
    (h : buildParameter g spec id subject raw = .ok p) : p.datum.isWhole = true := by
  obtain ⟨v, schema, type, hp⟩ := buildParameter_ok h
  have htw := ht.resolve hp.resolved
  have hdescription : p.description.isWhole = true := hp.description ▸ hraw.getD (by decide)
  exact isWhole_datum_parameter (Value.isWhole_of_asStr? (hraw.getD (by decide)) hp.wireName)
    (hp.name ▸ ht.fieldName _) (hp.typeName ▸ htw.name) hdescription
    (ht.defaultLiteral? htw.default hp.default) (hp.imports ▸ htw.imports)

theorem isWhole_buildBody {id : Value} {operation : Members} {p : Parameter}
    (ht : g.target.IsWhole) (hspec : spec.IsWhole) (ho : Members.AreWhole operation)
    (h : buildBody g spec id operation = .ok (some p)) : p.datum.isWhole = true := by
  obtain ⟨raw, body, v, type, hr, hd, -, htype, rfl⟩ := buildBody_ok h
  have htw := ht.resolve htype
  have hbody : Members.AreWhole body := hspec.derefs (ho.get? hr) hd
  have hdescription : (Members.getD body "description" (.str "")).isWhole = true :=
    hbody.getD (by decide)
  exact isWhole_datum_parameter (show Text.isWhole bodyName = true by decide) (ht.fieldName _)
    htw.name hdescription htw.default htw.imports

theorem isWhole_buildResponse {id code raw : Value} {built : Response × List String}
    (ht : g.target.IsWhole) (hspec : spec.IsWhole) (hcode : code.isWhole = true)
    (hraw : raw.isWhole = true) (h : buildResponse g spec id code raw = .ok built) :
    built.1.datum.isWhole = true
      ∧ (∀ s, built.1.type = some s → Text.isWhole s = true) := by
  obtain ⟨members, v, hm, -, hc, hdesc, htype⟩ := buildResponse_ok h
  have hmembers : Members.AreWhole members := by
    unfold responseMembers at hm
    split at hm
    next => exact hspec.derefs hraw (Spec.derefs_of_deref hm)
    next =>
      cases hm
      exact show (Value.map []).isWhole = true by decide
  have hdescription : built.1.description.isWhole = true := hdesc ▸ hmembers.getD (by decide)
  have htypes : ∀ s, built.1.type = some s → Text.isWhole s = true := by
    intro s hs
    rcases htype with ⟨hnone, -⟩ | ⟨type, hok, hsome, -⟩
    · rw [hnone] at hs
      cases hs
    · rw [hsome] at hs
      cases hs
      exact (ht.resolve hok).name
  refine ⟨?_, htypes⟩
  refine Datum.isWhole_recordOf (by decide) (by simp only [List.map]; decide) ?_ ?_
  · simp only [List.map, List.forall_mem_cons, List.not_mem_nil, false_implies, implies_true,
      Datum.isWhole_str, Datum.isWhole_bool, Datum.isWhole_value, and_true]
    exact ⟨hc ▸ Value.isWhole_display hcode, hdescription, Datum.isWhole_ofText? htypes⟩
  · simp

theorem isWhole_resultType {t : Target} (ht : t.IsWhole) {responses : List Response}
    (h : ∀ r ∈ responses, ∀ s, r.type = some s → Text.isWhole s = true) :
    Text.isWhole (resultType t responses) = true := by
  have hfound : ∀ {typed : Response → Option String} {s : String},
      (∀ r s, typed r = some s → r.type = some s) → responses.findSome? typed = some s →
        Text.isWhole s = true := by
    intro typed s htyped hs
    obtain ⟨r, hr, hs⟩ := List.exists_of_findSome?_eq_some hs
    exact h r hr s (htyped r s hs)
  unfold resultType
  dsimp only
  rw [Option.orElse_eq_orElse, Option.orElse_eq_or]
  cases hres : Option.or _ _ with
  | none => exact ht.text _ (by simp [Target.texts])
  | some s =>
      rcases Option.or_eq_some_iff.mp hres with hs | ⟨-, hs⟩
      all_goals
        refine hfound (fun r s hr => ?_) hs
        split at hr
        · split at hr
          next type htype =>
            split at hr <;> cases hr
            exact htype
          next => cases hr
        · cases hr

/-- What templates see of an operation has no lone halves, nor have its group and its imports. -/
structure IsWhole (op : Operation) : Prop where
  httpMethod : Text.isWhole op.httpMethod = true
  path : op.path.isWhole = true
  operationId : Text.isWhole op.operationId = true
  nickname : Text.isWhole op.nickname = true
  group : op.group.isWhole = true
  parameters : ∀ p ∈ op.parameters, p.datum.isWhole = true
  responses : ∀ r ∈ op.responses, r.datum.isWhole = true
  returnType : Text.isWhole op.returnType = true
  summary : op.summary.isWhole = true
  notes : op.notes.isWhole = true
  tags : ∀ v ∈ op.tags, v.isWhole = true
  imports : ∀ s ∈ op.imports, Text.isWhole s = true

theorem IsWhole.datum {op : Operation} (h : op.IsWhole) : op.datum.isWhole = true := by
  have hparameters : (Datum.tuple (op.parameters.map Parameter.datum)).isWhole = true := by
    rw [Datum.isWhole_tuple]
    intro d hd
    obtain ⟨p, hp, rfl⟩ := List.mem_map.mp hd
    exact h.parameters p hp
  have hresponses : (Datum.tuple (op.responses.map Response.datum)).isWhole = true := by
    rw [Datum.isWhole_tuple]
    intro d hd
    obtain ⟨r, hr, rfl⟩ := List.mem_map.mp hd
    exact h.responses r hr
  refine Datum.isWhole_recordOf (by decide) (by simp only [List.map]; decide) ?_ ?_
  · simp only [List.map, List.forall_mem_cons, List.not_mem_nil, false_implies, implies_true,
      Datum.isWhole_str, Datum.isWhole_bool, Datum.isWhole_value, and_true]
    exact ⟨h.httpMethod, h.path, h.operationId, h.nickname, h.group, hparameters, hresponses,
      h.returnType, h.summary, h.notes, Datum.isWhole_ofValues h.tags,
      Datum.isWhole_strs h.imports⟩
  · simp only [List.map, List.forall_mem_cons, List.not_mem_nil, false_implies, implies_true,
      and_true]
    constructor
    · split
      next => rfl
      next p hp => exact h.parameters p (List.mem_of_find?_eq_some hp)
    · rw [Datum.isWhole]
      decide

theorem isWhole_identify {path : Value} {method : String} {members : Members} {id : Value}
    (hmethod : Text.isWhole method = true) (hm : Members.AreWhole members)
    (h : identify path method members = .ok id) : id.isWhole = true := by
  unfold identify at h
  dsimp only at h
  split at h
  · cases h
    exact hm.getD (by decide)
  · obtain ⟨text, -, h⟩ := Attempt.bind_eq_ok.mp h
    cases h
    rw [Value.isWhole_str]
    exact Naming.isWhole_operationId text hmethod

theorem isWhole_tagsOf {members : Members} {tags : List Value} (hm : Members.AreWhole members)
    (h : tagsOf members = .ok tags) : ∀ v ∈ tags, v.isWhole = true := by
  unfold tagsOf at h
  dsimp only at h
  split at h
  · exact Value.isWhole_of_elements (hm.getD (by decide)) h
  · cases h
    simp

theorem isWhole_groupOf {path group : Value} {tags : List Value} (hp : path.isWhole = true)
    (ht : ∀ v ∈ tags, v.isWhole = true) (h : groupOf path tags = .ok group) :
    group.isWhole = true := by
  unfold groupOf at h
  split at h
  next =>
    cases h
    exact ht _ List.mem_cons_self
  next =>
    obtain ⟨text, htext, h⟩ := Attempt.bind_eq_ok.mp h
    cases h
    rw [Value.isWhole_str]
    exact Naming.isWhole_pathGroup
      (Value.isWhole_of_asStr? hp (Attempt.require_eq_ok.mp htext))

/-- An operation of a document without lone halves has none. -/
theorem isWhole_ofSlot {path operation pathItem : Value} {method : String} {op : Operation}
    (ht : g.target.IsWhole) (hspec : spec.IsWhole) (hpath : path.isWhole = true)
    (hmethod : Text.isWhole method = true) (ho : operation.isWhole = true)
    (hi : pathItem.isWhole = true)
    (h : ofSlot g spec path method operation pathItem = .ok op) : op.IsWhole := by
  obtain ⟨members, item, id, raws, declared, body, responses, rfl, hitem, hp⟩ := ofSlot_ok h
  have hm : Members.AreWhole members := ho
  have hitems : Members.AreWhole item :=
    Value.areWhole_of_entries (Value.isWhole_orElse hi (by decide)) hitem
  have hraws : ∀ raw ∈ raws, Members.AreWhole raw.members := by
    intro raw hraw
    obtain ⟨entries, entry, hl, he, hd⟩ := exists_entry hp.merged raw hraw
    have hentries : ∀ v ∈ entries, v.isWhole = true := by
      rcases hl with hl | hl
      · exact isWhole_of_parameterEntries hitems hl
      · exact isWhole_of_parameterEntries hm hl
    exact hspec.derefs (hentries _ he) hd
  have hparameters : ∀ p ∈ declared ++ body.toList, p.datum.isWhole = true := by
    intro p hpin
    rcases List.mem_append.mp hpin with hpin | hpin
    · obtain ⟨raw, hraw, hbuilt⟩ := Attempt.exists_of_forall₂ hp.parametersBuilt hpin
      exact isWhole_buildParameter ht (hraws raw hraw) hbuilt
    · have hbody := hp.bodyBuilt
      rw [Option.mem_toList.mp hpin] at hbody
      exact isWhole_buildBody ht hspec hm hbody
  have hresponses : ∀ b ∈ responses, b.1.datum.isWhole = true
      ∧ (∀ s, b.1.type = some s → Text.isWhole s = true) := by
    intro b hb
    obtain ⟨entries, code, raw, hr, hc, hbuilt⟩ := buildResponses_ok hp.responsesBuilt b hb
    have hentry := Value.isWhole_map.mp (hm.get? hr) _ hc
    exact isWhole_buildResponse ht hspec hentry.1 hentry.2 hbuilt
  have hid := isWhole_identify hmethod hm hp.identified
  have htags := isWhole_tagsOf hm hp.tagged
  have himports : ∀ s ∈ op.imports, Text.isWhole s = true := by
    intro s hs
    obtain ⟨_, -, himports⟩ := ofSlot_imports h
    obtain ⟨v, type, -, htype, hs⟩ := himports s hs
    exact (ht.resolve htype).imports s hs
  have hdescription : ∀ key, (Members.getD members key (.str "")).isWhole = true :=
    fun key => hm.getD (by decide)
  rw [hp.assembled] at himports ⊢
  exact {
    httpMethod := Text.isWhole_upper hmethod
    path := hpath
    operationId := Value.isWhole_of_asStr? hid hp.named
    nickname := ht.operationName _
    group := isWhole_groupOf hpath htags hp.grouped
    parameters := by
      intro p hpin
      obtain ⟨l, -, hpin⟩ := List.mem_flatMap.mp hpin
      exact hparameters p (List.mem_filter.mp hpin).1
    responses := by
      intro r hr
      obtain ⟨b, hb, rfl⟩ := List.mem_map.mp hr
      exact (hresponses b hb).1
    returnType := by
      refine isWhole_resultType ht fun r hr => ?_
      obtain ⟨b, hb, rfl⟩ := List.mem_map.mp hr
      exact (hresponses b hb).2
    summary := hdescription _
    notes := hdescription _
    tags := htags
    imports := himports }

end ApiScaffold.Operation
