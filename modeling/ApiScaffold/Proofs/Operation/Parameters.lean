import ApiScaffold.Proofs.Document.Key
import ApiScaffold.Proofs.Document.Rearranged
import ApiScaffold.Proofs.Operation.Build
import Mathlib.Data.List.Forall2
import Mathlib.Data.List.Induction

/-!
# The parameters of an operation

Entries of one name and location are one parameter, which stands where the first of them does and is
defined by the last; and the signature has the parameters by location, in each location in that
order.

* `overridden` says this of a list of entries at once. `foldl_mergeParameter` shows that merging
  entries one by one comes to it, by induction on the entries from the last, which is what the
  merging looks at.
* `orderParameters_eq_mergeSort`: the order of a signature is a stable sort by location, so that it
  has the parameters that are listed, none lost and none repeated (`IsSignature`).
* `ofSlot_parameters`: the parameters of an operation are the signature of its entries, those of the
  path item first, with the body at the end.
-/

namespace ApiScaffold.Operation

namespace RawParameter

/-- Entries that are one parameter: of one name and one location. -/
def isSame (p q : RawParameter) : Bool := p.name.keyEq q.name && p.location.keyEq q.location

variable {p q r : RawParameter}

theorem isSame_iff : p.isSame q = true ↔
    p.name.keyEq q.name = true ∧ p.location.keyEq q.location = true := Bool.and_eq_true_iff

theorem isSame_symm (h : p.isSame q = true) : q.isSame p = true := by
  rw [isSame_iff] at h ⊢
  exact ⟨Value.keyEq_symm h.1, Value.keyEq_symm h.2⟩

theorem isSame_trans (hpq : p.isSame q = true) (hqr : q.isSame r = true) :
    p.isSame r = true := by
  rw [isSame_iff] at hpq hqr ⊢
  exact ⟨Value.keyEq_trans hpq.1 hqr.1, Value.keyEq_trans hpq.2 hqr.2⟩

end RawParameter

open RawParameter

variable {p q : RawParameter} {entries merged : List RawParameter}

/-! ## One entry for each parameter -/

/-- The first entries of each name and location, in order. -/
def firsts : List RawParameter → List RawParameter
  | [] => []
  | p :: rest => p :: (firsts rest).filter fun q => !p.isSame q

/-- The last of the entries that are one parameter. -/
def latest (entries : List RawParameter) (p : RawParameter) : RawParameter :=
  (entries.filter fun q => p.isSame q).getLast?.getD p

/-- Entries with one for each parameter, in the place of the first with the definition of the last.
-/
def overridden (entries : List RawParameter) : List RawParameter :=
  (firsts entries).map fun p => { p with members := (latest entries p).members }

/-- No two entries are one parameter. -/
def AllDiffer (entries : List RawParameter) : Prop :=
  entries.Pairwise fun p q => p.isSame q = false

theorem allDiffer_firsts (entries : List RawParameter) : AllDiffer (firsts entries) := by
  induction entries with
  | nil => exact .nil
  | cons p rest ih =>
      refine .cons (fun q hq => ?_) (ih.sublist List.filter_sublist)
      simpa using (List.mem_filter.mp hq).2

theorem allDiffer_overridden (entries : List RawParameter) : AllDiffer (overridden entries) :=
  List.pairwise_map.mpr (allDiffer_firsts entries)

theorem firsts_subset (entries : List RawParameter) : firsts entries ⊆ entries := by
  induction entries with
  | nil => exact List.Subset.refl _
  | cons p rest ih =>
      exact List.cons_subset_cons _ (List.Subset.trans List.filter_sublist.subset ih)

/-- A parameter that is among entries is among the first ones. -/
theorem any_firsts (entries : List RawParameter) (p : RawParameter) :
    (firsts entries).any (·.isSame p) = entries.any (·.isSame p) := by
  rw [Bool.eq_iff_iff]
  constructor
  · intro h
    obtain ⟨q, hq, hsame⟩ := List.any_eq_true.mp h
    exact List.any_eq_true.mpr ⟨q, firsts_subset entries hq, hsame⟩
  · induction entries with
    | nil => exact id
    | cons q rest ih =>
        intro h
        rw [firsts, List.any_cons, Bool.or_eq_true]
        by_cases hq : q.isSame p = true
        · exact .inl hq
        · rw [List.any_cons, Bool.or_eq_true] at h
          obtain ⟨r, hr, hsame⟩ := List.any_eq_true.mp (ih (h.resolve_left hq))
          refine .inr (List.any_eq_true.mpr ⟨r, List.mem_filter.mpr ⟨hr, ?_⟩, hsame⟩)
          -- what is one parameter with the first of them would make that one with it as well
          rw [Bool.not_eq_true', Bool.eq_false_iff]
          exact fun hqr => hq (isSame_trans hqr hsame)

theorem firsts_concat (entries : List RawParameter) (p : RawParameter) :
    firsts (entries ++ [p])
      = if entries.any (·.isSame p) then firsts entries else firsts entries ++ [p] := by
  induction entries with
  | nil => rfl
  | cons q rest ih =>
      rw [List.cons_append, firsts, ih, List.any_cons, firsts]
      by_cases hrest : rest.any (·.isSame p) = true
      · rw [if_pos hrest, hrest, Bool.or_true, if_pos rfl]
      · rw [if_neg hrest, Bool.eq_false_iff.mpr hrest, Bool.or_false, List.filter_append]
        by_cases hq : q.isSame p = true
        · simp [hq]
        · simp [Bool.eq_false_iff.mpr hq]

theorem latest_concat (entries : List RawParameter) (p q : RawParameter) :
    latest (entries ++ [p]) q = if q.isSame p then p else latest entries q := by
  unfold latest
  rw [List.filter_append]
  by_cases h : q.isSame p = true
  · rw [if_pos h, List.filter_cons_of_pos h, List.filter_nil, List.getLast?_concat]
    rfl
  · rw [if_neg h, List.filter_cons_of_neg h, List.filter_nil, List.append_nil]

/-- Adding a parameter, where no two are one. -/
theorem mergeParameter_eq (h : AllDiffer merged) (p : RawParameter) :
    mergeParameter merged p = if merged.any (·.isSame p) then
        merged.map fun q => if q.isSame p then { q with members := p.members } else q
      else merged ++ [p] := by
  induction merged with
  | nil => rfl
  | cons q rest ih =>
      obtain ⟨hq, hrest⟩ := List.pairwise_cons.mp h
      rw [mergeParameter]
      by_cases hsame : q.isSame p = true
      · -- no later one is the parameter as well, as it would be one with the first
        have hothers : ∀ r ∈ rest, (if r.isSame p then { r with members := p.members } else r)
            = r := by
          intro r hr
          apply if_neg
          intro hrp
          have hqr := isSame_trans hsame (isSame_symm hrp)
          rw [hq r hr] at hqr
          cases hqr
        rw [List.any_cons, hsame, Bool.true_or, if_pos rfl, List.map_cons, if_pos hsame,
          List.map_congr_left hothers, List.map_id']
        exact if_pos hsame
      · have hcond : ¬(q.name.keyEq p.name && q.location.keyEq p.location) = true := hsame
        rw [if_neg hcond, ih hrest, List.any_cons, Bool.eq_false_iff.mpr hsame, Bool.false_or]
        split
        · rw [List.map_cons, if_neg hsame]
        · rfl

/-- Adding one more entry replaces the definition of its parameter, or puts the parameter at the
end. -/
theorem overridden_concat (entries : List RawParameter) (p : RawParameter) :
    overridden (entries ++ [p]) = mergeParameter (overridden entries) p := by
  have hany : (overridden entries).any (·.isSame p) = entries.any (·.isSame p) := by
    rw [overridden, List.any_map, ← any_firsts]
    rfl
  rw [mergeParameter_eq (allDiffer_overridden entries), hany]
  unfold overridden
  rw [firsts_concat]
  by_cases h : entries.any (·.isSame p) = true
  · rw [if_pos h, if_pos h, List.map_map]
    refine List.map_congr_left fun q hq => ?_
    rw [latest_concat]
    show _ = if q.isSame p then _ else _
    split <;> rfl
  · rw [if_neg h, if_neg h, List.map_append]
    have hother : ∀ q ∈ entries, q.isSame p = false := by
      intro q hq
      rw [Bool.eq_false_iff]
      exact fun hsame => h (List.any_eq_true.mpr ⟨q, hq, hsame⟩)
    congr 1
    · refine List.map_congr_left fun q hq => ?_
      rw [latest_concat, hother q (firsts_subset entries hq), if_neg Bool.false_ne_true]
    · have hnone : entries.filter (fun q => p.isSame q) = [] := by
        rw [List.filter_eq_nil_iff]
        intro q hq hsame
        have hback := isSame_symm hsame
        rw [hother q hq] at hback
        cases hback
      rw [List.map_singleton, latest_concat]
      have hself : latest entries p = p := by
        rw [latest, hnone]
        rfl
      rw [hself, ite_self]

/-- Merging entries one by one leaves one for each parameter, as they override each other. -/
theorem foldl_mergeParameter (entries : List RawParameter) :
    entries.foldl mergeParameter [] = overridden entries := by
  induction entries using List.reverseRecOn with
  | nil => rfl
  | append_singleton entries p ih =>
      rw [List.foldl_append, ih, List.foldl_cons, List.foldl_nil, overridden_concat]

/-! ## Building -/

variable {g : Generator} {spec : Spec} {subject : String} {id : Value}

/-- A parameter that is built from an entry, whose name and location it has. -/
structure BuiltAs (g : Generator) (spec : Spec) (id : Value) (subject : String)
    (raw : RawParameter) (p : Parameter) : Prop where
  built : buildParameter g spec id subject raw = .ok p
  name : raw.name = .str p.wireName
  location : raw.location = .str p.location.name

theorem mem_of_latest (h : p ∈ entries) : latest entries p ∈ entries := by
  unfold latest
  cases hl : (entries.filter fun q => p.isSame q).getLast? with
  | none => exact h
  | some q => exact (List.mem_filter.mp (List.mem_of_getLast? hl)).1

/-- A parameter has the name and the location of the entry that defines it. -/
theorem eq_str_of_latest {name place : String}
    (hn : (latest entries p).name = .str name) (hl : (latest entries p).location = .str place) :
    p.name = .str name ∧ p.location = .str place := by
  unfold latest at hn hl
  cases hq : (entries.filter fun q => p.isSame q).getLast? with
  | none =>
      rw [hq] at hn hl
      exact ⟨hn, hl⟩
  | some q =>
      rw [hq, Option.getD_some] at hn hl
      have hsame := isSame_iff.mp (List.mem_filter.mp (List.mem_of_getLast? hq)).2
      rw [hn, hl] at hsame
      exact ⟨Value.keyEq_str.mp hsame.1, Value.keyEq_str.mp hsame.2⟩

theorem builtAs_of_overridden {values : List Value} {raw : RawParameter} {p : Parameter}
    (hread : List.Forall₂ (Reads spec) values entries) (hraw : raw ∈ overridden entries)
    (h : buildParameter g spec id subject raw = .ok p) : BuiltAs g spec id subject raw p := by
  obtain ⟨first, hfirst, rfl⟩ := List.mem_map.mp hraw
  obtain ⟨v, schema, type, hfrom⟩ := buildParameter_ok h
  obtain ⟨entry, -, hdefines⟩ :=
    Attempt.exists_of_forall₂ hread (mem_of_latest (firsts_subset entries hfirst))
  have hname := hfrom.wireName
  have hlocation := hfrom.location
  simp only [Members.getD, hdefines.name, hdefines.location, Option.getD_some] at hname hlocation
  obtain ⟨hn, hl⟩ := eq_str_of_latest (Value.eq_str_of_asStr? hname)
    (Value.eq_str_of_asStr? hlocation)
  exact ⟨h, hn, hl⟩

/-- Parameters of different names or locations are built from entries that are different
parameters. -/
theorem nodup_of_builtAs {raws : List RawParameter} {declared : List Parameter}
    (h : List.Forall₂ (BuiltAs g spec id subject) raws declared) (hd : AllDiffer raws) :
    (declared.map fun p => (p.wireName, p.location)).Nodup := by
  induction h with
  | nil => exact List.nodup_nil
  | cons hp hrest ih =>
      obtain ⟨hfirst, hd⟩ := List.pairwise_cons.mp hd
      rw [List.map_cons, List.nodup_cons]
      refine ⟨fun hin => ?_, ih hd⟩
      obtain ⟨q, hq, heq⟩ := List.mem_map.mp hin
      obtain ⟨raw, hraw, hbuilt⟩ := Attempt.exists_of_forall₂ hrest hq
      obtain ⟨hname, hlocation⟩ := Prod.mk.inj heq
      have hother := hfirst raw hraw
      rw [Bool.eq_false_iff] at hother
      apply hother
      rw [isSame_iff, hp.name, hp.location, hbuilt.name, hbuilt.location, hname, hlocation]
      exact ⟨Value.keyEq_str.mpr rfl, Value.keyEq_str.mpr rfl⟩

/-! ## The order of a signature -/

/-- Whether a parameter stands in a signature no later than another, by location. -/
def noLater (p q : Parameter) : Bool := p.location.rank ≤ q.location.rank

theorem noLater_trans (p q r : Parameter) (hpq : noLater p q = true) (hqr : noLater q r = true) :
    noLater p r = true := by
  simp only [noLater, decide_eq_true_eq] at *
  omega

theorem noLater_total (p q : Parameter) : (noLater p q || noLater q p) = true := by
  simp only [noLater, Bool.or_eq_true, decide_eq_true_eq]
  omega

section

variable {listed params rest : List Parameter} {p : Parameter}

/-- What stands first in the order of locations stays first. -/
theorem orderParameters_cons (h : ∀ q ∈ rest, noLater p q = true) :
    orderParameters (p :: rest) = p :: orderParameters rest := by
  have hnone : ∀ l : Location, l.rank < p.location.rank →
      rest.filter (fun q => q.location = l) = [] := by
    intro l hl
    rw [List.filter_eq_nil_iff]
    intro q hq heq
    have hle := h q hq
    simp only [noLater, decide_eq_true_eq] at hle heq
    rw [heq] at hle
    omega
  unfold orderParameters Location.all
  simp only [List.flatMap_cons, List.flatMap_nil, List.filter_cons, List.append_nil]
  cases hl : p.location
  case header => simp
  case query => simp [hnone .header (by rw [hl]; decide)]
  case path => simp [hnone .header (by rw [hl]; decide), hnone .query (by rw [hl]; decide)]
  case cookie =>
    simp [hnone .header (by rw [hl]; decide), hnone .query (by rw [hl]; decide),
      hnone .path (by rw [hl]; decide)]
  case body =>
    simp [hnone .header (by rw [hl]; decide), hnone .query (by rw [hl]; decide),
      hnone .path (by rw [hl]; decide), hnone .cookie (by rw [hl]; decide)]

theorem orderParameters_of_pairwise (h : params.Pairwise fun p q => noLater p q = true) :
    orderParameters params = params := by
  induction params with
  | nil => rfl
  | cons p rest ih =>
      obtain ⟨hp, hrest⟩ := List.pairwise_cons.mp h
      rw [orderParameters_cons hp, ih hrest]

/-- Sorting keeps the parameters of one location in their order. -/
theorem filter_mergeSort (listed : List Parameter) (l : Location) :
    (listed.mergeSort noLater).filter (fun p => p.location = l)
      = listed.filter fun p => p.location = l := by
  have hblock : (listed.filter fun p => p.location = l).Pairwise
      fun p q => noLater p q = true := by
    refine List.pairwise_of_forall_mem_list fun p hp q hq => ?_
    have hpl := decide_eq_true_eq.mp (List.mem_filter.mp hp).2
    have hql := decide_eq_true_eq.mp (List.mem_filter.mp hq).2
    rw [noLater, hpl, hql]
    exact decide_eq_true (Nat.le_refl _)
  -- a subsequence of the same length is all of it
  have hsub := (List.sublist_mergeSort noLater_trans noLater_total hblock
    List.filter_sublist).filter fun p => p.location = l
  rw [List.filter_filter, List.filter_congr fun p _ => Bool.and_self _] at hsub
  exact (hsub.eq_of_length ((List.mergeSort_perm listed noLater).filter _).length_eq.symm).symm

/-- The order of a signature is a stable sort by location. -/
theorem orderParameters_eq_mergeSort (listed : List Parameter) :
    orderParameters listed = listed.mergeSort noLater := by
  have hsorted := List.pairwise_mergeSort noLater_trans noLater_total listed
  rw [← orderParameters_of_pairwise hsorted]
  unfold orderParameters
  congr 1
  funext l
  rw [filter_mergeSort]

/-- Parameters as a signature of what is listed: by location, in each location as they are listed,
none lost and none repeated; a body last, and what is part of the path required. -/
structure IsSignature (listed params : List Parameter) : Prop where
  blocks : params = listed.filter (fun p => p.location = .header)
    ++ listed.filter (fun p => p.location = .query) ++ listed.filter (fun p => p.location = .path)
    ++ listed.filter (fun p => p.location = .cookie) ++ listed.filter (fun p => p.location = .body)
  sorted : params = listed.mergeSort noLater
  perm : params.Perm listed
  body : ∀ p ∈ params, p.location = .body →
    ∃ front, params = front ++ [p] ∧ ∀ q ∈ front, q.location ≠ .body
  path : ∀ p ∈ params, p.location = .path → p.required = true

theorem orderParameters_eq_append (listed : List Parameter) : orderParameters listed
    = listed.filter (fun p => p.location = .header) ++ listed.filter (fun p => p.location = .query)
      ++ listed.filter (fun p => p.location = .path) ++ listed.filter (fun p => p.location = .cookie)
      ++ listed.filter (fun p => p.location = .body) := by
  simp [orderParameters, Location.all]

theorem isSignature_orderParameters
    (hbody : (listed.filter fun p => p.location = .body).length ≤ 1)
    (hpath : ∀ p ∈ listed, p.location = .path → p.required = true) :
    IsSignature listed (orderParameters listed) := by
  have hsorted := orderParameters_eq_mergeSort listed
  have hperm : (orderParameters listed).Perm listed :=
    hsorted ▸ List.mergeSort_perm listed noLater
  refine ⟨orderParameters_eq_append listed, hsorted, hperm, fun p hp hl => ?_,
    fun p hp => hpath p (hperm.mem_iff.mp hp)⟩
  have hin : p ∈ listed.filter fun p => p.location = .body :=
    List.mem_filter.mpr ⟨hperm.mem_iff.mp hp, decide_eq_true hl⟩
  -- the block of bodies, which comes last, is this one
  have hone : (listed.filter fun p => p.location = .body) = [p] := by
    obtain ⟨q, hq⟩ := List.length_eq_one_iff.mp
      (Nat.le_antisymm hbody (List.length_pos_of_mem hin))
    rw [hq] at hin ⊢
    rw [List.mem_singleton.mp hin]
  refine ⟨_, (orderParameters_eq_append listed).trans (by rw [hone]), fun q hq => ?_⟩
  simp only [List.mem_append, List.mem_filter, decide_eq_true_eq] at hq
  rcases hq with ((⟨-, h⟩ | ⟨-, h⟩) | ⟨-, h⟩) | ⟨-, h⟩ <;> simp [h]

end

/-- The parameters of an operation are the signature of its entries, those of the path first, with
one for each name and location, and of its body. -/
theorem ofSlot_parameters {path operation pathItem : Value} {method : String} {op : Operation}
    (h : ofSlot g spec path method operation pathItem = .ok op) :
    ∃ members item shared own entries id declared body,
      operation = .map members ∧ (pathItem.orElse .emptyMap).entries = .ok item
        ∧ parameterEntries item = .ok shared ∧ parameterEntries members = .ok own
        ∧ identify path method members = .ok id
        ∧ List.Forall₂ (Reads spec) (shared ++ own) entries
        ∧ List.Forall₂ (BuiltAs g spec id (Text.upper method ++ " " ++ path.display))
          (overridden entries) declared
        ∧ (declared.map fun p => (p.wireName, p.location)).Nodup
        ∧ buildBody g spec id members = .ok body
        ∧ IsSignature (declared ++ body.toList) op.parameters := by
  obtain ⟨members, item, id, raws, declared, body, responses, hop, hitem, hp⟩ := ofSlot_ok h
  obtain ⟨shared, own, entries, hshared, hown, hread, hraws⟩ := mergedParameters_ok hp.merged
  rw [foldl_mergeParameter] at hraws
  subst hraws
  have hmembers : ∀ raw ∈ overridden entries, raw ∈ overridden entries := fun _ hraw => hraw
  have hbuilt : List.Forall₂ (BuiltAs g spec id (Text.upper method ++ " " ++ path.display))
      (overridden entries) declared :=
    ((List.forall₂_and_left _ _).mpr ⟨hmembers, hp.parametersBuilt⟩).imp
      fun _ _ h => builtAs_of_overridden hread h.1 h.2
  refine ⟨members, item, shared, own, entries, id, declared, body, hop, hitem, hshared, hown,
    hp.identified, hread, hbuilt, nodup_of_builtAs hbuilt (allDiffer_overridden entries),
    hp.bodyBuilt, ?_⟩
  rw [hp.assembled]
  refine isSignature_orderParameters hp.oneBody fun p hin hl => ?_
  rcases List.mem_append.mp hin with hin | hin
  · obtain ⟨raw, -, hraw⟩ := Attempt.exists_of_forall₂ hp.parametersBuilt hin
    obtain ⟨v, schema, type, hfrom⟩ := buildParameter_ok hraw
    rw [hfrom.required, hl]
    simp
  · -- the parameter of a body is in no path
    have hbody := hp.bodyBuilt
    rw [Option.mem_toList.mp hin] at hbody
    obtain ⟨_, _, _, _, -, -, -, -, rfl⟩ := buildBody_ok hbody
    cases hl

/-- A parameter in a document, of a certain type. -/
def plainEntry (name place type : String) : Value :=
  .map [(.str "name", .str name), (.str "in", .str place),
    (.str "schema", .map [(.str "type", .str type)])]

/-- A path with parameters of its own. -/
def limitedItem : Members :=
  [(.str "parameters", .list [plainEntry "id" "path" "string", plainEntry "limit" "query" "integer",
    plainEntry "trace" "header" "string"])]

/-- An operation that overrides one of them in its place, adds one of the same name elsewhere and
has a body. -/
def limitedOperation : Members :=
  [(.str "parameters", .list [plainEntry "session" "cookie" "string",
      plainEntry "limit" "query" "string", plainEntry "limit" "header" "integer"]),
    (.str "requestBody", .map [(.str "content", .map [(.str "application/json",
      .map [(.str "schema", .map [(.str "type", .str "boolean")])])])])]

theorem ofSlot_parameters_limited : ∃ op,
    ofSlot (.ofTarget .jaxrsSpec []) .bare (.str "/pets") "post" (.map limitedOperation)
      (.map limitedItem) = .ok op
    ∧ op.parameters.map (fun p => (p.wireName, p.location.name, p.type, p.required))
      = [("trace", "header", "String", false), ("limit", "header", "Integer", false),
        ("limit", "query", "String", false), ("id", "path", "String", true),
        ("session", "cookie", "String", false), ("body", "body", "Boolean", false)]
    ∧ ∃ declared body, (declared.map fun p => (p.wireName, p.location)).Nodup
      ∧ IsSignature (declared ++ Option.toList body) op.parameters := by
  have hbuilt : (ofSlot (.ofTarget .jaxrsSpec []) .bare (.str "/pets") "post"
      (.map limitedOperation) (.map limitedItem)).toOption.map
        (fun op => op.parameters.map fun p => (p.wireName, p.location.name, p.type, p.required))
      = some [("trace", "header", "String", false), ("limit", "header", "Integer", false),
        ("limit", "query", "String", false), ("id", "path", "String", true),
        ("session", "cookie", "String", false), ("body", "body", "Boolean", false)] := by
    decide +kernel
  obtain ⟨op, hop, hnames⟩ := Attempt.exists_of_toOption_map hbuilt
  obtain ⟨_, _, _, _, _, _, declared, body, -, -, -, -, -, -, -, hnodup, -, hsignature⟩ :=
    ofSlot_parameters hop
  exact ⟨op, hop, hnames, declared, body, hnodup, hsignature⟩

end ApiScaffold.Operation
