import ApiScaffold.Proofs.Spec

/-!
# References to components

References to component schemas by a single segment (`NamesComponent`), and what they point at: the
schema that the document has under the name of the component (`NamesComponent.resolve`).

The name is read from the last segment and the target is found by all three, so both are computed
here from the same splitting of the text. Every name has such a reference (`pointerTo`), whatever
characters it holds: a key is read back from the segment that it is written as (`unescape_escape`).
-/

namespace ApiScaffold

namespace Text

theorem splitOn_of_not_mem {sep : Char} {cs : List Char} (h : sep ∉ cs) :
    splitOn sep cs = [cs] := by
  induction cs with
  | nil => rfl
  | cons c cs ih =>
      rw [List.mem_cons, not_or] at h
      rw [splitOn, if_neg (Ne.symm h.1), ih h.2]

theorem splitOn_append_cons {sep : Char} {before after : List Char} (h : sep ∉ before) :
    splitOn sep (before ++ sep :: after) = before :: splitOn sep after := by
  induction before with
  | nil => rw [List.nil_append, splitOn, if_pos rfl]
  | cons c cs ih =>
      rw [List.mem_cons, not_or] at h
      rw [List.cons_append, splitOn, if_neg (Ne.symm h.1), ih h.2]

/-- A text with a separator has more than one piece. -/
theorem one_lt_length_splitOn {sep : Char} {cs : List Char} (h : sep ∈ cs) :
    1 < (splitOn sep cs).length := by
  have hpos : ∀ rest : List Char, 0 < (splitOn sep rest).length := by
    intro rest
    cases rest with
    | nil => exact Nat.one_pos
    | cons c rest =>
        rw [splitOn]
        split
        · exact Nat.succ_pos _
        · split <;> exact Nat.succ_pos _
  induction cs with
  | nil => cases h
  | cons c cs ih =>
      rw [splitOn]
      split
      next => exact Nat.succ_lt_succ (hpos cs)
      next hne =>
        have hrest := ih ((List.mem_cons.mp h).resolve_left fun he => hne he.symm)
        split
        next he =>
          rw [he] at hrest
          exact absurd hrest (Nat.not_lt_zero 1)
        next piece pieces he =>
          rw [he] at hrest
          exact hrest

theorem afterLast_append_cons {sep : Char} {before after : List Char} (h : sep ∉ after) :
    afterLast sep (before ++ sep :: after) = after := by
  have hrev : ∀ c ∈ after.reverse, decide (c ≠ sep) = true := by
    intro c hc
    have hne : c ≠ sep := fun he => h (he ▸ List.mem_reverse.mp hc)
    simpa using hne
  rw [afterLast, List.reverse_append, List.reverse_cons, List.append_assoc,
    List.takeWhile_append_of_pos hrev]
  simp

end Text

namespace Pointer

theorem not_mem_escape (cs : List Char) : '/' ∉ escape cs := by
  induction cs with
  | nil => simp [escape]
  | cons c cs ih =>
      rw [escape]
      split
      · simpa using ih
      · split
        · simpa using ih
        next hslash => simpa using ⟨fun h => hslash h.symm, ih⟩

theorem replacePair_cons_of_ne {a b c x : Char} (h : x ≠ a) (cs : List Char) :
    Text.replacePair a b c (x :: cs) = x :: Text.replacePair a b c cs := by
  cases cs with
  | nil => rfl
  | cons y cs => rw [Text.replacePair, if_neg fun he => h he.1]

/-- A key is read from the segment that it is written as. -/
theorem unescape_escape (cs : List Char) : unescape (escape cs) = cs := by
  rw [unescape]
  induction cs with
  | nil => rfl
  | cons c cs ih =>
      rw [escape]
      split
      next htilde =>
        have hzero : '0' ≠ '~' := by decide
        rw [Text.replacePair, if_neg (by simp), replacePair_cons_of_ne hzero, Text.replacePair,
          if_pos (by simp), ih, htilde]
      next htilde =>
        split
        next hslash =>
          have hmark : '/' ≠ '~' := by decide
          rw [Text.replacePair, if_pos (by simp), replacePair_cons_of_ne hmark, ih, hslash]
        next => rw [replacePair_cons_of_ne htilde, replacePair_cons_of_ne htilde, ih]

end Pointer

namespace Spec

/-- A reference points at the same in documents that have the same where its keys lead. -/
theorem resolve_congr {a b : Spec} {reference : String} {body : List Char}
    (hbody : Pointer.body? reference = some body)
    (h : Pointer.follow a.document (Pointer.keys body)
      = Pointer.follow b.document (Pointer.keys body)) :
    a.resolve reference = b.resolve reference := by
  rw [Spec.resolve, Spec.resolve, resolveIn, resolveIn, hbody]
  dsimp only
  rw [h]

/-- A reference that names a component schema by a single segment. -/
def NamesComponent (reference : String) : Prop :=
  ∃ segment : List Char, '/' ∉ segment
    ∧ reference.toList = "#/components/schemas/".toList ++ segment

/-- The keys of a reference to a component, the last of which is its name. -/
theorem NamesComponent.keys {reference : String} (h : NamesComponent reference) :
    ∃ body, Pointer.body? reference = some body
      ∧ Pointer.keys body = ["components", "schemas", Pointer.lastKey reference] := by
  obtain ⟨segment, hs, hr⟩ := h
  have hbody : Pointer.body? reference
      = some ("components".toList ++ '/' :: ("schemas".toList ++ '/' :: segment)) := by
    unfold Pointer.body?
    rw [hr]
    rfl
  have hlast : Text.afterLast '/' reference.toList = segment := by
    have hsplit : "#/components/schemas/".toList = "#/components/schemas".toList ++ ['/'] := by
      decide
    rw [hr, hsplit, List.append_assoc, List.singleton_append, Text.afterLast_append_cons hs]
  refine ⟨"components".toList ++ '/' :: ("schemas".toList ++ '/' :: segment), hbody, ?_⟩
  rw [Pointer.keys, Text.splitOn_append_cons (by decide), Text.splitOn_append_cons (by decide),
    Text.splitOn_of_not_mem hs, Pointer.lastKey, hlast]
  rfl

theorem NamesComponent.schemaNameOf? {reference : String} (h : NamesComponent reference) :
    Spec.schemaNameOf? reference = some (Pointer.lastKey reference) := by
  obtain ⟨segment, -, hr⟩ := h
  have hstarts : reference.startsWith schemaPrefix = true := by
    rw [String.startsWith_string_iff, hr]
    exact List.prefix_append _ _
  rw [Spec.schemaNameOf?, if_pos hstarts]

/-- The reference to a component. -/
def pointerTo (name : String) : String := Pointer.ofKeys ["components", "schemas", name]

theorem toList_pointerTo (name : String) :
    (pointerTo name).toList = "#/components/schemas/".toList ++ Pointer.escape name.toList := by
  have hc : Pointer.escape "components".toList = "components".toList := by decide
  have hs : Pointer.escape "schemas".toList = "schemas".toList := by decide
  simp only [pointerTo, Pointer.ofKeys, List.map_cons, List.map_nil, hc, hs, Text.joinWith,
    String.toList_ofList]
  rfl

theorem namesComponent_pointerTo (name : String) : NamesComponent (pointerTo name) :=
  ⟨_, Pointer.not_mem_escape _, toList_pointerTo name⟩

theorem lastKey_pointerTo (name : String) : Pointer.lastKey (pointerTo name) = name := by
  have hsplit : "#/components/schemas/".toList = "#/components/schemas".toList ++ ['/'] := by
    decide
  rw [Pointer.lastKey, toList_pointerTo, hsplit, List.append_assoc, List.singleton_append,
    Text.afterLast_append_cons (Pointer.not_mem_escape _), Pointer.unescape_escape,
    String.ofList_toList]

theorem schemas_of_get? {spec : Spec} {parts : Members} {schemas : Members}
    (hp : Members.get? spec.members "components" = some (.map parts))
    (hs : Members.get? parts "schemas" = some (.map schemas)) :
    spec.schemas = .ok (.map schemas) := by
  have hparts : (Value.map parts).isTruthy = true := by
    cases parts with
    | nil => cases hs
    | cons _ _ => rfl
  simp only [Spec.schemas, Members.getD, hp, Option.getD_some, Value.orElse, hparts, if_true,
    Value.member, hs, Attempt.bind_eq_ok, Except.ok.injEq]
  exact ⟨_, rfl, congrArg Except.ok (Value.orElse_map schemas)⟩

theorem get?_eq_of_getD {members : Members} {key : String} {v : Value}
    (h : Members.getD members key .null = v) (hv : v ≠ .null) :
    Members.get? members key = some v := by
  rw [Members.getD] at h
  cases hg : Members.get? members key with
  | none =>
      rw [hg] at h
      exact absurd h.symm hv
  | some found =>
      rw [hg] at h
      exact congrArg some h

/-- A document with component schemas has them where references look for them. -/
theorem get?_of_schemas {spec : Spec} {schemas : Members} (h : spec.schemas = .ok (.map schemas))
    (hn : schemas ≠ []) : ∃ parts, Members.get? spec.members "components" = some (.map parts)
      ∧ Members.get? parts "schemas" = some (.map schemas) := by
  have horElse : ∀ {w : Value} {inner : Members}, inner ≠ [] → w.orElse .emptyMap = .map inner →
      w = .map inner := by
    intro w inner hinner hw
    rw [Value.orElse] at hw
    split at hw
    · exact hw
    · cases hw
      exact absurd rfl hinner
  obtain ⟨found, hf, h⟩ := Attempt.bind_eq_ok.mp h
  have hfound := horElse hn (Except.ok.inj h)
  unfold Value.member at hf
  split at hf
  next parts hp =>
    have hget := get?_eq_of_getD ((Except.ok.inj hf).trans hfound) (by simp)
    have hparts : parts ≠ [] := by
      rintro rfl
      cases hget
    exact ⟨parts, get?_eq_of_getD (horElse hparts hp) (by simp), hget⟩
  next => cases hf

/-- The way of three keys to a component leads to what the component schemas have under its name. -/
theorem schemas_of_follow {spec : Spec} {name : String} {v : Value}
    (h : Pointer.follow spec.document ["components", "schemas", name] = some v) :
    ∃ schemas, spec.schemas = .ok (.map schemas) ∧ Members.get? schemas name = some v := by
  simp only [Pointer.follow, document, Value.get?] at h
  split at h
  next parts hp =>
    split at h
    next found hs =>
      split at h
      next w hv =>
        cases h
        cases parts with
        | map parts =>
            cases found with
            | map schemas => exact ⟨schemas, schemas_of_get? hp hs, hv⟩
            | _ => cases hv
        | _ => cases hs
      next => cases h
    next => cases h
  next => cases h

/-- A reference to a component points at its schema. -/
theorem NamesComponent.resolve {spec : Spec} {reference : String} {target : Members}
    (h : NamesComponent reference) (hr : spec.resolve reference = .ok target) :
    ∃ schemas, spec.schemas = .ok (.map schemas)
      ∧ Members.get? schemas (Pointer.lastKey reference) = some (.map target) := by
  obtain ⟨body, hb, hk⟩ := h.keys
  unfold Spec.resolve resolveIn at hr
  rw [hb] at hr
  dsimp only at hr
  rw [hk] at hr
  split at hr
  next => cases hr
  next hf =>
    cases hr
    exact schemas_of_follow hf
  next => cases hr

end Spec

end ApiScaffold
