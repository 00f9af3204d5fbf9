import ApiScaffold.Proofs.Naming.Words

/-!
# Ways through a document

Keys lead from the root of a document through mappings to a value (`Leads`). The reference that they
are written as, with each tilde replaced and then each slash (`reference`), resolves to the mapping
at the end of the way, and its last segment is read as the last key.

That holds for all keys: empty ones, those with slashes and those that look like escapes. The two
replacements are made one after the other over the whole key, and `toList_written` shows that one
pass over its characters does the same; reading undoes that pass segment by segment (`keys_ofKeys`).
-/

namespace ApiScaffold

namespace Pointer

/-- A text with another one in place of each occurrence of a character. -/
def replaceChar (c : Char) (new : List Char) (cs : List Char) : List Char :=
  cs.flatMap fun d => if d = c then new else [d]

/-- A key as a reference has it: with `~0` for each tilde, then with `~1` for each slash. -/
def written (key : String) : String :=
  String.ofList (replaceChar '/' "~1".toList (replaceChar '~' "~0".toList key.toList))

/-- The reference that keys are written as. -/
def reference (ks : List String) : String := "#/" ++ String.intercalate "/" (ks.map written)

/-- Keys lead through mappings from a value to another. -/
inductive Leads : Value → List String → Value → Prop
  | here (v : Value) : Leads v [] v
  | through {members : Members} {key : String} {next v : Value} {rest : List String}
      (h : Members.get? members key = some next) (hr : Leads next rest v) :
      Leads (.map members) (key :: rest) v

variable {ks : List String} {v w : Value}

theorem follow_eq_some : follow v ks = some w ↔ Leads v ks w := by
  constructor
  · intro h
    induction ks generalizing v with
    | nil =>
        cases h
        exact .here _
    | cons key rest ih =>
        rw [follow] at h
        split at h
        next next hnext =>
          cases v with
          | map members => exact .through hnext (ih h)
          | _ => cases hnext
        next => cases h
  · intro h
    induction h with
    | here => rfl
    | through h _ ih =>
        rw [follow, Value.get?, h]
        exact ih

/-! ## What keys are written as -/

/-- No slash comes in with the replacement of the tildes, so one pass does for both. -/
theorem toList_written (key : String) : (written key).toList = escape key.toList := by
  rw [written, String.toList_ofList]
  induction key.toList with
  | nil => rfl
  | cons c cs ih =>
      simp only [replaceChar, List.flatMap_cons, List.flatMap_append] at ih ⊢
      rw [escape, ih]
      by_cases htilde : c = '~'
      · simp [htilde]
      · by_cases hslash : c = '/' <;> simp [htilde, hslash]

theorem intercalate_eq_joinWith (sep : List Char) (pieces : List (List Char)) :
    sep.intercalate pieces = Text.joinWith sep pieces := by
  fun_induction Text.joinWith sep pieces with
  | case1 => rfl
  | case2 piece => simp
  | case3 piece pieces hne ih =>
      obtain ⟨next, rest, rfl⟩ := List.exists_cons_of_ne_nil hne
      rw [List.intercalate_cons_cons, ih, List.append_assoc]

theorem reference_eq_ofKeys (ks : List String) : reference ks = ofKeys ks := by
  have hpieces : (ks.map written).map String.toList = ks.map fun key => escape key.toList := by
    rw [List.map_map]
    exact List.map_congr_left fun key _ => toList_written key
  have hmark : "#/".toList = ['#', '/'] := by decide
  have hslash : "/".toList = ['/'] := by decide
  rw [← String.toList_inj, reference, ofKeys, String.toList_append, String.toList_intercalate,
    intercalate_eq_joinWith, hpieces, hmark, hslash, String.toList_ofList, List.cons_append,
    List.singleton_append]

/-! ## What is read from it -/

theorem body?_ofKeys (ks : List String) :
    body? (ofKeys ks) = some (Text.joinWith ['/'] (ks.map fun key => escape key.toList)) := by
  unfold body? ofKeys
  rw [String.toList_ofList]
  rfl

/-- A reference is read as the keys that it was written from. -/
theorem keys_ofKeys (hne : ks ≠ []) :
    keys (Text.joinWith ['/'] (ks.map fun key => escape key.toList)) = ks := by
  have hsegments : ∀ segment ∈ ks.map fun key => escape key.toList, '/' ∉ segment := by
    intro segment hs
    obtain ⟨key, -, rfl⟩ := List.mem_map.mp hs
    exact not_mem_escape key.toList
  rw [keys, Text.splitOn_joinWith (by simpa using hne) hsegments, List.map_map]
  simp [Function.comp_def, unescape_escape]

/-- The text behind the last separator is the last piece. -/
theorem afterLast_joinWith {sep : Char} {before : List Char} {pieces : List (List Char)}
    (hne : pieces ≠ []) (h : ∀ piece ∈ pieces, sep ∉ piece) :
    Text.afterLast sep (before ++ sep :: Text.joinWith [sep] pieces) = pieces.getLast hne := by
  induction pieces generalizing before with
  | nil => exact absurd rfl hne
  | cons piece rest ih =>
      obtain ⟨hpiece, hrest⟩ := List.forall_mem_cons.mp h
      cases rest with
      | nil => exact Text.afterLast_append_cons hpiece
      | cons next rest =>
          -- what is in front of the last piece plays no part
          have hsplit : before ++ sep :: Text.joinWith [sep] (piece :: next :: rest)
              = (before ++ sep :: piece) ++ sep :: Text.joinWith [sep] (next :: rest) := by
            simp [Text.joinWith]
          rw [hsplit, ih (List.cons_ne_nil _ _) hrest, List.getLast_cons (List.cons_ne_nil _ _)]

theorem lastKey_ofKeys (hne : ks ≠ []) : lastKey (ofKeys ks) = ks.getLast hne := by
  have hsegments : ∀ segment ∈ ks.map fun key => escape key.toList, '/' ∉ segment := by
    intro segment hs
    obtain ⟨key, -, rfl⟩ := List.mem_map.mp hs
    exact not_mem_escape key.toList
  have hlast : Text.afterLast '/' (ofKeys ks).toList = escape (ks.getLast hne).toList := by
    rw [ofKeys, String.toList_ofList, ← List.singleton_append,
      afterLast_joinWith (by simpa using hne) hsegments, List.getLast_map]
  rw [lastKey, hlast, unescape_escape, String.ofList_toList]

end Pointer

namespace Spec

open Pointer

/-- Keys written as a reference are read back. The reference resolves to the mapping to which the
keys lead from the root, and to nothing where they lead to none; it is named by its last key, and
the reference to a component by the component. -/
theorem resolve_reference (spec : Spec) {ks : List String} (hne : ks ≠ []) :
    (∀ target, spec.resolve (reference ks) = .ok target ↔ Leads spec.document ks (.map target))
      ∧ lastKey (reference ks) = ks.getLast hne
      ∧ ∀ name, schemaTarget? [(.str "$ref", .str ("#/components/schemas/" ++ written name))]
          = some name := by
  refine ⟨fun target => ?_, ?_, fun name => ?_⟩
  · rw [← follow_eq_some, Spec.resolve, resolveIn, reference_eq_ofKeys, body?_ofKeys]
    dsimp only
    rw [keys_ofKeys hne]
    split <;> simp_all
  · rw [reference_eq_ofKeys]
    exact lastKey_ofKeys hne
  · have hpointer : "#/components/schemas/" ++ written name = pointerTo name := by
      rw [← String.toList_inj, String.toList_append, toList_written, toList_pointerTo]
    rw [schemaTarget?, hpointer]
    simp only [Members.get?, if_true]
    rw [(namesComponent_pointerTo name).schemaNameOf?, lastKey_pointerTo]

/-- Keys that are empty, that hold slashes and that look like escapes lead to the contact of a
document. -/
theorem resolve_reference_contact :
    ["x/y", "~1", "", "~01"] ≠ [] ∧
      (Spec.mk [(.str "x/y", .map [(.str "~1", .map [(.str "", .map [(.str "~01",
        .map [(.str "name", .str "Ada")])])])])] "contact").resolve "#/x~1y/~01//~001"
        = .ok [(.str "name", .str "Ada")] := by
  have hne : ["x/y", "~1", "", "~01"] ≠ [] := by decide
  have hreference : reference ["x/y", "~1", "", "~01"] = "#/x~1y/~01//~001" := by decide
  refine ⟨hne, ?_⟩
  rw [← hreference]
  exact ((resolve_reference _ hne).1 _).mpr
    (.through rfl (.through rfl (.through rfl (.through rfl (.here _)))))

end Spec

end ApiScaffold
