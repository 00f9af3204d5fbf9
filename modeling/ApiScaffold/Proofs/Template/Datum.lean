import ApiScaffold.Proofs.Document.Value
import ApiScaffold.Template.Datum
import ApiScaffold.Template.Markup

/-!
# Data without lone halves

The text of a datum without lone halves has none, nor have its fields and its items.

JSON text never has one, whatever the value is (`isWhole_json?`). For data `Datum.isWhole` goes
through the constructors, and there is a lemma for each way to take a datum apart: as a text
(`isWhole_display`), by a field (`isWhole_field`), by an item and as what a loop goes over
(`isWhole_items`).
-/

namespace ApiScaffold

open Text

/-! ## JSON -/

namespace Markup

theorem isWhole_quoted (s : String) : isWhole (quoted s) = true := by
  unfold quoted
  simp only [isWhole_ofList, List.cons_append, areWhole_cons, areWhole_append, areWhole_nil,
    and_true]
  refine ⟨by decide, areWhole_flatMap fun letter _ => ?_, by decide⟩
  refine areWhole_literalLetter letter fun c hk => ?_
  exact isHalf_of_isPlain (Bool.and_eq_true_iff.mp hk).1

theorem isWhole_number (x : Binary64) : isWhole (number x) = true := by
  cases x with
  | nan => decide
  | infinite negative => cases negative <;> decide
  | finite negative m e => exact Binary64.isWhole_text _

theorem isWhole_memberText {member : Value × String} {s : String}
    (hv : isWhole member.2 = true) (h : memberText member = some s) : isWhole s = true := by
  obtain ⟨name, -, rfl⟩ := Option.map_eq_some_iff.mp h
  rw [isWhole_append, isWhole_append]
  exact ⟨⟨isWhole_quoted name, by decide⟩, hv⟩

mutual

/-- JSON text has no lone halves, whatever the value is. -/
theorem isWhole_json? : ∀ (v : Value) (s : String), json? v = some s → isWhole s = true
  | .null => by
      intro s h
      rw [json?] at h
      cases h
      decide
  | .bool b => by
      intro s h
      rw [json?] at h
      cases h
      cases b <;> decide
  | .int n => by
      intro s h
      rw [json?] at h
      exact Value.isWhole_of_display? (v := .int n) (by simp [Value.isWhole]) h
  | .float x => by
      intro s h
      rw [json?] at h
      cases h
      exact isWhole_number x
  | .str t => by
      intro s h
      rw [json?] at h
      cases h
      exact isWhole_quoted t
  | .list items => by
      intro s h
      rw [json?] at h
      obtain ⟨texts, ht, hs⟩ := Option.bind_eq_some_iff.mp h
      cases hs
      rw [isWhole_append, isWhole_append]
      exact ⟨⟨by decide, isWhole_intercalate (by decide) (isWhole_itemTexts? items texts ht)⟩,
        by decide⟩
  | .pair a b => by
      intro s h
      rw [json?] at h
      obtain ⟨first, ha, h⟩ := Option.bind_eq_some_iff.mp h
      obtain ⟨second, hb, h⟩ := Option.bind_eq_some_iff.mp h
      cases h
      rw [isWhole_append, isWhole_append, isWhole_append, isWhole_append]
      exact ⟨⟨⟨⟨by decide, isWhole_json? a _ ha⟩, by decide⟩, isWhole_json? b _ hb⟩, by decide⟩
  | .map members => by
      intro s h
      rw [json?] at h
      obtain ⟨written, hw, h⟩ := Option.bind_eq_some_iff.mp h
      split at h
      · obtain ⟨texts, ht, hs⟩ := Option.bind_eq_some_iff.mp h
        cases hs
        rw [isWhole_append, isWhole_append]
        refine ⟨⟨by decide, isWhole_intercalate (by decide) fun t htm => ?_⟩, by decide⟩
        obtain ⟨m, hm, hmt⟩ := Attempt.exists_of_mem_mapM? ht htm
        exact isWhole_memberText (isWhole_memberTexts? members written hw m
          (List.mem_mergeSort.mp hm)) hmt
      · cases h
  | .bytes _ | .date _ | .moment _ | .set _ | .again _ => by
      intro s h
      rw [json?] at h
      cases h

theorem isWhole_itemTexts? : ∀ (items : List Value) (texts : List String),
    itemTexts? items = some texts → ∀ s ∈ texts, isWhole s = true
  | [], texts, h, s, hs => by
      rw [itemTexts?] at h
      cases h
      cases hs
  | x :: xs, texts, h, s, hs => by
      rw [itemTexts?] at h
      obtain ⟨text, ht, h⟩ := Option.bind_eq_some_iff.mp h
      obtain ⟨more, hm, h⟩ := Option.bind_eq_some_iff.mp h
      cases h
      rcases List.mem_cons.mp hs with rfl | hs
      · exact isWhole_json? x _ ht
      · exact isWhole_itemTexts? xs more hm s hs

theorem isWhole_memberTexts? : ∀ (members : List (Value × Value)) (written : List (Value × String)),
    memberTexts? members = some written → ∀ m ∈ written, isWhole m.2 = true
  | [], written, h, m, hm => by
      rw [memberTexts?] at h
      cases h
      cases hm
  | (k, v) :: rest, written, h, m, hm => by
      rw [memberTexts?] at h
      obtain ⟨text, ht, h⟩ := Option.bind_eq_some_iff.mp h
      obtain ⟨more, hmore, h⟩ := Option.bind_eq_some_iff.mp h
      cases h
      rcases List.mem_cons.mp hm with rfl | hm
      · exact isWhole_json? v _ ht
      · exact isWhole_memberTexts? rest more hmore m hm

end

end Markup

/-! ## Data -/

namespace Datum

mutual

/-- Whether no text in a datum has a lone half. -/
def isWhole : Datum → Bool
  | .value v => v.isWhole
  | .list items => itemsWhole items
  | .tuple items => itemsWhole items
  | .names xs => xs.all Text.isWhole
  | .options entries => List.all entries fun e => Text.isWhole e.1 && e.2.isWhole
  | .record kind shown derived => Text.isWhole kind && fieldsWhole shown && fieldsWhole derived
  | .operation kind text? => Text.isWhole kind && text?.all Text.isWhole
  | .location _ | .turn _ _ | .missing _ => true

def itemsWhole : List Datum → Bool
  | [] => true
  | d :: rest => isWhole d && itemsWhole rest

def fieldsWhole : List (String × Datum) → Bool
  | [] => true
  | (key, d) :: rest => Text.isWhole key && isWhole d && fieldsWhole rest

end

theorem itemsWhole_iff {items : List Datum} :
    itemsWhole items = true ↔ ∀ d ∈ items, d.isWhole = true := by
  induction items with
  | nil => exact iff_of_true rfl (by simp)
  | cons d rest ih =>
      show (d.isWhole && itemsWhole rest) = true ↔ _
      rw [Bool.and_eq_true, ih, List.forall_mem_cons]

theorem fieldsWhole_iff {fields : List (String × Datum)} :
    fieldsWhole fields = true ↔
      ∀ f ∈ fields, Text.isWhole f.1 = true ∧ f.2.isWhole = true := by
  induction fields with
  | nil => exact iff_of_true rfl (by simp)
  | cons f rest ih =>
      obtain ⟨key, d⟩ := f
      show (Text.isWhole key && d.isWhole && fieldsWhole rest) = true ↔ _
      rw [Bool.and_eq_true, Bool.and_eq_true, ih, List.forall_mem_cons]

@[simp] theorem isWhole_value {v : Value} : (Datum.value v).isWhole = v.isWhole := rfl

@[simp] theorem isWhole_str {s : String} : (str s).isWhole = Text.isWhole s :=
  isWhole_value.trans Value.isWhole_str

@[simp] theorem isWhole_bool {b : Bool} : (bool b).isWhole = true := rfl

@[simp] theorem isWhole_nat {n : Nat} : (nat n).isWhole = true := rfl

@[simp] theorem isWhole_list {items : List Datum} :
    (Datum.list items).isWhole = true ↔ ∀ d ∈ items, d.isWhole = true :=
  itemsWhole_iff

@[simp] theorem isWhole_tuple {items : List Datum} :
    (Datum.tuple items).isWhole = true ↔ ∀ d ∈ items, d.isWhole = true :=
  itemsWhole_iff

@[simp] theorem isWhole_names {xs : List String} :
    (Datum.names xs).isWhole = true ↔ ∀ s ∈ xs, Text.isWhole s = true :=
  List.all_eq_true

@[simp] theorem isWhole_options {entries : Options} :
    (Datum.options entries).isWhole = true ↔
      ∀ e ∈ entries, Text.isWhole e.1 = true ∧ e.2.isWhole = true := by
  show List.all entries (fun e => Text.isWhole e.1 && e.2.isWhole) = true ↔ _
  simp only [List.all_eq_true, Bool.and_eq_true]

@[simp] theorem isWhole_record {kind : String} {shown derived : List (String × Datum)} :
    (Datum.record kind shown derived).isWhole = true ↔
      Text.isWhole kind = true
        ∧ (∀ f ∈ shown, Text.isWhole f.1 = true ∧ f.2.isWhole = true)
        ∧ ∀ f ∈ derived, Text.isWhole f.1 = true ∧ f.2.isWhole = true := by
  show (Text.isWhole kind && fieldsWhole shown && fieldsWhole derived) = true ↔ _
  rw [Bool.and_eq_true, Bool.and_eq_true, fieldsWhole_iff, fieldsWhole_iff, and_assoc]

@[simp] theorem isWhole_missing {binding : MissingBinding} :
    (Datum.missing binding).isWhole = true := rfl

@[simp] theorem isWhole_turn {index length : Nat} : (Datum.turn index length).isWhole = true := rfl

theorem isWhole_constantOf (l : Location) : Text.isWhole (constantOf l) = true := by
  cases l <;> decide

theorem isWhole_quotedLocation (l : Location) : Text.isWhole (quotedLocation l) = true := by
  cases l <;> decide

theorem isWhole_shortKind {kind : String} (h : Text.isWhole kind = true) :
    Text.isWhole (shortKind kind) = true := by
  rw [shortKind, isWhole_ofList]
  exact (isWhole_iff.mp h).of_subset (afterLast_subset _ _)

mutual

theorem isWhole_quotedText :
    ∀ d : Datum, d.isWhole = true → Text.isWhole d.quotedText = true
  | .value v, _ => v.isWhole_quotedText
  | .list items, h => by
      have hitems := isWhole_quotedItems items (by rwa [isWhole] at h)
      show Text.isWhole ("[" ++ String.intercalate ", " (quotedItems items) ++ "]") = true
      rw [isWhole_append, isWhole_append]
      exact ⟨⟨by decide, isWhole_intercalate (by decide) hitems⟩, by decide⟩
  | .tuple items, h => by
      have hitems := isWhole_quotedItems items (by rwa [isWhole] at h)
      show Text.isWhole (match quotedItems items with
        | [single] => "(" ++ single ++ ",)"
        | parts => "(" ++ String.intercalate ", " parts ++ ")") = true
      split
      next single heq =>
        have hs := hitems single (by rw [heq]; exact List.mem_cons_self)
        rw [isWhole_append, isWhole_append]
        exact ⟨⟨by decide, hs⟩, by decide⟩
      next =>
        rw [isWhole_append, isWhole_append]
        exact ⟨⟨by decide, isWhole_intercalate (by decide) hitems⟩, by decide⟩
  | .names [], _ => by
      show Text.isWhole "frozenset()" = true
      decide
  | .names (x :: xs), _ => by
      show Text.isWhole ("frozenset(\x7b" ++
        String.intercalate ", " ((x :: xs).map Text.quoted) ++ "\x7d)") = true
      rw [isWhole_append, isWhole_append]
      refine ⟨⟨by decide, isWhole_intercalate (by decide) fun s hs => ?_⟩, by decide⟩
      obtain ⟨t, -, rfl⟩ := List.mem_map.mp hs
      exact isWhole_quoted t
  | .options entries, _ => by
      show Text.isWhole ("mappingproxy(" ++
        (Value.map (entries.map fun e => (.str e.1, e.2))).quotedText ++ ")") = true
      rw [isWhole_append, isWhole_append]
      exact ⟨⟨by decide, Value.isWhole_quotedText _⟩, by decide⟩
  | .location l, _ => isWhole_quotedLocation l
  | .record kind shown derived, h => by
      rw [isWhole, Bool.and_eq_true, Bool.and_eq_true] at h
      show Text.isWhole (shortKind kind ++ "(" ++
        String.intercalate ", " (quotedFields shown) ++ ")") = true
      rw [isWhole_append, isWhole_append, isWhole_append]
      exact ⟨⟨⟨isWhole_shortKind h.1.1, by decide⟩,
        isWhole_intercalate (by decide) (isWhole_quotedFields shown h.1.2)⟩, by decide⟩
  | .turn index length, _ => by
      show Text.isWhole ("<LoopContext " ++ toString (index + 1) ++ "/" ++ toString length
        ++ ">") = true
      simp only [isWhole_append, Nat.toString_eq_repr, isWhole_repr, and_true]
      decide
  | .operation kind text?, h => by
      rw [isWhole, Bool.and_eq_true] at h
      show Text.isWhole (text?.getD ("<" ++ kind ++ ">")) = true
      cases text? with
      | none =>
          rw [Option.getD_none, isWhole_append, isWhole_append]
          exact ⟨⟨by decide, h.1⟩, by decide⟩
      | some text => exact h.2
  | .missing _, _ => by
      show Text.isWhole "Undefined" = true
      decide

theorem isWhole_quotedItems :
    ∀ items : List Datum, itemsWhole items = true →
      ∀ s ∈ quotedItems items, Text.isWhole s = true
  | [], _ => by
      intro s hs
      cases hs
  | d :: rest, h => by
      rw [itemsWhole, Bool.and_eq_true] at h
      intro s hs
      rcases List.mem_cons.mp (show s ∈ quotedText d :: quotedItems rest from hs) with rfl | hs
      · exact isWhole_quotedText d h.1
      · exact isWhole_quotedItems rest h.2 s hs

theorem isWhole_quotedFields :
    ∀ fields : List (String × Datum), fieldsWhole fields = true →
      ∀ s ∈ quotedFields fields, Text.isWhole s = true
  | [], _ => by
      intro s hs
      cases hs
  | (key, d) :: rest, h => by
      rw [fieldsWhole, Bool.and_eq_true, Bool.and_eq_true] at h
      intro s hs
      rcases List.mem_cons.mp
        (show s ∈ (key ++ "=" ++ quotedText d) :: quotedFields rest from hs) with rfl | hs
      · rw [isWhole_append, isWhole_append]
        exact ⟨⟨h.1.1, by decide⟩, isWhole_quotedText d h.1.2⟩
      · exact isWhole_quotedFields rest h.2 s hs

end

theorem isWhole_display {d : Datum} {s : String} (h : d.isWhole = true)
    (hs : d.display = .ok s) : Text.isWhole s = true := by
  unfold display at hs
  split at hs
  next v =>
    split at hs
    next hv =>
      cases hs
      exact Value.isWhole_of_display? (by simpa using h) hv
    next => cases hs
  next l =>
    cases hs
    rw [isWhole_append]
    exact ⟨by decide, isWhole_constantOf l⟩
  next =>
    cases hs
    rfl
  next => cases hs
  next =>
    cases hs
    exact isWhole_quotedText d h

theorem isWhole_items {d : Datum} {ds : List Datum} (h : d.isWhole = true)
    (hd : d.items = .ok ds) : ∀ x ∈ ds, x.isWhole = true := by
  unfold items at hd
  split at hd
  next a b =>
    cases hd
    rw [isWhole_value, Value.isWhole_pair] at h
    intro x hx
    rcases List.mem_pair.mp hx with rfl | rfl
    · exact h.1
    · exact h.2
  next v =>
    split at hd
    next vs hv =>
      cases hd
      intro x hx
      obtain ⟨y, hy, rfl⟩ := List.mem_map.mp hx
      rw [isWhole_value] at h ⊢
      exact Value.isWhole_elements h hv y hy
    next => cases hd
  next =>
    cases hd
    exact isWhole_list.mp h
  next =>
    cases hd
    exact isWhole_tuple.mp h
  next xs =>
    cases hd
    intro x hx
    obtain ⟨s, hs, rfl⟩ := List.mem_map.mp hx
    rw [isWhole_str]
    exact isWhole_names.mp h s hs
  next entries =>
    cases hd
    intro x hx
    obtain ⟨e, he, rfl⟩ := List.mem_map.mp hx
    rw [isWhole_str]
    exact (isWhole_options.mp h e he).1
  next =>
    cases hd
    intro x hx
    cases hx
  next => cases hd
  next => cases hd

/-! ## Fields and items -/

theorem isWhole_numberPart? {v part : Value} {key : String} (h : numberPart? v key = some part) :
    part.isWhole = true := by
  unfold numberPart? at h
  split at h <;> cases h <;> simp [Value.isWhole]

theorem isWhole_turnField? {index length : Nat} {key : String} {d : Datum}
    (h : turnField? index length key = some d) : d.isWhole = true := by
  unfold turnField? at h
  split at h <;> cases h <;> first | exact isWhole_nat | exact isWhole_bool | skip
  all_goals
    rw [isWhole]
    decide

/-- What could be done with a datum has a fixed text. -/
theorem isWhole_operation {names : List String} {key : String} {d : Datum}
    (h : (if names.contains key then some (Datum.operation "builtin_function_or_method" none)
      else none) = some d) : d.isWhole = true := by
  split at h
  · cases h
    rw [isWhole]
    decide
  · cases h

theorem isWhole_own? {d e : Datum} {key : String} (h : d.isWhole = true)
    (he : d.own? key = some e) : e.isWhole = true := by
  unfold own? at he
  dsimp only at he
  split at he
  next v =>
    rcases Option.or_eq_some_iff.mp he with hp | ⟨-, ho⟩
    · obtain ⟨part, hpart, rfl⟩ := Option.map_eq_some_iff.mp hp
      rw [isWhole_value]
      exact isWhole_numberPart? hpart
    · exact isWhole_operation ho
  next => exact isWhole_operation he
  next => exact isWhole_operation he
  next => exact isWhole_operation he
  next => exact isWhole_operation he
  next l =>
    split at he
    · cases he
      cases l <;> decide
    · split at he
      · cases he
        cases l <;> decide
      · split at he
        · cases he
          exact isWhole_nat
        · cases he
  next kind shown derived =>
    obtain ⟨-, hshown, hderived⟩ := isWhole_record.mp h
    have hm := mem_of_lookup he
    rcases List.mem_append.mp hm with hm | hm
    · exact (hshown _ hm).2
    · exact (hderived _ hm).2
  next => exact isWhole_turnField? he
  next => cases he
  next => cases he

theorem isWhole_member? {d e : Datum} {key : String} (h : d.isWhole = true)
    (he : d.member? key = some e) : e.isWhole = true := by
  unfold member? at he
  split at he
  next v =>
    obtain ⟨w, hw, rfl⟩ := Option.map_eq_some_iff.mp he
    rw [isWhole_value] at h ⊢
    cases v with
    | map members => exact Members.AreWhole.get? h hw
    | _ => cases hw
  next entries =>
    obtain ⟨w, hw, rfl⟩ := Option.map_eq_some_iff.mp he
    rw [isWhole_value]
    exact (isWhole_options.mp h _ (mem_of_lookup hw)).2
  next => cases he

theorem isWhole_orMissing {d e : Datum} {key : String} {found : Option Datum}
    (h : ∀ x, found = some x → x.isWhole = true) (he : orMissing d key found = .ok e) :
    e.isWhole = true := by
  unfold orMissing at he
  split at he
  next => cases he
  next =>
    cases he
    cases hf : found with
    | none => exact isWhole_missing
    | some x => exact h x hf

theorem isWhole_field {d e : Datum} {key : String} (h : d.isWhole = true)
    (he : d.field key = .ok e) : e.isWhole = true := by
  refine isWhole_orMissing (fun x hx => ?_) he
  rcases Option.or_eq_some_iff.mp hx with ho | ⟨-, hm⟩
  · exact isWhole_own? h ho
  · exact isWhole_member? h hm

theorem mem_of_itemAt? {α : Type} {xs : List α} {index : Int} {x : α}
    (h : itemAt? xs index = some x) : x ∈ xs := by
  unfold itemAt? at h
  split at h
  · exact List.mem_of_getElem? h
  · split at h
    · exact List.mem_of_getElem? h
    · cases h

theorem isWhole_element? {d e : Datum} {v : Value} (h : d.isWhole = true)
    (he : d.element? v = some e) : e.isWhole = true := by
  unfold element? at he
  split at he
  next members =>
    obtain ⟨w, hw, rfl⟩ := Option.map_eq_some_iff.mp he
    rw [isWhole_value] at h ⊢
    exact Members.AreWhole.find? h hw
  next vs =>
    obtain ⟨index, -, he⟩ := Option.bind_eq_some_iff.mp he
    obtain ⟨w, hw, rfl⟩ := Option.map_eq_some_iff.mp he
    rw [isWhole_value] at h ⊢
    exact Value.isWhole_list.mp h w (mem_of_itemAt? hw)
  next a b =>
    obtain ⟨index, -, he⟩ := Option.bind_eq_some_iff.mp he
    obtain ⟨w, hw, rfl⟩ := Option.map_eq_some_iff.mp he
    rw [isWhole_value] at h ⊢
    rw [Value.isWhole_pair] at h
    rcases List.mem_pair.mp (mem_of_itemAt? hw) with rfl | rfl
    · exact h.1
    · exact h.2
  next s =>
    obtain ⟨index, -, he⟩ := Option.bind_eq_some_iff.mp he
    obtain ⟨letter, hletter, rfl⟩ := Option.map_eq_some_iff.mp he
    rw [isWhole_value, Value.isWhole_str, isWhole_iff] at h
    rw [isWhole_str, isWhole_ofList]
    exact h.of_subset (subset_of_mem_letters (mem_of_itemAt? hletter))
  next ds =>
    obtain ⟨index, -, he⟩ := Option.bind_eq_some_iff.mp he
    exact isWhole_list.mp h e (mem_of_itemAt? he)
  next ds =>
    obtain ⟨index, -, he⟩ := Option.bind_eq_some_iff.mp he
    exact isWhole_tuple.mp h e (mem_of_itemAt? he)
  next => cases he

theorem isWhole_item {d index e : Datum} (h : d.isWhole = true) (he : d.item index = .ok e) :
    e.isWhole = true := by
  unfold item at he
  split at he
  next => cases he
  next => cases he
  next key =>
    refine isWhole_orMissing (fun x hx => ?_) he
    rcases Option.or_eq_some_iff.mp hx with hm | ⟨-, ho⟩
    · exact isWhole_member? h hm
    · exact isWhole_own? h ho
  next _ v _ _ =>
    cases he
    cases hx : element? d v with
    | none => exact isWhole_missing
    | some x => exact isWhole_element? h hx
  next =>
    cases he
    exact isWhole_missing

end Datum

end ApiScaffold
