import ApiScaffold.Document.Route
import ApiScaffold.Proofs.Document.Copy

/-!
# What a change at a route keeps

A change at the end of a route leaves the keys of all mappings on the way as they are. So it keeps
what the change itself keeps: that keys differ, rules about references, references of a kind. Texts
have no parts, so what stands under the key of references is changed only where a route ends there.

Copying and changing can be done in either order if the change does the same to a value and its
copy.
-/

namespace ApiScaffold

/-- What holds of all items and is kept by a change of one holds after the change. -/
theorem forall_mem_modify {α : Type} {p : α → Prop} {f : α → α} {xs : List α}
    (h : ∀ x ∈ xs, p x) (hf : ∀ x ∈ xs, p x → p (f x)) (n : Nat) : ∀ x ∈ xs.modify n f, p x := by
  intro x hx
  obtain ⟨i, hi⟩ := List.mem_iff_getElem?.mp hx
  rw [List.getElem?_modify] at hi
  obtain ⟨y, hy, hyx⟩ := Option.map_eq_some_iff.mp hi
  have hmem := List.mem_of_getElem? hy
  split at hyx
  · exact hyx ▸ hf y hmem (h y hmem)
  · exact hyx ▸ h y hmem

/-- Changing an item and then all, or all and then the item. -/
theorem map_modify {α β : Type} {f : α → α} {f' : β → β} {g : α → β}
    (h : ∀ x, g (f x) = f' (g x)) (xs : List α) (n : Nat) :
    (xs.modify n f).map g = (xs.map g).modify n f' := by
  induction xs generalizing n with
  | nil => cases n <;> rfl
  | cons x rest ih =>
      cases n with
      | zero => rw [List.modify_zero_cons, List.map_cons, List.map_cons, List.modify_zero_cons, h]
      | succ n =>
          rw [List.modify_succ_cons, List.map_cons, List.map_cons, List.modify_succ_cons, ih]

namespace Value

variable {order : SetOrder} {change : Value → Value} {v : Value}

/-- A change at a route through a text does nothing, unless the route ends there. -/
theorem changeAt_str (hchange : ∀ s, change (.str s) = .str s) (s : String) (route : Route) :
    (Value.str s).changeAt change route = .str s := by
  cases route with
  | nil => exact hchange s
  | cons => simp [changeAt]

/-- What a change makes of a value is a text only if the value is that text. -/
theorem eq_str_of_changeAt (hchange : ∀ x s, change x = .str s → x = .str s) {route : Route}
    {s : String} (h : v.changeAt change route = .str s) : v = .str s := by
  fun_cases Value.changeAt change route v with
  | case1 => exact hchange v s (by simpa [changeAt] using h)
  | case2 | case3 | case4 | case5 => simp [changeAt] at h
  | case6 n rest v => simpa [changeAt] using h

theorem IsRefRule.changeAt {P Q : Value → Prop} (h : IsRefRule P Q)
    (hP : ∀ x, P x → ∀ route, P (x.changeAt change route)) (hQ : ∀ x, Q x → Q (change x))
    {route : Route} (hv : Q v) : Q (v.changeAt change route) := by
  fun_induction Value.changeAt change route v with
  | case1 v => exact hQ v hv
  | case2 n rest items ih =>
      rw [h.list] at hv ⊢
      exact forall_mem_modify hv (fun x _ => ih x) n
  | case3 n rest members ih =>
      exact h.of_alongside (Members.alongside_modify (fun m _ => ⟨id, id⟩)
        (fun m _ => ⟨fun hp => hP m.2 hp rest, ih m⟩) n) hv
  | case4 rest a b ih => exact h.pair ih id hv
  | case5 rest a b ih => exact h.pair id ih hv
  | case6 => exact hv

theorem isWhole_changeAt (hchange : ∀ x, x.isWhole = true → (change x).isWhole = true)
    {route : Route} (hv : v.isWhole = true) : (v.changeAt change route).isWhole = true := by
  fun_induction Value.changeAt change route v with
  | case1 v => exact hchange v hv
  | case2 n rest items ih =>
      rw [isWhole_list] at hv ⊢
      exact forall_mem_modify hv (fun x _ => ih x) n
  | case3 n rest members ih =>
      rw [isWhole_map] at hv ⊢
      refine forall_mem_modify (f := fun m => (m.1, changeAt change rest m.2)) hv ?_ n
      exact fun m _ hm => ⟨hm.1, ih m hm.2⟩
  | case4 rest a b ih => exact isWhole_pair.mpr ((isWhole_pair.mp hv).imp_left ih)
  | case5 rest a b ih => exact isWhole_pair.mpr ((isWhole_pair.mp hv).imp_right ih)
  | case6 => exact hv

theorem CitesOnly.changeAt {P : String → Prop} (hstr : ∀ x s, change x = .str s → x = .str s)
    (hchange : ∀ x, x.CitesOnly P → (change x).CitesOnly P) {route : Route} (hv : v.CitesOnly P) :
    (v.changeAt change route).CitesOnly P := by
  fun_induction Value.changeAt change route v with
  | case1 v => exact hchange v hv
  | case2 n rest items ih =>
      exact citesOnly_list (forall_mem_modify (fun x hx => hv.of_list hx) (fun x _ => ih x) n)
  | case3 n rest members ih =>
      exact .of_alongside (Members.alongside_modify (fun m _ => ⟨fun _ => id, id⟩)
        (fun m _ => ⟨fun _ => eq_str_of_changeAt hstr, ih m⟩) n) hv
  | case4 | case5 => exact citesOnly_of_leaf (fun _ h => by cases h; rfl) (by simp)
  | case6 => exact hv

theorem copy_changeAt (hchange : ∀ x, (change x).copy order = change (x.copy order))
    (route : Route) (v : Value) :
    (v.changeAt change route).copy order = (v.copy order).changeAt change route := by
  fun_induction Value.changeAt change route v with
  | case1 v => simpa [Value.changeAt] using hchange v
  | case2 n rest items ih =>
      rw [copy_list, copy_list, Value.changeAt, map_modify ih]
  | case3 n rest members ih =>
      rw [copy_map, copy_map, Value.changeAt, copyMembers_eq, copyMembers_eq]
      exact congrArg Value.map (map_modify (fun m => congrArg (m.1, ·) (ih m)) members n)
  | case4 rest a b ih => rw [copy_pair, copy_pair, Value.changeAt, ih]
  | case5 rest a b ih => rw [copy_pair, copy_pair, Value.changeAt, ih]
  | case6 n rest v hlist hmap hfirst hsecond =>
      cases v with
      | list items => exact (hlist items rfl).elim
      | map members => exact (hmap members rfl).elim
      | pair a b =>
          have hfirst : n ≠ 0 := hfirst a b rfl
          have hsecond : n ≠ 1 := hsecond a b rfl
          obtain ⟨m, rfl⟩ : ∃ m, n = m + 2 := ⟨n - 2, by omega⟩
          simp [Value.changeAt]
      | _ => simp [Value.copy, Value.changeAt]

end Value

end ApiScaffold
