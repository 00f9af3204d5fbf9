import ApiScaffold.Output.Sink

/-!
# Writing into memory

Texts are put in order up to the first that holds a lone half, and a path that none of them has
keeps its text.

`putAll` gives paths their texts, one after the other, and `lookup_putAll_of_mem` and
`lookup_putAll_of_not_mem` say what is found under a path then. `writeAll_memory` reduces a writing
to it: what is in memory afterwards are the texts before the first that cannot be written, and the
writing fails exactly if there is one.
-/

namespace ApiScaffold.Sink

/-- Gives paths their texts, one after the other. -/
def putAll (files texts : List (String × String)) : List (String × String) :=
  texts.foldl (fun files t => putText files t.1 t.2) files

/-- Whether a text can be written: no character of it is a lone half. -/
def isWritable (t : String × String) : Bool := !t.2.any Text.isHalf

theorem isWritable_eq (t : String × String) :
    isWritable t = t.2.toList.all fun c => !Text.isHalf c := by
  have h : t.2.any Text.isHalf = t.2.toList.any Text.isHalf := String.contains_bool_eq
  rw [isWritable, h, List.not_any_eq_all_not]

theorem putAll_cons (files : List (String × String)) (t : String × String)
    (rest : List (String × String)) :
    putAll files (t :: rest) = putAll (putText files t.1 t.2) rest := rfl

theorem putText_ne_nil (files : List (String × String)) (path text : String) :
    putText files path text ≠ [] := by
  cases files with
  | nil => exact List.cons_ne_nil _ _
  | cons file rest =>
      rw [putText]
      split
      · exact List.cons_ne_nil _ _
      · exact List.cons_ne_nil _ _

theorem putAll_ne_nil {files texts : List (String × String)} (h : texts ≠ []) :
    putAll files texts ≠ [] := by
  induction texts generalizing files with
  | nil => exact absurd rfl h
  | cons t rest ih =>
      rw [putAll_cons]
      by_cases hr : rest = []
      · subst hr
        exact putText_ne_nil files t.1 t.2
      · exact ih hr

theorem lookup_putText (files : List (String × String)) (path text key : String) :
    (putText files path text).lookup key = if key = path then some text else files.lookup key := by
  induction files with
  | nil =>
      by_cases hk : key = path
      · simp [putText, hk]
      · have hb : (key == path) = false := by simpa using hk
        simp [putText, hk, List.lookup_cons, hb]
  | cons file rest ih =>
      obtain ⟨p, old⟩ := file
      by_cases hp : p = path
      · subst hp
        by_cases hk : key = p
        · simp [putText, hk]
        · have hb : (key == p) = false := by simpa using hk
          simp [putText, hk, List.lookup_cons, hb]
      · simp only [putText, if_neg hp]
        by_cases hk : key = p
        · subst hk
          simp [hp]
        · have hb : (key == p) = false := by simpa using hk
          simp only [List.lookup_cons, hb]
          exact ih

/-- A path that is not written keeps its text. -/
theorem lookup_putAll_of_not_mem {files texts : List (String × String)} {key : String}
    (h : key ∉ texts.map Prod.fst) : (putAll files texts).lookup key = files.lookup key := by
  induction texts generalizing files with
  | nil => rfl
  | cons t rest ih =>
      simp only [List.map_cons, List.mem_cons, not_or] at h
      rw [putAll_cons, ih h.2, lookup_putText, if_neg h.1]

/-- A path that is written once has the text that was written. -/
theorem lookup_putAll_of_mem {files texts : List (String × String)} {t : String × String}
    (hn : (texts.map Prod.fst).Nodup) (h : t ∈ texts) :
    (putAll files texts).lookup t.1 = some t.2 := by
  induction texts generalizing files with
  | nil => cases h
  | cons s rest ih =>
      simp only [List.map_cons, List.nodup_cons] at hn
      rw [putAll_cons]
      rcases List.mem_cons.mp h with rfl | h
      · rw [lookup_putAll_of_not_mem hn.1, lookup_putText, if_pos rfl]
      · exact ih hn.2 h

theorem write_memory (files : List (String × String)) (rules : IgnoreRules)
    (t : String × String) :
    (memory files rules).write t.1 t.2 =
      if isWritable t then (memory (putText files t.1 t.2) rules, pure ())
      else (memory files rules, Logged.ofAttempt (.error .unsuitable)) := by
  cases h : t.2.any Text.isHalf <;> simp [write, isWritable, h]

/-- What is in memory after texts were written, and what the writing came to. -/
theorem writeAll_memory (files : List (String × String)) (rules : IgnoreRules)
    (texts : List (String × String)) :
    ((memory files rules).writeAll texts).1
        = memory (putAll files (texts.takeWhile isWritable)) rules
      ∧ ((memory files rules).writeAll texts).2.result
        = if texts.all isWritable then .ok (texts.map Prod.fst) else .error .unsuitable := by
  induction texts generalizing files with
  | nil => exact ⟨rfl, rfl⟩
  | cons t rest ih =>
      obtain ⟨hs, hr⟩ := ih (putText files t.1 t.2)
      simp only [writeAll, write_memory, List.takeWhile_cons, List.all_cons]
      by_cases hw : isWritable t
      · simp only [hw, if_true, Bool.true_and, pure]
        refine ⟨hs, ?_⟩
        show (t.1 :: ·) <$> _ = _
        rw [hr]
        by_cases ha : rest.all isWritable = true
        · simp only [ha, if_true]
          rfl
        · simp only [ha]
          rfl
      · simp only [hw, Bool.false_eq_true, if_false, Bool.false_and]
        exact ⟨rfl, rfl⟩

end ApiScaffold.Sink
