import ApiScaffold.Generator.Lifecycle
import ApiScaffold.Proofs.Target.Names
import ApiScaffold.Proofs.Run.Context

/-!
# Settings without lone halves

Options whose names and values have no lone halves (`Options.AreWhole`) make settings without any
(`Settings.IsWhole`), since settings hold the texts of options and texts that the library puts
around them; and the normal form of a document without lone halves has none (`areWhole_normalize`).
-/

namespace ApiScaffold

namespace Options

/-- Whether neither the names nor the values of options have lone halves. -/
def AreWhole (options : Options) : Prop :=
  ∀ o ∈ options, Text.isWhole o.1 = true ∧ o.2.isWhole = true

theorem AreWhole.set {options : Options} {key : String} {value : Value} (h : AreWhole options)
    (hkey : Text.isWhole key = true) (hvalue : value.isWhole = true) :
    AreWhole (options.set key value) := by
  induction options with
  | nil =>
      intro o ho
      rw [List.mem_singleton.mp ho]
      exact ⟨hkey, hvalue⟩
  | cons o rest ih =>
      obtain ⟨k, old⟩ := o
      have hrest : AreWhole rest := fun o ho => h o (List.mem_cons_of_mem _ ho)
      have hfirst := h (k, old) List.mem_cons_self
      rw [Options.set]
      split
      · exact List.forall_mem_cons.mpr ⟨⟨hfirst.1, hvalue⟩, hrest⟩
      · exact List.forall_mem_cons.mpr ⟨hfirst, ih hrest⟩

theorem AreWhole.merge {base winning : Options} (hb : AreWhole base) (hw : AreWhole winning) :
    AreWhole (base.merge winning) := by
  unfold Options.merge
  induction winning generalizing base with
  | nil => exact hb
  | cons o rest ih =>
      have hfirst := hw o List.mem_cons_self
      exact ih (hb.set hfirst.1 hfirst.2) fun o ho => hw o (List.mem_cons_of_mem _ ho)

theorem areWhole_defaultsOf {t : Target} (ht : t.IsWhole) : AreWhole (defaultsOf t) := by
  refine AreWhole.merge ?_ ht.defaults
  show ∀ o ∈ common, _
  decide

theorem isWhole_text {value : Value} {s : String} (hv : value.isWhole = true)
    (h : text value = .ok s) : Text.isWhole s = true :=
  Value.isWhole_of_display? hv (Attempt.require_eq_ok.mp h)

theorem AreWhole.get? {options : Options} {key : String} {value : Value} (h : AreWhole options)
    (hv : options.get? key = some value) : value.isWhole = true :=
  (h _ (mem_of_lookup hv)).2

end Options

namespace Settings

/-- What templates see of settings has no lone halves. -/
structure IsWhole (s : Settings) : Prop where
  datum : s.datum.isWhole = true
  baseName : Text.isWhole s.baseName = true

theorem isWhole_artifactOf {t : Target} {baseName : String} (ht : t.IsWhole)
    (hb : Text.isWhole baseName = true) (interfaceOnly : Bool) :
    Text.isWhole (artifactOf t baseName interfaceOnly) = true := by
  unfold artifactOf
  split
  next => exact hb
  next suffixes hs =>
    refine Text.isWhole_append.mpr ⟨hb, ?_⟩
    have hall : ∀ s ∈ t.artifactSuffixes.toList.flatMap (fun s => [s.server, s.client]),
        Text.isWhole s = true := fun s hs => ht.text s (by simp only [Target.texts]; simp [hs])
    rw [hs] at hall
    split
    · exact hall _ (by simp)
    · exact hall _ (by simp)

theorem isWhole_ofOptions {t : Target} {merged : Options} {s : Settings} (ht : t.IsWhole)
    (hm : merged.AreWhole) (h : ofOptions t merged = .ok s) : s.IsWhole := by
  have htext : ∀ {key s}, Options.text ((merged.get? key).getD .null) = .ok s →
      Text.isWhole s = true := by
    intro key s hs
    refine Options.isWhole_text ?_ hs
    cases hv : merged.get? key with
    | none => decide
    | some v => exact hm.get? hv
  obtain ⟨interfaceOnly, -, h⟩ := Attempt.bind_eq_ok.mp h
  obtain ⟨baseName, hbase, h⟩ := Attempt.bind_eq_ok.mp h
  obtain ⟨artifactId, hartifact, h⟩ := Attempt.bind_eq_ok.mp h
  obtain ⟨artifactVersion, hversion, h⟩ := Attempt.bind_eq_ok.mp h
  obtain ⟨groupId, hgroup, h⟩ := Attempt.bind_eq_ok.mp h
  obtain ⟨includeBuildDescriptor, -, h⟩ := Attempt.bind_eq_ok.mp h
  obtain ⟨sourceFolder, hsource, h⟩ := Attempt.bind_eq_ok.mp h
  obtain ⟨apiPackage, hapi, h⟩ := Attempt.bind_eq_ok.mp h
  obtain ⟨modelPackage, hmodel, h⟩ := Attempt.bind_eq_ok.mp h
  obtain ⟨invokerPackage, hinvoker, h⟩ := Attempt.bind_eq_ok.mp h
  obtain ⟨packageName, hpackage, h⟩ := Attempt.bind_eq_ok.mp h
  obtain ⟨permissiveTypes, -, h⟩ := Attempt.bind_eq_ok.mp h
  obtain ⟨generateModels, -, h⟩ := Attempt.bind_eq_ok.mp h
  obtain ⟨generateApis, -, h⟩ := Attempt.bind_eq_ok.mp h
  obtain ⟨generateSupportingFiles, -, h⟩ := Attempt.bind_eq_ok.mp h
  obtain ⟨workers, -, h⟩ := Attempt.bind_eq_ok.mp h
  cases h
  have hid : Text.isWhole artifactId = true := by
    unfold readArtifact at hartifact
    split at hartifact
    · exact htext hartifact
    · exact Except.ok.inj hartifact ▸ isWhole_artifactOf ht (htext hbase) interfaceOnly
  have hextra : (Datum.options (merged.filter
      fun option => !Options.known.contains option.1)).isWhole = true := by
    rw [Datum.isWhole_options]
    exact fun o ho => hm o (List.mem_filter.mp ho).1
  refine ⟨?_, htext hbase⟩
  refine Datum.isWhole_recordOf (by decide) (by simp only [List.map]; decide) ?_ ?_
  · simp only [List.map, List.forall_mem_cons, List.not_mem_nil, false_implies, implies_true,
      Datum.isWhole_str, Datum.isWhole_bool, Datum.isWhole_value, and_true, true_and]
    exact ⟨ht.text _ (by simp [Target.texts]), htext hbase, hid, htext hversion, htext hgroup,
      Text.isWhole_trimSlashes (htext hsource), htext hapi, htext hmodel, htext hinvoker,
      htext hpackage, rfl, hextra⟩
  · simp

end Settings

namespace Generator

theorem areWhole_mapAt {members : Members} {key : String} (h : Members.AreWhole members) :
    Members.AreWhole (mapAt members key) := by
  unfold mapAt
  split
  next inner hget => exact h.get? hget
  next => exact show (Value.map []).isWhole = true by decide

theorem areWhole_withMapping {parts : Members} (h : Members.AreWhole parts) :
    Members.AreWhole (withMapping parts) := by
  unfold withMapping
  split
  · exact h
  · exact h.insert (by decide) (by decide)

theorem areWhole_withSchemas {members : Members} (h : Members.AreWhole members) :
    Members.AreWhole (withSchemas members) :=
  h.insert (by decide) (areWhole_withMapping (areWhole_mapAt h))

/-- The normal form of a document without lone halves has none. -/
theorem areWhole_normalize (t : Target) {members : Members} (h : Members.AreWhole members) :
    Members.AreWhole (normalize t members) := by
  unfold normalize
  split
  · unfold withServer
    split
    · exact areWhole_withSchemas h
    · exact (areWhole_withSchemas h).insert (by decide) (by decide)
  · exact areWhole_withSchemas h

end Generator

end ApiScaffold
