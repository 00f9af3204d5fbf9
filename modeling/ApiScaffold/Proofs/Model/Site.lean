import ApiScaffold.Proofs.Model.Composition

/-!
# Names and sites

A reference points at a site of the document, and the flattening of compositions tells schemas apart
by the last keys of their references. That is as good as by the sites where each reference below the
component schemas is to a component: then no schema is taken for another, and all to which the
compositions lead contribute their properties. One reference further down is enough for a name that
is not that of its target.

* `survey` is the flattening with sites in the place of names. It shows what would be right, and
  `survey_eq` says when the flattening by names is the same.
* `Hereditary`: a property that passes on from a schema that is flattened to those its members lead
  to holds of whatever a flattening completes (`completes_flatten`).
* `namesSuffice_iff`: in an accepted document names do exactly if its references below the component
  schemas are to components. Contacts, which have what the owners inside of pets have, are the case
  where they do not.
-/

namespace ApiScaffold

/-- The keys on the way to a value. -/
abbrev Site : Type := List String

/-- The site of a component schema. -/
def Site.component (name : String) : Site := ["components", "schemas", name]

theorem Site.component_injective : Function.Injective Site.component := by
  intro a b h
  simpa [component] using h

namespace Spec

variable {spec : Spec} {reference name : String} {members : Members}

/-- The site that a reference points at. -/
def site? (reference : String) : Option Site := (Pointer.body? reference).map Pointer.keys

/-- The site that the reference of a mapping points at. -/
def siteOf? (members : Members) : Option Site :=
  match Members.get? members "$ref" with
  | some (.str reference) => site? reference
  | _ => none

/-- Wherever the document has a reference that is told to be to a component, it points at the site
of that component, and so at its schema. -/
def NamesTargets (spec : Spec) : Prop :=
  ∀ members name, spec.document.Nests (.map members) → schemaTarget? members = some name →
    siteOf? members = some (.component name)
      ∧ ∃ reference schema, Members.get? members "$ref" = some (.str reference)
        ∧ spec.resolve reference = .ok schema ∧ spec.HasComponent name (.map schema)

/-- The references of a document that start like those to components have one segment more only. -/
def CitesComponents (spec : Spec) : Prop :=
  ∀ members reference, spec.document.Nests (.map members) →
    Members.get? members "$ref" = some (.str reference) →
    reference.startsWith schemaPrefix = true → NamesComponent reference

theorem schemaTarget?_eq_some : schemaTarget? members = some name ↔
    ∃ reference, Members.get? members "$ref" = some (.str reference)
      ∧ reference.startsWith schemaPrefix = true ∧ Pointer.lastKey reference = name := by
  unfold schemaTarget? schemaNameOf?
  split
  next reference href => simp [href]
  next hno => simpa using fun reference href => absurd href (hno reference)

theorem NamesComponent.site? (h : NamesComponent reference) :
    Spec.site? reference = some (.component (Pointer.lastKey reference)) := by
  obtain ⟨body, hbody, hkeys⟩ := h.keys
  rw [Spec.site?, hbody]
  exact congrArg some hkeys

/-- A reference below the component schemas that points at the site of a component has one segment
more only. -/
theorem namesComponent_of_site (hs : reference.startsWith schemaPrefix = true)
    (hsite : site? reference = some (.component name)) : NamesComponent reference := by
  rw [String.startsWith_string_iff] at hs
  obtain ⟨rest, hrest⟩ := hs
  refine ⟨rest, fun hin => ?_, hrest.symm⟩
  have hbody : Pointer.body? reference
      = some ("components".toList ++ '/' :: ("schemas".toList ++ '/' :: rest)) := by
    unfold Pointer.body?
    rw [← hrest]
    rfl
  rw [site?, hbody, Option.map_some, Pointer.keys, Text.splitOn_append_cons (by decide),
    Text.splitOn_append_cons (by decide), Option.some.injEq] at hsite
  -- a slash in the rest makes more keys than the site of a component has
  have hlength := congrArg List.length hsite
  have hlong := Text.one_lt_length_splitOn hin
  simp [Site.component] at hlength
  omega

/-- Names are those of targets exactly where references below the component schemas have one segment
more only. -/
theorem namesTargets_iff {document : Value} {source : String}
    (ha : ofValue document source = .ok spec) : spec.NamesTargets ↔ spec.CitesComponents := by
  constructor
  · intro h members reference hn href hs
    have htarget := schemaTarget?_eq_some.mpr ⟨reference, href, hs, rfl⟩
    have hsite := (h members _ hn htarget).1
    rw [siteOf?, href] at hsite
    exact namesComponent_of_site hs hsite
  · intro h members name hn htarget
    obtain ⟨reference, href, hs, rfl⟩ := schemaTarget?_eq_some.mp htarget
    have hnames := h members reference hn href hs
    obtain ⟨schema, hr⟩ := resolves_of_ofValue ha hn href
    refine ⟨?_, reference, schema, href, hr, Model.hasComponent_of_resolve hnames hr⟩
    rw [siteOf?, href]
    exact hnames.site?

/-- References of an accepted document to one component lead to one schema. -/
theorem CitesComponents.derefs {a b target : Members} {document : Value} {source : String}
    (hc : spec.CitesComponents) (ha : ofValue document source = .ok spec) (hp : spec.IsProper)
    (hna : spec.document.Nests (.map a)) (hnb : spec.document.Nests (.map b))
    (hta : schemaTarget? a = some name) (htb : schemaTarget? b = some name)
    (hd : spec.Derefs a target) : spec.Derefs b target := by
  obtain ⟨reference, href, hs, rfl⟩ := schemaTarget?_eq_some.mp hta
  obtain ⟨other, hother, hos, hkey⟩ := schemaTarget?_eq_some.mp htb
  obtain ⟨last, hlast⟩ := resolves_of_ofValue ha hnb hother
  have hcomponent := Model.hasComponent_of_resolve (hc b other hnb hother hos) hlast
  cases hd with
  | done hnone => cases href.symm.trans hnone
  | step href' hr hd =>
      cases href.symm.trans href'
      have hfirst := Model.hasComponent_of_resolve (hc a reference hna href hs) hr
      rw [hkey] at hcomponent
      cases hfirst.unique hp hcomponent
      exact .step hother hlast hd

end Spec

namespace Model

open Attempt

/-! ## Flattening by sites -/

/-- What is gathered, and the sites of the components whose declarations are in already. -/
structure Surveyed where
  gathered : Gathered
  sites : List Site

/-- The turn of a member where schemas are told apart by their sites: `visiting` has the sites of
the components on the way, and `follow` flattens what is called for. -/
def surveyTurn (spec : Spec) (model origin : String) (visiting : List Site)
    (follow : String → List Site → Members → Surveyed → Attempt Surveyed) (member : Member)
    (s : Surveyed) : Attempt Surveyed :=
  match member.value with
  | .map reference => match Spec.schemaTarget? reference, Spec.siteOf? reference with
    | some component, some site =>
      if visiting.contains site then
        .error (.build (.str model) (.circularComposition component))
      else
        let noted := s.gathered.noted model origin component
        if s.sites.contains site then .ok { s with gathered := noted }
        else do
          let target ← spec.deref reference
          follow component (visiting ++ [site]) target
            { gathered := noted.enter component, sites := s.sites ++ [site] }
    | _, _ => do
      let target ← spec.deref reference
      follow (origin ++ "." ++ member.keyword ++ "[" ++ toString member.index ++ "]") visiting
        target s
  | _ => .error (.build (.str model) (.memberNotSchema member.keyword member.index))

/-- The flattening of a schema where schemas are told apart by their sites. -/
def survey (spec : Spec) (model : String) :
    Nat → String → List Site → Members → Surveyed → Attempt Surveyed
  | 0, _, _, _, _ => .error .unsuitable
  | depth + 1, origin, visiting, schema, s => do
    let own ← declareOwn model origin schema s.gathered
    (listed schema).foldlM
      (fun s member => do
        surveyTurn spec model origin visiting (survey spec model depth) (← member) s)
      { s with gathered := own }

/-- What is gathered, with the sites of the components that are flattened. -/
def Gathered.surveyed (g : Gathered) : Surveyed :=
  { gathered := g, sites := g.flattened.map .component }

variable {spec : Spec} {model origin : String} {visiting : List String} {schema : Members}
  {member : Member} {g : Gathered}

theorem contains_component (names : List String) (name : String) :
    (names.map Site.component).contains (.component name) = names.contains name := by
  rw [Bool.eq_iff_iff, List.contains_iff_mem, List.contains_iff_mem,
    List.mem_map_of_injective Site.component_injective]

theorem surveyed_noted (component : String) (g : Gathered) :
    { g.surveyed with gathered := g.noted model origin component }
      = (g.noted model origin component).surveyed := by
  simp [Gathered.surveyed]

theorem surveyed_enter (component : String) (g : Gathered) :
    { gathered := (g.noted model origin component).enter component,
      sites := g.surveyed.sites ++ [.component component] : Surveyed }
      = ((g.noted model origin component).enter component).surveyed := by
  simp [Gathered.surveyed, Gathered.enter]

/-- A fold over what corresponds corresponds to the fold. -/
theorem foldlM_surveyed {members : List (Attempt Member)}
    {step : Gathered → Attempt Member → Attempt Gathered}
    {step' : Surveyed → Attempt Member → Attempt Surveyed}
    (h : ∀ member ∈ members, ∀ g, step' g.surveyed member = Gathered.surveyed <$> step g member)
    (g : Gathered) :
    members.foldlM step' g.surveyed = Gathered.surveyed <$> members.foldlM step g := by
  induction members generalizing g with
  | nil => rfl
  | cons member rest ih =>
      obtain ⟨hmember, hrest⟩ := List.forall_mem_cons.mp h
      rw [List.foldlM_cons, List.foldlM_cons, hmember]
      cases step g member with
      | error failure => rfl
      | ok next => exact ih hrest next

/-- Where a member that is told to refer to a component points at its site, its turn is the same by
sites as by names. -/
theorem surveyTurn_eq {follow : String → List String → Members → Gathered → Attempt Gathered}
    {follow' : String → List Site → Members → Surveyed → Attempt Surveyed}
    (hsite : ∀ reference component, member.value = .map reference →
      Spec.schemaTarget? reference = some component →
        Spec.siteOf? reference = some (.component component))
    (hf : ∀ reference start way target g, member.value = .map reference →
      spec.deref reference = .ok target →
        follow' start (way.map .component) target g.surveyed
          = Gathered.surveyed <$> follow start way target g) :
    surveyTurn spec model origin (visiting.map .component) follow' member g.surveyed
      = Gathered.surveyed <$> (turn spec model origin visiting member g).run follow := by
  unfold surveyTurn turn
  cases hv : member.value with
  | map reference =>
      dsimp only
      cases hc : Spec.schemaTarget? reference with
      | some component =>
          have hsites : g.surveyed.sites.contains (.component component)
              = g.flattened.contains component := contains_component g.flattened component
          simp only [hsite reference component hv hc, contains_component, hsites,
            Gathered.noted_flattened]
          split
          · rfl
          · split
            · exact congrArg Except.ok (surveyed_noted component g)
            · cases hd : spec.deref reference with
              | error failure => rfl
              | ok target =>
                  have hcall := hf reference component (visiting ++ [component]) target
                    ((g.noted model origin component).enter component) hv hd
                  rw [List.map_append, List.map_singleton, ← surveyed_enter] at hcall
                  exact hcall
      | none =>
          dsimp only
          cases hd : spec.deref reference with
          | error failure => rfl
          | ok target => exact hf _ _ visiting target g hv hd
  | _ => rfl

theorem declareOwn_surveyed {own : Gathered}
    (h : declareOwn model origin schema g = .ok own) :
    { g.surveyed with gathered := own } = own.surveyed := by
  rw [Gathered.surveyed, Gathered.surveyed, (declareOwn_eq_ok h).1]

/-- The schemas of a document are flattened by sites as they are by names, if its references to
components name them. -/
theorem survey_eq (hp : spec.IsProper) (hc : spec.CitesComponents)
    (hs : spec.document.Nests (.map schema)) (depth : Nat) :
    survey spec model depth origin (visiting.map .component) schema g.surveyed
      = Gathered.surveyed <$> flatten spec model depth origin visiting schema g := by
  induction depth generalizing origin visiting schema g with
  | zero => rfl
  | succ depth ih =>
      rw [survey, flatten_succ]
      show (declareOwn model origin schema g >>= fun own => _) = _
      cases hown : declareOwn model origin schema g with
      | error failure => rfl
      | ok own =>
          show List.foldlM _ { g.surveyed with gathered := own } (listed schema) = _
          rw [declareOwn_surveyed hown]
          refine foldlM_surveyed (fun member hm g => ?_) own
          cases member with
          | error failure => rfl
          | ok member =>
              -- a member stands in its schema, and what it leads to stands in the document
              have hmember : ∀ {reference}, member.value = .map reference →
                  spec.document.Nests (.map reference) := fun hv =>
                hs.trans (nests_of_hasMember (hs.isProper hp) (mem_listed hm hv))
              refine surveyTurn_eq (fun reference component hv htarget => ?_)
                fun reference start way target g hv hd => ih ?_
              · obtain ⟨r, href, hprefix, rfl⟩ := Spec.schemaTarget?_eq_some.mp htarget
                rw [Spec.siteOf?, href]
                exact (hc reference r (hmember hv) href hprefix).site?
              · rcases nests_of_derefs (Spec.derefs_of_deref hd) with rfl | hn
                · exact hmember hv
                · exact hn

/-! ## Properties -/

/-- The properties that a schema declares itself are gathered. -/
def Gathered.Has (g : Gathered) (schema : Members) : Prop :=
  ∀ d, Declares schema d → ∃ found ∈ g.properties, found.name = d.name ∧ found.schema = d.schema

theorem Gathered.Has.mono {h : Gathered} (hg : g.Has schema) (hgh : g.properties ⊆ h.properties) :
    h.Has schema := by
  intro d hd
  obtain ⟨found, hin, hfound⟩ := hg d hd
  exact ⟨found, hgh hin, hfound⟩

theorem properties_of_declareAll {own : Members} {declared result : List Declared}
    (h : declareAll model origin own declared = .ok result) :
    declared ⊆ result
      ∧ ∀ entry ∈ own, ∃ d ∈ result, d.name = entry.1 ∧ d.schema = entry.2 := by
  induction own generalizing declared with
  | nil =>
      cases h
      exact ⟨List.Subset.refl _, by simp⟩
  | cons entry rest ih =>
      obtain ⟨name, v⟩ := entry
      rw [declareAll] at h
      split at h
      next => cases h
      next =>
        obtain ⟨hsub, hrest⟩ := ih h
        refine ⟨List.Subset.trans (List.subset_append_left _ _) hsub,
          List.forall_mem_cons.mpr ⟨?_, hrest⟩⟩
        exact ⟨_, hsub (List.mem_append_right _ (List.mem_singleton_self _)), rfl, rfl⟩

/-- A schema that declares its own properties has them gathered. -/
theorem has_of_declareOwn {own : Gathered} (h : declareOwn model origin schema g = .ok own) :
    g.properties ⊆ own.properties ∧ own.Has schema := by
  obtain ⟨entries, hentries, h⟩ := bind_eq_ok.mp h
  obtain ⟨properties, hp, h⟩ := bind_eq_ok.mp h
  obtain ⟨required, -, h⟩ := bind_eq_ok.mp h
  split at h
  next =>
    cases h
    obtain ⟨hsub, hall⟩ := properties_of_declareAll hp
    refine ⟨hsub, ?_⟩
    rintro d ⟨members, hget, hin⟩
    cases (entriesUnder_of_get? hget).symm.trans hentries
    exact hall _ hin
  next => cases h

/-! ## What a flattening completes -/

/-- What holds of a schema whose properties are gathered and whose members lead to schemas of which
it holds, and still holds when more properties are gathered. -/
structure Hereditary (spec : Spec) (Q : Gathered → Members → Prop) : Prop where
  mono : ∀ {g h s}, g.properties ⊆ h.properties → Q g s → Q h s
  step : ∀ {g s}, g.Has s →
    (∀ member, HasMember s member → ∃ target, spec.Derefs member target ∧ Q g target) → Q g s

/-- It holds of the components that are flattened and not on the way, by whatever reference. -/
def Completed (spec : Spec) (Q : Gathered → Members → Prop) (visiting : List String)
    (g : Gathered) : Prop :=
  ∀ c ∈ g.flattened, c ∉ visiting → ∀ member, spec.document.Nests (.map member) →
    Spec.schemaTarget? member = some c → ∃ target, spec.Derefs member target ∧ Q g target

/-- It holds of the schemas of the document that are flattened to a result. -/
def Completes (spec : Spec) (Q : Gathered → Members → Prop)
    (follow : String → List String → Members → Gathered → Attempt Gathered) : Prop :=
  ∀ {start way target g h}, spec.document.Nests (.map target) → Completed spec Q way g →
    follow start way target g = .ok h →
      g.properties ⊆ h.properties ∧ Completed spec Q way h ∧ Q h target

section Completes

variable {Q : Gathered → Members → Prop} {h : Gathered} {document : Value} {source : String}
  {follow : String → List String → Members → Gathered → Attempt Gathered}
  {entries : List (Attempt Member)}

theorem Completed.mono (hq : Hereditary spec Q) (hg : Completed spec Q visiting g)
    (hgh : g.properties ⊆ h.properties)
    (hold : ∀ c ∈ h.flattened, c ∉ visiting → c ∈ g.flattened) : Completed spec Q visiting h := by
  intro c hin hv member hn htarget
  obtain ⟨target, hd, hholds⟩ := hg c (hold c hin hv) hv member hn htarget
  exact ⟨target, hd, hq.mono hgh hholds⟩

theorem Completed.noted (hq : Hereditary spec Q) (hg : Completed spec Q visiting g)
    (model origin component : String) :
    Completed spec Q visiting (g.noted model origin component) :=
  hg.mono hq (by rw [Gathered.noted_properties]; exact List.Subset.refl _) fun c hin _ => by
    rwa [Gathered.noted_flattened] at hin

theorem Completed.enter (hq : Hereditary spec Q) (hg : Completed spec Q visiting g)
    (component : String) :
    Completed spec Q (visiting ++ [component]) (g.enter component) := by
  intro c hin hv member hn htarget
  obtain ⟨hvisiting, hne⟩ : c ∉ visiting ∧ c ≠ component := by simpa using hv
  have hold : c ∈ g.flattened := by simpa [Gathered.enter, hne] using hin
  obtain ⟨target, hd, hholds⟩ := hg c hold hvisiting member hn htarget
  exact ⟨target, hd, hq.mono (List.Subset.refl g.properties) hholds⟩

variable (ha : Spec.ofValue document source = .ok spec) (hp : spec.IsProper)
  (hc : spec.CitesComponents) (hq : Hereditary spec Q)

include ha hp hc hq

/-- After a turn it holds of what the member leads to: a component that is passed over has been
completed, and one that is called for has just been. -/
theorem Completes.run (hf : Completes spec Q follow)
    (hn : ∀ reference, member.value = .map reference → spec.document.Nests (.map reference))
    (hg : Completed spec Q visiting g)
    (hrun : (turn spec model origin visiting member g).run follow = .ok h) :
    g.properties ⊆ h.properties ∧ Completed spec Q visiting h
      ∧ ∀ reference, member.value = .map reference →
        ∃ target, spec.Derefs reference target ∧ Q h target := by
  rcases run_ok hrun with hturn | ⟨start, way, target, between, hturn, hcall⟩
  · obtain ⟨reference, component, hv, htarget, hnot, hin, rfl⟩ := pass_cases hturn
    have hnoted := hg.noted hq model origin component
    refine ⟨by rw [Gathered.noted_properties]; exact List.Subset.refl _, hnoted, fun other ho => ?_⟩
    cases hv.symm.trans ho
    exact hnoted component (by rwa [Gathered.noted_flattened]) hnot reference (hn _ hv) htarget
  · obtain ⟨reference, hv, hd, hcases⟩ := call_cases hturn
    have hderefs := Spec.derefs_of_deref hd
    have htargetNests : spec.document.Nests (.map target) := by
      rcases nests_of_derefs hderefs with rfl | hnests
      · exact hn _ hv
      · exact hnests
    rcases hcases with ⟨component, htarget, hon, -, rfl, rfl⟩ | ⟨-, rfl, rfl⟩
    · have hentered := (hg.noted hq model origin component).enter hq component
      obtain ⟨hsub, hh, hholds⟩ := hf htargetNests hentered hcall
      refine ⟨?_, fun c hin hvisiting other hother hsame => ?_, fun other ho => ?_⟩
      · rwa [Gathered.enter, Gathered.noted_properties] at hsub
      · by_cases heq : c = component
        · subst heq
          -- by another reference to the component it is the same schema that is completed
          exact ⟨target, hc.derefs ha hp (hn _ hv) hother htarget hsame hderefs, hholds⟩
        · exact hh c hin (by simp [hvisiting, heq]) other hother hsame
      · cases hv.symm.trans ho
        exact ⟨target, hderefs, hholds⟩
    · obtain ⟨hsub, hh, hholds⟩ := hf htargetNests hg hcall
      refine ⟨hsub, hh, fun other ho => ?_⟩
      cases hv.symm.trans ho
      exact ⟨target, hderefs, hholds⟩

theorem Completes.turns (hf : Completes spec Q follow)
    (hn : ∀ member reference, .ok member ∈ entries → member.value = .map reference →
      spec.document.Nests (.map reference))
    (hg : Completed spec Q visiting g)
    (ht : takeTurns spec model follow origin visiting entries g = .ok h) :
    g.properties ⊆ h.properties ∧ Completed spec Q visiting h
      ∧ ∀ member reference, .ok member ∈ entries → member.value = .map reference →
        ∃ target, spec.Derefs reference target ∧ Q h target := by
  induction entries generalizing g with
  | nil =>
      cases ht
      exact ⟨List.Subset.refl _, hg, nofun⟩
  | cons entry rest ih =>
      cases entry with
      | error failure => cases ht
      | ok member =>
          rw [takeTurns_cons_ok] at ht
          obtain ⟨next, hrun, hturns⟩ := bind_eq_ok.mp ht
          obtain ⟨hsub, hnext, hfirst⟩ := hf.run ha hp hc hq
            (fun reference hv => hn member reference List.mem_cons_self hv) hg hrun
          obtain ⟨hsub', hh, hrest⟩ := ih
            (fun other reference hin hv => hn other reference (List.mem_cons_of_mem _ hin) hv)
            hnext hturns
          refine ⟨List.Subset.trans hsub hsub', hh, fun other reference hin hv => ?_⟩
          rcases List.mem_cons.mp hin with heq | hin
          · -- what held after its turn holds after all later turns
            cases heq
            obtain ⟨target, hd, hholds⟩ := hfirst reference hv
            exact ⟨target, hd, hq.mono hsub' hholds⟩
          · exact hrest other reference hin hv

/-- What is hereditary holds of the schemas that are flattened to a result. -/
theorem completes_flatten (depth : Nat) : Completes spec Q (flatten spec model depth) := by
  -- with less depth the calls of the members complete what they are for, and then the schema is too
  induction depth with
  | zero => exact fun _ _ hf => by cases hf
  | succ depth ih =>
      intro start way target g h hn hg hf
      rw [flatten_succ] at hf
      obtain ⟨own, hown, ht⟩ := bind_eq_ok.mp hf
      obtain ⟨hsub, hhas⟩ := has_of_declareOwn hown
      have howned : Completed spec Q way own := hg.mono hq hsub fun c hin _ => by
        rwa [(declareOwn_eq_ok hown).1] at hin
      obtain ⟨hsub', hh, hmembers⟩ := ih.turns ha hp hc hq (fun member reference hm hv =>
        hn.trans (nests_of_hasMember (hn.isProper hp) (mem_listed hm hv))) howned ht
      refine ⟨List.Subset.trans hsub hsub', hh, hq.step (hhas.mono hsub') fun member hm => ?_⟩
      obtain ⟨entry, hin, hv⟩ := exists_listed hm
      exact hmembers entry member hin hv

/-- What is hereditary holds of a component that is collected. -/
theorem holds_of_collected {name : String} (hn : spec.HasComponent name (.map schema))
    (h : collected spec name schema = .ok g) : Q g schema := by
  have hnests : spec.document.Nests (.map schema) := .follow ((Spec.follow_component_iff hp).mpr hn)
  exact (completes_flatten ha hp hc hq _ hnests (fun c hin => by cases hin) h).2.2

end Completes

/-! ## What contributes -/

/-- All schemas to which the compositions of a component lead contribute their properties to it. -/
def Contribute (spec : Spec) (name : String) (schema : Members) : Prop :=
  ∀ gathered, collected spec name schema = .ok gathered →
    ∀ s, Visits spec schema s → gathered.Has s

/-- That all schemas to which a schema leads have their properties gathered is hereditary. -/
theorem hereditary_has : Hereditary spec fun g schema => ∀ s, Visits spec schema s → g.Has s where
  mono hgh hall s hv := (hall s hv).mono hgh
  step := by
    intro g schema hown hmembers s hv
    cases hv.cases_head with
    | inl heq => exact heq ▸ hown
    | inr hstep =>
        obtain ⟨next, ⟨member, hm, hd⟩, hrest⟩ := hstep
        obtain ⟨target, htarget, hall⟩ := hmembers member hm
        cases hd.unique htarget
        exact hall s hrest

/-! ## Names as good as sites -/

/-- Names do for references what sites would: they are those of the targets; a component is
flattened by them as by sites, so that a member is passed over or called circular where its schema
has been flattened or is on the way; and all schemas that its compositions lead to contribute to it.
-/
structure NamesSuffice (spec : Spec) : Prop where
  names : spec.NamesTargets
  guards : ∀ name schema, spec.HasComponent name (.map schema) → ∀ depth,
    survey spec name depth name [.component name] schema { gathered := {}, sites := [] }
      = Gathered.surveyed <$> flatten spec name depth name [name] schema {}
  contribute : ∀ name schema, spec.HasComponent name (.map schema) → Contribute spec name schema

/-- In an accepted document names do exactly if its references below the component schemas have one
segment more only. -/
theorem namesSuffice_iff {document : Value} {source : String}
    (ha : Spec.ofValue document source = .ok spec) (hp : spec.IsProper) :
    NamesSuffice spec ↔ spec.CitesComponents := by
  refine ⟨fun h => (Spec.namesTargets_iff ha).mp h.names, fun hc => ?_⟩
  have hnests : ∀ {name schema}, spec.HasComponent name (.map schema) →
      spec.document.Nests (.map schema) := fun h =>
    .follow ((Spec.follow_component_iff hp).mpr h)
  exact ⟨(Spec.namesTargets_iff ha).mpr hc,
    fun name schema h depth => @survey_eq spec name name [name] schema {} hp hc (hnests h) depth,
    fun name schema h gathered hcollected => holds_of_collected ha hp hc hereditary_has h hcollected⟩

/-- Names do for pets and what they are composed of. -/
theorem namesSuffice_pet :
    Spec.ofValue (Spec.ofSchemas Spec.petSchemas).document "<memory>" = .ok (.ofSchemas Spec.petSchemas)
      ∧ (Spec.ofSchemas Spec.petSchemas).IsProper ∧ NamesSuffice (.ofSchemas Spec.petSchemas) := by
  have ha : Spec.ofValue (Spec.ofSchemas Spec.petSchemas).document "<memory>"
      = .ok (.ofSchemas Spec.petSchemas) := Spec.ofValue_document (by decide +kernel)
  have hp : (Spec.ofSchemas Spec.petSchemas).IsProper := by
    show Value.isProper _ = true
    decide
  refine ⟨ha, hp, (namesSuffice_iff ha hp).mpr fun members reference hn href _ => ?_⟩
  have hall : (Spec.ofSchemas Spec.petSchemas).document.EachRef fun v => v.asStr? ∈
      ["Base", "Named", "Aged"].map fun name => some ("#/components/schemas/" ++ name) := by
    decide +kernel
  have hin := hall _ hn _ href
  simp only [Value.asStr?, List.map_cons, List.map_nil, List.mem_cons, Option.some.injEq,
    List.not_mem_nil, or_false] at hin
  rcases hin with rfl | rfl | rfl
  · exact ⟨"Base".toList, by decide, by decide⟩
  · exact ⟨"Named".toList, by decide, by decide⟩
  · exact ⟨"Aged".toList, by decide, by decide⟩

end Model

/-- The schema of the owner of a pet, which stands inside that of the pet. -/
def Schema.petOwner : Members := single "phone" [(.str "type", .str "string")]

/-- The schema of owners, which is a component. -/
def Schema.owner : Members := single "email" [(.str "type", .str "string")]

/-- Contacts, which have what the owners of pets have and what owners have. -/
def Schema.contact : Members := [(.str "allOf", .list [
  .map (referTo "#/components/schemas/Pet/properties/owner"), .map (link "owner")])]

def Spec.contactSchemas : Members := [
  (.str "Contact", .map Schema.contact),
  (.str "Pet", .map (Schema.single "owner" Schema.petOwner)),
  (.str "owner", .map Schema.owner)]

namespace Model

/-- The reference to the owner of a pet is told to be to the component of owners, which then is
passed over; contacts lack the property of owners. -/
theorem namesSuffice_fails_contact :
    Spec.ofValue (Spec.ofSchemas Spec.contactSchemas).document "<memory>"
        = .ok (.ofSchemas Spec.contactSchemas)
      ∧ Spec.schemaTarget? (Schema.referTo "#/components/schemas/Pet/properties/owner")
        = some "owner"
      ∧ (Spec.ofSchemas Spec.contactSchemas).resolve "#/components/schemas/Pet/properties/owner"
        = .ok Schema.petOwner
      ∧ (Spec.ofSchemas Spec.contactSchemas).HasComponent "owner" (.map Schema.owner)
      ∧ Schema.petOwner ≠ Schema.owner
      ∧ Visits (.ofSchemas Spec.contactSchemas) Schema.contact Schema.owner
      ∧ ∃ gathered,
        collected (.ofSchemas Spec.contactSchemas) "Contact" Schema.contact = .ok gathered
          ∧ gathered.names = [.str "phone"] ∧ ¬gathered.Has Schema.owner := by
  refine ⟨Spec.ofValue_document (by decide +kernel), by decide +kernel, rfl,
    ⟨Spec.contactSchemas, rfl, by simp [Spec.contactSchemas]⟩, ?_, ?_, ?_⟩
  · simp [Schema.petOwner, Schema.owner, Schema.single]
  · refine .single ⟨Schema.link "owner", ?_, .step rfl rfl (.done rfl)⟩
    exact ⟨"allOf", _, _, rfl, rfl, by simp, by decide⟩
  · refine ⟨{ composedOf := ["owner"],
              properties := [⟨"owner", .str "phone", .map [(.str "type", .str "string")]⟩],
              flattened := ["owner"] }, ?_, rfl, fun hhas => ?_⟩
    · with_unfolding_all rfl
    obtain ⟨found, hin, hname, -⟩ := hhas ⟨"", .str "email", .map [(.str "type", .str "string")]⟩
      ⟨_, rfl, List.mem_cons_self⟩
    cases List.mem_singleton.mp hin
    exact absurd (Value.str.inj hname) (by decide)

end Model

end ApiScaffold
