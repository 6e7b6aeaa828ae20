import IntentFirewall.Proofs.Component.Outline
import IntentFirewall.Proofs.Text.Case
import IntentFirewall.Proofs.Xml.Rendering

/-!
# The components that a manifest declares

What a manifest declares is told by the elements of its tree, in document order, and does not depend
on how the tree is written.

## Main definitions

* `HasLocalName`, `Attributes.HasFirst`: names without their namespaces, and the attribute that
  counts among those with one local name.
* `Manifest.NamesPackageIn`, `Manifest.SwitchesTo`: what the `manifest` elements and the
  `application` elements say.
* `Manifest.IsComponent`, `Manifest.Components`: the components that elements declare.

## Main results

* `Outline.foldlM_pushTag`: reading start tags one after the other.
* `readManifest_of_renders`: what is read of a manifest.
-/

namespace IntentFirewall

/-! ## Local names -/

namespace Xml

/-- A key or a name whose part behind the first colon, if it has one, is the given name. -/
def HasLocalName (key name : String) : Prop :=
  (':' ∉ key.toList ∧ key = name) ∨
    ∃ space : String, ':' ∉ space.toList ∧ key = space ++ ":" ++ name

theorem localName_of_not_mem {key : List Char} (h : ':' ∉ key) : localName key = key := by
  have hdrop : key.dropWhile (· != ':') = [] := by
    rw [List.dropWhile_eq_nil_iff]
    intro c hc
    rw [bne_iff_ne]
    rintro rfl
    exact h hc
  rw [localName, hdrop]

theorem localName_append {space : List Char} (h : ':' ∉ space) (name : List Char) :
    localName (space ++ ':' :: name) = name := by
  have hspace : ∀ c ∈ space, (c != ':') = true := by
    intro c hc
    rw [bne_iff_ne]
    rintro rfl
    exact h hc
  rw [localName, List.dropWhile_append_of_pos hspace]
  simp

/-- A colon comes first at some place. -/
theorem exists_eq_append_of_mem {key : List Char} (h : ':' ∈ key) :
    ∃ space name, key = space ++ ':' :: name ∧ ':' ∉ space := by
  obtain ⟨c, name, hdrop⟩ : ∃ c name, key.dropWhile (· != ':') = c :: name := by
    refine List.exists_cons_of_ne_nil fun hnil => ?_
    simpa using List.dropWhile_eq_nil_iff.1 hnil ':' h
  have hc := List.head?_dropWhile_not (· != ':') key
  simp only [hdrop, List.head?_cons, bne_eq_false_iff_eq] at hc
  refine ⟨key.takeWhile (· != ':'), name, ?_, fun hmem => ?_⟩
  · conv_lhs => rw [← List.takeWhile_append_dropWhile (p := (· != ':')) (l := key), hdrop, hc]
  · simpa using List.mem_takeWhile_imp hmem

theorem localName_eq_iff {key name : String} :
    localName key.toList = name.toList ↔ HasLocalName key name := by
  constructor
  · intro h
    by_cases hcolon : ':' ∈ key.toList
    · right
      obtain ⟨space, rest, hkey, hspace⟩ := exists_eq_append_of_mem hcolon
      rw [hkey, localName_append hspace] at h
      refine ⟨String.ofList space, by rwa [String.toList_ofList], ?_⟩
      rw [← String.toList_inj, hkey, h]
      simp
    · left
      rw [localName_of_not_mem hcolon] at h
      exact ⟨hcolon, String.toList_inj.1 h⟩
  · rintro (⟨hcolon, rfl⟩ | ⟨space, hspace, rfl⟩)
    · exact localName_of_not_mem hcolon
    · have htext : (space ++ ":" ++ name).toList = space.toList ++ ':' :: name.toList := by simp
      rw [htext, localName_append hspace]

instance (key name : String) : Decidable (HasLocalName key name) :=
  decidable_of_iff _ localName_eq_iff

/-! ## Attributes that count -/

/-- The value of the first attribute with a given local name. -/
def Attributes.HasFirst (attributes : Attributes) (name value : String) : Prop :=
  ∃ front key back, attributes = front ++ (key, value) :: back ∧ HasLocalName key name ∧
    ∀ a ∈ front, ¬HasLocalName a.1 name

/-- The same, as it is looked up. -/
def Attributes.first? (attributes : Attributes) (name : String) : Option String :=
  (attributes.find? fun a => localName a.1.toList == name.toList).map Prod.snd

theorem Attributes.first?_eq_some_iff {attributes : Attributes} {name value : String} :
    attributes.first? name = some value ↔ attributes.HasFirst name value := by
  rw [first?, Option.map_eq_some_iff]
  simp only [List.find?_eq_some_iff_append, beq_iff_eq, Bool.not_eq_true', beq_eq_false_iff_ne,
    ne_eq, localName_eq_iff]
  constructor
  · rintro ⟨⟨key, value⟩, ⟨hkey, front, back, rfl, hfront⟩, rfl⟩
    exact ⟨front, key, back, rfl, hkey, hfront⟩
  · rintro ⟨front, key, back, rfl, hkey, hfront⟩
    exact ⟨(key, value), ⟨hkey, front, back, rfl, hfront⟩, rfl⟩

end Xml

/-! ## Names of kinds -/

namespace ComponentKind

variable {s : String} {kind : ComponentKind}

theorem ofName?_eq_some_iff : ofName? s = some kind ↔ kind.name = s := by
  constructor
  · intro h
    simpa using List.find?_some h
  · rintro rfl
    cases kind <;> rfl

/-- A kind is found by its name in any case. -/
theorem ofAnyCase?_eq_some_iff :
    ofAnyCase? s = some kind ↔ s.toList.map Char.toLower = kind.name.toList := by
  have hplain : Text.IsPlainWord kind.name.toList := by cases kind <;> decide
  rw [ofAnyCase?, ofName?_eq_some_iff, eq_comm, Text.lowercase_eq_iff hplain]

end ComponentKind

namespace Manifest

open Xml

/-- The attribute that is looked up first is the same one. -/
theorem find?_of_isOf {items : List RawAttribute} {attributes : Attributes}
    (h : List.Forall₂ RawAttribute.IsOf items attributes) (key : List Char) :
    Option.Rel RawAttribute.IsOf (items.find? fun a => localName a.key == key)
      (attributes.find? fun p => localName p.1.toList == key) := by
  induction h with
  | nil => exact .none
  | @cons a p items attributes ha hrest ih =>
    rw [List.find?_cons, List.find?_cons, ha.key]
    split
    · exact .some ha
    · exact ih

/-- The value of an attribute is looked up in a tag as in the attributes that are found in it. -/
theorem lookUp_of_isOf {tag : Tag} {name : String} {attributes : Attributes}
    (h : tag.IsOf name attributes) (key : String) :
    lookUp key tag.attributes = .ok (attributes.first? key) := by
  have hfound := find?_of_isOf h.items key.toList
  rw [lookUp, h.failure, Attributes.first?]
  generalize tag.attributes.items.find? (fun a => localName a.key == key.toList) = found at hfound ⊢
  generalize attributes.find? (fun p => localName p.1.toList == key.toList) = meant at hfound ⊢
  cases hfound with
  | none => rfl
  | some hp => simp only [hp.text, Option.map_some]

/-! ## What an element says -/

/-- The declaration that an element is. -/
def declaration? (e : Element) : Option Declaration :=
  match ComponentKind.ofAnyCase? (String.ofList (localName e.name.toList)) with
  | none => none
  | some kind =>
    (e.attributes.first? "name").map fun name =>
      ⟨kind, name, (e.attributes.first? "exported").map Text.spellsTrue,
        (e.attributes.first? "enabled").map Text.spellsTrue⟩

/-- An element whose local name is that of no kind declares nothing. -/
theorem declaration?_eq_none {e : Element} {name : String}
    (hname : ComponentKind.ofAnyCase? name = none) (h : HasLocalName e.name name) :
    declaration? e = none := by
  rw [declaration?, localName_eq_iff.2 h, String.ofList_toList, hname]

theorem not_hasLocalName_manifest {e : Element} (h : HasLocalName e.name "application") :
    ¬HasLocalName e.name "manifest" := by
  intro hmanifest
  have hsame := (localName_eq_iff.2 h).symm.trans (localName_eq_iff.2 hmanifest)
  exact absurd (String.toList_inj.1 hsame) (by decide)

/-- What is known behind the start tag of an element. -/
def Outline.take (o : Outline) (e : Element) : Outline where
  packageName :=
    if HasLocalName e.name "manifest" then e.attributes.first? "package" else o.packageName
  applicationEnabled :=
    if HasLocalName e.name "application" then
      ((e.attributes.first? "enabled").map Text.spellsTrue).getD o.applicationEnabled
    else o.applicationEnabled
  declared := (declaration? e).toList ++ o.declared

namespace Outline

variable {e : Element} {tag : Tag}

/-- A start tag is taken like the element whose name and attributes are found in it. -/
theorem pushTag_of_isOf (h : tag.IsOf e.name e.attributes) (o : Outline) :
    o.pushTag tag = .ok (o.take e) := by
  -- An element has one local name, and so at most one of the meanings.
  by_cases hmanifest : HasLocalName e.name "manifest"
  · have happlication : ¬HasLocalName e.name "application" := fun happlication =>
      not_hasLocalName_manifest happlication hmanifest
    have hname : localName tag.name = "manifest".toList := by
      rw [h.name, localName_eq_iff.2 hmanifest]
    rw [pushTag_manifest hname, lookUp_of_isOf h, take, if_pos hmanifest, if_neg happlication,
      declaration?_eq_none (by decide) hmanifest]
    rfl
  by_cases happlication : HasLocalName e.name "application"
  · have hname : localName tag.name = "application".toList := by
      rw [h.name, localName_eq_iff.2 happlication]
    rw [pushTag_application hname, lookUp_of_isOf h, take, if_neg hmanifest, if_pos happlication,
      declaration?_eq_none (by decide) happlication]
    rfl
  · have hmanifest' : localName tag.name ≠ "manifest".toList := by
      rwa [h.name, ne_eq, localName_eq_iff]
    have happlication' : localName tag.name ≠ "application".toList := by
      rwa [h.name, ne_eq, localName_eq_iff]
    rw [take, if_neg hmanifest, if_neg happlication, declaration?, ← h.name]
    cases hkind : ComponentKind.ofAnyCase? (String.ofList (localName tag.name)) with
    | none => exact pushTag_other hmanifest' happlication' hkind o
    | some kind =>
      rw [pushTag_component hkind, declare, lookUp_of_isOf h, lookUp_of_isOf h, lookUp_of_isOf h]
      cases e.attributes.first? "name" with
      | none => rfl
      | some name => rfl

/-- Start tags are taken one after the other. -/
theorem foldlM_pushTag {tags : List Tag} {es : List Element}
    (h : List.Forall₂ (fun tag e => tag.IsOf e.name e.attributes) tags es) (o : Outline) :
    tags.foldlM pushTag o = .ok (es.foldl take o) := by
  -- The outline is general, for every tag is taken on top of those before it.
  induction h generalizing o with
  | nil => rfl
  | cons htag hrest ih =>
    rw [List.foldlM_cons, pushTag_of_isOf htag]
    exact ih _

end Outline

/-! ## What all elements say -/

/-- The last `manifest` element names the package. -/
def NamesPackageIn (es : List Element) (packageName : String) : Prop :=
  ∃ e, IsLast (fun e => HasLocalName e.name "manifest") es e ∧
    e.attributes.HasFirst "package" packageName

/-- The last `application` element that switches components on or off does so by a value. -/
def SwitchesTo (es : List Element) (value : String) : Prop :=
  ∃ e, IsLast (fun e => HasLocalName e.name "application" ∧
    ∃ v, e.attributes.HasFirst "enabled" v) es e ∧ e.attributes.HasFirst "enabled" value

namespace Outline

variable {es : List Element}

theorem packageName_foldl_take {packageName : String} :
    (es.foldl take .empty).packageName = some packageName ↔ NamesPackageIn es packageName := by
  -- Later elements take back what earlier ones said, so the list is taken apart from its end.
  induction es using List.reverseRecOn with
  | nil => simp [NamesPackageIn, not_isLast_nil, empty]
  | append_singleton es e ih =>
    rw [List.foldl_concat, take, NamesPackageIn]
    simp only [isLast_concat]
    split
    next h =>
      rw [Attributes.first?_eq_some_iff]
      simp [h]
    next h =>
      rw [ih, NamesPackageIn]
      simp [h]

theorem applicationEnabled_foldl_take :
    (es.foldl take .empty).applicationEnabled = true ↔
      ∀ value, SwitchesTo es value → Text.MeansTrue value := by
  induction es using List.reverseRecOn with
  | nil => simp [SwitchesTo, not_isLast_nil, empty]
  | append_singleton es e ih =>
    rw [List.foldl_concat, take]
    simp only [SwitchesTo, isLast_concat] at ih ⊢
    by_cases h : HasLocalName e.name "application"
    · -- Only with the attribute does the element count as the last one.
      rw [if_pos h]
      cases henabled : e.attributes.first? "enabled" with
      | none =>
        have hnone : ¬∃ v, e.attributes.HasFirst "enabled" v := by
          rintro ⟨v, hv⟩
          rw [← Attributes.first?_eq_some_iff, henabled] at hv
          cases hv
        rw [Option.map_none, Option.getD_none, ih]
        simp [hnone]
      | some value =>
        have hsome (v : String) : e.attributes.HasFirst "enabled" v ↔ value = v := by
          rw [← Attributes.first?_eq_some_iff, henabled, Option.some.injEq]
        rw [Option.map_some, Option.getD_some, Text.spellsTrue_iff]
        simp [h, hsome]
    · rw [if_neg h, ih]
      simp [h]

theorem declared_foldl_take :
    (es.foldl take .empty).declared.reverse = es.filterMap declaration? := by
  induction es using List.reverseRecOn with
  | nil => rfl
  | append_singleton es e ih =>
    rw [List.foldl_concat, take, List.reverse_append, ih, List.filterMap_append]
    cases hdeclaration : declaration? e <;> simp [hdeclaration]

end Outline

/-! ## Components -/

/-- The local name of an element is the name of a kind in any case. -/
def IsOfKind (e : Element) (kind : ComponentKind) : Prop :=
  ∃ name, HasLocalName e.name name ∧ name.toList.map Char.toLower = kind.name.toList

/-- What the name of a class stands for in a package. -/
inductive IsQualified (packageName : String) : String → String → Prop
  /-- A name that begins with a point is appended to the package. -/
  | relative (cls : String) : IsQualified packageName ("." ++ cls) (packageName ++ "." ++ cls)
  /-- A name without a point is joined to it by one. -/
  | simple {cls : String} (h : '.' ∉ cls.toList) :
    IsQualified packageName cls (packageName ++ "." ++ cls)
  /-- Other names stand for themselves. -/
  | full {cls : String} (h : '.' ∈ cls.toList) (hfirst : cls.toList.head? ≠ some '.') :
    IsQualified packageName cls cls

/-- The component that an element declares, given the package and all elements of the manifest. -/
structure IsComponent (packageName : String) (es : List Element) (e : Element) (c : Component) :
    Prop where
  /-- The element is named after the kind. -/
  kind : IsOfKind e c.kind
  /-- It names the class. -/
  name : ∃ cls, e.attributes.HasFirst "name" cls ∧ IsQualified packageName cls c.name
  /-- It has to say that others may use the component. -/
  exported : c.exported = true ↔ ∃ value, e.attributes.HasFirst "exported" value ∧
    Text.MeansTrue value
  /-- Neither it nor an `application` element switches the component off. -/
  enabled : c.enabled = true ↔
    (∀ value, e.attributes.HasFirst "enabled" value → Text.MeansTrue value) ∧
      ∀ value, SwitchesTo es value → Text.MeansTrue value

/-- The components that some elements declare, in the same order, given the package and all elements
of the manifest. -/
inductive Components (packageName : String) (es : List Element) :
    List Element → List Component → Prop
  /-- Nothing declares nothing. -/
  | nil : Components packageName es [] []
  /-- An element that declares a component. -/
  | declared {e : Element} {c : Component} {rest : List Element} {cs : List Component}
    (h : IsComponent packageName es e c) (hrest : Components packageName es rest cs) :
    Components packageName es (e :: rest) (c :: cs)
  /-- An element that is not named after a kind, or does not name a class. -/
  | other {e : Element} {rest : List Element} {cs : List Component}
    (h : ∀ kind cls, IsOfKind e kind → ¬e.attributes.HasFirst "name" cls)
    (hrest : Components packageName es rest cs) : Components packageName es (e :: rest) cs

theorem isQualified_qualify (packageName cls : String) :
    IsQualified packageName cls (qualify packageName cls) := by
  rw [qualify]
  split
  next hfirst =>
    obtain ⟨rest, hrest⟩ := List.head?_eq_some_iff.1 hfirst
    obtain rfl : cls = "." ++ String.ofList rest := by
      rw [← String.toList_inj, hrest]
      simp
    rw [← String.append_assoc]
    exact .relative _
  next hfirst =>
    split
    next h => exact .full (List.contains_iff_mem.1 h) hfirst
    next h => exact .simple fun hmem => h (List.contains_iff_mem.2 hmem)

theorem isOfKind_iff {e : Element} {kind : ComponentKind} :
    IsOfKind e kind ↔
      ComponentKind.ofAnyCase? (String.ofList (localName e.name.toList)) = some kind := by
  rw [ComponentKind.ofAnyCase?_eq_some_iff, String.toList_ofList]
  constructor
  · rintro ⟨name, hname, hlower⟩
    rw [localName_eq_iff.2 hname, hlower]
  · intro hlower
    refine ⟨String.ofList (localName e.name.toList), ?_, by rwa [String.toList_ofList]⟩
    rw [← localName_eq_iff, String.toList_ofList]

/-- What an element declares means the component in the package. -/
theorem isComponent_toComponent {e : Element} {d : Declaration} (h : declaration? e = some d)
    (packageName : String) (es : List Element) :
    IsComponent packageName es e
      (d.toComponent packageName (es.foldl Outline.take .empty).applicationEnabled) := by
  rw [declaration?] at h
  split at h
  · simp at h
  next kind hkind =>
    obtain ⟨cls, hcls, rfl⟩ := Option.map_eq_some_iff.1 h
    refine ⟨isOfKind_iff.2 hkind, ⟨cls, Attributes.first?_eq_some_iff.1 hcls,
      isQualified_qualify packageName cls⟩, ?_, ?_⟩
    · simp only [Declaration.toComponent, ← Attributes.first?_eq_some_iff]
      cases e.attributes.first? "exported" with
      | none => simp
      | some value => simp [Text.spellsTrue_iff]
    · simp only [Declaration.toComponent, ← Attributes.first?_eq_some_iff, Bool.and_eq_true,
        Outline.applicationEnabled_foldl_take, and_comm (b := _ = true)]
      cases e.attributes.first? "enabled" with
      | none => simp
      | some value => simp [Text.spellsTrue_iff]

/-- The declarations of a part of the elements mean the components that the part declares. -/
theorem components_filterMap (packageName : String) (es rest : List Element) :
    Components packageName es rest ((rest.filterMap declaration?).map
      (·.toComponent packageName (es.foldl Outline.take .empty).applicationEnabled)) := by
  -- Whether components are enabled is told by all elements, not only by those that are left.
  induction rest with
  | nil => exact .nil
  | cons e rest ih =>
    cases h : declaration? e with
    | none =>
      rw [List.filterMap_cons_none h]
      refine .other (fun kind cls hkind hcls => ?_) ih
      rw [declaration?, isOfKind_iff.1 hkind, Option.map_eq_none_iff] at h
      rw [← Attributes.first?_eq_some_iff, h] at hcls
      cases hcls
    | some d =>
      rw [List.filterMap_cons_some h, List.map_cons]
      exact .declared (isComponent_toComponent h packageName es) ih

end Manifest

/-! ## Manifests -/

section

open Xml Manifest

/-- What is read of a manifest is told by its elements, however it is written: if its last
`manifest` element names the package, these are the components that elements at any depth declare,
in document order; otherwise nothing is read. -/
theorem readManifest_of_renders {text : List Char} {root : Element} (hname : IsXmlName root.name)
    (hattributes : root.attributes.AreWellNamed) (hchildren : root.children.IsWellNamed)
    (htext : RendersDocument text root) :
    (∀ packageName, NamesPackageIn (root :: root.children.descendants) packageName →
      ∃ components, readManifest (String.ofList text) = .ok ⟨packageName, components⟩ ∧
        Components packageName (root :: root.children.descendants)
          (root :: root.children.descendants) components) ∧
      ((¬∃ packageName, NamesPackageIn (root :: root.children.descendants) packageName) →
        readManifest (String.ofList text) = .error .noPackage) := by
  obtain ⟨htags, hfailure⟩ := htext.exists_startTags_events hname hattributes hchildren
  -- From here on the document is told by its elements.
  generalize root :: root.children.descendants = es at htags ⊢
  have hfold : (events (String.ofList text)).items.foldlM Outline.push .empty =
      .ok (es.foldl Outline.take .empty) := by
    rw [Outline.foldlM_push_eq]
    exact Outline.foldlM_pushTag htags .empty
  rw [readManifest_eq_finish hfold hfailure, Outline.finish]
  refine ⟨fun packageName hpackage => ?_, fun hpackage => ?_⟩
  · rw [Outline.packageName_foldl_take.2 hpackage, Outline.declared_foldl_take]
    exact ⟨_, rfl, components_filterMap packageName es es⟩
  · cases hnone : (es.foldl Outline.take .empty).packageName with
    | none => rfl
    | some packageName =>
      exact absurd ⟨packageName, Outline.packageName_foldl_take.1 hnone⟩ hpackage

/-- A document with a declaration, references, and an element with a prefix that is written as two
tags. -/
theorem readManifest_of_renders_references :
    let activity : Element := ⟨"x:Activity", [("x:name", ".A")], .nil⟩
    let root : Element := ⟨"manifest", [("package", "a.b")], .text "<" activity.toContent⟩
    let text :=
      "<?v?>\n<manifest package=\"a.b\">&lt;<x:Activity x:name = '.&#65;'></x:Activity></manifest>"
    let p : PackageComponents := ⟨"a.b", [⟨.activity, "a.b.A", false, true⟩]⟩
    IsXmlName root.name ∧ root.attributes.AreWellNamed ∧ root.children.IsWellNamed ∧
      RendersDocument text.toList root ∧ NamesPackageIn [root, activity] "a.b" ∧
        readManifest (String.ofList text.toList) = .ok p ∧
          Components "a.b" [root, activity] [root, activity] p.components := by
  intro activity root text p
  have hname : IsXmlName root.name := by decide
  have hattributes : root.attributes.AreWellNamed := by decide
  have hchildren : root.children.IsWellNamed := ⟨by decide, by decide, trivial, trivial⟩
  have hvalue : Spells (MayStandIn '\'') ".&#65;".toList ".A".toList :=
    .char (by decide) (@Spells.reference _ "65".toList 'A' [] [] rfl .nil)
  have hactivity : SpellsTag "x:Activity x:name = '.&#65;'".toList "x:Activity"
      activity.attributes := by
    refine ⟨" x:name = '.&#65;'".toList, [], rfl, ?_, by decide⟩
    exact @SpellsAttributes.cons [' '] [' '] [' '] ".&#65;".toList [] "x:name" ".A" '\'' []
      (by decide) (by decide) (by decide) (by decide) (by decide) hvalue .nil
  have hinner : Renders "&lt;<x:Activity x:name = '.&#65;'></x:Activity>".toList root.children :=
    @Renders.text "&lt;".toList _ "<" _ (@Spells.entity _ "lt" '<' [] [] (by decide) .nil)
      (@Renders.element _ [] [] [] _ _ _ _ hactivity .nil (by decide) .nil)
  have htext : RendersDocument text.toList root :=
    ⟨[], "<?v?>\n".toList, _, [], by decide, .inl rfl,
      @IsMisc.instruction ['v'] ['\n'] (by decide) (.space (by decide) .nil),
      @Renders.element _ _ [] [] _ _ _ _ (.printTag _ _) hinner (by decide) .nil, .nil⟩
  have hpackage : NamesPackageIn [root, activity] "a.b" :=
    ⟨root, ⟨by decide, [], [activity], rfl, by decide⟩, [], "package", [], rfl, by decide,
      by decide⟩
  have hread : readManifest (String.ofList text.toList) = .ok p := by decide +kernel
  obtain ⟨components, hcomponents, hall⟩ :=
    (readManifest_of_renders hname hattributes hchildren htext).1 "a.b" hpackage
  rw [hread, Except.ok.injEq, PackageComponents.mk.injEq] at hcomponents
  obtain ⟨-, rfl⟩ := hcomponents
  exact ⟨hname, hattributes, hchildren, htext, hpackage, hread, hall⟩

/-- Of two attributes with one local name, the second does not count: an activity is not exported
although one of its attributes says so. -/
theorem readManifest_of_renders_ne :
    let activity : Element :=
      ⟨"activity", [("name", ".A"), ("a:exported", "false"), ("b:exported", "true")], .nil⟩
    let root : Element :=
      ⟨"manifest", [("xmlns:a", "u:a"), ("xmlns:b", "u:b"), ("package", "a.b")], activity.toContent⟩
    let text := "<manifest xmlns:a=\"u:a\" xmlns:b=\"u:b\" package=\"a.b\">".toList ++
      "<activity name=\".A\" a:exported=\"false\" b:exported=\"true\"/></manifest>".toList
    IsXmlName root.name ∧ root.attributes.AreWellNamed ∧ root.children.IsWellNamed ∧
      RendersDocument text root ∧
        (∃ key value, (key, value) ∈ activity.attributes ∧ HasLocalName key "exported" ∧
          Text.MeansTrue value) ∧
            readManifest (String.ofList text) =
              .ok ⟨"a.b", [⟨.activity, "a.b.A", false, true⟩]⟩ := by
  intro activity root text
  have hname : IsXmlName root.name := by decide
  have hattributes : root.attributes.AreWellNamed := by decide
  have hchildren : root.children.IsWellNamed := ⟨by decide, by decide, trivial, trivial⟩
  have htext : RendersDocument text root :=
    ⟨[], [], _, [], by decide, .inl rfl, .nil,
      @Renders.element _ _ [] [] _ _ _ _ (.printTag _ _) (.selfClosed (.printTag _ _) .nil)
        (by decide) .nil, .nil⟩
  have htrue : Text.MeansTrue "true" := Text.spellsTrue_iff.1 (by decide)
  exact ⟨hname, hattributes, hchildren, htext,
    ⟨"b:exported", "true", by decide, by decide, htrue⟩, by decide +kernel⟩

end

end IntentFirewall
