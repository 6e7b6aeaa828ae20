import IntentFirewall.Proofs.Component.Outline
import IntentFirewall.Proofs.Xml.Nesting
import IntentFirewall.Proofs.Xml.Prefix

/-!
# Manifests that are cut off

Reading a manifest ends where the document ends, whether or not elements are open there. So a
manifest that is cut off can be read, and the components that were to come are missing without
notice. A document that is read for its root element cannot be cut off like that.

## Main definitions

* `Reader.Leaves`: how a document is read to its end, and which elements are open there.
* `Manifest.NamesPackage`: start tags the last `manifest` one of which names the package.

## Main results

* `Reader.leaves_iff`: a document is read to its end if reading meets no fault. Every end tag
  repeats the name of the innermost open element.
* `readManifest_append`: which parts of a manifest are read, and what is missing then.
-/

namespace IntentFirewall
namespace Xml

/-! ## Open elements -/

/-- An event that opens and closes nothing. -/
def Event.IsFlat : Event → Prop
  | .opened _ => False
  | .closed => False
  | _ => True

namespace Reader

variable {r r' : Reader} {e : Event} {names : List (List Char)}

/-- The document from a place on is read to its end, where the elements of the given names are
open, innermost first. -/
inductive Leaves : Reader → List (List Char) → Prop
  /-- The end. -/
  | done {r : Reader} (h : r.next = .ok none) : Leaves r r.openTags
  /-- A start tag opens an element of its name. -/
  | opened {r r' : Reader} {tag : Tag} {names : List (List Char)}
    (h : r.next = .ok (some (.opened tag, r'))) (htags : r'.openTags = tag.name :: r.openTags)
    (hbehind : Leaves r' names) : Leaves r names
  /-- An end tag repeats the name of the innermost open element, which it closes. White space may
  stand behind the name. -/
  | closed {r r' : Reader} {name spaces : List Char} {names : List (List Char)}
    (h : r.next = .ok (some (.closed, r'))) (htags : r.openTags = name :: r'.openTags)
    (htext : r.skip.rest = "</".toList ++ name ++ spaces ++ '>' :: r'.rest)
    (hspaces : ∀ c ∈ spaces, isSpace c = true) (hbehind : Leaves r' names) : Leaves r names
  /-- Everything else opens and closes nothing. -/
  | flat {r r' : Reader} {e : Event} {names : List (List Char)}
    (h : r.next = .ok (some (e, r'))) (he : e.IsFlat) (htags : r'.openTags = r.openTags)
    (hbehind : Leaves r' names) : Leaves r names

/-- Markup is read as no end tag if its content is not. -/
theorem enclosed_ne_closed {σ : Type} {ending : Ending σ} {unclosed : SyntaxError}
    {event : Reader → List Char → Except SyntaxFault (Event × Reader)}
    (hevent : ∀ q content, event q content ≠ .ok (.closed, r')) :
    r.enclosed ending unclosed event ≠ .ok (.closed, r') := by
  intro h
  obtain ⟨content, rest, -, -, hclosed⟩ := exists_of_enclosed h
  exact hevent _ _ hclosed

/-- An end tag repeats the name of the innermost open element. -/
theorem exists_of_endTag_closed {behind : List Char} (hslash : r.rest = '/' :: behind)
    (h : r.endTag = .ok (.closed, r')) :
    ∃ name spaces, r.openTags = name :: r'.openTags ∧
      r.rest = '/' :: name ++ spaces ++ '>' :: r'.rest ∧ ∀ c ∈ spaces, isSpace c = true := by
  obtain ⟨content, rest, hrest, -, hevent⟩ := exists_of_enclosed h
  obtain ⟨name, rfl⟩ : ∃ name, content = '/' :: name := by
    cases content with
    | nil => simp [hslash] at hrest
    | cons c name =>
      obtain rfl : '/' = c := (List.cons.inj (hslash.symm.trans hrest)).1
      exact ⟨name, rfl⟩
  obtain ⟨spaces, hname, hspaces⟩ := exists_eq_endName_append name
  simp only [finish, List.drop_one, List.tail_cons] at hevent
  split at hevent
  · simp at hevent
  next expected outer htags =>
    split at hevent
    next hfound =>
      obtain rfl := (Prod.mk.inj (Except.ok.inj hevent)).2
      have hcontent : '/' :: name = '/' :: expected ++ spaces := by
        rw [← hfound, List.cons_append, ← hname]
      refine ⟨expected, spaces, htags, ?_, hspaces⟩
      rw [hrest, hcontent]
      rfl
    · simp at hevent

/-- Only an end tag is read as the end of an element. -/
theorem exists_of_markup_closed (h : r.markup = .ok (.closed, r')) :
    ∃ name spaces, r.openTags = name :: r'.openTags ∧
      r.rest = '/' :: name ++ spaces ++ '>' :: r'.rest ∧ ∀ c ∈ spaces, isSpace c = true := by
  -- Of the kinds of markup, each but the end tag is read as an event of its own.
  rw [markup] at h
  split at h
  · refine absurd h (enclosed_ne_closed fun q content hq => ?_)
    split at hq <;> simp at hq
  · refine absurd h (enclosed_ne_closed fun q content hq => ?_)
    split at hq <;> simp at hq
  · refine absurd h (enclosed_ne_closed fun q content hq => ?_)
    split at hq <;> [split at hq; skip] <;> simp at hq
  · refine absurd h (enclosed_ne_closed fun q content hq => ?_)
    split at hq <;> [split at hq; skip] <;> simp at hq
  · simp at h
  · refine absurd h (enclosed_ne_closed fun q content hq => ?_)
    split at hq <;> simp at hq
  next hslash => exact exists_of_endTag_closed hslash h
  · refine absurd h (enclosed_ne_closed fun q content hq => ?_)
    rw [start] at hq
    split at hq <;> simp at hq

/-- An end tag is read where it stands, behind white space. -/
theorem exists_of_next_closed (h : r.next = .ok (some (.closed, r'))) :
    ∃ name spaces, r.openTags = name :: r'.openTags ∧
      r.skip.rest = "</".toList ++ name ++ spaces ++ '>' :: r'.rest ∧
        ∀ c ∈ spaces, isSpace c = true := by
  rw [next] at h
  split at h
  · simp at h
  next rest hrest =>
    cases hmarkup : markup { r.skip with rest := rest, consumed := r.skip.consumed + 1 } with
    | error f => simp [hmarkup, Except.map] at h
    | ok p =>
      obtain rfl : p = (.closed, r') := by simpa [hmarkup, Except.map] using h
      obtain ⟨name, spaces, htags, htext, hspaces⟩ := exists_of_markup_closed hmarkup
      refine ⟨name, spaces, htags, ?_, hspaces⟩
      rw [hrest, show rest = _ from htext]
      rfl
  · simp [text] at h

/-- How an event goes on, given how the document goes on behind it. -/
theorem Leaves.of_next (h : r.next = .ok (some (e, r'))) (hbehind : r'.Leaves names) :
    r.Leaves names := by
  have hnest := nest_of_next h
  cases e with
  | opened tag => exact .opened h (Option.some.inj hnest).symm hbehind
  | closed =>
    obtain ⟨name, spaces, htags, htext, hspaces⟩ := exists_of_next_closed h
    exact .closed h htags htext hspaces hbehind
  | _ => exact .flat h trivial (Option.some.inj hnest).symm hbehind

/-- A document is read to its end exactly if reading meets no fault, and what is open there is what
the events say. -/
theorem leaves_iff : r.Leaves names ↔
    r.events.failure = none ∧ r.events.items.foldlM Event.nest r.openTags = some names := by
  have hcons {r r' : Reader} {e : Event} (h : r.next = .ok (some (e, r'))) :
      r.events.failure = r'.events.failure ∧
        r.events.items.foldlM Event.nest r.openTags =
          r'.events.items.foldlM Event.nest r'.openTags := by
    rw [events_of_next h]
    refine ⟨rfl, ?_⟩
    rw [Scan.prepend, List.singleton_append, List.foldlM_cons, nest_of_next h]
    rfl
  constructor
  · intro h
    induction h with
    | done h =>
      rw [events_of_next_none h]
      exact ⟨rfl, rfl⟩
    | opened h htags hbehind ih => rwa [(hcons h).1, (hcons h).2]
    | closed h htags htext hspaces hbehind ih => rwa [(hcons h).1, (hcons h).2]
    | flat h he htags hbehind ih => rwa [(hcons h).1, (hcons h).2]
  · fun_induction events r with
    | case1 r f hnext => simp
    | case2 r hnext =>
      rintro ⟨-, hnames⟩
      obtain rfl := Option.some.inj hnames
      exact .done hnext
    | case3 r e r' hnext ih =>
      rintro ⟨hfailure, hnames⟩
      rw [Scan.items_cons, List.foldlM_cons, nest_of_next hnext] at hnames
      exact .of_next hnext (ih ⟨hfailure, hnames⟩)

/-- A document that is read to its end leaves some elements open, or none. -/
theorem exists_leaves (h : r.events.failure = none) : ∃ names, r.Leaves names := by
  fun_induction events r with
  | case1 r f hnext => simp at h
  | case2 r hnext => exact ⟨_, .done hnext⟩
  | case3 r e r' hnext ih =>
    obtain ⟨names, hbehind⟩ := ih h
    exact ⟨names, .of_next hnext hbehind⟩

end Reader

/-! ## Elements that have begun -/

namespace Builder

variable {b b' : Builder}

/-- An element has been opened. -/
def HasBegun (b : Builder) : Prop := b.openTags ≠ [] ∨ b.root ≠ none

theorem hasBegun_of_attach {e : Element} (h : b.attach e = .ok b') : b'.HasBegun := by
  rcases attach_cases h with hnode | ⟨-, -, rfl⟩
  · left
    obtain ⟨f, outer, -, rfl⟩ := addNode_cases hnode
    simp [openTags]
  · right
    simp

/-- A start tag begins an element, and what has begun is not undone. -/
theorem hasBegun_of_push {e : Event} (hbegun : b.HasBegun ∨ ∃ tag, e.startTag? = some tag)
    (h : b.push e = .ok b') : b'.HasBegun := by
  cases hroot : b.root with
  | some root =>
    -- A root element that has been closed stays, whatever comes behind it.
    right
    rw [root_of_push hroot h]
    simp
  | none =>
    have hnest := nest_of_push h
    have hopen : (∀ tag, e.startTag? ≠ some tag) → b.openTags ≠ [] := by
      intro htag
      rcases hbegun with (hopen | hclosed) | ⟨tag, hstart⟩
      · exact hopen
      · exact absurd hroot hclosed
      · exact absurd hstart (htag tag)
    cases e with
    | opened tag =>
      left
      rw [← Option.some.inj hnest]
      simp
    | selfClosed tag =>
      obtain ⟨attributes, -, hattach⟩ := push_selfClosed_eq_ok_iff.1 h
      exact hasBegun_of_attach hattach
    | closed =>
      obtain ⟨f, outer, -, hattach⟩ := push_closed_eq_ok_iff.1 h
      exact hasBegun_of_attach hattach
    | _ =>
      left
      rw [← Option.some.inj hnest]
      exact hopen fun tag => by simp [Event.startTag?]

theorem hasBegun_of_foldlM {es : List Event}
    (hbegun : b.HasBegun ∨ ∃ e ∈ es, ∃ tag, e.startTag? = some tag)
    (h : es.foldlM push b = .ok b') : b'.HasBegun := by
  induction es generalizing b with
  | nil =>
    obtain rfl : b = b' := Except.ok.inj h
    simpa using hbegun
  | cons e es ih =>
    obtain ⟨b₁, hpush, hrest⟩ := foldlM_cons_eq_ok_iff.1 h
    refine ih ?_ hrest
    rcases hbegun with hbegun | ⟨f, hf, htag⟩
    · exact .inl (hasBegun_of_push (.inl hbegun) hpush)
    · rcases List.mem_cons.1 hf with rfl | hf
      · exact .inl (hasBegun_of_push (.inr htag) hpush)
      · exact .inr ⟨f, hf, htag⟩

end Builder

/-! ## Documents with a root element -/

/-- A document that ends with the end tag of its root element leaves an element open if it is cut
off before, once an element has begun. -/
theorem ne_nil_of_leaves {part more : List Char} {root : Element} {names : List (List Char)}
    (hwhole : readRoot (String.ofList (part ++ more)) = .ok root)
    (hlast : (events (String.ofList (part ++ more))).items.getLast? = some .closed)
    (hmore : skipSpace more ≠ [])
    (hbegun : ∃ e ∈ (events (String.ofList part)).items, ∃ tag, e.startTag? = some tag)
    (hleaves : (Reader.ofChars part).Leaves names) : names ≠ [] := by
  rintro rfl
  obtain ⟨hfailure', b', hfold', hstack', -⟩ := exists_of_readRoot hwhole
  obtain ⟨hfailure, hnames⟩ := Reader.leaves_iff.1 hleaves
  rw [events, String.toList_ofList] at hlast hfailure' hfold' hbegun
  have hpart : part ≠ [] := by
    rintro rfl
    obtain ⟨e, he, -⟩ := hbegun
    rw [Reader.events_of_next_none rfl] at he
    cases he
  rw [ofChars_append hpart] at hlast hfailure' hfold'
  obtain ⟨es, q, hitems, hextend⟩ := Reader.exists_events_extend hfailure
  rw [hextend more] at hlast hfailure' hfold'
  obtain ⟨b, hes, hbehind⟩ := foldlM_append_eq_ok_iff.1 hfold'
  -- A text at the end opens nothing, so that it does not matter whether it is taken.
  have hnest : es.foldlM Event.nest [] = some b.openTags := Builder.foldlM_nest hes
  rw [Reader.openTags_ofChars] at hnames
  have hclosed : b.openTags = [] ∧ ∃ e ∈ es, ∃ tag, e.startTag? = some tag := by
    rcases hitems with hitems | ⟨raw, hitems⟩
    · rw [hitems] at hnames hbegun
      exact ⟨Option.some.inj (hnest.symm.trans hnames), hbegun⟩
    · rw [hitems] at hnames hbegun
      refine ⟨?_, ?_⟩
      · rw [List.foldlM_append, hnest] at hnames
        exact Option.some.inj hnames
      · obtain ⟨e, he, tag, htag⟩ := hbegun
        rcases List.mem_append.1 he with he | he
        · exact ⟨e, he, tag, htag⟩
        · obtain rfl := List.mem_singleton.1 he
          cases htag
  have hroot : b.HasBegun := Builder.hasBegun_of_foldlM (.inr hclosed.2) hes
  obtain ⟨root', hroot'⟩ := Option.ne_none_iff_exists'.1 (hroot.resolve_left (not_not.2 hclosed.1))
  rw [Reader.getLast?_items_extend hfailure' hmore] at hlast
  exact Builder.stack_ne_nil_of_foldlM hroot' hlast hbehind hstack'

end Xml

/-! ## Outlines -/

namespace Manifest

open Xml

/-- The last `manifest` tag names the package. -/
def NamesPackage (tags : List Tag) : Prop :=
  ∃ tag, IsLast (fun t => localName t.name = "manifest".toList) tags tag ∧
    ∃ name, lookUp "package" tag.attributes = .ok (some name)

namespace Outline

/-- A package is known if the last `manifest` tag names it. -/
theorem isSome_packageName_iff {tags : List Tag} {o : Outline}
    (h : tags.foldlM pushTag .empty = .ok o) :
    o.packageName.isSome = true ↔ NamesPackage tags := by
  -- A `manifest` tag takes back what was known of the package, so that the last one counts.
  induction tags using List.reverseRecOn generalizing o with
  | nil =>
    obtain rfl : Outline.empty = o := Except.ok.inj h
    simp [NamesPackage, not_isLast_nil, Outline.empty]
  | append_singleton tags tag ih =>
    obtain ⟨o₁, htags, htag⟩ := foldlM_concat_eq_ok_iff.1 h
    simp only [NamesPackage, isLast_concat] at ih ⊢
    rcases pushTag_cases htag with ⟨hname, packageName, hlookUp, rfl⟩ | ⟨hname, hsame, -⟩
    · simp [hname, hlookUp, Option.isSome_iff_exists]
    · rw [hsame, ih htags]
      simp only [hname, false_and, not_false_eq_true, true_and, false_or]

end Outline
end Manifest

/-! ## Parts of a manifest -/

section

open Xml Manifest

variable {part more : List Char}

/-- If the whole of a manifest is taken, so is every part of it. -/
theorem exists_outline_of_append {o' : Outline}
    (hwhole : (events (String.ofList (part ++ more))).items.foldlM Outline.push .empty = .ok o')
    (hpart : (events (String.ofList part)).failure = none) :
    ∃ o newer, (events (String.ofList part)).items.foldlM Outline.push .empty = .ok o ∧
      o'.declared = newer ++ o.declared := by
  by_cases hnil : part = []
  · subst hnil
    have hnone : events (String.ofList []) = ⟨[], none⟩ := Reader.events_of_next_none rfl
    exact ⟨.empty, o'.declared, by rw [hnone]; rfl, (List.append_nil _).symm⟩
  · rw [events, String.toList_ofList] at hwhole hpart ⊢
    obtain ⟨es, q, hitems, hextend⟩ := Reader.exists_events_extend hpart
    rw [ofChars_append hnil, hextend more] at hwhole
    obtain ⟨o, hes, hbehind⟩ := foldlM_append_eq_ok_iff.1 hwhole
    rw [Outline.foldlM_push_eq] at hbehind
    obtain ⟨newer, hnewer⟩ := Outline.exists_declared_eq hbehind
    refine ⟨o, newer, ?_, hnewer⟩
    rcases hitems with hitems | ⟨raw, hitems⟩
    · rw [hitems, hes]
    · rw [hitems, foldlM_append_of_ok hes]
      rfl

/-- Which parts of a manifest are read: those that do not end inside markup and in which the package
has been named. Every end tag in the manifest closes the innermost open element, but nothing asks
for it to come: what a part gives are the components declared in it, and it leaves elements open if
the end tag of the root element is missing. -/
theorem readManifest_append {whole : PackageComponents}
    (hwhole : readManifest (String.ofList (part ++ more)) = .ok whole) :
    (∃ names, (Reader.ofChars (part ++ more)).Leaves names) ∧
      ((∃ p, readManifest (String.ofList part) = .ok p) ↔
        (events (String.ofList part)).failure = none ∧
          NamesPackage (startTags (events (String.ofList part)).items)) ∧
      ∀ p, readManifest (String.ofList part) = .ok p →
        (∃ (on on' : Bool) (declared missing : List Manifest.Declaration),
          p.components = declared.map (·.toComponent p.packageName on) ∧
            whole.components = (declared ++ missing).map (·.toComponent whole.packageName on')) ∧
        ∀ root, readRoot (String.ofList (part ++ more)) = .ok root →
          (events (String.ofList (part ++ more))).items.getLast? = some .closed →
            skipSpace more ≠ [] →
              ∃ name names, (Reader.ofChars part).Leaves (name :: names) := by
  obtain ⟨o', hfold', hfailure', hfinish'⟩ := readManifest_eq_ok_iff.1 hwhole
  have hnamed {o : Outline}
      (hfold : (events (String.ofList part)).items.foldlM Outline.push .empty = .ok o) :
      o.packageName.isSome = true ↔
        NamesPackage (startTags (events (String.ofList part)).items) := by
    rw [Outline.foldlM_push_eq] at hfold
    exact Outline.isSome_packageName_iff hfold
  refine ⟨?_, ⟨?_, ?_⟩, ?_⟩
  · rw [events, String.toList_ofList] at hfailure'
    exact Reader.exists_leaves hfailure'
  · rintro ⟨p, hp⟩
    obtain ⟨o, hfold, hfailure, hfinish⟩ := readManifest_eq_ok_iff.1 hp
    refine ⟨hfailure, (hnamed hfold).1 ?_⟩
    rw [(Outline.finish_eq_ok_iff.1 hfinish).1]
    rfl
  · rintro ⟨hfailure, hnames⟩
    obtain ⟨o, -, hfold, -⟩ := exists_outline_of_append hfold' hfailure
    obtain ⟨name, hname⟩ := Option.isSome_iff_exists.1 ((hnamed hfold).2 hnames)
    refine ⟨⟨name, o.declared.reverse.map (·.toComponent name o.applicationEnabled)⟩, ?_⟩
    exact readManifest_eq_ok_iff.2 ⟨o, hfold, hfailure, Outline.finish_eq_ok_iff.2 ⟨hname, rfl⟩⟩
  · intro p hp
    obtain ⟨o, hfold, hfailure, hfinish⟩ := readManifest_eq_ok_iff.1 hp
    obtain ⟨hname, hcomponents⟩ := Outline.finish_eq_ok_iff.1 hfinish
    obtain ⟨o₁, newer, hfold₁, hnewer⟩ := exists_outline_of_append hfold' hfailure
    obtain rfl := Except.ok.inj (hfold.symm.trans hfold₁)
    refine ⟨⟨o.applicationEnabled, o'.applicationEnabled, o.declared.reverse, newer.reverse,
      hcomponents, ?_⟩, ?_⟩
    · rw [(Outline.finish_eq_ok_iff.1 hfinish').2, hnewer, List.reverse_append]
    · -- The package is known from a start tag, so that an element has begun in the part.
      intro root hroot hlast hmore
      have hpackage : NamesPackage (startTags (events (String.ofList part)).items) := by
        rw [← hnamed hfold, hname]
        rfl
      obtain ⟨tag, ⟨-, front, back, htags, -⟩, -⟩ := hpackage
      have hmem : tag ∈ startTags (events (String.ofList part)).items := by
        rw [htags]
        exact List.mem_append_right _ List.mem_cons_self
      obtain ⟨e, he, htag⟩ := List.mem_filterMap.1 hmem
      rw [events, String.toList_ofList] at hfailure
      obtain ⟨names, hleaves⟩ := Reader.exists_leaves hfailure
      have hne := ne_nil_of_leaves hroot hlast hmore ⟨e, he, tag, htag⟩ hleaves
      obtain ⟨name, names, rfl⟩ := List.exists_cons_of_ne_nil hne
      exact ⟨name, names, hleaves⟩

/-- A manifest without its second component and its two end tags. -/
theorem readManifest_append_service :
    let part := "<manifest package='a.b'><application><service name='.S'/>".toList
    let more := "<activity name='.A'/></application></manifest>".toList
    let whole : PackageComponents :=
      ⟨"a.b", [⟨.service, "a.b.S", false, true⟩, ⟨.activity, "a.b.A", false, true⟩]⟩
    let p : PackageComponents := ⟨"a.b", [⟨.service, "a.b.S", false, true⟩]⟩
    let root : Element := ⟨"manifest", [("package", "a.b")], .element "application" []
      (.element "service" [("name", ".S")] .nil (.element "activity" [("name", ".A")] .nil .nil))
      .nil⟩
    readManifest (String.ofList (part ++ more)) = .ok whole ∧
      readManifest (String.ofList part) = .ok p ∧
        readRoot (String.ofList (part ++ more)) = .ok root ∧
          (events (String.ofList (part ++ more))).items.getLast? = some .closed ∧
            skipSpace more ≠ [] ∧ ∃ name names, (Reader.ofChars part).Leaves (name :: names) := by
  intro part more whole p root
  have hwhole : readManifest (String.ofList (part ++ more)) = .ok whole := by decide +kernel
  have hp : readManifest (String.ofList part) = .ok p := by decide +kernel
  have hroot : readRoot (String.ofList (part ++ more)) = .ok root := by decide +kernel
  have hlast : (events (String.ofList (part ++ more))).items.getLast? = some .closed := by
    decide +kernel
  have hmore : skipSpace more ≠ [] := by decide +kernel
  exact ⟨hwhole, hp, hroot, hlast, hmore,
    ((readManifest_append hwhole).2.2 p hp).2 root hroot hlast hmore⟩

/-- A manifest that is cut off before its end tags is read, with the components up to there, while
both its elements are open. -/
theorem readManifest_append_ne :
    let part := "<manifest package='a.b'><application><service name='.S'/>".toList
    let more := "<activity name='.A'/></application></manifest>".toList
    let service : Component := ⟨.service, "a.b.S", false, true⟩
    let activity : Component := ⟨.activity, "a.b.A", false, true⟩
    readManifest (String.ofList (part ++ more)) = .ok ⟨"a.b", [service, activity]⟩ ∧
      (Reader.ofChars (part ++ more)).Leaves [] ∧
        readManifest (String.ofList part) = .ok ⟨"a.b", [service]⟩ ∧
          (Reader.ofChars part).Leaves ["application".toList, "manifest".toList] := by
  intro part more service activity
  refine ⟨by decide +kernel, Reader.leaves_iff.2 ?_, by decide +kernel, Reader.leaves_iff.2 ?_⟩
  · decide +kernel
  · decide +kernel

end
end IntentFirewall
