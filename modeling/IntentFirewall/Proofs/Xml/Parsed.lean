import IntentFirewall.Proofs.Xml.Building
import IntentFirewall.Proofs.Xml.Reading
import Mathlib.Data.List.Nodup

/-!
# What reading finds

The elements that are read from a document can be written so that their names, keys and comments
are found again.

* `Event.IsSound`: what holds of an event between the elements that are open before it and those
  that are open behind it. `Reader.isSound_of_next` says that it holds of every event.
* `Builder.IsReadable`: what holds of a builder between two events; `Builder.isReadable_of_push`
  is the step and `Builder.isReadable_of_foldlM` the run.
* `isReadable_of_readRoot`: what holds of the root element.
-/

namespace IntentFirewall.Xml

/-! ## Tags -/

/-- A name that does not begin like other markup than a start tag. -/
def StartsTag (name : List Char) : Prop := ∀ c, name.head? = some c → c ≠ '!' ∧ c ≠ '?' ∧ c ≠ '/'

theorem isName_name (t : Tag) : IsName t.name := by
  intro c hc
  simpa using List.mem_takeWhile_imp hc

/-- What precedes the first white space begins like the text, if it begins at all. -/
theorem startsTag_name {t : Tag} (h : StartsTag t.content) : StartsTag t.name := by
  intro c hc
  refine h c ?_
  rw [Tag.name] at hc
  cases hcontent : t.content with
  | nil => simp [hcontent] at hc
  | cons d ds =>
    rw [hcontent, List.takeWhile_cons] at hc
    split at hc
    · exact hc
    · simp at hc

theorem startsTag_dropLast {content : List Char} (h : StartsTag content) :
    StartsTag content.dropLast := by
  intro c hc
  refine h c ?_
  match content with
  | [] => simp at hc
  | [d] => simp at hc
  | d :: e :: ds => exact hc

/-- The key of a scanned attribute can stand in a tag, and was not used before. -/
theorem isKey_of_scanAttribute {total : Nat} {seen : List (List Char × Nat)} {c : Char}
    {cs : List Char} {a : RawAttribute} {position : Nat} {rest : List Char}
    (hc : isSpace c = false) (h : scanAttribute total seen (c :: cs) = .ok (a, position, rest)) :
    IsKey a.key ∧ ∀ k ∈ seen, k.1 ≠ a.key := by
  have hkey : IsKey (splitKey (c :: cs)).1 := by
    refine ⟨hc, fun d hd => ?_⟩
    simpa using List.mem_takeWhile_imp hd
  simp only [scanAttribute] at h
  split at h
  next afterEquals heq =>
    split at h
    · simp at h
    next hseen =>
      split at h
      · simp at h
      next q afterQuote hq =>
        split at h
        · split at h
          · simp at h
          next =>
            simp only [Except.ok.injEq, Prod.mk.injEq] at h
            obtain ⟨rfl, -, -⟩ := h
            refine ⟨hkey, fun k hk => ?_⟩
            simpa using List.find?_eq_none.1 hseen k hk
        · simp at h
  next => simp at h

/-- The attributes of a tag can stand in a tag, and no key is used twice. -/
theorem areReadable_scanAttributesFrom (total : Nat) (seen : List (List Char × Nat))
    (cs : List Char) :
    (∀ a ∈ (scanAttributesFrom total seen cs).items, IsKey a.key ∧ ∀ k ∈ seen, k.1 ≠ a.key) ∧
      ((scanAttributesFrom total seen cs).items.map RawAttribute.key).Nodup := by
  induction seen, cs using scanAttributesFrom.induct total with
  | case1 seen cs hskip =>
    rw [scanAttributesFrom_nil hskip]
    simp
  | case2 seen cs c key hskip e hscan =>
    rw [scanAttributesFrom_error hskip hscan]
    simp
  | case3 seen cs c key hskip a position rest hscan ih =>
    have hspace : isSpace c = false := by
      have := List.head?_dropWhile_not isSpace cs
      rw [skipSpace] at hskip
      simpa [hskip] using this
    obtain ⟨hkey, hseen⟩ := isKey_of_scanAttribute hspace hscan
    obtain ⟨ihItems, ihNodup⟩ := ih
    rw [scanAttributesFrom_ok hskip hscan, Scan.items_cons]
    refine ⟨fun b hb => ?_, ?_⟩
    · rcases List.mem_cons.1 hb with rfl | hb
      · exact ⟨hkey, hseen⟩
      · exact ⟨(ihItems b hb).1, fun k hk => (ihItems b hb).2 k (List.mem_cons_of_mem _ hk)⟩
    · rw [List.map_cons, List.nodup_cons]
      refine ⟨fun hmem => ?_, ihNodup⟩
      obtain ⟨b, hb, hab⟩ := List.mem_map.1 hmem
      exact (ihItems b hb).2 _ List.mem_cons_self hab.symm

/-- Reading the values of attributes keeps their keys. -/
theorem map_key_of_mapM {items : List RawAttribute} {attributes : Attributes}
    (h : items.mapM (fun a => a.text.map fun value => (String.ofList a.key, value)) =
      .ok attributes) :
    items.map RawAttribute.key = attributes.map fun a => a.1.toList := by
  induction items generalizing attributes with
  | nil =>
    obtain rfl : [] = attributes := Except.ok.inj h
    rfl
  | cons a rest ih =>
    rw [List.mapM_cons] at h
    cases htext : a.text with
    | error e => simp [htext, Except.map, bind, Except.bind] at h
    | ok value =>
      cases hrest : rest.mapM fun a => a.text.map fun value => (String.ofList a.key, value) with
      | error e =>
        rw [htext, hrest] at h
        cases h
      | ok others =>
        rw [htext, hrest] at h
        obtain rfl : (String.ofList a.key, value) :: others = attributes := Except.ok.inj h
        rw [List.map_cons, List.map_cons, ih hrest, String.toList_ofList]

/-- Attributes that are read are scanned without a failure, and keep their keys. -/
theorem map_key_of_readAttributes {s : Scan AttributeError RawAttribute} {attributes : Attributes}
    (h : Builder.readAttributes s = .ok attributes) :
    s.items.map RawAttribute.key = attributes.map (fun a => a.1.toList) ∧ s.failure = none := by
  rw [Builder.readAttributes] at h
  split at h
  · simp at h
  next as hvalues =>
    split at h
    · simp at h
    next hfailure =>
      obtain rfl : as = attributes := Except.ok.inj h
      exact ⟨map_key_of_mapM hvalues, hfailure⟩

/-- The attributes that are read from a tag can stand in a tag. -/
theorem areReadable_readAttributes {t : Tag} {attributes : Attributes}
    (h : Builder.readAttributes t.attributes = .ok attributes) : attributes.AreReadable := by
  obtain ⟨hkeys, hnodup⟩ := areReadable_scanAttributesFrom (Utf8.size t.content) []
    (t.content.dropWhile (!isSpace ·))
  rw [← scanAttributes, ← Tag.attributes] at hkeys hnodup
  have hmap := (map_key_of_readAttributes h).1
  refine ⟨fun a ha => ?_, ?_⟩
  · have hmem : a.1.toList ∈ t.attributes.items.map RawAttribute.key := by
      rw [hmap]
      exact List.mem_map.2 ⟨a, ha, rfl⟩
    obtain ⟨b, hb, hkey⟩ := List.mem_map.1 hmem
    exact hkey ▸ (hkeys b hb).1
  · have hkeys : ((attributes.map Prod.fst).map String.toList).Nodup := by
      rw [List.map_map]
      exact hmap ▸ hnodup
    exact List.Nodup.of_map String.toList hkeys

/-! ## Events -/

/-- What holds of an event, given the names of the elements that are open before it and behind
it, innermost first. -/
def Event.IsSound (tags tags' : List (List Char)) : Event → Prop
  | .opened tag => tags' = tag.name :: tags ∧ StartsTag tag.name
  | .selfClosed tag => tags' = tags ∧ StartsTag tag.name
  | .closed => ∃ name, tags = name :: tags' ∧ tagEnding.pass none name = some none
  | .comment content => tags' = tags ∧ ¬"-->".toList <:+: content
  | _ => tags' = tags

namespace Reader

theorem exists_of_enclosed {σ : Type} {r r' : Reader} {ending : Ending σ}
    {unclosed : SyntaxError} {event : Reader → List Char → Except SyntaxFault (Event × Reader)}
    {e : Event} (h : r.enclosed ending unclosed event = .ok (e, r')) :
    ∃ content rest, r.rest = content ++ '>' :: rest ∧ ending.Encloses content ∧
      event (r.behind content rest) content = .ok (e, r') := by
  rw [enclosed] at h
  split at h
  · simp at h
  next content rest hsplit =>
    obtain ⟨hrest, hencloses⟩ := Ending.split_eq_some_iff.1 hsplit
    exact ⟨content, rest, hrest, hencloses, h⟩

/-- What a start tag begins with is not what other markup begins with. -/
theorem isSound_of_startTag {r r' : Reader} {e : Event} (hstart : StartsTag r.rest)
    (h : r.startTag = .ok (e, r')) : e.IsSound r.openTags r'.openTags := by
  obtain ⟨content, rest, hrest, -, hevent⟩ := exists_of_enclosed h
  have hcontent : StartsTag content := by
    intro c hc
    refine hstart c ?_
    cases content with
    | nil => simp at hc
    | cons d ds => rw [hrest]; exact hc
  simp only [start] at hevent
  split at hevent <;> simp only [Except.ok.injEq, Prod.mk.injEq] at hevent <;>
    obtain ⟨rfl, rfl⟩ := hevent
  · exact ⟨rfl, startsTag_name (startsTag_dropLast hcontent)⟩
  · exact ⟨rfl, startsTag_name hcontent⟩

/-- Behind the name in an end tag there is nothing but white space. -/
theorem exists_eq_endName_append (content : List Char) :
    ∃ spaces, content = endName content ++ spaces ∧ ∀ c ∈ spaces, isSpace c = true := by
  rw [endName]
  split
  · exact ⟨[], by simp, by simp⟩
  · -- The spaces come first when the content is read backwards.
    refine ⟨(content.reverse.takeWhile isSpace).reverse, ?_, fun c hc => ?_⟩
    · rw [Text.trimEnd, ← List.reverse_append, List.takeWhile_append_dropWhile,
        List.reverse_reverse]
    · exact List.mem_takeWhile_imp (List.mem_reverse.1 hc)

theorem pass_endName {content : List Char} (h : tagEnding.pass none content = some none) :
    tagEnding.pass none (endName content) = some none := by
  obtain ⟨spaces, hcontent, hspaces⟩ := exists_eq_endName_append content
  have hplain : ∀ c ∈ spaces, c ≠ '"' ∧ c ≠ '\'' ∧ c ≠ '>' := by
    intro c hc
    refine ⟨?_, ?_, ?_⟩ <;> rintro rfl <;> exact absurd (hspaces _ hc) (by decide)
  rw [hcontent, Ending.pass_append] at h
  obtain ⟨s, hs, hbehind⟩ := Option.bind_eq_some_iff.1 h
  rw [pass_of_plain (isQuoting_of_pass .none hs) hplain] at hbehind
  rw [hs, hbehind]

/-- The name in an end tag that closes an element has all its quotes closed. -/
theorem isSound_of_endTag {r r' : Reader} {e : Event} {behind : List Char}
    (hslash : r.rest = '/' :: behind) (h : r.endTag = .ok (e, r')) :
    e.IsSound r.openTags r'.openTags := by
  obtain ⟨content, rest, hrest, hencloses, hevent⟩ := exists_of_enclosed h
  have hname : tagEnding.pass none (content.drop 1) = some none := by
    have hpass := tagEnding_encloses_iff.1 hencloses
    cases content with
    | nil => exact hpass
    | cons c name =>
      obtain rfl : '/' = c := by
        rw [hslash] at hrest
        exact (List.cons.inj hrest).1
      exact hpass
  simp only [finish] at hevent
  split at hevent
  · simp at hevent
  next expected outer htags =>
    split at hevent
    next hfound =>
      simp only [Except.ok.injEq, Prod.mk.injEq] at hevent
      obtain ⟨rfl, rfl⟩ := hevent
      exact ⟨expected, htags, hfound ▸ pass_endName hname⟩
    · simp at hevent

/-- What is left of a comment without its start and its end. -/
theorem eq_of_commentContent? {markup content : List Char}
    (hencloses : commentEnding.Encloses markup) (h : commentContent? markup = some content) :
    markup = "!--".toList ++ content ++ "--".toList := by
  obtain ⟨s, hs, hcloses⟩ := hencloses
  rw [Ending.eq_foldl_of_pass hs] at hcloses
  obtain ⟨before, rfl, hlong⟩ := closes_commentEnding_iff.1 hcloses
  -- The three characters before the closing dashes can only be those that begin a comment.
  match before with
  | a :: b :: c :: inner =>
    rw [commentContent?.eq_def] at h
    split at h
    next heq =>
      simp only [List.cons_append, List.cons.injEq] at heq
      obtain ⟨rfl, rfl, rfl, rfl⟩ := heq
      simp only [List.length_append, List.length_cons, List.length_nil, Nat.add_sub_cancel,
        List.take_left', Option.some.injEq] at h
      subst h
      rfl
    · simp at h

/-- A comment that is read does not hold what ends a comment. -/
theorem isSound_of_comment {r r' : Reader} {e : Event} (h : r.comment = .ok (e, r')) :
    e.IsSound r.openTags r'.openTags := by
  obtain ⟨content, rest, -, hencloses, hevent⟩ := exists_of_enclosed h
  split at hevent
  next inner hinner =>
    simp only [Except.ok.injEq, Prod.mk.injEq] at hevent
    obtain ⟨rfl, rfl⟩ := hevent
    exact ⟨rfl, commentEnding_encloses_iff.1 (eq_of_commentContent? hencloses hinner ▸ hencloses)⟩
  · simp at hevent

/-- Markup is sound if its event neither opens nor closes an element. -/
theorem isSound_of_enclosed {σ : Type} {r r' : Reader} {ending : Ending σ}
    {unclosed : SyntaxError} {event : Reader → List Char → Except SyntaxFault (Event × Reader)}
    {e : Event}
    (hevent : ∀ q content, event q content = .ok (e, r') → r' = q ∧ ∀ tags, e.IsSound tags tags)
    (h : r.enclosed ending unclosed event = .ok (e, r')) : e.IsSound r.openTags r'.openTags := by
  obtain ⟨content, rest, -, -, hcontent⟩ := exists_of_enclosed h
  obtain ⟨rfl, hsound⟩ := hevent _ _ hcontent
  exact hsound r.openTags

theorem isSound_of_doctype {r r' : Reader} {e : Event} (h : r.doctype = .ok (e, r')) :
    e.IsSound r.openTags r'.openTags := by
  refine isSound_of_enclosed (fun q content hq => ?_) h
  split at hq <;> [split at hq; skip] <;> cases hq
  exact ⟨rfl, fun _ => rfl⟩

theorem isSound_of_markup {r r' : Reader} {e : Event} (h : r.markup = .ok (e, r')) :
    e.IsSound r.openTags r'.openTags := by
  rw [markup] at h
  split at h
  · refine isSound_of_enclosed (fun q content hq => ?_) h
    split at hq <;> cases hq
    exact ⟨rfl, fun _ => rfl⟩
  · exact isSound_of_comment h
  · exact isSound_of_doctype h
  · exact isSound_of_doctype h
  · simp at h
  · refine isSound_of_enclosed (fun q content hq => ?_) h
    split at hq <;> cases hq
    exact ⟨rfl, fun _ => rfl⟩
  next hrest => exact isSound_of_endTag hrest h
  next hdata hcomment hdoctype hlower hother hinstruction hend =>
    -- What is left begins like no other markup.
    refine isSound_of_startTag (fun c hc => ?_) h
    obtain ⟨cs, hcs⟩ : ∃ cs, r.rest = c :: cs := by
      cases hrest : r.rest with
      | nil => simp [hrest] at hc
      | cons d ds =>
        obtain rfl : d = c := by simpa [hrest] using hc
        exact ⟨ds, rfl⟩
    refine ⟨?_, ?_, ?_⟩ <;> rintro rfl
    · exact hother cs hcs
    · exact hinstruction cs hcs
    · exact hend cs hcs

/-- Every event is sound. -/
theorem isSound_of_next {r r' : Reader} {e : Event} (h : r.next = .ok (some (e, r'))) :
    e.IsSound r.openTags r'.openTags := by
  rw [next] at h
  split at h
  · simp at h
  next rest hrest =>
    cases hm : markup { r.skip with rest := rest, consumed := r.skip.consumed + 1 } with
    | error f => rw [hm] at h; simp [Except.map] at h
    | ok p =>
      rw [hm] at h
      obtain rfl : p = (e, r') := by simpa [Except.map] using h
      have hsound := isSound_of_markup hm
      exact hsound
  · simp only [Except.ok.injEq, Option.some.injEq, text, Prod.mk.injEq] at h
    obtain ⟨rfl, rfl⟩ := h
    rfl

end Reader

/-! ## Builders -/

/-- What an open element has can be written so that it is found again. -/
structure OpenElement.IsReadable (e : OpenElement) : Prop where
  /-- Its name and its attributes. -/
  tag : IsReadableTag e.name e.attributes
  /-- Its nodes so far. -/
  nodes : e.nodes.IsReadable

/-- What a builder has can be written so that it is found again. -/
structure Builder.IsReadable (b : Builder) : Prop where
  /-- The open elements. -/
  stack : ∀ e ∈ b.stack, e.IsReadable
  /-- The attributes of the root element. -/
  attributes : ∀ e, b.root = some e → e.attributes.AreReadable
  /-- The content of the root element. -/
  content : ∀ e, b.root = some e → e.children.IsReadable

theorem Content.isReadable_reverseAppend {c d : Content} (hc : c.IsReadable) (hd : d.IsReadable) :
    (c.reverseAppend d).IsReadable := by
  induction c generalizing d with
  | nil => exact hd
  | element name attributes children rest ihChildren ihRest =>
    obtain ⟨htag, hname, hchildren, hrest⟩ := hc
    exact ihRest hrest ⟨htag, hname, hchildren, hd⟩
  | text t rest ih => exact ih hc hd
  | comment t rest ih => exact ih hc.2 ⟨hc.1, hd⟩

namespace Builder

/-- The names of the open elements, innermost first. -/
def openTags (b : Builder) : List (List Char) := b.stack.map fun e => e.name.toList

variable {b b' : Builder}

theorem isReadable_empty : empty.IsReadable := by
  constructor <;> simp [empty]

/-- A node that can be read back is added to the innermost open element. -/
theorem isReadable_of_addNode {node : Content → Content} (hb : b.IsReadable)
    (hnode : ∀ c : Content, c.IsReadable → (node c).IsReadable) (h : b.addNode node = some b') :
    b'.IsReadable ∧ b'.openTags = b.openTags := by
  obtain ⟨e, outer, hstack, rfl⟩ := addNode_cases h
  have he := hb.stack e (hstack ▸ List.mem_cons_self)
  refine ⟨⟨fun f hf => ?_, hb.attributes, hb.content⟩, ?_⟩
  · rcases List.mem_cons.1 hf with rfl | hf
    · exact ⟨he.tag, hnode _ he.nodes⟩
    · exact hb.stack f (hstack ▸ List.mem_cons_of_mem e hf)
  · simp [openTags, hstack]

theorem isReadable_of_attach {e : Element} (hb : b.IsReadable)
    (htag : IsReadableTag e.name e.attributes)
    (hname : e.children ≠ .nil → tagEnding.pass none e.name.toList = some none)
    (hchildren : e.children.IsReadable) (h : b.attach e = .ok b') :
    b'.IsReadable ∧ b'.openTags = b.openTags := by
  rcases attach_cases h with hnode | ⟨-, -, rfl⟩
  · refine isReadable_of_addNode hb (fun c hc => ?_) hnode
    exact ⟨htag, hname, hchildren, hc⟩
  · refine ⟨⟨hb.stack, fun f hf => ?_, fun f hf => ?_⟩, rfl⟩ <;>
      obtain rfl := Option.some.inj hf
    · exact htag.areReadable
    · exact hchildren

theorem isReadable_of_addText {t : String} (hb : b.IsReadable) (h : b.addText t = .ok b') :
    b'.IsReadable ∧ b'.openTags = b.openTags := by
  rcases addText_cases h with hnode | ⟨-, rfl⟩
  · refine isReadable_of_addNode hb (fun c hc => ?_) hnode
    exact hc
  · exact ⟨hb, rfl⟩

theorem isReadableTag_of_readAttributes {t : Tag} {attributes : Attributes}
    (hstart : StartsTag t.name) (h : readAttributes t.attributes = .ok attributes) :
    IsReadableTag (String.ofList t.name) attributes where
  isName := by
    rw [String.toList_ofList]
    exact isName_name t
  start := by
    rw [String.toList_ofList]
    exact hstart
  areReadable := areReadable_readAttributes h

/-- A sound event keeps a builder readable. -/
theorem isReadable_of_push {e : Event} {tags : List (List Char)} (hb : b.IsReadable)
    (he : e.IsSound b.openTags tags) (h : b.push e = .ok b') :
    b'.IsReadable ∧ b'.openTags = tags := by
  cases e with
  | opened tag =>
    obtain ⟨rfl, hstart⟩ := he
    obtain ⟨attributes, hattributes, rfl⟩ := push_opened_eq_ok_iff.1 h
    refine ⟨⟨fun e he => ?_, hb.attributes, hb.content⟩, by simp [openTags]⟩
    rcases List.mem_cons.1 he with rfl | he
    · exact ⟨isReadableTag_of_readAttributes hstart hattributes, trivial⟩
    · exact hb.stack e he
  | selfClosed tag =>
    obtain ⟨rfl, hstart⟩ := he
    obtain ⟨attributes, hattributes, hattach⟩ := push_selfClosed_eq_ok_iff.1 h
    exact isReadable_of_attach hb (isReadableTag_of_readAttributes hstart hattributes)
      (fun hnil => absurd rfl hnil) Content.isReadable_nil hattach
  | closed =>
    obtain ⟨name, htags, hname⟩ := he
    obtain ⟨e, outer, hstack, hattach⟩ := push_closed_eq_ok_iff.1 h
    -- The end tag has closed the quotes of the name that the start tag has given.
    rw [openTags, hstack, List.map_cons, List.cons.injEq] at htags
    obtain ⟨rfl, rfl⟩ := htags
    have he := hb.stack e (hstack ▸ List.mem_cons_self)
    have houter : Builder.IsReadable { b with stack := outer } :=
      ⟨fun f hf => hb.stack f (hstack ▸ List.mem_cons_of_mem e hf), hb.attributes, hb.content⟩
    exact isReadable_of_attach houter he.tag (fun _ => hname)
      (Content.isReadable_reverseAppend he.nodes Content.isReadable_nil) hattach
  | text raw =>
    obtain rfl : tags = b.openTags := he
    obtain ⟨cs, -, htext⟩ := push_text_eq_ok_iff.1 h
    exact isReadable_of_addText hb htext
  | characterData content =>
    obtain rfl : tags = b.openTags := he
    exact isReadable_of_addText hb h
  | comment content =>
    obtain ⟨rfl, hcontent⟩ := he
    rcases push_comment_cases h with hnode | rfl
    · refine isReadable_of_addNode hb (fun c hc => ?_) hnode
      have hlist : (String.ofList content).toList = content := String.toList_ofList
      refine ⟨?_, hc⟩
      rw [hlist]
      exact hcontent
    · exact ⟨hb, rfl⟩
  | ignored =>
    obtain rfl : tags = b.openTags := he
    obtain rfl := Except.ok.inj h
    exact ⟨hb, rfl⟩

/-- The events of a document keep a builder readable. -/
theorem isReadable_of_foldlM (r : Reader) (hb : b.IsReadable) (htags : b.openTags = r.openTags)
    (h : r.events.items.foldlM push b = .ok b') : b'.IsReadable := by
  induction r using Reader.events.induct generalizing b with
  | case1 r f hnext =>
    rw [Reader.events_of_next_error hnext] at h
    obtain rfl := Except.ok.inj h
    exact hb
  | case2 r hnext =>
    rw [Reader.events_of_next_none hnext] at h
    obtain rfl := Except.ok.inj h
    exact hb
  | case3 r e r' hnext ih =>
    have hitems : r.events.items = e :: r'.events.items := by
      rw [Reader.events_of_next hnext]
      rfl
    rw [hitems] at h
    obtain ⟨b₁, hpush, hrest⟩ := foldlM_cons_eq_ok_iff.1 h
    obtain ⟨hb₁, htags₁⟩ := isReadable_of_push hb (htags ▸ Reader.isSound_of_next hnext) hpush
    exact ih hb₁ htags₁ hrest

end Builder

/-- The root element of a document can be written so that it is found again. -/
theorem isReadable_of_readRoot {document : String} {root : Element}
    (h : readRoot document = .ok root) :
    root.attributes.AreReadable ∧ root.children.IsReadable := by
  rw [readRoot, events] at h
  cases hfold : (Reader.ofChars document.toList).events.items.foldlM Builder.push Builder.empty with
  | error f => simp [hfold, bind, Except.bind] at h
  | ok b =>
    have hstart : Builder.empty.openTags = (Reader.ofChars document.toList).openTags := by
      rw [Reader.ofChars.eq_def]
      split
      · split <;> rfl
      · rfl
    -- What a failure behind the events leads to does not matter: no root is read then.
    have hb := Builder.isReadable_of_foldlM _ Builder.isReadable_empty hstart hfold
    simp only [hfold, bind, Except.bind] at h
    split at h
    · simp at h
    · rw [Builder.finish] at h
      split at h
      · simp at h
      · simp at h
      next hroot =>
        obtain rfl := Except.ok.inj h
        exact ⟨hb.attributes _ hroot, hb.content _ hroot⟩

end IntentFirewall.Xml
