import IntentFirewall.Proofs.Rules.Groups
import IntentFirewall.Proofs.Rules.Operations

/-!
# Runs of blocking and unblocking calls

What is in the rule file of a package after any run of calls, if there was no file before and the
storage allows everything. Every call reads the file anew and writes it again, so that the document
has to survive this with whatever names are in it.

* `RuleStore.run`: a run of calls, with the names that the successful ones have mentioned.
* `RuleStore.Holds`: the invariant. The file is that of groups, which reflect what was mentioned;
  `RuleStore.Holds.perform` is the step and `RuleStore.Holds.run` the run.
* `RuleStore.ruleFile_run`: for every name the last call that has mentioned it decides.
-/

namespace IntentFirewall.RuleStore

/-- A call that changes a rule file. -/
inductive Call
  /-- Blocks trackers. -/
  | block (trackers : List Tracker)
  /-- Unblocks trackers. -/
  | unblock (trackers : List Tracker)
  deriving DecidableEq, Repr

/-- The names that a call mentions, with the tag that they are to be blocked by, if any. -/
def Call.mentions : Call → List (String × Option RuleTag)
  | block trackers => trackers.map fun t => (t.componentName, RuleTag.forKind? t.kind)
  | unblock trackers => trackers.map fun t => (t.componentName, none)

/-- Carries out a call: whether it succeeds, and the storage behind it. -/
def perform (store : RuleStore) (packageName : String) (m : Memory) : Call → Bool × Memory
  | .block trackers =>
    ((store.block packageName trackers m).1.isOk, (store.block packageName trackers m).2)
  | .unblock trackers =>
    ((store.unblock packageName trackers m).1.isOk, (store.unblock packageName trackers m).2)

/-- Carries out calls one after the other: what the successful ones mention, and the storage behind
them. -/
def run (store : RuleStore) (packageName : String) :
    List Call → Memory → List (String × Option RuleTag) × Memory
  | [], m => ([], m)
  | c :: rest, m =>
    let (succeeded, next) := store.perform packageName m c
    let (mentions, final) := run store packageName rest next
    ((if succeeded then c.mentions else []) ++ mentions, final)

/-- What is mentioned, by the names of filters. -/
def edits (packageName : String) (mentions : List (String × Option RuleTag)) :
    List (String × Option RuleTag) :=
  mentions.map fun p => (packageName ++ "/" ++ p.1, p.2)

/-- The last edit of a filter is the last mention of its component. -/
theorem lastValue?_edits (packageName name : String) (mentions : List (String × Option RuleTag)) :
    lastValue? (packageName ++ "/" ++ name) (edits packageName mentions) =
      lastValue? name mentions := by
  have hmap := lastValue?_map (filterName_injective packageName) (fun tag => tag) name mentions
  rw [Option.map_id'] at hmap
  exact hmap

theorem edits_append (packageName : String) (mentions later : List (String × Option RuleTag)) :
    edits packageName (mentions ++ later) =
      edits packageName mentions ++ edits packageName later :=
  List.map_append

/-- Only filters of the package are edited. -/
theorem exists_of_lastValue?_edits {packageName filter : String}
    {mentions : List (String × Option RuleTag)} {tag : RuleTag}
    (h : lastValue? filter (edits packageName mentions) = some (some tag)) :
    ∃ name, filter = packageName ++ "/" ++ name ∧ lastValue? name mentions = some (some tag) := by
  obtain ⟨p, -, hp⟩ := List.mem_map.1 (mem_of_lastValue? h)
  obtain ⟨rfl, -⟩ := Prod.mk.inj hp
  exact ⟨p.1, rfl, by rwa [lastValue?_edits] at h⟩

/-! ## The invariant -/

/-- The storage allows everything, and the rule file of a package is that of groups which reflect
what was mentioned. -/
structure Holds (store : RuleStore) (packageName : String)
    (mentions : List (String × Option RuleTag)) (m : Memory) : Prop where
  /-- The storage allows everything. -/
  writable : m.isWritable = true
  /-- The file is missing, which stands for no groups at all, or it is that of groups. -/
  groups : ∃ g : Groups, g.Reflects (edits packageName mentions) ∧
    (m.contents? (store.rulesFile packageName) = none ∧ g = [] ∨
      m.contents? (store.rulesFile packageName) = some (Document.ofGroups g).toBytes)

variable {store : RuleStore} {packageName : String} {mentions : List (String × Option RuleTag)}
  {m : Memory}

theorem document_ofGroups {g : Groups}
    (h : m.contents? (store.rulesFile packageName) = none ∧ g = [] ∨
      m.contents? (store.rulesFile packageName) = some (Document.ofGroups g).toBytes) :
    store.document packageName m = .ok (Document.ofGroups g) := by
  rw [document, Memory.bytesAt]
  rcases h with ⟨hfile, rfl⟩ | hfile
  · rw [hfile]
    rfl
  · rw [hfile]
    exact Document.ofBytes_toBytes_ofGroups g

/-- A file that has been written is that of its groups. -/
theorem Holds.of_rewritten {g : Groups} (hwritable : m.isWritable = true)
    (h : g.Reflects (edits packageName mentions)) :
    store.Holds packageName mentions
      (m.rewritten (store.rulesFile packageName) (Document.ofGroups g).toBytes) :=
  ⟨hwritable, g, h, .inr (m.contents?_put_self _ _)⟩

theorem perform_block {trackers : List Tracker} {answer : Except RuleError (List Tracker)}
    {m' : Memory} (h : store.block packageName trackers m = (answer, m')) :
    store.perform packageName m (.block trackers) = (answer.isOk, m') := by
  rw [perform, h]

theorem perform_unblock {trackers : List Tracker} {answer : Except RuleError Unblocked}
    {m' : Memory} (h : store.unblock packageName trackers m = (answer, m')) :
    store.perform packageName m (.unblock trackers) = (answer.isOk, m') := by
  rw [perform, h]

/-- Blocking either fails and leaves the storage alone, or keeps the invariant. -/
theorem Holds.block (hname : isPackageName packageName = true)
    (h : store.Holds packageName mentions m) (trackers : List Tracker) :
    store.perform packageName m (.block trackers) = (false, m) ∨
      ∃ m', store.perform packageName m (.block trackers) = (true, m') ∧
        store.Holds packageName (mentions ++ (Call.block trackers).mentions) m' := by
  have hkept := h
  obtain ⟨hwritable, g, hg, hfile⟩ := h
  cases hentries : ruleEntries packageName trackers with
  | error e =>
    -- A tracker without a rule element is refused before the file is looked at.
    have hblock : store.block packageName trackers m = (.error e, m) := by
      rw [RuleStore.block, hentries]
    exact .inl (perform_block hblock)
  | ok entries =>
    by_cases hne : trackers = []
    · subst hne
      refine .inr ⟨m, perform_block (store.block_nil packageName m), ?_⟩
      simpa [Call.mentions] using hkept
    · have hedits : edits packageName (Call.block trackers).mentions =
          entries.map fun e => (e.2, some e.1) := by
        rw [map_ruleEntries hentries, edits, Call.mentions, List.map_map]
        rfl
      have hreflects := hg.blockAll entries
      rw [← hedits, ← edits_append] at hreflects
      have hblock := store.block_eq hname hwritable hentries hne
      rw [document_ofGroups hfile] at hblock
      simp only [blocked, Document.foldl_block_ofGroups] at hblock
      exact .inr ⟨_, perform_block hblock, .of_rewritten hwritable hreflects⟩

/-- Unblocking keeps the invariant. -/
theorem Holds.unblock (hname : isPackageName packageName = true)
    (h : store.Holds packageName mentions m) (trackers : List Tracker) :
    ∃ m', store.perform packageName m (.unblock trackers) = (true, m') ∧
      store.Holds packageName (mentions ++ (Call.unblock trackers).mentions) m' := by
  obtain ⟨hwritable, g, hg, hfile⟩ := h
  have hedits : edits packageName (Call.unblock trackers).mentions =
      (trackers.map (·.filterName packageName)).map fun filter => (filter, none) := by
    rw [edits, Call.mentions, List.map_map, List.map_map]
    rfl
  have hreflects := hg.removeAll (trackers.map (·.filterName packageName))
  rw [← hedits, ← edits_append] at hreflects
  have hunblock := store.unblock_eq hname hwritable trackers
  rw [document_ofGroups hfile] at hunblock
  rcases hfile with ⟨hmissing, rfl⟩ | hfile
  · -- No file is created, and there are still no groups.
    rw [hmissing] at hunblock
    rw [Groups.foldl_remove_nil] at hreflects
    exact ⟨m, perform_unblock hunblock, hwritable, [], hreflects, .inl ⟨hmissing, rfl⟩⟩
  · rw [hfile] at hunblock
    simp only [Document.foldl_withoutFilters_ofGroups] at hunblock
    exact ⟨_, perform_unblock hunblock, .of_rewritten hwritable hreflects⟩

/-- Every call keeps the invariant. -/
theorem Holds.perform (hname : isPackageName packageName = true)
    (h : store.Holds packageName mentions m) (c : Call) :
    store.Holds packageName
      (mentions ++ if (store.perform packageName m c).1 then c.mentions else [])
      (store.perform packageName m c).2 := by
  cases c with
  | block trackers =>
    rcases h.block hname trackers with hfailed | ⟨m', hdone, hkept⟩
    · rw [hfailed]
      simpa using h
    · rw [hdone]
      exact hkept
  | unblock trackers =>
    obtain ⟨m', hdone, hkept⟩ := h.unblock hname trackers
    rw [hdone]
    exact hkept

/-- Every run of calls keeps the invariant. -/
theorem Holds.run (hname : isPackageName packageName = true)
    (h : store.Holds packageName mentions m) (calls : List Call) :
    store.Holds packageName (mentions ++ (store.run packageName calls m).1)
      (store.run packageName calls m).2 := by
  induction calls generalizing mentions m with
  | nil => simpa [RuleStore.run] using h
  | cons c rest ih =>
    have hrest := ih (h.perform hname c)
    rw [List.append_assoc] at hrest
    exact hrest

/-! ## What a rule file holds -/

/-- A filter is in the element of the tag by which the last mention of its component blocks it. -/
theorem mem_filterNames_ofGroups_iff {g : Groups} (h : g.Reflects (edits packageName mentions))
    {name : String} {tag : RuleTag} :
    (∃ e ∈ (Document.ofGroups g).content.elements, e.isRule tag = true ∧
      packageName ++ "/" ++ name ∈ e.filterNames) ↔ lastValue? name mentions = some (some tag) := by
  rw [← lastValue?_edits packageName, ← h.has]
  exact Document.mem_filterNames_ofGroups_iff

/-- The filters of a document are those of the components that the last mention blocks. -/
theorem mem_filters_ofGroups_iff {g : Groups} (h : g.Reflects (edits packageName mentions))
    {filter : Option String} :
    filter ∈ (Document.ofGroups g).content.filters ↔ ∃ name tag,
      filter = some (packageName ++ "/" ++ name) ∧ lastValue? name mentions = some (some tag) := by
  rw [Document.ofGroups, Xml.Content.filters_ofGroups, List.mem_map]
  constructor
  · rintro ⟨name, hname, rfl⟩
    obtain ⟨tag, hhas⟩ := Groups.mem_names_iff.1 hname
    obtain ⟨name, rfl, hlast⟩ := exists_of_lastValue?_edits ((h.has tag _).1 hhas)
    exact ⟨name, tag, rfl, hlast⟩
  · rintro ⟨name, tag, rfl, hlast⟩
    refine ⟨_, Groups.mem_names_iff.2 ⟨tag, ?_⟩, rfl⟩
    rw [h.has, lastValue?_edits]
    exact hlast

/-- After any run of calls from a missing rule file, the file, if there is one, is a rule document
with at most one element of each tag and no others, all of which block and none of which logs. For
every name the last mention by a successful call decides: its filter is in the element of the tag
of a blocking call, once in the whole document, and no other filters are there. -/
theorem ruleFile_run (store : RuleStore) (hname : isPackageName packageName = true)
    (hwritable : m.isWritable = true)
    (hmissing : m.contents? (store.rulesFile packageName) = none) (calls : List Call) :
    let mentions := (store.run packageName calls m).1
    let file := (store.run packageName calls m).2.contents? (store.rulesFile packageName)
    (file = none → ∀ name tag, lastValue? name mentions ≠ some (some tag)) ∧
      ∀ bytes, file = some bytes → ∃ d, Document.ofBytes bytes = .ok d ∧
        (d.content.elements.map (·.name)).Nodup ∧
        (∀ e ∈ d.content.elements, (∃ tag, e.isRule tag = true) ∧ e.isBlocking = true ∧
          e.isLogging = false) ∧
        (∀ name tag, (∃ e ∈ d.content.elements, e.isRule tag = true ∧
          packageName ++ "/" ++ name ∈ e.filterNames) ↔
            lastValue? name mentions = some (some tag)) ∧
        d.content.filters.Nodup ∧
        ∀ filter, filter ∈ d.content.filters ↔ ∃ name tag,
          filter = some (packageName ++ "/" ++ name) ∧
            lastValue? name mentions = some (some tag) := by
  intro mentions file
  have hstart : store.Holds packageName [] m :=
    ⟨hwritable, [], Groups.reflects_nil, .inl ⟨hmissing, rfl⟩⟩
  obtain ⟨-, g, hg, hfile⟩ := hstart.run hname calls
  rw [List.nil_append] at hg
  constructor
  · -- A missing file stands for no groups at all, so that nothing can have been mentioned last.
    intro hnone name tag hlast
    rcases hfile with ⟨-, rfl⟩ | hsome
    · rw [← lastValue?_edits packageName, ← hg.has] at hlast
      simp [Groups.Has] at hlast
    · exact absurd (hnone.symm.trans hsome) (by simp)
  · intro bytes hbytes
    rcases hfile with ⟨hnone, -⟩ | hsome
    · exact absurd (hbytes.symm.trans hnone) (by simp)
    · obtain rfl := Option.some.inj (hbytes.symm.trans hsome)
      exact ⟨_, Document.ofBytes_toBytes_ofGroups g, Document.nodup_name_ofGroups hg.tags,
        fun e he => Document.isRule_of_mem_ofGroups he,
        fun name tag => mem_filterNames_ofGroups_iff hg,
        Document.nodup_filters_ofGroups hg.names, fun filter => mem_filters_ofGroups_iff hg⟩

/-- A component that is blocked first as an activity and then as a service, with a refused call in
between, is in the element of services. -/
theorem ruleFile_run_service :
    let store : RuleStore := ⟨"/ifw"⟩
    let t : Tracker := ⟨"\"A\" & B", .activity, "T", none, "ads", false, false, true, true⟩
    let calls : List Call := [.block [t, { t with componentName := "C" }],
      .block [{ t with kind := .provider }], .block [{ t with kind := .service }]]
    let r := store.run "com.app" calls Memory.empty
    r.1 = [("\"A\" & B", some .activity), ("C", some .activity), ("\"A\" & B", some .service)] ∧
      ∃ bytes d, r.2.contents? (store.rulesFile "com.app") = some bytes ∧
        Document.ofBytes bytes = .ok d ∧ ∃ e ∈ d.content.elements, e.isRule .service = true ∧
          "com.app/\"A\" & B" ∈ e.filterNames := by
  intro store t calls r
  have hmentions : r.1 =
      [("\"A\" & B", some .activity), ("C", some .activity), ("\"A\" & B", some .service)] := by
    decide +kernel
  have hname : isPackageName "com.app" = true := by decide
  have hwritable : Memory.empty.isWritable = true := rfl
  have hlast : lastValue? "\"A\" & B" r.1 = some (some .service) := by
    rw [hmentions]
    decide
  obtain ⟨hmissing, hread⟩ := store.ruleFile_run hname hwritable rfl calls
  cases hbytes : r.2.contents? (store.rulesFile "com.app") with
  | none => exact absurd hlast (hmissing hbytes _ _)
  | some bytes =>
    obtain ⟨d, hd, -, -, hfilters, -⟩ := hread bytes hbytes
    exact ⟨hmentions, bytes, d, rfl, hd, (hfilters _ _).2 hlast⟩

end IntentFirewall.RuleStore
