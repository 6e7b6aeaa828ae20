import IntentFirewall.Storage.FileTree

/-!
# Opening a file again

A path by which a file has been opened leads to the same file as long as nothing is taken away from
the tree: it is opened again without a change, and its bytes are those of the file.

## Main definitions

* `FileTree.IsRooted`: every entry lies in a directory.
* `FileTree.Extends`: a tree has all entries of another one, though maybe with other bytes.
* `FileTree.LeadsTo`: a path leads to a file in all trees with the entries of this one.

## Main results

* `FileTree.walk_mono`: where a walk leads in a tree, it leads in all trees that extend it.
* `FileTree.leadsTo_of_openFile`: a path by which a file has been opened leads to that file.
-/

namespace IntentFirewall.FileTree

/-- Every entry lies in a directory, and there is a working directory. -/
structure IsRooted (t : FileTree) : Prop where
  /-- The working directory is one. -/
  home : t.node? t.home = some .directory
  /-- What has an entry is a directory. -/
  parent : ∀ {directory : List String} {name : String},
    (t.node? (directory ++ [name])).isSome = true → t.node? directory = some .directory

/-- A tree has all entries of another one, though files may have other bytes. -/
structure Extends (t u : FileTree) : Prop where
  /-- Both have the same working directory. -/
  home_eq : u.home = t.home
  /-- A directory stays one. -/
  directory : ∀ {place : List String}, t.node? place = some .directory →
    u.node? place = some .directory
  /-- A file stays one. -/
  file : ∀ {place : List String} {bytes : List UInt8}, t.node? place = some (.file bytes) →
    ∃ bytes', u.node? place = some (.file bytes')

variable {t u v : FileTree} {place start directory names : List String} {name : String}
  {bytes : List UInt8}

namespace Extends

theorem refl (t : FileTree) : Extends t t := ⟨rfl, id, fun h => ⟨_, h⟩⟩

theorem trans (h : Extends t u) (h' : Extends u v) : Extends t v where
  home_eq := h'.home_eq.trans h.home_eq
  directory hplace := h'.directory (h.directory hplace)
  file hplace := by
    obtain ⟨_, hplace⟩ := h.file hplace
    exact h'.file hplace

theorem isSome (h : Extends t u) (hplace : (t.node? place).isSome = true) :
    (u.node? place).isSome = true := by
  cases hnode : t.node? place with
  | none => simp [hnode] at hplace
  | some e =>
    cases e with
    | directory => simp [h.directory hnode]
    | file bytes =>
      obtain ⟨_, hfile⟩ := h.file hnode
      simp [hfile]

/-- A new entry takes nothing away. -/
theorem put_of_missing (h : t.node? place = none) (e : Entry) : Extends t (t.put place e) where
  home_eq := rfl
  directory {other} hother := by
    have hne : other ≠ place := fun heq => by simp [heq, h] at hother
    rwa [node?_put_of_ne hne]
  file {other bytes} hother := by
    have hne : other ≠ place := fun heq => by simp [heq, h] at hother
    exact ⟨bytes, by rwa [node?_put_of_ne hne]⟩

/-- New bytes of a file take no entry away. -/
theorem put_of_file (h : t.node? place = some (.file bytes)) (bytes' : List UInt8) :
    Extends t (t.put place (.file bytes')) where
  home_eq := rfl
  directory {other} hother := by
    have hne : other ≠ place := fun heq => by simp [heq, h] at hother
    rwa [node?_put_of_ne hne]
  file {other bytes} hother := by
    by_cases heq : other = place
    · have hne : place ≠ [] := fun hroot => by simp [hroot, node?] at h
      exact ⟨bytes', heq ▸ node?_put_self hne t _⟩
    · exact ⟨bytes, by rwa [node?_put_of_ne heq]⟩

end Extends

/-! ## Where a file system starts -/

/-- What is in a tree that consists of a working directory. -/
theorem node?_ofHome (home place : List String) :
    (ofHome home).node? place = if place <+: home then some .directory else none := by
  have hlookup (l : List Nat) :
      (l.map fun n => (home.take n, Entry.directory)).lookup place =
        if ∃ n ∈ l, home.take n = place then some .directory else none := by
    induction l with
    | nil => simp
    | cons n rest ih =>
      rw [List.map_cons, List.lookup_cons, ih]
      by_cases hn : place = home.take n
      · simp [hn]
      · simp [beq_false_of_ne hn, Ne.symm hn]
  have hhome : (∃ n ∈ List.range (home.length + 1), home.take n = place) ↔ place <+: home := by
    constructor
    · rintro ⟨n, -, rfl⟩
      exact List.take_prefix n home
    · intro h
      have hlength := Nat.lt_succ_of_le h.length_le
      exact ⟨place.length, List.mem_range.2 hlength, (List.prefix_iff_eq_take.1 h).symm⟩
  rw [node?, ofHome, hlookup]
  simp only [hhome]
  split
  next hroot => simp [hroot]
  · rfl

/-- A tree that consists of a working directory is rooted. -/
theorem isRooted_ofHome (home : List String) : (ofHome home).IsRooted where
  home := by
    rw [node?_ofHome]
    exact if_pos (List.prefix_refl home)
  parent {directory name} hentry := by
    rw [node?_ofHome] at hentry ⊢
    split at hentry
    next hhome => exact if_pos ((List.prefix_append directory [name]).trans hhome)
    · simp at hentry

/-! ## Walking -/

theorem node?_root (t : FileTree) : t.node? [] = some .directory := rfl

/-- An entry of a directory is there, since it is not the root. -/
theorem node?_put_concat (t : FileTree) (directory : List String) (name : String) (e : Entry) :
    (t.put (directory ++ [name]) e).node? (directory ++ [name]) = some e :=
  node?_put_self (List.append_ne_nil_of_right_ne_nil directory (List.cons_ne_nil name [])) t e

/-- A step leads from a directory to itself, to the one around it, or to one of its entries. -/
theorem step_eq_ok_iff : t.step directory name = .ok place ↔
    t.node? directory = some .directory ∧
      (name = "." ∧ directory = place ∨
        name = ".." ∧ directory.dropLast = place ∨
        ¬(name = "." ∨ name = "..") ∧ ¬nameLimit < Utf8.size name.toList ∧
          (t.node? (directory ++ [name])).isSome = true ∧ directory ++ [name] = place) := by
  rw [step]
  cases t.node? directory with
  | none => simp
  | some e =>
    cases e with
    | file bytes => simp
    | directory =>
      by_cases hdot : name = "."
      · simp [hdot]
      by_cases hdots : name = ".."
      · simp [hdots]
      by_cases hsize : nameLimit < Utf8.size name.toList
      · simp [hdot, hdots, hsize]
      cases hentry : t.node? (directory ++ [name]) <;> simp [hdot, hdots, hsize]

/-- A step stays the same in all trees with the same entries. -/
theorem step_mono (h : Extends t u) (hstep : t.step directory name = .ok place) :
    u.step directory name = .ok place := by
  rw [step_eq_ok_iff] at hstep ⊢
  obtain ⟨hdirectory, hplace⟩ := hstep
  refine ⟨h.directory hdirectory, hplace.imp_right fun hplace => hplace.imp_right ?_⟩
  rintro ⟨hname, hsize, hentry, rfl⟩
  exact ⟨hname, hsize, h.isSome hentry, rfl⟩

/-- Where a walk leads, it leads in all trees with the same entries. -/
theorem walk_mono (h : Extends t u) (hwalk : t.walk start names = .ok place) :
    u.walk start names = .ok place := by
  induction names generalizing start with
  | nil => exact hwalk
  | cons name rest ih =>
    rw [walk] at hwalk ⊢
    cases hstep : t.step start name with
    | error e => simp [hstep] at hwalk
    | ok next =>
      rw [hstep] at hwalk
      rw [step_mono h hstep]
      exact ih hwalk

theorem walk_concat (t : FileTree) (start names : List String) (name : String) :
    t.walk start (names ++ [name]) =
      match t.walk start names with
      | .error e => .error e
      | .ok directory => t.step directory name := by
  induction names generalizing start with
  | nil =>
    simp only [List.nil_append, walk]
    cases t.step start name <;> rfl
  | cons first rest ih =>
    simp only [List.cons_append, walk]
    cases t.step start first with
    | error e => rfl
    | ok next => exact ih next

namespace IsRooted

/-- The directory around a directory is one. -/
theorem dropLast (h : t.IsRooted) (hdirectory : t.node? directory = some .directory) :
    t.node? directory.dropLast = some .directory := by
  rcases List.eq_nil_or_concat directory with rfl | ⟨outer, name, rfl⟩
  · exact hdirectory
  · rw [List.concat_eq_append, List.dropLast_concat]
    exact h.parent (by rw [← List.concat_eq_append, hdirectory]; rfl)

/-- A walk ends at an entry. -/
theorem isSome_of_walk (h : t.IsRooted) (hstart : (t.node? start).isSome = true)
    (hwalk : t.walk start names = .ok place) : (t.node? place).isSome = true := by
  induction names generalizing start with
  | nil =>
    obtain rfl : start = place := Except.ok.inj hwalk
    exact hstart
  | cons name rest ih =>
    rw [walk] at hwalk
    cases hstep : t.step start name with
    | error e => simp [hstep] at hwalk
    | ok next =>
      rw [hstep] at hwalk
      refine ih ?_ hwalk
      obtain ⟨hdirectory, ⟨-, rfl⟩ | ⟨-, rfl⟩ | ⟨-, -, hentry, rfl⟩⟩ := step_eq_ok_iff.1 hstep
      · exact hstart
      · simp [h.dropLast hdirectory]
      · exact hentry

/-- A new entry of a directory leaves the tree rooted. -/
theorem put (h : t.IsRooted) (hdirectory : t.node? directory = some .directory)
    (hmissing : t.node? (directory ++ [name]) = none) (e : Entry) :
    (t.put (directory ++ [name]) e).IsRooted := by
  have hextends := Extends.put_of_missing hmissing e
  refine ⟨hextends.directory h.home, fun {outer inner} hentry => hextends.directory ?_⟩
  by_cases hnew : outer ++ [inner] = directory ++ [name]
  · rwa [(List.append_inj' hnew rfl).1]
  · rw [node?_put_of_ne hnew] at hentry
    exact h.parent hentry

end IsRooted

/-! ## Directories that are there -/

/-- Names lead to a directory. -/
def LeadsToDirectory (t : FileTree) (start names : List String) : Prop :=
  ∃ place, t.walk start names = .ok place ∧ t.node? place = some .directory

theorem LeadsToDirectory.mono (hleads : t.LeadsToDirectory start names) (h : Extends t u) :
    u.LeadsToDirectory start names := by
  obtain ⟨place, hwalk, hdirectory⟩ := hleads
  exact ⟨place, walk_mono h hwalk, h.directory hdirectory⟩

/-- Without bytes there is a directory, or nothing at all. -/
theorem bytes?_isNone_iff : (t.bytes? place).isNone = true ↔
    t.node? place = none ∨ t.node? place = some .directory := by
  rw [bytes?]
  cases t.node? place with
  | none => simp
  | some e => cases e <;> simp

/-- Where a walk ends there is something, so that without bytes it is a directory. -/
theorem IsRooted.bytes?_isNone_iff_of_walk (h : t.IsRooted)
    (hstart : t.node? start = some .directory) (hwalk : t.walk start names = .ok place) :
    (t.bytes? place).isNone = true ↔ t.node? place = some .directory := by
  have hentry := h.isSome_of_walk (by simp [hstart]) hwalk
  rw [bytes?_isNone_iff]
  constructor
  · rintro (hnone | hdirectory)
    · simp [hnone] at hentry
    · exact hdirectory
  · exact .inr

theorem leadsToDirectory_iff (h : t.IsRooted) (hstart : t.node? start = some .directory) :
    t.leadsToDirectory start names = true ↔ t.LeadsToDirectory start names := by
  rw [leadsToDirectory, LeadsToDirectory]
  cases hwalk : t.walk start names with
  | error e => simp
  | ok place => simp [h.bytes?_isNone_iff_of_walk hstart hwalk]

/-- The place of a new entry is found in the directory around it. -/
theorem newPlace_concat (hwalk : t.walk start names = .ok directory)
    (hdirectory : t.node? directory = some .directory) (name : String) :
    t.newPlace start (names ++ [name]) =
      .ok (if name = "." ∨ name = ".." then none else some (directory, name)) := by
  have hbytes : (t.bytes? directory).isSome = false := by
    rw [← Option.not_isNone, bytes?_isNone_iff.2 (.inr hdirectory)]
    rfl
  simp only [newPlace, List.getLast?_concat, List.dropLast_concat, hwalk, hbytes,
    Bool.false_eq_true, if_false]
  split <;> rfl

/-- A directory that is there is not created. -/
theorem makeDirectory_of_leads (h : t.LeadsToDirectory start names) :
    t.makeDirectory start names = .error .alreadyExists := by
  obtain ⟨place, hwalk, -⟩ := h
  rcases List.eq_nil_or_concat names with rfl | ⟨outer, name, rfl⟩
  · rfl
  -- The last step leads to the directory, whether its name is dots or that of an entry.
  rw [List.concat_eq_append, walk_concat] at *
  cases houter : t.walk start outer with
  | error e => simp [houter] at hwalk
  | ok directory =>
    rw [houter] at hwalk
    obtain ⟨hdirectory, hstep⟩ := step_eq_ok_iff.1 hwalk
    rw [makeDirectory, newPlace_concat houter hdirectory]
    rcases hstep with ⟨hdot, -⟩ | ⟨hdots, -⟩ | ⟨hname, hsize, hentry, -⟩
    · simp [hdot]
    · simp [hdots]
    · simp [hname, hsize, hentry]

/-- What makes sure that a directory is there changes nothing if it is. -/
theorem ensureDirectory_of_leads (h : t.LeadsToDirectory start names) :
    t.ensureDirectory start names = .ok t := by
  have hleads : t.leadsToDirectory start names = true := by
    obtain ⟨place, hwalk, hdirectory⟩ := h
    rw [leadsToDirectory, hwalk]
    exact bytes?_isNone_iff.2 (.inr hdirectory)
  rw [ensureDirectory, makeDirectory_of_leads h]
  exact if_pos hleads

theorem makeAll_of_leads {reversed : List String} (h : t.LeadsToDirectory start reversed.reverse) :
    t.makeAll start reversed = (none, t) := by
  cases reversed with
  | nil => rfl
  | cons name outer => simp only [makeAll, ensureDirectory_of_leads h]

/-- The place of a new entry lies in a directory that names lead to. -/
theorem exists_of_newPlace (h : t.IsRooted) (hstart : t.node? start = some .directory)
    (hnew : t.newPlace start names = .ok (some (directory, name))) :
    ∃ outer, names = outer ++ [name] ∧ t.walk start outer = .ok directory ∧
      t.node? directory = some .directory ∧ ¬(name = "." ∨ name = "..") := by
  rcases List.eq_nil_or_concat names with rfl | ⟨outer, last, rfl⟩
  · simp [newPlace] at hnew
  rw [List.concat_eq_append] at hnew ⊢
  cases hwalk : t.walk start outer with
  | error e => simp [newPlace, hwalk] at hnew
  | ok around =>
    have haround : t.node? around = some .directory := by
      refine (h.bytes?_isNone_iff_of_walk hstart hwalk).1 ?_
      cases hbytes : t.bytes? around with
      | some bytes => simp [newPlace, hwalk, hbytes] at hnew
      | none => rfl
    rw [newPlace_concat hwalk haround] at hnew
    split at hnew
    · simp at hnew
    next hdots =>
      obtain ⟨rfl, rfl⟩ : around = directory ∧ last = name := by simpa using hnew
      exact ⟨outer, rfl, hwalk, haround, hdots⟩

/-- A new entry is where its names lead. -/
theorem walk_put (hwalk : t.walk start names = .ok directory)
    (hdirectory : t.node? directory = some .directory) (hname : ¬(name = "." ∨ name = ".."))
    (hsize : ¬nameLimit < Utf8.size name.toList) (h : t.Extends u)
    (hentry : (u.node? (directory ++ [name])).isSome = true) :
    u.walk start (names ++ [name]) = .ok (directory ++ [name]) := by
  rw [walk_concat, walk_mono h hwalk]
  exact step_eq_ok_iff.2 ⟨h.directory hdirectory, .inr (.inr ⟨hname, hsize, hentry, rfl⟩)⟩

/-- Behind the creation of a directory the directory is there, and nothing is taken away. -/
theorem makeDirectory_eq_ok (h : t.IsRooted) (hstart : t.node? start = some .directory)
    (hmake : t.makeDirectory start names = .ok u) :
    u.IsRooted ∧ t.Extends u ∧ u.LeadsToDirectory start names := by
  rw [makeDirectory] at hmake
  split at hmake
  · simp at hmake
  · simp at hmake
  next directory name hnew =>
    obtain ⟨outer, rfl, hwalk, hdirectory, hname⟩ := exists_of_newPlace h hstart hnew
    split at hmake
    · simp at hmake
    next hsize =>
      split at hmake
      · simp at hmake
      next hentry =>
        obtain rfl := Except.ok.inj hmake
        have hmissing : t.node? (directory ++ [name]) = none := by simpa using hentry
        have hextends := Extends.put_of_missing hmissing .directory
        have hnode := t.node?_put_concat directory name .directory
        refine ⟨h.put hdirectory hmissing .directory, hextends, directory ++ [name], ?_, hnode⟩
        exact walk_put hwalk hdirectory hname hsize hextends (by rw [hnode]; rfl)

theorem ensureDirectory_eq_ok (h : t.IsRooted) (hstart : t.node? start = some .directory)
    (hensure : t.ensureDirectory start names = .ok u) :
    u.IsRooted ∧ t.Extends u ∧ u.LeadsToDirectory start names := by
  rw [ensureDirectory] at hensure
  split at hensure
  next t' hmake =>
    obtain rfl : t' = u := Except.ok.inj hensure
    exact makeDirectory_eq_ok h hstart hmake
  · split at hensure
    next hleads =>
      obtain rfl : t = u := Except.ok.inj hensure
      exact ⟨h, .refl t, (leadsToDirectory_iff h hstart).1 hleads⟩
    · simp at hensure

/-- Behind the creation of all directories on the way the last one is there. -/
theorem makeAll_eq_none {reversed : List String} (h : t.IsRooted)
    (hstart : t.node? start = some .directory) (hmake : t.makeAll start reversed = (none, u)) :
    u.IsRooted ∧ t.Extends u ∧ u.LeadsToDirectory start reversed.reverse := by
  -- The induction goes outwards, as a directory that is missing is made after the one around it.
  induction reversed generalizing u with
  | nil =>
    obtain rfl : t = u := congrArg Prod.snd hmake
    exact ⟨h, .refl t, start, rfl, hstart⟩
  | cons name outer ih =>
    simp only [makeAll] at hmake
    split at hmake
    next t' hensure =>
      obtain rfl : t' = u := congrArg Prod.snd hmake
      exact ensureDirectory_eq_ok h hstart hensure
    · split at hmake
      · simp at hmake
      next t' houter =>
        obtain ⟨hrooted, hextends, -⟩ := ih houter
        split at hmake
        next v hensure =>
          obtain rfl : v = u := congrArg Prod.snd hmake
          obtain ⟨hv, hextends', hleads⟩ :=
            ensureDirectory_eq_ok hrooted (hextends.directory hstart) hensure
          exact ⟨hv, hextends.trans hextends', hleads⟩
        · simp at hmake
    · simp at hmake

theorem IsRooted.node?_origin (h : t.IsRooted) (path : String) :
    t.node? (t.origin path) = some .directory := by
  rw [origin]
  split
  · exact t.node?_root
  · exact h.home

theorem Extends.origin_eq (h : t.Extends u) (path : String) : u.origin path = t.origin path := by
  rw [origin, origin, h.home_eq]

/-- Directories that have been created are not created again. -/
theorem makeDirectories_eq_none {path : String} (h : t.IsRooted)
    (hmake : t.makeDirectories path = (none, u)) :
    u.IsRooted ∧ t.Extends u ∧
      ∀ {v : FileTree}, u.Extends v → v.makeDirectories path = (none, v) := by
  rw [makeDirectories] at hmake
  split at hmake
  · simp at hmake
  · simp at hmake
  next hnul hlong =>
    obtain ⟨hrooted, hextends, hleads⟩ := makeAll_eq_none h (h.node?_origin path) hmake
    refine ⟨hrooted, hextends, fun {v} hv => ?_⟩
    rw [makeDirectories]
    split
    next hfault => exact absurd hfault hnul
    next hfault => exact absurd hfault hlong
    · rw [hv.origin_eq, hextends.origin_eq]
      exact makeAll_of_leads (hleads.mono hv)

/-- The directories that a file lies in are not created again. -/
theorem makeParents_eq_ok {path : String} (h : t.IsRooted)
    (hmake : t.makeParents path = (.ok (), u)) :
    u.IsRooted ∧ t.Extends u ∧
      ∀ {v : FileTree}, u.Extends v → v.makeParents path = (.ok (), v) := by
  simp only [makeParents] at hmake ⊢
  cases hparent : Path.parent? path with
  | none =>
    rw [hparent] at hmake
    obtain rfl : t = u := congrArg Prod.snd hmake
    exact ⟨h, .refl t, fun _ => rfl⟩
  | some parent =>
    rw [hparent] at hmake
    by_cases hempty : parent = ""
    · obtain rfl : t = u := by simpa [hempty] using hmake
      exact ⟨h, .refl t, fun _ => by simp [hempty]⟩
    · simp only [if_neg hempty] at hmake ⊢
      cases hdirectories : t.makeDirectories parent with
      | mk fault t' =>
        rw [hdirectories] at hmake
        cases fault with
        | some e => simp at hmake
        | none =>
          obtain rfl : t' = u := congrArg Prod.snd hmake
          obtain ⟨hrooted, hextends, hagain⟩ := makeDirectories_eq_none h hdirectories
          exact ⟨hrooted, hextends, fun hv => by rw [hagain hv]⟩

/-! ## Files that are there -/

/-- A file at the end of a path is not created, and its bytes are found. -/
theorem createFile_of_file {path : String} (hfault : pathFault? path = none)
    (hslash : ¬Path.endsInSlash path = true) (hnames : namesOf path = names ++ [name])
    (hname : ¬(name = "." ∨ name = "..")) (hsize : ¬nameLimit < Utf8.size name.toList)
    (hwalk : t.walk (t.origin path) names = .ok directory)
    (hdirectory : t.node? directory = some .directory)
    (hfile : t.node? (directory ++ [name]) = some (.file bytes)) :
    t.createFile path = .ok (directory ++ [name], t) ∧ t.readBytes path = .ok bytes := by
  have hbytes : t.bytes? (directory ++ [name]) = some bytes := by rw [bytes?, hfile]
  have hplace : t.walk (t.origin path) (names ++ [name]) = .ok (directory ++ [name]) :=
    walk_put hwalk hdirectory hname hsize (.refl t) (by rw [hfile]; rfl)
  constructor
  · simp [createFile, hfault, hnames, newPlace_concat hwalk hdirectory, hname, hslash, hsize, hfile]
  · simp [readBytes, resolve, hfault, hnames, hplace, hslash, hbytes]

/-- A file that has been created is not created again, and its bytes are found. -/
theorem createFile_eq_ok {path : String} (h : t.IsRooted)
    (hcreate : t.createFile path = .ok (place, u)) :
    t.Extends u ∧ (∃ bytes, u.node? place = some (.file bytes)) ∧
      ∀ {v : FileTree} {bytes : List UInt8}, u.Extends v → v.node? place = some (.file bytes) →
        v.createFile path = .ok (place, v) ∧ v.readBytes path = .ok bytes := by
  rw [createFile] at hcreate
  split at hcreate
  · simp at hcreate
  next hfault =>
    split at hcreate
    · simp at hcreate
    · simp at hcreate
    next directory name hnew =>
      obtain ⟨names, hnames, hwalk, hdirectory, hname⟩ :=
        exists_of_newPlace h (h.node?_origin path) hnew
      split at hcreate
      · simp at hcreate
      next hslash =>
        split at hcreate
        · simp at hcreate
        next hsize =>
          -- The file is found in any tree that extends `t`, whoever has created it.
          have hagain {v : FileTree} {bytes : List UInt8} (hv : t.Extends v)
              (hfile : v.node? (directory ++ [name]) = some (.file bytes)) :=
            createFile_of_file hfault hslash hnames hname hsize
              (by rw [hv.origin_eq]; exact walk_mono hv hwalk) (hv.directory hdirectory) hfile
          dsimp only at hcreate
          split at hcreate
          · simp at hcreate
          next bytes hfile =>
            obtain ⟨rfl, rfl⟩ := Prod.mk.inj (Except.ok.inj hcreate)
            exact ⟨.refl t, ⟨bytes, hfile⟩, fun hv hplace => hagain hv hplace⟩
          next hmissing =>
            obtain ⟨rfl, rfl⟩ := Prod.mk.inj (Except.ok.inj hcreate)
            have hextends := Extends.put_of_missing hmissing (.file [])
            have hnode := t.node?_put_concat directory name (.file [])
            exact ⟨hextends, ⟨[], hnode⟩, fun hv hplace => hagain (hextends.trans hv) hplace⟩

/-- A path leads to a file in all trees with the entries of this one. -/
def LeadsTo (t : FileTree) (path : String) (place : List String) : Prop :=
  ∀ {u : FileTree} {bytes : List UInt8}, t.Extends u → u.node? place = some (.file bytes) →
    u.openFile path = (.ok ⟨path, ⟨true, place⟩, 0⟩, u) ∧ u.readAll path = (.ok bytes, u)

/-- A path by which a file has been opened leads to that file. -/
theorem leadsTo_of_openFile {path : String} {handle : Handle} (h : t.IsRooted)
    (hopen : t.openFile path = (.ok handle, u)) :
    ∃ place bytes, handle = ⟨path, ⟨true, place⟩, 0⟩ ∧ u.node? place = some (.file bytes) ∧
      u.LeadsTo path place := by
  rw [openFile] at hopen
  cases hparents : t.makeParents path with
  | mk result t' =>
    rw [hparents] at hopen
    cases result with
    | error e => simp at hopen
    | ok =>
      obtain ⟨hrooted, -, hagain⟩ := makeParents_eq_ok h hparents
      cases hcreate : t'.createFile path with
      | error e => simp [hcreate] at hopen
      | ok created =>
        obtain ⟨place, t''⟩ := created
        simp only [hcreate, Prod.mk.injEq, Except.ok.injEq] at hopen
        obtain ⟨rfl, rfl⟩ := hopen
        obtain ⟨hextends, ⟨bytes, hfile⟩, hthere⟩ := createFile_eq_ok hrooted hcreate
        refine ⟨place, bytes, rfl, hfile, fun {v b} hv hplace => ?_⟩
        obtain ⟨hcreate', hread⟩ := hthere hv hplace
        rw [openFile, hagain (hextends.trans hv), readAll, hread]
        simp only [hcreate']
        exact ⟨trivial, rfl⟩

end IntentFirewall.FileTree
