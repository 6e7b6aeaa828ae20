import IntentFirewall.Component.Source
import IntentFirewall.Proofs.Storage.FileTree
import IntentFirewall.Proofs.Storage.Path

/-!
# Where installed packages lie

The manifest of an installed package is looked for in the directory of its name, below the directory
of all packages. A package name is one step from there, so that every package has a directory of its
own. The one exception is the name that is a point: it leads nowhere else, and its manifest lies in
the directory of all packages itself.

## Main definitions

* `ComponentSource.packagePlace`: the place of the directory of a package.
* `ComponentSource.Finds`: the manifest that is there for a package.
* `ComponentSource.Resembles`: a file tree has what is looked at in another one.

## Main results

* `isStep_iff_ne_dot`: the package names that are one step to another place.
* `ComponentSource.keepsApart`: what is looked at for a package, and that two packages do not share
  it.
* `ComponentSource.keepsApart_ne`: a package whose manifest is not below the directory of all.
-/

namespace IntentFirewall

/-! ## Names put behind a directory -/

/-- No two points stand side by side in a package name, and no slash stands in it. -/
theorem isStep_iff_ne_dot {name : String} (h : isPackageName name = true) :
    Path.IsStep name ↔ name ≠ "." := by
  rw [isPackageName, Bool.and_eq_true, Bool.and_eq_true, bne_iff_ne, Bool.not_eq_true',
    List.all_eq_true] at h
  obtain ⟨⟨hne, hdots⟩, hall⟩ := h
  constructor
  · rintro hstep rfl
    exact absurd hstep.idle (by decide)
  · intro hdot
    refine ⟨fun hslash => absurd (hall '/' hslash) (by decide), ?_, ?_⟩
    · simp [Path.isIdle, hne, hdot]
    · rintro rfl
      exact absurd hdots (by decide)

namespace FileTree

variable {t u : FileTree} {directory name : String} {place : List String}

theorem namesOf_append_slash (text : String) (hname : '/' ∉ name.toList) :
    namesOf (text ++ "/" ++ name) = namesOf text ++ [name].filter (· != "") := by
  rw [namesOf, namesOf, Path.splitAt_append_slash text name hname, List.filter_append]

/-- A name that is put behind a directory comes behind its names, also if it is a point. -/
theorem namesOf_join (hname : '/' ∉ name.toList) (hne : name ≠ "") :
    namesOf (Path.join directory name) = namesOf directory ++ [name] := by
  have hsingle : [name].filter (· != "") = [name] := by simp [hne]
  unfold Path.join
  split
  next hends =>
    rw [Bool.or_eq_true, decide_eq_true_iff] at hends
    rcases hends with rfl | hends
    · have hnone : namesOf "" = [] := by decide
      rw [String.empty_append, hnone, namesOf, Text.splitAt, Text.pieces_of_not_mem hname]
      simpa using hne
    · -- What follows the slash at the end of the directory is no name.
      obtain ⟨front, rfl⟩ := Path.exists_of_endsInSlash hends
      have hempty : '/' ∉ "".toList := by simp
      have hfront := namesOf_append_slash front hempty
      rw [String.append_empty] at hfront
      rw [namesOf_append_slash front hname, hfront, hsingle]
      simp
  · rw [namesOf_append_slash directory hname, hsingle]

theorem origin_join (hname : '/' ∉ name.toList) :
    t.origin (Path.join directory name) = t.origin directory := by
  have habsolute : Path.isAbsolute (Path.join directory name) = Path.isAbsolute directory := by
    unfold Path.join
    by_cases hnone : directory = ""
    · subst hnone
      have hempty : Path.isAbsolute "" = false := by decide
      simpa [hempty] using Path.isAbsolute_of_not_mem hname
    · split
      · exact Path.isAbsolute_append hnone name
      · rw [String.append_assoc, Path.isAbsolute_append hnone]
  rw [origin, origin, habsolute]

/-- A walk is a shorter walk and one more step. -/
theorem walk_concat_eq_ok_iff {start names : List String} :
    t.walk start (names ++ [name]) = .ok place ↔
      ∃ outer, t.walk start names = .ok outer ∧ t.step outer name = .ok place := by
  rw [walk_concat]
  cases t.walk start names <;> simp

theorem resolve_eq_ok_iff {path : String} (hslash : Path.endsInSlash path = false) :
    t.resolve path = .ok place ↔
      pathFault? path = none ∧ t.walk (t.origin path) (namesOf path) = .ok place := by
  rw [resolve, hslash]
  cases pathFault? path with
  | some e => simp
  | none => cases t.walk (t.origin path) (namesOf path) <;> simp

theorem bytes?_eq_some_iff {bytes : List UInt8} :
    t.bytes? place = some bytes ↔ t.node? place = some (.file bytes) := by
  rw [bytes?]
  cases t.node? place with
  | none => simp
  | some e => cases e <;> simp

theorem readBytes_eq_ok_iff {path : String} {bytes : List UInt8} :
    t.readBytes path = .ok bytes ↔
      ∃ place, t.resolve path = .ok place ∧ t.node? place = some (.file bytes) := by
  rw [readBytes]
  cases t.resolve path with
  | error e => simp
  | ok place =>
    simp only [Except.ok.injEq, exists_eq_left', ← bytes?_eq_some_iff]
    cases hbytes : t.bytes? place <;> simp

/-- A step looks at the directory, and at the entry of the name unless that is a point. -/
theorem step_congr {place : List String} (hplace : u.node? place = t.node? place)
    (hentry : name ≠ "." → u.node? (place ++ [name]) = t.node? (place ++ [name])) :
    u.step place name = t.step place name := by
  by_cases hdot : name = "."
  · simp [step, hdot, hplace]
  · simp [step, hplace, hentry hdot]

end FileTree

namespace ComponentSource

open FileTree

/-! ## The places of manifests -/

/-- The place of the directory of a package, given that of the directory of all packages. -/
def packagePlace (directory : List String) (name : String) : List String :=
  if name = "." then directory else directory ++ [name]

/-- The path of the manifest of a package. -/
def manifestPath (root name : String) : String := Path.join (Path.join root name) manifestFile

/-- The path of a manifest and the name of its package are such as can be looked up. -/
structure CanBeLookedUp (root name : String) : Prop where
  /-- The path is not too long and has no NUL in it. -/
  path : pathFault? (manifestPath root name) = none
  /-- The name is not too long. -/
  name : Utf8.size name.toList ≤ nameLimit

/-- The manifest of a package has the given bytes, where `root` leads to the directory of all
packages. -/
structure Finds (root name : String) (t : FileTree) (directory : List String)
    (bytes : List UInt8) : Prop where
  /-- Where `root` leads. -/
  leads : t.walk (t.origin root) (namesOf root) = .ok directory
  /-- It is a directory. -/
  around : t.node? directory = some .directory
  /-- The package has a directory, too. -/
  package : t.node? (packagePlace directory name) = some .directory
  /-- In it lies the manifest. -/
  manifest : t.node? (packagePlace directory name ++ [manifestFile]) = some (.file bytes)

/-- A file tree has what is looked at for a package in another one: where the directory of all
packages is, what is there, and the entries of the package and of its manifest. -/
structure Resembles (root name : String) (u t : FileTree) : Prop where
  /-- The directory of all packages is at the same place. -/
  walk : u.walk (u.origin root) (namesOf root) = t.walk (t.origin root) (namesOf root)
  /-- What is at the three places is the same. -/
  node : ∀ directory, t.walk (t.origin root) (namesOf root) = .ok directory →
    ∀ place ∈ [directory, packagePlace directory name,
      packagePlace directory name ++ [manifestFile]], u.node? place = t.node? place

variable {root name : String} {t u : FileTree} {directory place : List String}

theorem slash_not_mem_manifestFile : '/' ∉ manifestFile.toList := by decide

theorem slash_not_mem_of_isPackageName (h : isPackageName name = true) : '/' ∉ name.toList := by
  by_cases hdot : name = "."
  · subst hdot
    decide
  · exact ((isStep_iff_ne_dot h).2 hdot).single

theorem installedPath?_eq (h : isPackageName name = true) :
    installedPath? root name = some (manifestPath root name) :=
  if_pos h

/-- The path of a manifest starts where `root` does and goes two names further. -/
theorem walk_manifest (h : isPackageName name = true) (t : FileTree) :
    t.walk (t.origin (manifestPath root name)) (namesOf (manifestPath root name)) =
      t.walk (t.origin root) (namesOf root ++ [name] ++ [manifestFile]) := by
  have hslash := slash_not_mem_of_isPackageName h
  have hne : name ≠ "" := by
    rintro rfl
    cases h
  rw [manifestPath, origin_join slash_not_mem_manifestFile, origin_join hslash,
    namesOf_join slash_not_mem_manifestFile (by decide), namesOf_join hslash hne]

theorem endsInSlash_manifestPath (root name : String) :
    Path.endsInSlash (manifestPath root name) = false := by
  have hlast (front : String) : Path.endsInSlash (front ++ manifestFile) = false := by
    rw [Path.endsInSlash, String.toList_append, List.getLast?_append_of_ne_nil _ (by decide)]
    decide
  rw [manifestPath, Path.join]
  split
  · exact hlast (Path.join root name)
  · exact hlast (Path.join root name ++ "/")

/-- A step by a package name leads to the directory of the package. -/
theorem step_packagePlace_iff (h : isPackageName name = true) : t.step directory name = .ok place ↔
    t.node? directory = some .directory ∧ Utf8.size name.toList ≤ nameLimit ∧
      (t.node? place).isSome = true ∧ packagePlace directory name = place := by
  rw [step_eq_ok_iff]
  by_cases hdot : name = "."
  · -- The point is short, and what it leads to is the directory that it starts from.
    subst hdot
    have hsize : Utf8.size ".".toList ≤ nameLimit := by decide
    simp only [packagePlace, if_true, hsize, true_and]
    constructor
    · rintro ⟨hdirectory, rfl | ⟨hdots, -⟩ | ⟨hname, -⟩⟩
      · exact ⟨hdirectory, by rw [hdirectory]; rfl, rfl⟩
      · exact absurd hdots (by decide)
      · exact absurd (.inl trivial) hname
    · rintro ⟨hdirectory, -, rfl⟩
      exact ⟨hdirectory, .inl rfl⟩
  · have hdots := ((isStep_iff_ne_dot h).2 hdot).back
    simp only [packagePlace, hdot, hdots, if_false, false_and, or_false, not_false_eq_true,
      true_and, false_or, Nat.not_lt]
    constructor
    · rintro ⟨hdirectory, hsize, hentry, rfl⟩
      exact ⟨hdirectory, hsize, hentry, rfl⟩
    · rintro ⟨hdirectory, hsize, hentry, rfl⟩
      exact ⟨hdirectory, hsize, hentry, rfl⟩

theorem step_manifestFile_iff : t.step directory manifestFile = .ok place ↔
    t.node? directory = some .directory ∧ (t.node? place).isSome = true ∧
      directory ++ [manifestFile] = place := by
  have hdot : manifestFile ≠ "." := by decide
  have hdots : manifestFile ≠ ".." := by decide
  have hsize : ¬nameLimit < Utf8.size manifestFile.toList := by decide
  rw [step_eq_ok_iff]
  simp only [hdot, hdots, hsize, false_and, or_self, not_false_eq_true, true_and, false_or]
  constructor
  · rintro ⟨hdirectory, hentry, rfl⟩
    exact ⟨hdirectory, hentry, rfl⟩
  · rintro ⟨hdirectory, hentry, rfl⟩
    exact ⟨hdirectory, hentry, rfl⟩

/-- Where the path of a manifest leads. -/
theorem resolve_manifest_iff (h : isPackageName name = true) :
    t.resolve (manifestPath root name) = .ok place ↔ CanBeLookedUp root name ∧
      ∃ directory, t.walk (t.origin root) (namesOf root) = .ok directory ∧
        t.node? directory = some .directory ∧
        t.node? (packagePlace directory name) = some .directory ∧
        (t.node? place).isSome = true ∧
        packagePlace directory name ++ [manifestFile] = place := by
  rw [resolve_eq_ok_iff (endsInSlash_manifestPath root name), walk_manifest h]
  simp only [walk_concat_eq_ok_iff, step_packagePlace_iff h, step_manifestFile_iff]
  constructor
  · rintro ⟨hpath, _, ⟨directory, hleads, haround, hsize, -, rfl⟩, hpackage, hentry, hplace⟩
    exact ⟨⟨hpath, hsize⟩, directory, hleads, haround, hpackage, hentry, hplace⟩
  · rintro ⟨⟨hpath, hsize⟩, directory, hleads, haround, hpackage, hentry, hplace⟩
    refine ⟨hpath, _, ⟨directory, hleads, haround, hsize, ?_, rfl⟩, hpackage, hentry, hplace⟩
    rw [hpackage]
    rfl

/-- The bytes at the path of a manifest are those of the manifest that is found. -/
theorem readBytes_manifest_iff (h : isPackageName name = true) {bytes : List UInt8} :
    t.readBytes (manifestPath root name) = .ok bytes ↔
      CanBeLookedUp root name ∧ ∃ directory, Finds root name t directory bytes := by
  simp only [readBytes_eq_ok_iff, resolve_manifest_iff h]
  constructor
  · rintro ⟨_, ⟨hpath, directory, hleads, haround, hpackage, -, rfl⟩, hmanifest⟩
    exact ⟨hpath, directory, ⟨hleads, haround, hpackage, hmanifest⟩⟩
  · rintro ⟨hpath, directory, ⟨hleads, haround, hpackage, hmanifest⟩⟩
    refine ⟨_, ⟨hpath, directory, hleads, haround, hpackage, ?_, rfl⟩, hmanifest⟩
    rw [hmanifest]
    rfl

/-! ## What is looked at -/

/-- A package is installed if there are bytes at the path of its manifest. -/
theorem isInstalled_iff_readBytes (h : isPackageName name = true) :
    isInstalled root name t = true ↔ ∃ bytes, t.readBytes (manifestPath root name) = .ok bytes := by
  -- A directory has no bytes, so that it does not count as a manifest.
  simp only [isInstalled, installedPath?_eq h, readBytes]
  cases t.resolve (manifestPath root name) with
  | error e => simp
  | ok place => cases hbytes : t.bytes? place <;> simp [hbytes]

theorem readManifestAt_eq_ok_iff {path : String} {p : PackageComponents} :
    readManifestAt path t = .ok p ↔ ∃ bytes text, t.readBytes path = .ok bytes ∧
      Utf8.decodeString bytes = .ok text ∧ readManifest text = .ok p := by
  rw [readManifestAt, readText]
  cases t.readBytes path with
  | error e => simp
  | ok bytes =>
    cases htext : Utf8.decodeString bytes with
    | error e => simp [htext]
    | ok text => cases hmanifest : readManifest text <;> simp [htext, hmanifest, Except.mapError]

/-- The path of a manifest leads to the same place in a tree that has what is looked at. -/
theorem resolve_congr (h : isPackageName name = true) (hu : Resembles root name u t) :
    u.resolve (manifestPath root name) = t.resolve (manifestPath root name) := by
  have hwalk : u.walk (u.origin root) (namesOf root ++ [name] ++ [manifestFile]) =
      t.walk (t.origin root) (namesOf root ++ [name] ++ [manifestFile]) := by
    -- The walks are the same up to the directory of all packages. The two steps from there look at
    -- nothing but what is the same in both trees.
    rw [walk_concat, walk_concat, walk_concat, walk_concat, hu.walk]
    cases hleads : t.walk (t.origin root) (namesOf root) with
    | error e => rfl
    | ok directory =>
      have hnode := hu.node directory hleads
      have hstep : u.step directory name = t.step directory name := by
        refine step_congr (hnode _ (by simp)) fun hdot => ?_
        have hplace : packagePlace directory name = directory ++ [name] := if_neg hdot
        exact hplace ▸ hnode _ (by simp)
      simp only [hstep]
      cases hpackage : t.step directory name with
      | error e => rfl
      | ok package =>
        obtain ⟨-, -, -, rfl⟩ := (step_packagePlace_iff h).1 hpackage
        exact step_congr (hnode _ (by simp)) fun _ => hnode _ (by simp)
  simp only [resolve, endsInSlash_manifestPath, walk_manifest h, hwalk, Bool.false_and]

/-- The manifest of a package has the same bytes in a tree that has what is looked at. -/
theorem readBytes_congr (h : isPackageName name = true) (hu : Resembles root name u t) :
    u.readBytes (manifestPath root name) = t.readBytes (manifestPath root name) := by
  rw [readBytes, readBytes, resolve_congr h hu]
  cases hplace : t.resolve (manifestPath root name) with
  | error e => rfl
  | ok place =>
    obtain ⟨-, directory, hleads, -, -, -, rfl⟩ := (resolve_manifest_iff h).1 hplace
    have hnode := hu.node directory hleads (packagePlace directory name ++ [manifestFile]) (by simp)
    simp only [bytes?, hnode]

/-- The rest of the tree does not matter. -/
theorem isInstalled_congr (h : isPackageName name = true) (hu : Resembles root name u t) :
    isInstalled root name u = isInstalled root name t := by
  rw [Bool.eq_iff_iff, isInstalled_iff_readBytes h, isInstalled_iff_readBytes h,
    readBytes_congr h hu]

theorem installed_congr (h : isPackageName name = true) (hu : Resembles root name u t) :
    installed root name u = installed root name t := by
  simp only [installed, installedPath?_eq h, readManifestAt, readText, readBytes_congr h hu]

/-! ## Packages side by side -/

/-- Two packages do not have the same directory. -/
theorem packagePlace_injective (directory : List String) :
    Function.Injective (packagePlace directory) := by
  intro a b hplace
  by_cases ha : a = "." <;> by_cases hb : b = "."
  · rw [ha, hb]
  · -- Only the point leads nowhere else.
    simp [packagePlace, ha, hb] at hplace
  · simp [packagePlace, ha, hb] at hplace
  · simpa [packagePlace, ha, hb] using hplace

/-- The directory of a package is below that of all packages unless the name is a point. -/
theorem below_packagePlace_iff : (∃ rest, rest ≠ [] ∧ packagePlace directory name =
    directory ++ rest) ↔ name ≠ "." := by
  unfold packagePlace
  split
  next hdot => simp [hdot]
  next hdot => simp [hdot]

/-- What is looked at for installed packages below `root`. -/
structure KeepsApart (root : String) : Prop where
  /-- A text that is no package name is reported as not installed. -/
  refused : ∀ name t, isPackageName name = false →
    isInstalled root name t = false ∧ installed root name t = .error (.badName name)
  /-- A package name is one step to another place, unless it is a point. -/
  isStep_iff : ∀ name, isPackageName name = true → (Path.IsStep name ↔ name ≠ ".")
  /-- A package is installed if its manifest is found. -/
  isInstalled_iff : ∀ name t, isPackageName name = true → (isInstalled root name t = true ↔
    CanBeLookedUp root name ∧ ∃ directory bytes, Finds root name t directory bytes)
  /-- Its components are those of the manifest. -/
  installed_iff : ∀ name t p, isPackageName name = true → (installed root name t = .ok p ↔
    CanBeLookedUp root name ∧ ∃ directory bytes text, Finds root name t directory bytes ∧
      Utf8.decodeString bytes = .ok text ∧ readManifest text = .ok p)
  /-- Nothing else is looked at. -/
  looksAt : ∀ name t u, isPackageName name = true → Resembles root name u t →
    isInstalled root name u = isInstalled root name t ∧
      installed root name u = installed root name t
  /-- The directory of a package is below that of all packages, unless the name is a point. -/
  below : ∀ directory name,
    (∃ rest, rest ≠ [] ∧ packagePlace directory name = directory ++ rest) ↔ name ≠ "."
  /-- Manifests of two packages are not in the same directory. -/
  apart : ∀ directory a b, a ≠ b → packagePlace directory a ≠ packagePlace directory b

/-- Installed packages are kept apart, and a package name does not lead out of the directory of all
packages. Every name but the point leads into a directory below it. -/
theorem keepsApart (root : String) : KeepsApart root where
  refused name t h := by
    have hnone : installedPath? root name = none := if_neg (by simp [h])
    simp [isInstalled, installed, hnone]
  isStep_iff name h := isStep_iff_ne_dot h
  isInstalled_iff name t h := by
    simp only [isInstalled_iff_readBytes h, readBytes_manifest_iff h]
    constructor
    · rintro ⟨bytes, hpath, directory, hfinds⟩
      exact ⟨hpath, directory, bytes, hfinds⟩
    · rintro ⟨hpath, directory, bytes, hfinds⟩
      exact ⟨bytes, hpath, directory, hfinds⟩
  installed_iff name t p h := by
    simp only [installed, installedPath?_eq h, readManifestAt_eq_ok_iff, readBytes_manifest_iff h]
    constructor
    · rintro ⟨bytes, text, ⟨hpath, directory, hfinds⟩, htext, hp⟩
      exact ⟨hpath, directory, bytes, text, hfinds, htext, hp⟩
    · rintro ⟨hpath, directory, bytes, text, hfinds, htext, hp⟩
      exact ⟨bytes, text, ⟨hpath, directory, hfinds⟩, htext, hp⟩
  looksAt name t u h hu := ⟨isInstalled_congr h hu, installed_congr h hu⟩
  below directory name := below_packagePlace_iff
  apart directory _ _ hne := (packagePlace_injective directory).ne hne

/-- A manifest in the directory of all packages. -/
def strayManifest : FileTree :=
  ((FileTree.ofHome []).put ["installed"] .directory).put ["installed", manifestFile]
    (.file (Utf8.encodeString "<manifest package=\"a.b\"/>"))

/-- The point is a package name. The manifest of this package lies in the directory of all packages
itself, and not in one of its own. -/
theorem keepsApart_ne : isPackageName "." = true ∧ ¬Path.IsStep "." ∧
    packagePlace ["installed"] "." = ["installed"] ∧
    isInstalled "installed" "." strayManifest = true ∧
    installed "installed" "." strayManifest = .ok ⟨"a.b", []⟩ := by
  refine ⟨by decide, fun hstep => absurd hstep.idle (by decide), by decide, ?_, ?_⟩
  · decide +kernel
  · decide +kernel

end ComponentSource
end IntentFirewall
