import IntentFirewall.Proofs.Rules.Operations
import IntentFirewall.Storage.Path

/-!
# Paths of rule files

A name that is put behind a directory is one more step from there, and the names that are given to
rule files are such steps. So every package has its own file, in the directory of all of them.

* `Text.pieces_append`: the pieces of a text on both sides of a separator.
* `Path.ofText_join`: the place that a name in a directory leads to.
* `RuleStore.isFlat`: where the rule files of packages lie.
-/

namespace IntentFirewall

/-! ## Pieces of texts -/

namespace Text

variable {separator : Char}

theorem pieces_ne_nil (separator : Char) (cs : List Char) : pieces separator cs ≠ [] := by
  cases cs with
  | nil => simp [pieces]
  | cons c cs =>
    rw [pieces]
    split
    · simp
    · split <;> simp

/-- A text is cut at a separator, and on both sides of it. -/
theorem pieces_append (separator : Char) (cs ds : List Char) :
    pieces separator (cs ++ separator :: ds) = pieces separator cs ++ pieces separator ds := by
  induction cs with
  | nil => simp [pieces]
  | cons c cs ih =>
    rw [List.cons_append, pieces, pieces, ih]
    split
    · rfl
    · cases hpieces : pieces separator cs with
      | nil => exact absurd hpieces (pieces_ne_nil separator cs)
      | cons piece rest => rfl

theorem pieces_of_not_mem {cs : List Char} (h : separator ∉ cs) : pieces separator cs = [cs] := by
  induction cs with
  | nil => rfl
  | cons c cs ih =>
    obtain ⟨hc, hcs⟩ := not_or.1 (mt List.mem_cons.2 h)
    rw [pieces, if_neg (Ne.symm hc), ih hcs]

end Text

/-! ## Names in directories -/

namespace Path

/-- A name leads one step further, to an entry of the directory that it is put behind. -/
structure IsStep (name : String) : Prop where
  /-- It is a single name. -/
  single : '/' ∉ name.toList
  /-- It leads somewhere. -/
  idle : isIdle name = false
  /-- It does not lead back. -/
  back : name ≠ ".."

/-- The place of an entry of a directory. -/
def child (p : Path) (name : String) : Path := { p with names := p.names ++ [name] }

theorem child_injective (p : Path) : Function.Injective p.child := by
  intro a b h
  have hnames : p.names ++ [a] = p.names ++ [b] := congrArg names h
  simpa using hnames

/-- One more piece is one more step. -/
theorem ofText_eq_child {text directory name : String} {pieces : List String}
    (habsolute : isAbsolute text = isAbsolute directory) (hpieces : pieces ≠ [])
    (htext : Text.splitAt '/' text = pieces ++ [name])
    (hdirectory : Text.splitAt '/' directory = pieces ∨ Text.splitAt '/' directory = pieces ++ [""])
    (hname : isIdle name = false) : ofText text = (ofText directory).child name := by
  obtain ⟨first, rest, rfl⟩ := List.exists_cons_of_ne_nil hpieces
  have hidle : isIdle "" = true := rfl
  -- A slash at the end of the directory is followed by an empty piece, which does not count.
  have hnames : ofText directory = if isAbsolute directory then ⟨true, rest.filter (!isIdle ·)⟩
      else ⟨false, if first = "" then rest.filter (!isIdle ·)
        else first :: rest.filter (!isIdle ·)⟩ := by
    rcases hdirectory with hdirectory | hdirectory
    · rw [ofText, hdirectory]
    · rw [ofText, hdirectory, List.cons_append]
      simp only [List.filter_append, List.filter_singleton, hidle, Bool.not_true, cond_false,
        List.append_nil]
  rw [hnames, ofText, htext, List.cons_append]
  simp only [habsolute, List.filter_append, List.filter_singleton, hname, Bool.not_false, cond_true]
  split
  · rfl
  · split <;> rfl

theorem splitAt_append_slash (text name : String) (hname : '/' ∉ name.toList) :
    Text.splitAt '/' (text ++ "/" ++ name) = Text.splitAt '/' text ++ [name] := by
  have htext : (text ++ "/" ++ name).toList = text.toList ++ '/' :: name.toList := by
    simp
  rw [Text.splitAt, htext, Text.pieces_append, Text.pieces_of_not_mem hname, List.map_append]
  simp [Text.splitAt]

theorem isAbsolute_append {text : String} (h : text ≠ "") (more : String) :
    isAbsolute (text ++ more) = isAbsolute text := by
  have hne : text.toList ≠ [] := by
    intro hnil
    exact h (String.toList_injective hnil)
  rw [isAbsolute, isAbsolute, String.toList_append, List.head?_append_of_ne_nil _ hne]

/-- A text without slashes does not start at the root. -/
theorem isAbsolute_of_not_mem {name : String} (hname : '/' ∉ name.toList) :
    isAbsolute name = false := by
  rw [isAbsolute, beq_eq_false_iff_ne]
  intro hhead
  exact hname (List.mem_of_mem_head? hhead)

theorem ofText_of_not_mem {name : String} (hname : '/' ∉ name.toList) (hne : name ≠ "") :
    ofText name = ⟨false, [name]⟩ := by
  rw [ofText, Text.splitAt, Text.pieces_of_not_mem hname]
  simp [isAbsolute_of_not_mem hname, hne]

theorem exists_of_endsInSlash {directory : String} (h : endsInSlash directory = true) :
    ∃ front, directory = front ++ "/" := by
  rw [endsInSlash, beq_iff_eq, List.getLast?_eq_some_iff] at h
  obtain ⟨cs, hcs⟩ := h
  refine ⟨String.ofList cs, String.toList_injective ?_⟩
  rw [hcs]
  simp

/-- A name that is put behind a directory is one step from there. -/
theorem ofText_join (directory : String) {name : String} (hname : IsStep name) :
    ofText (join directory name) = (ofText directory).child name := by
  have hne : name ≠ "" := by
    rintro rfl
    cases hname.idle
  unfold join
  split
  next hends =>
    rw [Bool.or_eq_true, decide_eq_true_iff] at hends
    rcases hends with rfl | hends
    · -- Without a directory the name stands alone.
      rw [String.empty_append, ofText_of_not_mem hname.single hne]
      rfl
    · -- The slash that is missing otherwise stands at the end of the directory.
      obtain ⟨front, rfl⟩ := exists_of_endsInSlash hends
      have hdirectory := splitAt_append_slash front "" (by simp)
      rw [String.append_empty] at hdirectory
      refine ofText_eq_child (isAbsolute_append (by simp) name) ?_
        (splitAt_append_slash front name hname.single) (.inr hdirectory) hname.idle
      simp [Text.splitAt, Text.pieces_ne_nil]
  next hends =>
    rw [Bool.or_eq_true, decide_eq_true_iff, not_or] at hends
    refine ofText_eq_child ?_ ?_ (splitAt_append_slash directory name hname.single) (.inl rfl)
      hname.idle
    · rw [String.append_assoc, isAbsolute_append hends.1]
    · simp [Text.splitAt, Text.pieces_ne_nil]

end Path

/-! ## Rule files -/

/-- The name of a rule file is a step: there are no slashes in it, and it does not end in a point. -/
theorem isStep_of_isPackageName {packageName : String} (h : isPackageName packageName = true) :
    Path.IsStep (packageName ++ ".xml") := by
  have hx : 'x' ∈ (packageName ++ ".xml").toList := by simp
  refine ⟨?_, ?_, ?_⟩
  · intro hslash
    rw [isPackageName, Bool.and_eq_true, List.all_eq_true] at h
    rw [String.toList_append, List.mem_append] at hslash
    rcases hslash with hslash | hslash
    · exact absurd (h.2 '/' hslash) (by decide)
    · exact absurd hslash (by decide)
  · rw [Path.isIdle, Bool.or_eq_false_iff, beq_eq_false_iff_ne, beq_eq_false_iff_ne]
    constructor
    · intro heq
      exact absurd (heq ▸ hx) (by decide)
    · intro heq
      exact absurd (heq ▸ hx) (by decide)
  · intro heq
    exact absurd (heq ▸ hx) (by decide)

namespace RuleStore

/-- The rule files of packages lie side by side in one directory, every package with its own. -/
structure IsFlat (store : RuleStore) : Prop where
  /-- A rule file is an entry of the directory. -/
  child : ∀ packageName path, store.rulesPath packageName = .ok path →
    Path.IsStep (packageName ++ ".xml") ∧
      Path.ofText path = (Path.ofText store.rulesDir).child (packageName ++ ".xml")
  /-- Two packages do not share one. -/
  injective : ∀ a b path path', store.rulesPath a = .ok path → store.rulesPath b = .ok path' →
    a ≠ b → Path.ofText path ≠ Path.ofText path'

theorem ofText_rulesPath {store : RuleStore} {packageName path : String}
    (h : store.rulesPath packageName = .ok path) :
    Path.IsStep (packageName ++ ".xml") ∧
      Path.ofText path = (Path.ofText store.rulesDir).child (packageName ++ ".xml") := by
  have hname := isPackageName_of_rulesPath h
  have hstep := isStep_of_isPackageName hname
  obtain rfl := Except.ok.inj ((store.rulesPath_eq hname).symm.trans h)
  exact ⟨hstep, Path.ofText_join store.rulesDir hstep⟩

theorem isFlat (store : RuleStore) : store.IsFlat where
  child _ _ := ofText_rulesPath
  injective a b path path' ha hb hne := by
    rw [(ofText_rulesPath ha).2, (ofText_rulesPath hb).2]
    intro heq
    have hnames : a ++ ".xml" = b ++ ".xml" := Path.child_injective _ heq
    exact hne ((String.append_left_inj _).1 hnames)

end RuleStore
end IntentFirewall
