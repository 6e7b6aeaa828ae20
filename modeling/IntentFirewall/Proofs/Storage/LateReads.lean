import IntentFirewall.Proofs.Rules.Failure
import IntentFirewall.Proofs.Rules.Simulation

/-!
# Faults in the middle of a file

A file is read piece by piece, and a fault may strike at any of the pieces. What has been read
before is given up then, so that it does not matter which piece it was: the error is the same, and
so is what is left. A fault that waits for more pieces than there are never strikes.

* `Deferred`: a storage that cannot be relied on, whose fault spares a number of reads, and
  `Deferred.resolve`: the one whose fault strikes at the first piece instead, or not at all.
* `Deferred.readFrom_eq`: reading fails exactly if it comes to a read that is not spared.
* `Deferred.carryOut_of_fault`: a call answers and leaves the same on both storages.
* `Deferred.bytesAt_of_carryOut_error`: a call that fails has changed no file.
-/

namespace IntentFirewall

/-- A storage that cannot be relied on, whose fault spares the reads to come. -/
structure Deferred (σ : Type) where
  /-- The storage that does the work, with the fault. -/
  storage : Unreliable σ
  /-- The number of reads that are spared. -/
  spared : Nat

namespace Deferred

variable {σ α : Type}

/-- Carries out an operation. -/
def perform (act : Unreliable σ → α × Unreliable σ) (d : Deferred σ) : α × Deferred σ :=
  (act d.storage).map id fun u => { d with storage := u }

theorem perform_eq {act : Unreliable σ → α × Unreliable σ} {d : Deferred σ} {result : α}
    {u : Unreliable σ} (h : act d.storage = (result, u)) :
    perform act d = (result, { d with storage := u }) := by
  rw [perform, h]
  rfl

/-- A read that is spared. -/
def spare (act : σ → α × σ) (u : Unreliable σ) : α × Unreliable σ :=
  (act u.storage).map id fun s => { u with storage := s }

instance [Storage σ] : Storage (Deferred σ) where
  isFile path := perform (Storage.isFile path)
  readAll path := perform (Storage.readAll path)
  openFile path := perform (Storage.openFile path)
  read h n d :=
    match d.spared with
    | 0 => perform (Storage.read h n) d
    | k + 1 => perform (spare (Storage.read h (d.storage.limited n))) { d with spared := k }
  truncate h length := perform (Storage.truncate h length)
  write h bytes := perform (Storage.write h bytes)
  close h := perform (Storage.close h)
  remaining h d := Storage.remaining h d.storage
  remaining_of_read {h n d bytes h' d'} hread hbytes := by
    split at hread
    · obtain ⟨hresult, rfl⟩ := Prod.mk.inj hread
      exact Storage.remaining_of_read (Prod.ext hresult rfl) hbytes
    · obtain ⟨hresult, rfl⟩ := Prod.mk.inj hread
      exact Storage.remaining_of_read (s := d.storage.storage) (Prod.ext hresult rfl) hbytes

/-! ## Reading to the end -/

section

variable {u : Unreliable Memory} {f : Fault} {h : Handle} {bytes : List UInt8} {size : Nat}

/-- A read that is spared yields a piece of the file. -/
theorem read_of_spared (hsize : u.limited Storage.pieceSize = size)
    (hdenied : u.storage.denied = false) (hfile : u.storage.contents? h.file = some bytes)
    (hcursor : h.cursor ≤ bytes.length) (k : Nat) :
    Storage.read h Storage.pieceSize (⟨u, k + 1⟩ : Deferred Memory) =
      (.ok ((bytes.drop h.cursor).take size,
        { h with cursor := h.cursor + ((bytes.drop h.cursor).take size).length }), ⟨u, k⟩) := by
  have hpiece := Memory.read_eq hdenied hfile hcursor size
  rw [← hsize] at hpiece ⊢
  exact congrArg (fun r => (r.1, (⟨{ u with storage := r.2 }, k⟩ : Deferred Memory))) hpiece

/-- A read that is not spared fails. -/
theorem read_of_not_spared (hfault : u.fault = some f) (hoperation : f.operation = .read)
    (n : Nat) : Storage.read h n (⟨u, 0⟩ : Deferred Memory) =
      (.error (.ofFile h.path f.cause), ⟨{ u with fault := none }, 0⟩) := by
  have hfailed : Storage.read h n u = (.error (.ofFile h.path f.cause), { u with fault := none }) :=
    Unreliable.attempt_of_fault hfault hoperation
  exact congrArg (fun r => (r.1, (⟨r.2, 0⟩ : Deferred Memory))) hfailed

/-- Reading fails exactly if something is still to be read, if only the end of the file, when no
read is spared any more. -/
theorem readFrom_eq (hsize : u.limited Storage.pieceSize = size)
    (hdenied : u.storage.denied = false) (hfault : u.fault = some f)
    (hoperation : f.operation = .read) (hfile : u.storage.contents? h.file = some bytes)
    (hcursor : h.cursor ≤ bytes.length) (acc : List UInt8) (k : Nat) :
    ∃ j, Storage.readFrom h acc (⟨u, k⟩ : Deferred Memory) =
      if k * size < bytes.length - h.cursor + size then
        (.error (.ofFile h.path f.cause), ⟨{ u with fault := none }, 0⟩)
      else
        (.ok (acc.reverse ++ bytes.drop h.cursor, { h with cursor := bytes.length }), ⟨u, j⟩) := by
  have hpositive : 0 < size := hsize ▸ Unreliable.limited_pos (by decide) u
  -- The induction is on the number of reads that are spared.
  induction k generalizing h acc with
  | zero =>
    refine ⟨0, ?_⟩
    rw [if_pos (by omega),
      Storage.readFrom_of_error (read_of_not_spared hfault hoperation Storage.pieceSize)]
  | succ k ih =>
    rcases Storage.readFrom_of_take hpositive hcursor
      (read_of_spared hsize hdenied hfile hcursor k) acc with ⟨hend, hdone⟩ | ⟨hmore, hpiece⟩
    · refine ⟨k, ?_⟩
      rw [if_neg (by rw [Nat.succ_mul]; omega), hdone, hend, List.drop_length, List.append_nil]
    · obtain ⟨j, hrest⟩ :=
        ih (h := { h with cursor := h.cursor + min size (bytes.length - h.cursor) }) hfile
          (by simp only; omega) (((bytes.drop h.cursor).take size).reverse ++ acc)
      refine ⟨j, ?_⟩
      rw [hpiece, hrest, Storage.reverse_take_append_drop]
      -- One read less is spared and one piece less is left, of which the last may be a short one.
      refine if_congr ?_ rfl rfl
      have hwhole : k * size = 0 ∨ size ≤ k * size := by
        rcases Nat.eq_zero_or_pos k with rfl | hk
        · exact .inl (Nat.zero_mul size)
        · exact .inr (Nat.le_mul_of_pos_left size hk)
      rw [Nat.succ_mul]
      simp only
      omega

end

/-- What a deferred fault comes to when a file of a length is read: it strikes at the first piece, or
not at all. -/
def resolve (length : Nat) (d : Deferred σ) : Unreliable σ :=
  if d.spared * d.storage.limited Storage.pieceSize <
      length + d.storage.limited Storage.pieceSize then d.storage
  else { d.storage with fault := none }

theorem storage_resolve (length : Nat) (d : Deferred σ) :
    (d.resolve length).storage = d.storage.storage := by
  rw [resolve]
  split <;> rfl

/-- What a deferred fault comes to does not depend on the files. -/
theorem resolve_withFiles (length : Nat) (d : Deferred σ) (s : σ) :
    resolve length { d with storage := { d.storage with storage := s } } =
      { d.resolve length with storage := s } := by
  have hlimited : ({ d.storage with storage := s } : Unreliable σ).limited Storage.pieceSize =
      d.storage.limited Storage.pieceSize := rfl
  simp only [resolve, hlimited]
  split <;> rfl

/-! ## Calls -/

/-- The same files are in both storages, and only a fault of reading is to come. -/
structure Corresponds (d : Deferred σ) (v : Unreliable σ) : Prop where
  /-- The fault that is deferred. -/
  deferred : ∀ f, d.storage.fault = some f → f.operation = .read
  /-- The other fault. -/
  fault : ∀ f, v.fault = some f → f.operation = .read
  /-- The files. -/
  storage_eq : d.storage.storage = v.storage

theorem agree_attempt {operation : Operation} (hoperation : operation ≠ .read) (path : String)
    (act : σ → Except StorageError α × σ) {d : Deferred σ} {v : Unreliable σ}
    (h : Corresponds d v) :
    Storage.Agree Corresponds (perform (Unreliable.attempt operation path act) d)
      (Unreliable.attempt operation path act v) := by
  have hattempt {u : Unreliable σ} (hu : ∀ f, u.fault = some f → f.operation = .read) :
      Unreliable.attempt operation path act u = _ :=
    Unreliable.attempt_of_no_fault fun f hf hsame => hoperation (hsame.symm.trans (hu f hf))
  rw [perform, hattempt h.deferred, hattempt h.fault, h.storage_eq]
  exact ⟨rfl, h.deferred, h.fault, rfl⟩

theorem simulates [Storage σ] :
    Storage.Simulates (Corresponds : Deferred σ → Unreliable σ → Prop) where
  isFile h path := agree_attempt (by decide) path (Storage.isFile path) h
  openFile h path := agree_attempt (by decide) path (Storage.openFile path) h
  truncate h handle length :=
    agree_attempt (by decide) handle.path (Storage.truncate handle length) h
  write h handle bytes := agree_attempt (by decide) handle.path (Storage.write handle bytes) h
  close h handle := agree_attempt (by decide) handle.path (Storage.close handle) h

theorem corresponds_resolve {d : Deferred σ}
    (hread : ∀ f, d.storage.fault = some f → f.operation = .read) (length : Nat) :
    Corresponds d (d.resolve length) := by
  rw [resolve]
  split
  · exact ⟨hread, hread, rfl⟩
  · exact ⟨hread, by simp, rfl⟩

variable {d : Deferred Memory} {f : Fault}

/-- A file is read as if the fault struck at the first piece, or not at all. -/
theorem agree_readToEnd (path : String) {file : Path} {bytes : List UInt8}
    (hfault : d.storage.fault = some f) (hoperation : f.operation = .read)
    (hdenied : d.storage.storage.denied = false)
    (hfile : d.storage.storage.contents? file = some bytes) :
    Storage.Agree Corresponds (Storage.readToEnd ⟨path, file, 0⟩ d)
      (Storage.readToEnd ⟨path, file, 0⟩ (d.resolve bytes.length)) := by
  obtain ⟨j, hread⟩ := readFrom_eq (h := ⟨path, file, 0⟩) rfl hdenied hfault hoperation hfile
    (Nat.zero_le _) [] d.spared
  rw [Storage.readToEnd, hread, resolve]
  dsimp only [Nat.sub_zero]
  split
  · rw [Unreliable.readToEnd_of_fault hfault hoperation]
    exact ⟨rfl, by simp, by simp, rfl⟩
  · have hwhole := Unreliable.readToEnd_eq (u := { d.storage with fault := none }) path (by simp)
      hdenied hfile
    rw [hwhole]
    exact ⟨rfl, by simp [hfault, hoperation], by simp, rfl⟩

theorem eq_of_openFile {path : String} {h : Handle} {d' : Deferred Memory}
    (hopen : Storage.openFile path d = (.ok h, d')) :
    d.storage.storage.denied = false ∧ h = ⟨path, .ofText path, 0⟩ ∧ d' = { d with
      storage := { d.storage with storage := d.storage.storage.opened (.ofText path) } } := by
  rcases hact : Storage.openFile path d.storage with ⟨result, u⟩
  obtain ⟨rfl, rfl⟩ := Prod.mk.inj ((perform_eq hact).symm.trans hopen)
  obtain ⟨hdenied, rfl, rfl⟩ := Unreliable.eq_of_openFile hact
  exact ⟨hdenied, rfl, rfl⟩

theorem readsAlike (hfault : d.storage.fault = some f) (hoperation : f.operation = .read)
    (path : String) :
    Storage.ReadsAlike Corresponds path d
      (d.resolve (d.storage.storage.bytesAt (.ofText path)).length) := by
  intro h d' v' hopen hopen'
  obtain ⟨hdenied, rfl, rfl⟩ := eq_of_openFile hopen
  obtain ⟨-, -, rfl⟩ := Unreliable.eq_of_openFile hopen'
  have hfile := d.storage.storage.contents?_opened (.ofText path)
  have hallowed := (Memory.denied_opened d.storage.storage (.ofText path)).trans hdenied
  rw [storage_resolve, ← resolve_withFiles]
  exact agree_readToEnd path hfault hoperation hallowed hfile

/-- It does not matter at which piece of the rule file the fault strikes that a call meets when it
reads: it answers and leaves what it does if this is the first one. If the fault waits for more
pieces than there are, it is as if there were none. -/
theorem carryOut_of_fault (store : RuleStore) (packageName : String) (c : RuleStore.Call)
    (hfault : d.storage.fault = some f) (hoperation : f.operation = .read) :
    let u := d.resolve (d.storage.storage.bytesAt (store.rulesFile packageName)).length
    (store.carryOut packageName c d).1 = (store.carryOut packageName c u).1 ∧
      (store.carryOut packageName c d).2.storage.storage =
        (store.carryOut packageName c u).2.storage := by
  intro u
  have hread : ∀ g, d.storage.fault = some g → g.operation = .read := by
    simp [hfault, hoperation]
  have hcorresponds := corresponds_resolve hread
    (d.storage.storage.bytesAt (store.rulesFile packageName)).length
  -- Looking whether there is a file leaves both storages as they are.
  have hlooked (path : String) : (Storage.isFile path d).2 = d ∧ (Storage.isFile path u).2 = u := by
    have hspared {v : Unreliable Memory} (hv : ∀ g, v.fault = some g → g.operation = .read) :=
      Unreliable.isFile_snd (u := v) (fun g hg => by rw [hv g hg]; decide) path
    exact ⟨congrArg (fun v => { d with storage := v }) (hspared hread), hspared hcorresponds.fault⟩
  have hagree : Storage.Agree Corresponds (store.carryOut packageName c d)
      (store.carryOut packageName c u) := by
    refine RuleStore.agree_carryOut simulates hcorresponds store packageName c
      (readsAlike hfault hoperation _) ?_
    rw [(hlooked _).1, (hlooked _).2]
    exact readsAlike hfault hoperation _
  exact ⟨hagree.1, hagree.2.storage_eq⟩

/-- The third read would yield the bytes from the ninth one on. -/
example :
    let d : Deferred Memory := ⟨⟨Memory.empty.put (.ofText "/ifw/com.app.xml")
      (Utf8.encode "<rules></rules>".toList), some ⟨.read, .other "broken"⟩, some 4⟩, 2⟩
    (RuleStore.carryOut ⟨"/ifw"⟩ "com.app" (.unblock []) d).1 =
      .error (.unreadable "/ifw/com.app.xml" (.io "/ifw/com.app.xml" (.other "broken"))) := by
  decide +kernel

/-- A call that fails has changed no file, at whichever piece of the rule file it was. -/
theorem bytesAt_of_carryOut_error {store : RuleStore} {packageName : String} {c : RuleStore.Call}
    {e : RuleError} {d' : Deferred Memory} (hfault : d.storage.fault = some f)
    (hoperation : f.operation = .read)
    (hcall : store.carryOut packageName c d = (.error e, d')) (file : Path) :
    d'.storage.storage.bytesAt file = d.storage.storage.bytesAt file := by
  obtain ⟨hresult, hstorage⟩ := carryOut_of_fault store packageName c hfault hoperation
  generalize hlength : (d.storage.storage.bytesAt (store.rulesFile packageName)).length = length
    at hresult hstorage
  rw [hcall] at hresult hstorage
  have hread : ∀ g, d.storage.fault = some g → g.operation = .read := by
    simp [hfault, hoperation]
  have hcompletes : (d.resolve length).Completes := by
    intro g hg
    rw [(corresponds_resolve hread length).fault g hg]
    decide
  have hfailed : store.carryOut packageName c (d.resolve length) =
      (.error e, (store.carryOut packageName c (d.resolve length)).2) := Prod.ext hresult.symm rfl
  have hbytes := RuleStore.bytesAt_of_carryOut_error hcompletes hfailed file
  rwa [← hstorage, storage_resolve] at hbytes

end Deferred
end IntentFirewall
