import IntentFirewall.Proofs.Rules.Simulation
import IntentFirewall.Proofs.Storage.Transparent

/-!
# Short reads

A read may yield fewer bytes than it is asked for, and how many these are may change from one read
to the next. It does not matter for what is read, nor for what becomes of a file that is edited.

* `Paced`: a storage whose reads are short.
* `Paced.readToEnd_eq`: a file that has been opened is read as a whole.
* `Paced.readToEnd_carryOut`: reading and calls are as if no read were short.
-/

namespace IntentFirewall

/-- A storage with limits for its reads. -/
structure Paced (σ : Type) where
  /-- The storage that does the work. -/
  storage : σ
  /-- The number of bytes that each of the reads to come yields at most. -/
  limits : Nat → Nat
  /-- Every read may yield a byte. -/
  limits_pos : ∀ n, 0 < limits n

namespace Paced

variable {σ α : Type}

/-- Carries out an operation. -/
def perform (act : σ → Except StorageError α × σ) (p : Paced σ) :
    Except StorageError α × Paced σ :=
  ((act p.storage).1, { p with storage := (act p.storage).2 })

theorem perform_eq {act : σ → Except StorageError α × σ} {p : Paced σ}
    {result : Except StorageError α} {s : σ} (h : act p.storage = (result, s)) :
    perform act p = (result, { p with storage := s }) := by
  rw [perform, h]

/-- The storage so many reads later. -/
def after (reads : Nat) (p : Paced σ) : Paced σ where
  storage := p.storage
  limits n := p.limits (reads + n)
  limits_pos n := p.limits_pos (reads + n)

theorem after_after (reads more : Nat) (p : Paced σ) :
    (p.after reads).after more = p.after (reads + more) := by
  simp [after, Nat.add_assoc]

instance [Storage σ] : Storage (Paced σ) where
  isFile path := perform (Storage.isFile path)
  readAll path := perform (Storage.readAll path)
  openFile path := perform (Storage.openFile path)
  read h n p := perform (Storage.read h (min n (p.limits 0))) (p.after 1)
  truncate h length := perform (Storage.truncate h length)
  write h bytes := perform (Storage.write h bytes)
  close h := perform (Storage.close h)
  remaining h p := Storage.remaining h p.storage
  remaining_of_read hread hbytes := by
    obtain ⟨hresult, rfl⟩ := Prod.mk.inj hread
    exact Storage.remaining_of_read (Prod.ext hresult rfl) hbytes

variable [Storage σ]

/-! ## Reading to the end -/

/-- A file that has been opened is read as a whole, however short the reads are. -/
theorem readToEnd_eq [Storage.Transparent σ] {h : Handle} {s : σ} {p : Paced σ}
    (hopened : Storage.IsOpened h s p.storage) :
    ∃ reads ≤ (Storage.bytesAt h.file s).length + 1, Storage.readToEnd h p =
      (.ok (Storage.bytesAt h.file s, { h with cursor := (Storage.bytesAt h.file s).length }),
        p.after reads) := by
  -- The reads before this one have used up as many limits, and nothing else is left of them.
  have hread (k : Nat) (h' : Handle) (hfile : h'.file = h.file)
      (hcursor : h'.cursor ≤ (Storage.bytesAt h.file s).length) :
      Storage.read h' Storage.pieceSize (p.after k) =
        (.ok (((Storage.bytesAt h.file s).drop h'.cursor).take
            (min Storage.pieceSize (p.limits k)),
          { h' with cursor := h'.cursor + (((Storage.bytesAt h.file s).drop h'.cursor).take
            (min Storage.pieceSize (p.limits k))).length }), p.after (k + 1)) := by
    have hpiece := hopened.read_eq h' (min Storage.pieceSize (p.limits k)) hfile hcursor
    rw [← after_after]
    exact congrArg (fun r => (r.1, { (p.after k).after 1 with storage := r.2 })) hpiece
  have hsize (k : Nat) : 0 < min Storage.pieceSize (p.limits k) :=
    Nat.lt_min.2 ⟨by decide, p.limits_pos k⟩
  obtain ⟨reads, hreads, hall⟩ := Storage.readFrom_of_pieces (fun k => p.after k) hsize hread rfl
    (hopened.cursor_eq ▸ Nat.zero_le _) [] 0
  rw [hopened.cursor_eq] at hreads hall
  refine ⟨reads, hreads, ?_⟩
  simpa [Storage.readToEnd, after] using hall

/-! ## Calls -/

/-- All operations but reading do what they do without limits. -/
theorem simulates : Storage.Simulates fun (p : Paced σ) s => p.storage = s := by
  constructor
  all_goals
    rintro p _ rfl
    intros
    exact ⟨rfl, rfl⟩

variable [Storage.Transparent σ] [Storage.Readable σ]

/-- A file that is opened has the bytes that are read without limits. -/
theorem readsAlike (path : String) (p : Paced σ) :
    Storage.ReadsAlike (fun (p : Paced σ) s => p.storage = s) path p p.storage := by
  intro h p' s' hopen hopen'
  obtain rfl : { p with storage := s' } = p' :=
    (Prod.mk.inj ((perform_eq hopen').symm.trans hopen)).2
  have hfile := Storage.Readable.isOpened hopen'
  obtain ⟨reads, -, hread⟩ := readToEnd_eq (p := { p with storage := s' }) hfile
  rw [hread, hfile.readToEnd_eq]
  exact ⟨rfl, rfl⟩

/-- A file that has been opened is read as a whole, and left as it is, whatever the limits of the
reads. A call answers what it answers without limits, and leaves the same files. -/
theorem readToEnd_carryOut (p : Paced σ) :
    (∀ (path : String) (h : Handle) (p' : Paced σ), Storage.openFile path p = (.ok h, p') →
      Storage.Transparent.bytes? h.file p'.storage = some (Storage.bytesAt h.file p.storage) ∧
        ∃ reads ≤ (Storage.bytesAt h.file p.storage).length + 1, Storage.readToEnd h p' =
          (.ok (Storage.bytesAt h.file p.storage,
            { h with cursor := (Storage.bytesAt h.file p.storage).length }), p'.after reads)) ∧
      ∀ (store : RuleStore) (packageName : String) (c : RuleStore.Call),
        (store.carryOut packageName c p).1 = (store.carryOut packageName c p.storage).1 ∧
          (store.carryOut packageName c p).2.storage =
            (store.carryOut packageName c p.storage).2 := by
  constructor
  · intro path h p' hopen
    obtain ⟨hresult, rfl⟩ := Prod.mk.inj hopen
    have hfile := Storage.Readable.isOpened (Prod.ext hresult rfl)
    exact ⟨hfile.bytes?_eq, readToEnd_eq hfile⟩
  · intro store packageName c
    exact RuleStore.agree_carryOut simulates rfl store packageName c (readsAlike _ p)
      (readsAlike _ (Storage.isFile _ p).2)

/-- The reads yield one byte, then two, then three, and so on over again. Characters of as many
bytes are cut by them. -/
theorem readToEnd_carryOut_memory :
    let path := "/ifw/com.app.xml"
    let bytes := Utf8.encode "<rules><!-- é€😀 --></rules>".toList
    let p : Paced Memory :=
      ⟨Memory.empty.put (.ofText path) bytes, fun n => n % 3 + 1, fun _ => Nat.succ_pos _⟩
    let c : RuleStore.Call := .unblock []
    (∃ reads ≤ bytes.length + 1, Storage.readToEnd ⟨path, .ofText path, 0⟩ p =
      (.ok (bytes, ⟨path, .ofText path, bytes.length⟩), p.after reads)) ∧
      (RuleStore.carryOut ⟨"/ifw"⟩ "com.app" c p).1 = .ok (.unblocked (.done [])) := by
  intro path bytes p c
  obtain ⟨hread, hcalls⟩ := p.readToEnd_carryOut
  have hopen : Storage.openFile path p = (.ok ⟨path, .ofText path, 0⟩, p) :=
    perform_eq (by decide +kernel)
  have hbytes : Storage.bytesAt (.ofText path) p.storage = bytes := by decide +kernel
  have hall := (hread path _ p hopen).2
  rw [hbytes] at hall
  refine ⟨hall, (hcalls _ _ c).1.trans ?_⟩
  decide +kernel

end Paced
end IntentFirewall
