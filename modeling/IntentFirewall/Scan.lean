/-!
# Scans

What is read from an input piece by piece: the pieces up to the end, or up to the first error.
Whoever uses the pieces in order meets that error only behind the last one.
-/

namespace IntentFirewall

/-- Values read in order, up to the end of the input or the first error. -/
structure Scan (ε α : Type) where
  /-- The values read. -/
  items : List α
  /-- The error that ended the reading early. -/
  failure : Option ε
  deriving DecidableEq, Repr

namespace Scan

variable {ε α : Type}

/-- A scan that read nothing but met no error. -/
def done : Scan ε α := ⟨[], none⟩

/-- A scan that met an error at once. -/
def failed (e : ε) : Scan ε α := ⟨[], some e⟩

/-- The first value of a scan put before the rest of it. -/
def cons (a : α) (s : Scan ε α) : Scan ε α := ⟨a :: s.items, s.failure⟩

@[simp]
theorem items_cons (a : α) (s : Scan ε α) : (s.cons a).items = a :: s.items := rfl

@[simp]
theorem failure_cons (a : α) (s : Scan ε α) : (s.cons a).failure = s.failure := rfl

end Scan
end IntentFirewall
