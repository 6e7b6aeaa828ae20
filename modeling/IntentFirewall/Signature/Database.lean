import IntentFirewall.Signature.Builtin
import IntentFirewall.Signature.Entry
import IntentFirewall.Storage.FileTree

/-!
# Signature databases

A database finds the signature that matches a class name. Of several fragments in a class name the
longest decides; of equally long ones the one that was declared first.

## Main definitions

* `SignatureDatabase.ofList`: every fragment belongs to the signature that declares it first.
* `SignatureDatabase.lookup`: the signature of a class name.
* `SignatureDatabase.overlaps`: fragments that occur in fragments of other signatures.
-/

namespace IntentFirewall

/-- A fragment and the signature it belongs to. -/
structure IndexedPattern where
  /-- The fragment. -/
  pattern : String
  /-- The place of the signature in its list. -/
  owner : Nat
  /-- The signature. -/
  signature : Signature
  deriving DecidableEq, Repr

/-- A fragment that occurs in one of another signature. -/
structure PatternOverlap where
  /-- The longer fragment, which decides. -/
  winner : String
  /-- The name of its signature. -/
  winnerSignature : String
  /-- The shorter fragment. -/
  shadowed : String
  /-- The name of its signature. -/
  shadowedSignature : String
  deriving DecidableEq, Repr

/-- Signatures with an index of their fragments. -/
structure SignatureDatabase where
  /-- The signatures in the order of loading. -/
  signatures : List Signature
  /-- Their fragments, each once, in the order in which they are looked for. -/
  index : List IndexedPattern
  deriving DecidableEq, Repr

namespace SignatureDatabase

/-- The fragments of signatures in order of declaration, given the place of the first one. -/
def declarations (start : Nat) : List Signature → List IndexedPattern
  | [] => []
  | s :: rest => s.patterns.map (⟨·, start, s⟩) ++ declarations (start + 1) rest

/-- The fragments of signatures, each once, where it is first declared. -/
def firstDeclared (signatures : List Signature) : List IndexedPattern :=
  distinctBy IndexedPattern.pattern [] (declarations 0 signatures)

/-- Whether a fragment is looked for before another: it is at least as long in bytes. -/
def precedes (a b : IndexedPattern) : Bool :=
  Utf8.size b.pattern.toList ≤ Utf8.size a.pattern.toList

/-- The database of signatures. -/
def ofList (signatures : List Signature) : SignatureDatabase :=
  ⟨signatures, (firstDeclared signatures).mergeSort precedes⟩

/-- The database of the built-in signatures. -/
def builtin : SignatureDatabase :=
  ofList (builtinSignatures.filterMap fun (name, category, patterns) =>
    (Signature.build name patterns category).toOption)

/-- The database that a text describes. -/
def ofJson (input : String) : Except SignatureError SignatureDatabase :=
  match readEntries input with
  | .error e => .error (.json e)
  | .ok entries => (Signature.ofEntries entries).map ofList

/-- The database in the file at a path. -/
def load (path : String) (t : FileTree) : Except SignatureError SignatureDatabase :=
  match t.readText path with
  | .error e => .error (.file e)
  | .ok input => ofJson input

/-- The signature of a class name, if it has one. -/
def lookup (db : SignatureDatabase) (className : String) : Option Signature :=
  (db.index.find? fun p => Text.occursIn p.pattern className).map (·.signature)

/-- The fragments that occur in `p`, among others, of other signatures. -/
def overlapsOf (p : IndexedPattern) (others : List IndexedPattern) : List PatternOverlap :=
  (others.filter fun q => q.owner != p.owner && Text.occursIn q.pattern p.pattern).map fun q =>
    ⟨p.pattern, p.signature.name, q.pattern, q.signature.name⟩

/-- The overlaps among fragments, of which a longer one never follows a shorter one. -/
def overlapsIn : List IndexedPattern → List PatternOverlap
  | [] => []
  | p :: rest => overlapsOf p rest ++ overlapsIn rest

/-- The fragments that occur in fragments of other signatures. -/
def overlaps (db : SignatureDatabase) : List PatternOverlap := overlapsIn db.index

end SignatureDatabase
end IntentFirewall
