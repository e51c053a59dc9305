import AtreoAgent.Atreolink.Types
import AtreoAgent.Codec.Text
import Mathlib.Data.List.AList
import Mathlib.Data.List.Sort

/-! The certificates the proxy serves (`registry.go`). Each suffix has a directory with
the files of its certificate, and is registered when these load and match it. -/
namespace Certs

open Codec Atreolink

structure Leaf where
  notAfter : Time
  dnsNames : List String
  commonName : String
  deriving DecidableEq, Repr

/-- The files of a suffix: what `cert.pem` parses as, and whether `key.pem` is its key. -/
structure Files where
  leaf : Option Leaf := none
  paired : Bool := false
  deriving DecidableEq, Repr

/-- The directories below the root, by name. -/
abbrev Disk := String → Files

def Disk.write (disk : Disk) (host : String) (files : Files) : Disk :=
  fun h => if h = host then files else disk h

@[simp] theorem Disk.write_self (disk : Disk) (host : String) (files : Files) :
    disk.write host files host = files := if_pos rfl

/-- What depends on the version of Unicode. -/
structure Letters where
  lower : Char → Char
  equalFold : String → String → Bool

def Letters.ascii : Letters :=
  ⟨Char.toLower, fun a b => toLower Char.toLower a = toLower Char.toLower b⟩

def normaliseHost (lower : Char → Char) (h : String) : String :=
  trimEnd "." (trimStart "*." (toLower lower (trimSpace h)))

def stripFirstLabel (host : String) : String := after '.' host

/-- The certificate is missing until one is there. -/
structure Entry where
  cert : Option Leaf := none
  deriving DecidableEq, Repr

structure Registry where
  entries : AList fun _ : String => Entry

/-- `assertCertMatchesSuffix`. -/
def Leaf.matchesSuffix (letters : Letters) (leaf : Leaf) (suffix : String) : Bool :=
  let want := toLower letters.lower suffix
  leaf.dnsNames.any (fun dns =>
      toLower letters.lower dns = "*." ++ want ∨ toLower letters.lower dns = want) ||
    letters.equalFold leaf.commonName suffix

/-- The certificate in the files, if they load and it is for the suffix. -/
def Files.load (letters : Letters) (files : Files) (suffix : String) : Option Leaf :=
  if files.paired then files.leaf.filter (·.matchesSuffix letters suffix) else none

/-- Longer names first, names of one length in bytewise order. -/
def Before (a b : String) : Prop :=
  (utf8 b).length < (utf8 a).length ∨ (utf8 a).length = (utf8 b).length ∧ ¬ utf8 b < utf8 a

instance : DecidableRel Before := fun _ _ => inferInstanceAs (Decidable (_ ∨ _))

namespace Registry

def loadSuffix (letters : Letters) (disk : Disk) (r : Registry) (host : String) :
    Option Registry :=
  let host := normaliseHost letters.lower host
  if host = "" then none
  else ((disk host).load letters host).map fun leaf => ⟨r.entries.insert host ⟨some leaf⟩⟩

/-- The entry goes, and so does the directory unless that fails. -/
def removeSuffix (lower : Char → Char) (removed : Bool) (disk : Disk) (r : Registry)
    (host : String) : Registry × Disk :=
  let host := normaliseHost lower host
  if host = "" then (r, disk)
  else (⟨r.entries.erase host⟩, if removed then disk.write host {} else disk)

/-- `PathsFor`: the name of the directory, if it can be made. -/
def pathsFor (lower : Char → Char) (mkdir : String → Bool) (host : String) : Option String :=
  let host := normaliseHost lower host
  if host = "" then none else if mkdir host then some host else none

def suffixes (r : Registry) : List String := r.entries.keys.insertionSort Before

theorem mem_suffixes {r : Registry} {s : String} : s ∈ r.suffixes ↔ s ∈ r.entries :=
  List.mem_insertionSort Before

theorem nodup_suffixes (r : Registry) : r.suffixes.Nodup :=
  (List.perm_insertionSort Before _).nodup_iff.mpr r.entries.keys_nodup

/-- The certificate registered under a name, if it is loaded. -/
def certOf (r : Registry) (z : String) : Option Leaf := (r.entries.lookup z).bind (·.cert)

theorem mem_of_certOf {r : Registry} {z : String} (h : (r.certOf z).isSome = true) :
    z ∈ r.entries := by
  obtain ⟨leaf, hLeaf⟩ := Option.isSome_iff_exists.mp h
  obtain ⟨entry, hEntry, _⟩ := Option.bind_eq_some_iff.mp hLeaf
  exact AList.lookup_isSome.mp (Option.isSome_iff_exists.mpr ⟨entry, hEntry⟩)

def lookup (lower : Char → Char) (r : Registry) (host : String) : Option Leaf :=
  r.certOf (normaliseHost lower host)

def fallbackCert (r : Registry) : Except String Leaf :=
  if r.entries.keys = [] then .error "registry empty: no certificate available"
  else
    match ((r.entries.keys.filter fun k => (r.certOf k).isSome).insertionSort Before).findSome?
      r.certOf with
    | none => .error "registry has no usable certificates"
    | some cert => .ok cert

/-- `GetCertificate` for the server name of a client hello, if there is a hello. -/
def getCertificate (lower : Char → Char) (r : Registry) : Option String → Except String Leaf
  | none => r.fallbackCert
  | some serverName =>
      if serverName = "" then r.fallbackCert
      else
        match r.lookup lower (stripFirstLabel serverName) with
        | some cert => .ok cert
        | none =>
            match r.lookup lower serverName with
            | some cert => .ok cert
            | none => r.fallbackCert

end Registry

end Certs
