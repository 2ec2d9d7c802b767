import TableDdl.Text.Bytes
import TableDdl.Text.ClusterClass

/-!
# Clusters

A text is cut into clusters, the units that a reader takes for single characters. Whether a
character continues the cluster before it depends on that cluster alone. A backspace in a typed
text takes back the cluster before it. The clusters are those of the text with its backspaces, so
what follows an erasure starts a cluster. The bytes of a cluster are counted modulo 256: of a
longer one only a rest is taken back, and there is no result if that would cut a character.
-/
namespace TableDdl.Text

/-- Part of a consonant cluster between two of its consonants. A non-joiner ends the cluster. -/
def isLinking (c : Char) : Bool := isJoiner c || (isExtending c && c.toNat != 0x200C)

/-- A consonant, and after it a linker, perhaps among other marks. The last character comes
first. -/
def endsInLinkedConsonant (cluster : List Char) : Bool :=
  (cluster.takeWhile isLinking).any linkerRanges.contains
    && (cluster.dropWhile isLinking).head?.any fun c => ClusterClass.ofChar c = .consonant

/-- A pictograph, perhaps with marks after it. The last character comes first. -/
def endsInPictograph (cluster : List Char) : Bool :=
  (cluster.dropWhile isExtending).head?.any fun c => ClusterClass.ofChar c = .pictograph

/-- Two regional letters are a flag, and a third starts the next one. -/
def endsInHalfFlag (cluster : List Char) : Bool :=
  (cluster.takeWhile isRegional).length % 2 = 1

/-- Whether `c` belongs to the cluster of the characters before it, of which the last comes
first. -/
def continues (cluster : List Char) (c : Char) : Bool :=
  match cluster with
  | [] => false
  | last :: before =>
    let a := ClusterClass.ofChar last
    let b := ClusterClass.ofChar c
    if a = .carriageReturn && b = .lineFeed then true
    else if a.standsAlone || b.standsAlone then false
    else if a.sameSyllable b then true
    else if b = .extending || b = .joiner || b = .spacing || a = .prepended then true
    else if b = .consonant then endsInLinkedConsonant cluster
    else if a = .joiner && b = .pictograph then endsInPictograph before
    else if a = .regional && b = .regional then endsInHalfFlag cluster
    else false

/-- The clusters of a text of which the first cluster has begun, its last character first. -/
def clustersFrom (cluster : List Char) : List Char → List (List Char)
  | [] => [cluster.reverse]
  | c :: cs =>
    if continues cluster c then clustersFrom (c :: cluster) cs
    else cluster.reverse :: clustersFrom [c] cs

def clusters : List Char → List (List Char)
  | [] => []
  | c :: cs => clustersFrom [c] cs

theorem flatten_clustersFrom (cluster cs : List Char) :
    (clustersFrom cluster cs).flatten = cluster.reverse ++ cs := by
  induction cs generalizing cluster with
  | nil => simp [clustersFrom]
  | cons c cs ih =>
    simp only [clustersFrom]
    split <;> simp [ih]

theorem flatten_clusters (cs : List Char) : (clusters cs).flatten = cs := by
  cases cs with
  | nil => rfl
  | cons c cs => simp [clusters, flatten_clustersFrom]

def backspace : Char := '\x08'

/-- Takes `n` bytes off the end of a text, of which the last character comes first. -/
def eraseBytes? : Nat → List Char → Option (List Char)
  | 0, cs => some cs
  | _ + 1, [] => none
  | n + 1, c :: cs => if c.utf8Size ≤ n + 1 then eraseBytes? (n + 1 - c.utf8Size) cs else none

/-- The text after all clusters: `typed` is there already, and `counts` has the bytes of its
clusters; of both the last comes first. -/
def withErasuresFrom? (typed : List Char) (counts : List Nat) :
    List (List Char) → Option (List Char)
  | [] => some typed.reverse
  | cluster :: rest =>
    if cluster = [backspace] then
      match counts with
      | [] => withErasuresFrom? typed [] rest
      | n :: counts => (eraseBytes? n typed).bind fun typed => withErasuresFrom? typed counts rest
    else
      withErasuresFrom? (cluster.reverse ++ typed) (byteLength cluster % 256 :: counts) rest

def withErasures? (cs : List Char) : Option (List Char) := withErasuresFrom? [] [] (clusters cs)

theorem withErasuresFrom?_eq_some {parts : List (List Char)} (h : backspace ∉ parts.flatten)
    (typed : List Char) (counts : List Nat) :
    withErasuresFrom? typed counts parts = some (typed.reverse ++ parts.flatten) := by
  induction parts generalizing typed counts with
  | nil => simp [withErasuresFrom?]
  | cons part parts ih =>
    simp only [List.flatten_cons, List.mem_append, not_or] at h
    have apart : part ≠ [backspace] := fun same => h.1 (same ▸ List.mem_singleton_self _)
    simp [withErasuresFrom?, apart, ih h.2]

theorem withErasures?_eq_some {cs : List Char} (h : backspace ∉ cs) :
    withErasures? cs = some cs := by
  have flat := flatten_clusters cs
  simp [withErasures?, withErasuresFrom?_eq_some (flat.symm ▸ h), flat]

end TableDdl.Text
