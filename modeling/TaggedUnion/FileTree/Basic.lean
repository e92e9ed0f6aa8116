/-!
# File trees

A directory and everything below it. Entries are kept by their location, the names on the way to
them, and in the order of a depth-first walk through directories sorted by name. The root is a
directory and is not among the entries.

There are no links and no permissions. Names are Unicode texts.
-/

namespace TaggedUnion

/-- The names on the way from the root to an entry. -/
abbrev Location := List String

/-- `a` comes before `b` at the first position where they differ, or is its beginning. -/
def comesBefore {α : Type} [DecidableEq α] (less : α → α → Bool) : List α → List α → Bool
  | _, [] => false
  | [], _ :: _ => true
  | a :: as, b :: bs => if a = b then comesBefore less as bs else less a b

/-- Names are ordered by code points, which is the order of their bytes. -/
def nameBefore (a b : String) : Bool :=
  comesBefore (fun c d => c.toNat < d.toNat) a.toList b.toList

def Location.before (a b : Location) : Bool :=
  comesBefore nameBefore a b

inductive Entry where
  | directory
  | file (content : ByteArray)

structure FileTree where
  entries : List (Location × Entry)

namespace FileTree

def empty : FileTree :=
  ⟨[]⟩

def get? (t : FileTree) (l : Location) : Option Entry :=
  if l = [] then some .directory else t.entries.lookup l

/-- Puts an entry at its place in the order, or in the place of one that is there. -/
def insertEntry (l : Location) (e : Entry) : List (Location × Entry) → List (Location × Entry)
  | [] => [(l, e)]
  | (m, f) :: rest =>
    if l = m then (l, e) :: rest
    else if Location.before l m then (l, e) :: (m, f) :: rest
    else (m, f) :: insertEntry l e rest

def insert (t : FileTree) (l : Location) (e : Entry) : FileTree :=
  ⟨insertEntry l e t.entries⟩

def erase (t : FileTree) (l : Location) : FileTree :=
  ⟨t.entries.filter fun x => x.1 ≠ l⟩

end FileTree

end TaggedUnion
