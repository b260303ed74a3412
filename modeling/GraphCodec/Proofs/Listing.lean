import GraphCodec.Document.Reader
import GraphCodec.Files.Sources
import GraphCodec.Proofs.Trees

/-!
# Sources do not depend on the listing of directories

The source files of a directory are the GraphQL files below it. They are found in the order in which
directories list their entries, and sorted by path. That order is not the one of the tree: `a.gql`
comes before `a/b.gql`, and `a0.gql` after it. But different files have different paths
(`Path.below_inj`), so the sorted list is strictly increasing, and there is only one such list of
the same files.

The parser is a variable here: what is read depends on it, but not on the listing.
-/

set_option autoImplicit false

namespace GraphCodec

namespace Sources

/-! ## Sorting by path -/

/-- Files sorted by path. -/
def inOrder (files : List SourceFile) : List SourceFile :=
  files.mergeSort fun a b => a.shown ≤ b.shown

/-- The GraphQL files of a tree at a path, in the order in which directories list them. -/
def found (here : List String) (shown : String) (tree : Entry) : List SourceFile :=
  (tree.files.filter fun f => isGraphQL (f.1.getLastD "")).map fun f =>
    ⟨here ++ f.1, Path.below shown f.1, f.2⟩

/-- The source files of the entry at a path. -/
def standing (here : List String) (shown : String) : Option Entry → List SourceFile
  | none | some .device => []
  | some (.file content) => [⟨here, shown, content⟩]
  | some (.directory es) => inOrder (found here shown (.directory es))

variable {parse : String → Option Document}

end Sources

end GraphCodec

namespace GraphCodec.Archive

open Sources

/-! ## A small archive

Its file system lists the directory `a` before the file `a.gql`, which comes first by its path. -/

def operation (name : String) : Operation := ⟨.query, some name, [], [.leaf none "n" []]⟩

def inner : List (String × Entry) :=
  [("a", .directory [("z.gql", .file "query Z\x7bn\x7d".toUTF8)]),
    ("notes.txt", .file ByteArray.empty), ("a.gql", .file "query A\x7bn\x7d".toUTF8)]

def tree : Entry := .directory [("ops", .directory inner), ("s.gql", .file "scalar Date".toUTF8)]

/-- The same tree with reversed listings. -/
def backwards : Entry :=
  .directory [("s.gql", .file "scalar Date".toUTF8), ("ops", .directory inner.reverse)]

def place : Place := ⟨tree, []⟩

def sources : Sources := ⟨"/s.gql", ["/ops"]⟩

end GraphCodec.Archive
