import SkillEngine.Tag.Hash

/-!
# Tags

A tag is a dotted path such as `Ability.Attack.Melee`. Its ancestors are the texts before each dot,
the outermost first; an empty segment is a segment. A tag has itself and its ancestors. All
comparisons go through the path hash, which a tag carries with the hashes of its ancestors.
-/

namespace SkillEngine

namespace Tag

/-- The texts before each dot, the shortest first. -/
def dottedPrefixes : List Char → List (List Char)
  | [] => []
  | letter :: rest =>
    let longer := (dottedPrefixes rest).map (letter :: ·)
    if letter = '.' then [] :: longer else longer

/-- The paths above a path, outermost first. -/
def ancestorPathsOf (path : String) : List String :=
  (dottedPrefixes path.toList).map String.ofList

end Tag

/-- A dotted path with its hash and the hashes of its ancestors. -/
structure Tag where
  /-- The full path. -/
  path : String
  /-- The hash of the path. -/
  hash : UInt64
  /-- The hashes of the ancestors, outermost first. -/
  lineage : List UInt64
  /-- The hash is the path's. -/
  hash_eq : hash = Tag.pathHash path
  /-- The lineage is the path's. -/
  lineage_eq : lineage = (Tag.ancestorPathsOf path).map Tag.pathHash

namespace Tag

/-- The tag of a path. -/
def ofPath (path : String) : Tag :=
  ⟨path, pathHash path, (ancestorPathsOf path).map pathHash, rfl, rfl⟩

/-- A tag has the path that it is made of. -/
theorem path_ofPath (path : String) : (ofPath path).path = path := by simp only [ofPath]

/-- Tags are equal when their hashes are. -/
instance : BEq Tag := ⟨fun left right => left.hash == right.hash⟩

instance : Inhabited Tag := ⟨ofPath ""⟩

/-- A tag is determined by its path. -/
theorem ext_path {left right : Tag} (paths : left.path = right.path) : left = right := by
  obtain ⟨path, hash, lineage, hash_eq, lineage_eq⟩ := left
  obtain ⟨other, hash', lineage', hash_eq', lineage_eq'⟩ := right
  have same : path = other := paths
  subst same
  have hashes : hash = hash' := hash_eq.trans hash_eq'.symm
  have lineages : lineage = lineage' := lineage_eq.trans lineage_eq'.symm
  subst hashes lineages
  rfl

/-- The tag of a tag's path is the tag. -/
theorem ofPath_path (tag : Tag) : ofPath tag.path = tag :=
  ext_path (by simp only [path_ofPath])

/-- The paths of the ancestors, outermost first. -/
def ancestorPaths (tag : Tag) : List String := ancestorPathsOf tag.path

/-- The last segment. -/
def shortName (tag : Tag) : String :=
  String.ofList (tag.path.toList.reverse.takeWhile (· != '.')).reverse

/-- The number of segments. -/
def depth (tag : Tag) : Nat := tag.lineage.length + 1

/-- The innermost ancestor. -/
def parent? (tag : Tag) : Option Tag := tag.ancestorPaths.getLast?.map ofPath

/-- The other tag is a strict ancestor. -/
def isDescendantOf (tag other : Tag) : Bool := tag.lineage.any (· == other.hash)

/-- The other tag is this one or an ancestor. -/
def hasTag (tag other : Tag) : Bool := tag.hash == other.hash || tag.isDescendantOf other

end Tag

end SkillEngine
