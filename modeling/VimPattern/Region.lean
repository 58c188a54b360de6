/-
Module: VimPattern.Region
Purpose: The nested regions of a pattern and sets of them.
Main exports:
  Region, Region.name, Region.ofName?, Region.bit, Region.isInclusive,
  RegionSet, RegionSet.insert, RegionSet.remove, RegionSet.toggle,
  RegionSet.complement, RegionSet.contains, RegionSet.bits, RegionSet.names
-/

namespace VimPattern

/-!
Which rules apply to a character depends on the region it stands in: at the top
level of the pattern, inside a collection `[...]`, or inside an optional
sequence `\%[...]`.  A set of regions is written in settings as a small bit set.
-/

/-- The innermost construct around a place in the pattern. -/
inductive Region where
  /-- No collection or optional sequence is open. -/
  | initial
  /-- Inside `[...]`. -/
  | collection
  /-- Inside `\%[...]`. -/
  | optionalMatch
deriving Repr, Inhabited, DecidableEq

namespace Region

/-- The regions in the order in which they are declared. -/
def all : List Region := [.initial, .collection, .optionalMatch]

/-- The name of a region in messages. -/
def name : Region → String
  | .initial => "Initial"
  | .collection => "Collection"
  | .optionalMatch => "OptionalMatch"

/-- The region that a name stands for. -/
def ofName? (text : String) : Option Region :=
  all.find? fun region => region.name == text

/-- The name of a region as a member of a set. -/
def flagName : Region → String
  | .initial => "INITIAL"
  | .collection => "COLLECTION"
  | .optionalMatch => "OPTIONAL_MATCH"

/-- The weight of a region in the bit set. -/
def bit : Region → Nat
  | .initial => 1
  | .collection => 2
  | .optionalMatch => 4

/-- A region is inclusive when everything the top level knows also applies in
it.  A collection has rules of its own, an optional sequence holds ordinary
atoms. -/
def isInclusive : Region → Bool
  | .optionalMatch => true
  | .initial | .collection => false

@[simp] theorem ofName?_name (region : Region) :
    ofName? region.name = some region := by
  cases region <;> decide

end Region

/-- A set of regions. -/
structure RegionSet where
  initial : Bool := false
  collection : Bool := false
  optionalMatch : Bool := false
deriving Repr, Inhabited, DecidableEq

namespace RegionSet

/-- The set without members. -/
def empty : RegionSet := {}

/-- The set of all three regions. -/
def all : RegionSet :=
  { initial := true
    collection := true
    optionalMatch := true }

/-- Membership. -/
def contains (regions : RegionSet) : Region → Bool
  | .initial => regions.initial
  | .collection => regions.collection
  | .optionalMatch => regions.optionalMatch

/-- The same set with the membership of one region replaced. -/
def update (regions : RegionSet) (member : Bool) : Region → RegionSet
  | .initial => { regions with initial := member }
  | .collection => { regions with collection := member }
  | .optionalMatch => { regions with optionalMatch := member }

/-- Add a region. -/
def insert (regions : RegionSet) (region : Region) : RegionSet :=
  regions.update true region

/-- Take a region out. -/
def remove (regions : RegionSet) (region : Region) : RegionSet :=
  regions.update false region

/-- Add a region that is missing, take out one that is present. -/
def toggle (regions : RegionSet) (region : Region) : RegionSet :=
  regions.update (!regions.contains region) region

/-- The regions that are not in the set. -/
def complement (regions : RegionSet) : RegionSet :=
  { initial := !regions.initial
    collection := !regions.collection
    optionalMatch := !regions.optionalMatch }

/-- The members in the order in which they are declared. -/
def toList (regions : RegionSet) : List Region :=
  Region.all.filter regions.contains

/-- The set as a number: the sum of the weights of its members. -/
def bits (regions : RegionSet) : Nat :=
  regions.toList.foldl (fun total region => total + region.bit) 0

/-- The member names in declaration order. -/
def names (regions : RegionSet) : List String :=
  regions.toList.map Region.flagName

/-- The set has no member. -/
def isEmpty (regions : RegionSet) : Bool :=
  regions == empty

/-- Every region is a member. -/
def isAll (regions : RegionSet) : Bool :=
  regions == all

@[simp] theorem contains_update (regions : RegionSet) (member : Bool)
    (region other : Region) :
    (regions.update member region).contains other =
      if region = other then member else regions.contains other := by
  cases region <;> cases other <;> simp [update, contains]

@[simp] theorem contains_complement (regions : RegionSet) (region : Region) :
    regions.complement.contains region = !regions.contains region := by
  cases region <;> rfl

end RegionSet

end VimPattern
