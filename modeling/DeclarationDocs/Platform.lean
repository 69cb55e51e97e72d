import DeclarationDocs.Catalog

/-!
# Platforms

A declaration applies to a set of platforms, of which some may be left unspecified. For display the
unspecified ones come first and the named ones follow by name.
-/

namespace DeclarationDocs

/-- The name of a platform. -/
@[ext] structure Platform where
  name : String
deriving DecidableEq, Inhabited

namespace Platform

instance : KeyOrder Platform := .along Platform.name fun same => Platform.ext same

def iOS : Platform := ⟨"iOS"⟩

def macOS : Platform := ⟨"macOS"⟩

def tvOS : Platform := ⟨"tvOS"⟩

def watchOS : Platform := ⟨"watchOS"⟩

def visionOS : Platform := ⟨"visionOS"⟩

def macCatalyst : Platform := ⟨"Mac Catalyst"⟩

def linux : Platform := ⟨"Linux"⟩

def wellKnown : List Platform := [iOS, macOS, watchOS, tvOS, visionOS, macCatalyst, linux]

/-! ## Display order -/

/-- Whether the left platform is shown before the right one: by name when both have one, else
when the left one is unspecified. Two unspecified platforms each precede the other. -/
def precedes : Option Platform → Option Platform → Bool
  | some left, some right => left < right
  | left, _ => left.isNone

/-- Let a platform move up past the neighbours it precedes. The list is the arranged part read
upwards, nearest neighbour first. -/
def settle (platform : Option Platform) : List (Option Platform) → List (Option Platform)
  | [] => [platform]
  | neighbour :: above =>
    if precedes platform neighbour then neighbour :: settle platform above
    else platform :: neighbour :: above

/-- The platforms in display order: each one in turn settles among those before it. `precedes` is
no strict order, so nothing but this step-wise arrangement is asked of it. -/
def arranged (platforms : List (Option Platform)) : List (Option Platform) :=
  (platforms.foldl (fun sorted platform => settle platform sorted) []).reverse

end Platform

end DeclarationDocs
