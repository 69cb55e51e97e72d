import DeclarationDocs.Render.Linking

/-!
# Sibling blocks

The block of an overload group has a row for each listed member that is a symbol with a declaration
for the trait, in the order of the list. The others are left out and logged. What is left out never
changes the place of the symbol in its group, and a block without rows is still a block.
-/

namespace DeclarationDocs.Context

/-- A listed member has no declaration for the trait: what happens depends on the settings. This is
the build with debug assertions; in a build without them `assert` does what `warn` does. -/
def flagMissing (context : Context) (reference : Reference) (trait : Trait) : Run Unit :=
  match context.config.missingOverloadFragments with
  | .ignore => pure ()
  | .warn => Run.log (.missingFragments reference trait)
  | .assert => do
    Run.log (.missingFragments reference trait)
    Run.fail ⟨reference, trait⟩

def row? (context : Context) (trait : Trait) (reference : Reference) : Run (Option SiblingRow) :=
  match context.entity reference with
  | .error error => do
    Run.log (.unresolvedOverload reference error)
    return none
  | .ok (.article _) => do
    Run.log (.notASymbol reference)
    return none
  | .ok (.symbol sibling) =>
    match sibling.firstDeclaration? trait with
    | none => do
      context.flagMissing reference trait
      return none
    | some declaration => do
      let tokens ← context.tokens declaration.fragments
      return some ⟨reference, tokens⟩

def block (context : Context) (trait : Trait) (group : OverloadGroup) : Run SiblingBlock := do
  let rows ← group.references.mapM (context.row? trait)
  return ⟨rows.filterMap id, group.displayIndex⟩

/-- The block of a symbol that may belong to an overload group. -/
def block? (context : Context) (trait : Trait) : Option OverloadGroup → Run (Option SiblingBlock)
  | some group => some <$> context.block trait group
  | none => pure none

end DeclarationDocs.Context
