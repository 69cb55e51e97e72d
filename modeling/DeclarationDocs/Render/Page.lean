import DeclarationDocs.Render.Siblings

/-!
# Declarations sections

The declarations section of a symbol has the entries of its traits in trait order. A trait has one
entry for each of its platform declarations, in their order; entries are never merged or split. The
sibling block of a trait is rendered once, after the trait's own declarations, and shown in every
entry of the trait.
-/

namespace DeclarationDocs

/-- The section of one trait. -/
structure TraitSection where
  trait : Trait
  contents : Section
deriving DecidableEq, Inhabited

namespace Context

/-- The platforms of a declaration in display order, and its tokens. -/
def shownPair (context : Context) (pair : PlatformDeclaration) :
    Run (List (Option Platform) × List LinkedToken) := do
  let tokens ← context.tokens pair.declaration.fragments
  return (Platform.arranged pair.platforms, tokens)

/-- The entries of a symbol for one trait; none when it has no declarations for the trait. -/
def entries (context : Context) (symbol : Symbol) (trait : Trait) : Run (List Entry) :=
  let pairs := symbol.declarations trait
  if pairs.isEmpty then pure []
  else do
    let shown ← pairs.mapM context.shownPair
    let siblings ← context.block? trait (symbol.overloads? trait)
    return shown.map fun (platforms, tokens) =>
      ⟨[symbol.languageId trait], platforms, tokens, siblings⟩

/-- The section of a symbol for one trait, if it has entries. -/
def traitSection? (context : Context) (symbol : Symbol) (trait : Trait) :
    Run (Option TraitSection) := do
  let entries ← context.entries symbol trait
  return if entries.isEmpty then none else some ⟨trait, ⟨entries⟩⟩

def traitSections (context : Context) (symbol : Symbol) : Run (List TraitSection) := do
  let found ← (symbol.declarationVariants.entries.map TraitMap.key).mapM
    (context.traitSection? symbol)
  return found.filterMap id

/-- The declarations section of a symbol; none when no trait has declarations. -/
def section? (context : Context) (symbol : Symbol) : Run (Option Section) :=
  Run.within symbol.reference do
    let sections ← context.traitSections symbol
    if sections.isEmpty then
      Run.log .noDeclarations
      return none
    else
      return some ⟨sections.flatMap (·.contents.entries)⟩

/-- The section of a symbol together with the symbol's reference. -/
def page? (context : Context) (symbol : Symbol) : Run (Option (Reference × Section)) := do
  let contents ← context.section? symbol
  return contents.map fun contents => (symbol.reference, contents)

/-- The sections of many symbols, in their order; symbols without a section are left out. -/
def pages (context : Context) (symbols : List Symbol) : Run (List (Reference × Section)) := do
  let found ← symbols.mapM context.page?
  return found.filterMap id

end Context

end DeclarationDocs
