import DeclarationDocs.Render.Context
import DeclarationDocs.Run
import DeclarationDocs.Section

/-!
# Linking fragments

Each fragment becomes one token with the same kind and spelling. A fragment whose precise identifier
resolves becomes a link, and the link is reported; one whose identifier does not resolve keeps its
text and is logged.
-/

namespace DeclarationDocs

namespace Context

def link (context : Context) (preciseIdentifier : String) : Run (Option Reference) :=
  match context.resolve? preciseIdentifier with
  | some reference => do
    Run.report reference
    return some reference
  | none => do
    Run.log (.unresolvedFragment preciseIdentifier)
    return none

def token (context : Context) (fragment : Fragment) : Run LinkedToken := do
  let identifier ←
    match fragment.preciseIdentifier with
    | some preciseIdentifier => context.link preciseIdentifier
    | none => pure none
  return ⟨fragment.kind, fragment.spelling, identifier⟩

def tokens (context : Context) (fragments : List Fragment) : Run (List LinkedToken) :=
  fragments.mapM context.token

end Context

end DeclarationDocs
