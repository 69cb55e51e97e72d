import DeclarationDocs.Catalog

/-!
# References

A reference names one documented entity: a symbol or an article. It is opaque; the library only
compares references and writes them out.
-/

namespace DeclarationDocs

/-- The name under which an entity is documented. -/
@[ext] structure Reference where
  text : String
deriving DecidableEq, Inhabited

namespace Reference

instance : KeyOrder Reference := .along Reference.text fun same => Reference.ext same

end Reference

end DeclarationDocs
