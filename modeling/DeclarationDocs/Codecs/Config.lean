import DeclarationDocs.Config
import DeclarationDocs.Json.Record

/-!
# The written form of configurations
-/

namespace DeclarationDocs

open Json

def DiagnosticLevel.codec : Codec DiagnosticLevel :=
  .variants DiagnosticLevel.all DiagnosticLevel.name

def LogConfig.record : Record LogConfig where
  name := "TracingConfig"
  fields := .field (.withDefault "filter" .text LogConfig.standard.filter) .done
  ofRow := fun (filter, ()) => ⟨filter⟩
  toRow config := (config.filter, ())
  ofRow_toRow _ := rfl

def Config.record : Record Config where
  name := "TranslatorConfig"
  fields :=
    .field (.withDefault "missing_overload_fragments" DiagnosticLevel.codec .standard) <|
    .field (.withDefault "tracing" LogConfig.record.codec .standard) .done
  ofRow := fun (missingOverloadFragments, log, ()) => ⟨missingOverloadFragments, log⟩
  toRow config := (config.missingOverloadFragments, config.log, ())
  ofRow_toRow _ := rfl

end DeclarationDocs
