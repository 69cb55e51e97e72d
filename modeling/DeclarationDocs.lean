import DeclarationDocs.Catalog
import DeclarationDocs.Codecs.Config
import DeclarationDocs.Codecs.ConfigTable
import DeclarationDocs.Codecs.Declaration
import DeclarationDocs.Codecs.Node
import DeclarationDocs.Codecs.Section
import DeclarationDocs.Collector
import DeclarationDocs.Config
import DeclarationDocs.Decimal.Shortest
import DeclarationDocs.Decimal.Spelling
import DeclarationDocs.Fragment
import DeclarationDocs.Json.Codec
import DeclarationDocs.Json.Numeral
import DeclarationDocs.Json.Outline
import DeclarationDocs.Json.Record
import DeclarationDocs.Json.Text
import DeclarationDocs.Json.Token
import DeclarationDocs.Json.Value
import DeclarationDocs.Node
import DeclarationDocs.Platform
import DeclarationDocs.Problem
import DeclarationDocs.Reference
import DeclarationDocs.Render.Context
import DeclarationDocs.Render.Linking
import DeclarationDocs.Render.Page
import DeclarationDocs.Render.Siblings
import DeclarationDocs.Run
import DeclarationDocs.Section
import DeclarationDocs.Store
import DeclarationDocs.Symbol
import DeclarationDocs.Text.Quoted
import DeclarationDocs.Text.Showable
import DeclarationDocs.Toml.Document
import DeclarationDocs.Toml.Scalar
import DeclarationDocs.Toml.Table
import DeclarationDocs.Toml.Text
import DeclarationDocs.Trait
import DeclarationDocs.Proofs.Render.Levels
import DeclarationDocs.Proofs.Render.FirstWarning
import DeclarationDocs.Proofs.Render.Reports
import DeclarationDocs.Proofs.Render.Layout
import DeclarationDocs.Proofs.Codecs.RoundTrip
import DeclarationDocs.Proofs.Store.Coherence
import DeclarationDocs.Proofs.Render.SiblingPages
import DeclarationDocs.Proofs.Render.SplitWork
import DeclarationDocs.Proofs.Render.Footprint
import DeclarationDocs.Proofs.Render.Provenance
import DeclarationDocs.Proofs.Render.Growth
import DeclarationDocs.Proofs.Render.InsertionOrder
import DeclarationDocs.Proofs.Render.EventLog
import DeclarationDocs.Proofs.Render.PlatformOrder
import DeclarationDocs.Proofs.Render.SiblingFilter
import DeclarationDocs.Proofs.Codecs.NodeSpellings
import DeclarationDocs.Proofs.Collector.FirstOccurrences
import DeclarationDocs.Proofs.Render.BuiltSymbols
import DeclarationDocs.Proofs.Store.Hydration
import DeclarationDocs.Proofs.Codecs.PositionalForms
import DeclarationDocs.Proofs.Render.Emptiness
import DeclarationDocs.Proofs.Codecs.ConfigOverlay
