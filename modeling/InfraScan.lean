import InfraScan.Main
import InfraScan.Proofs.BlockContexts
import InfraScan.Proofs.Store
import InfraScan.Proofs.Enrichment
import InfraScan.Proofs.Suppression
import InfraScan.Proofs.Framework
import InfraScan.Proofs.FailureIsolation
import InfraScan.Proofs.KeyIsolation
import InfraScan.Proofs.Merge
import InfraScan.Proofs.Workers
import InfraScan.Proofs.Idempotence
import InfraScan.Proofs.Directive
import InfraScan.Proofs.StoreInvariant
import InfraScan.Proofs.Manifest
import InfraScan.Proofs.ManifestImages
import InfraScan.Proofs.GraphCalls
import InfraScan.Proofs.NullAttributes
import InfraScan.Proofs.SeparateScans
import InfraScan.Proofs.SourceRuns
import InfraScan.Proofs.MarkOrder
import InfraScan.Proofs.WrittenDirectives
import InfraScan.Proofs.DirectiveGrammar
import InfraScan.Proofs.BrokenBlocks
import InfraScan.Proofs.BlockIdentity
import InfraScan.Proofs.CallReports
import InfraScan.Proofs.BlockSlots
import InfraScan.Proofs.CategoryOrder
import InfraScan.Proofs.DocumentRanges
import InfraScan.Proofs.ManifestResources
import InfraScan.Proofs.JoinedManifests
import InfraScan.Proofs.ContainerImages
import InfraScan.Proofs.ResourceNames
import InfraScan.Proofs.AskedProviders
import InfraScan.Proofs.VertexNumbers
import InfraScan.Proofs.AddedVertices
import InfraScan.Proofs.SourceSlices
import InfraScan.Proofs.LineEnds
import InfraScan.Proofs.RenderedKeys
import InfraScan.Proofs.DumpForms
import InfraScan.Proofs.SettingsLayers
import InfraScan.Proofs.FolderScans
