import ComponentAtlas.Diagnostic.Build
import ComponentAtlas.Proofs.Component.Uncommented
import ComponentAtlas.Proofs.Document.Content
import ComponentAtlas.Proofs.Document.Written
import ComponentAtlas.Proofs.Extraction.Exported
import ComponentAtlas.Proofs.Scope.Loops
import ComponentAtlas.Proofs.Script.Settled
import ComponentAtlas.Proofs.Extraction.Batches
import ComponentAtlas.Proofs.Extraction.Shapes
import ComponentAtlas.Proofs.Record.MethodNames
import ComponentAtlas.Proofs.Record.Publications
import ComponentAtlas.Proofs.Component.Inclusion
import ComponentAtlas.Proofs.Component.Pruning
import ComponentAtlas.Proofs.Component.Returns
import ComponentAtlas.Proofs.Component.Wrapping
import ComponentAtlas.Proofs.Component.Transparency
import ComponentAtlas.Proofs.Component.Heritage
import ComponentAtlas.Proofs.Extraction.SyntaxErrors
import ComponentAtlas.Proofs.Digest.Standard
import ComponentAtlas.Proofs.ParseCache.Recency
import ComponentAtlas.Proofs.Settings.Options
import ComponentAtlas.Proofs.SourceTree.Walks
