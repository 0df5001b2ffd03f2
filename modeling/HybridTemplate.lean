import HybridTemplate.Json.Diagnostic
import HybridTemplate.Object.Scripted
import HybridTemplate.Persist.Options
import HybridTemplate.Persist.Precompiled
import HybridTemplate.Proofs.Access
import HybridTemplate.Proofs.Catalog
import HybridTemplate.Proofs.Expansion
import HybridTemplate.Render.Environment
import HybridTemplate.Render.Layers
import HybridTemplate.Source.Memory
import HybridTemplate.Proofs.Outline
import HybridTemplate.Proofs.Tracking
import HybridTemplate.Proofs.Hybrid
import HybridTemplate.Proofs.Meaning
import HybridTemplate.Proofs.RawStore
import HybridTemplate.Proofs.Replay
import HybridTemplate.Proofs.RoundTrip
import HybridTemplate.Proofs.Confined
import HybridTemplate.Proofs.Noninterference
import HybridTemplate.Proofs.Seams
import HybridTemplate.Proofs.Lowering
import HybridTemplate.Proofs.Interception
import HybridTemplate.Proofs.Delegates
import HybridTemplate.Proofs.Through
import HybridTemplate.Proofs.Layered
import HybridTemplate.Proofs.Stripped
import HybridTemplate.Proofs.Related
import HybridTemplate.Proofs.Watched
import HybridTemplate.Proofs.Disabled
import HybridTemplate.Proofs.Modes
import HybridTemplate.Proofs.Histories
import HybridTemplate.Proofs.Idempotence
import HybridTemplate.Proofs.Grammar
import HybridTemplate.Proofs.Persistence
import HybridTemplate.Proofs.Provenance
import HybridTemplate.Proofs.Residue
import HybridTemplate.Proofs.Emission
import HybridTemplate.Proofs.Concatenation
import HybridTemplate.Proofs.Brackets
import HybridTemplate.Proofs.Policies
import HybridTemplate.Proofs.Course
import HybridTemplate.Proofs.Limits
import HybridTemplate.Proofs.Mirror
import HybridTemplate.Proofs.Unlogged
import HybridTemplate.Proofs.Decoration
import HybridTemplate.Proofs.Indexing
import HybridTemplate.Proofs.Cursor
