import JavaOutline.Glob.Regex
import JavaOutline.Main
import JavaOutline.Proofs.Outline.RoundTrip
import JavaOutline.Proofs.Normalize.WellFormed
import JavaOutline.Proofs.Normalize.DepthWarning
import JavaOutline.Proofs.Normalize.Nesting
import JavaOutline.Proofs.Files.Sources
import JavaOutline.Proofs.Command.Leftovers
import JavaOutline.Proofs.Command.Keys
import JavaOutline.Proofs.Files.MakeDirs
import JavaOutline.Proofs.Outline.Variants
import JavaOutline.Proofs.Command.Inspect
import JavaOutline.Proofs.Files.Candidates
import JavaOutline.Proofs.Glob.Matching
import JavaOutline.Proofs.Glob.Pruning
import JavaOutline.Proofs.Glob.Notation
import JavaOutline.Proofs.Outline.Damage
import JavaOutline.Proofs.Normalize.Comments
import JavaOutline.Proofs.Command.Interrupted
import JavaOutline.Proofs.Marker
import JavaOutline.Proofs.Syntax.Errors
import JavaOutline.Proofs.Normalize.Flattening
import JavaOutline.Proofs.Outline.Envelope
import JavaOutline.Proofs.Normalize.Accounts
import JavaOutline.Proofs.Normalize.Chains
import JavaOutline.Proofs.Outline.Traversal
import JavaOutline.Proofs.Manifest.Saved
import JavaOutline.Proofs.Outline.Summary
import JavaOutline.Proofs.Manifest.Fingerprint
import JavaOutline.Proofs.Glob.Defaults
import JavaOutline.Proofs.Files.DefaultSources
