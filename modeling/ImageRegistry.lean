import ImageRegistry.Blob.Sweeper
import ImageRegistry.Main
import ImageRegistry.Proofs.Blob.Ownership
import ImageRegistry.Proofs.Blob.Tiling
import ImageRegistry.Proofs.Blob.Upload
import ImageRegistry.Proofs.Ending
import ImageRegistry.Proofs.Files.Spare
import ImageRegistry.Proofs.Link.Path
import ImageRegistry.Proofs.Link.Spare
import ImageRegistry.Proofs.Manifest.Acceptance
import ImageRegistry.Proofs.Manifest.Closure
import ImageRegistry.Proofs.Registry.Answering
import ImageRegistry.Proofs.Registry.Flight
import ImageRegistry.Proofs.Registry.Isolation
import ImageRegistry.Proofs.Registry.Keeping
import ImageRegistry.Proofs.Registry.Links
import ImageRegistry.Proofs.Registry.Naming
import ImageRegistry.Proofs.Registry.Parts
import ImageRegistry.Proofs.Registry.Performing
import ImageRegistry.Proofs.Registry.Reading
import ImageRegistry.Proofs.Registry.Refusal
import ImageRegistry.Proofs.Registry.Request
import ImageRegistry.Proofs.Registry.Run
import ImageRegistry.Proofs.Resolver.Parts
import ImageRegistry.Registry.Router
import ImageRegistry.Remote.Canned
import ImageRegistry.Proofs.Registry.Grammar
import ImageRegistry.Proofs.Pairing
import ImageRegistry.Proofs.Registry.Outline
import ImageRegistry.Proofs.Storage.Run
import ImageRegistry.Proofs.Storage.Path
import ImageRegistry.Proofs.Storage.Encoding
import ImageRegistry.Proofs.Storage.Identity
import ImageRegistry.Proofs.Storage.Listing
import ImageRegistry.Proofs.Resolver.Published
import ImageRegistry.Proofs.Resolver.Chain
import ImageRegistry.Proofs.Resolver.Covering
import ImageRegistry.Proofs.Files.Lexical
import ImageRegistry.Proofs.Link.Memo
import ImageRegistry.Proofs.Link.Parts
import ImageRegistry.Proofs.Link.Confined
import ImageRegistry.Proofs.Files.Children
import ImageRegistry.Proofs.Files.Growth
import ImageRegistry.Proofs.Link.Keys
import ImageRegistry.Proofs.Link.Filed
import ImageRegistry.Proofs.Link.Restart
import ImageRegistry.Proofs.Link.Reading
import ImageRegistry.Proofs.Registry.Warming
import ImageRegistry.Proofs.Blob.Range
import ImageRegistry.Proofs.Registry.Resuming
import ImageRegistry.Proofs.Text.Form
import ImageRegistry.Proofs.Registry.Digging
import ImageRegistry.Proofs.Remote.Fragment
import ImageRegistry.Proofs.Storage.Address
import ImageRegistry.Proofs.Blob.Expiry
