import StoryEngine.Main
import StoryEngine.Contract.Plain
import StoryEngine.Event.Codec
import StoryEngine.Proofs.Context.History
import StoryEngine.Proofs.Demo.Purchase
import StoryEngine.Proofs.Event.Interleaving
import StoryEngine.Proofs.Presenter.Listing
import StoryEngine.Proofs.Presenter.Widths
import StoryEngine.Proofs.Run.Calls
import StoryEngine.Proofs.Run.Coverage
import StoryEngine.Proofs.Run.Extraction
import StoryEngine.Proofs.Run.Failing
import StoryEngine.Proofs.Run.Filter
import StoryEngine.Proofs.Run.Guarantee
import StoryEngine.Proofs.Run.Idle
import StoryEngine.Proofs.Run.Kinds
import StoryEngine.Proofs.Run.Provenance
import StoryEngine.Proofs.Run.Recording
import StoryEngine.Proofs.Run.Supply
import StoryEngine.Proofs.Run.Transparency
import StoryEngine.Proofs.Run.Unobserved
import StoryEngine.Proofs.Run.Visibility
import StoryEngine.Proofs.Story.Confinement
import StoryEngine.Proofs.Story.Faults
import StoryEngine.Proofs.Story.Fingerprint
import StoryEngine.Script
import StoryEngine.Story.Journal
import StoryEngine.Text.TypeName
import StoryEngine.Value.Reader
