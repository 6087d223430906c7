import PictureBuffer.Session
import PictureBuffer.Proofs.Custody
import PictureBuffer.Proofs.Derivations
import PictureBuffer.Proofs.FieldPairs
import PictureBuffer.Proofs.OwnField
import PictureBuffer.Proofs.Partners
import PictureBuffer.Proofs.Presentation
import PictureBuffer.Proofs.Commands
import PictureBuffer.Proofs.Soundness
import PictureBuffer.Proofs.Marks
import PictureBuffer.Proofs.Lookup
import PictureBuffer.Proofs.Subsets
import PictureBuffer.Proofs.Distinctness
import PictureBuffer.Proofs.ReferenceLists
import PictureBuffer.Proofs.SelfReference
import PictureBuffer.Proofs.Room
import PictureBuffer.Proofs.Renaming
import PictureBuffer.Proofs.RenamedDecoders
import PictureBuffer.Proofs.FailedStarts
import PictureBuffer.Proofs.Waiting
import PictureBuffer.Proofs.PresentationOrder
import PictureBuffer.Proofs.Sending
import PictureBuffer.Proofs.Courses
import PictureBuffer.Proofs.Untouched
import PictureBuffer.Proofs.Isolation
import PictureBuffer.Proofs.Settlement
import PictureBuffer.Proofs.AccessUnits
import PictureBuffer.Proofs.Delivery
import PictureBuffer.Proofs.Contents
import PictureBuffer.Proofs.Independence
import PictureBuffer.Proofs.Interleaving
import PictureBuffer.Proofs.UnitCount
import PictureBuffer.Proofs.ValidLists
import PictureBuffer.Proofs.Teardown
import PictureBuffer.Proofs.Budget
import PictureBuffer.Proofs.Slices
import PictureBuffer.Proofs.BlockLists
import PictureBuffer.Proofs.ReferenceCount
import PictureBuffer.Proofs.SecondFields
import PictureBuffer.Proofs.FailedPasses
import PictureBuffer.Proofs.PlaneSizes
import PictureBuffer.Proofs.WovenLines
import PictureBuffer.Proofs.Weaving
import PictureBuffer.Proofs.KeptLists
import PictureBuffer.Proofs.LastingLists
import PictureBuffer.Proofs.StandIns
import PictureBuffer.Proofs.Entries
import PictureBuffer.Proofs.SingleBuffer
import PictureBuffer.Proofs.Shortage
import PictureBuffer.Proofs.Unmarking
