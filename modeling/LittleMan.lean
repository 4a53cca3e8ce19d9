import LittleMan.Cursor.Walk
import LittleMan.Mode.Stock
import LittleMan.Session.Op
import LittleMan.Settings.Scopes
import LittleMan.Proofs.Apart
import LittleMan.Proofs.LastUnit
import LittleMan.Proofs.CurrentViews
import LittleMan.Proofs.ListingTokens
import LittleMan.Proofs.ReadBack
import LittleMan.Proofs.TabSizes
import LittleMan.Proofs.Bookkeeping
import LittleMan.Proofs.Holdings
import LittleMan.Proofs.Watching
import LittleMan.Proofs.Following
import LittleMan.Proofs.Announcing
import LittleMan.Proofs.Resuming
import LittleMan.Proofs.Tenancy
import LittleMan.Proofs.Waiting
import LittleMan.Proofs.Undoing
import LittleMan.Proofs.Independence
import LittleMan.Proofs.Guard
import LittleMan.Proofs.Labels
import LittleMan.Proofs.Respacing
import LittleMan.Proofs.CursorBounds
import LittleMan.Proofs.MarkupSafety
import LittleMan.Proofs.Locality
import LittleMan.Proofs.WrittenLines
import LittleMan.Proofs.LabelExtent
import LittleMan.Proofs.Casing
import LittleMan.Proofs.RuleOrder
import LittleMan.Proofs.Forgetting
import LittleMan.Proofs.TrailingBlanks
import LittleMan.Proofs.TokenShapes
import LittleMan.Proofs.Decorations
import LittleMan.Proofs.Nesting
import LittleMan.Proofs.FailedPasses
import LittleMan.Proofs.Teardown
